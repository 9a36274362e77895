import DeclGen.Document.Loading
import DeclGen.Job
import DeclGen.Scenario.Check

/-!
# Running scenarios

A run loads the document of a scenario, renders it for every target, and checks the assertions on
the outputs. A run that fails is an error, unless the scenario expects a failure; then the failure
is what its assertions are checked against.
-/

namespace DeclGen

/-- Why a run fails. -/
inductive RunFailure where
  | unknownLang (tag : String)
  | load (error : LoadError)
  | job (error : JobError)
  | render (violation : Violation)
  deriving DecidableEq, Repr, Inhabited

namespace RunFailure

/-- The kind of a failure. -/
def code : RunFailure → FailureCode
  | unknownLang _ => .unknownLang
  | load _ => .load
  | job (.unknownLang _) => .unknownLang
  | job (.invalidOption _ _) => .invalidOption
  | job (.invalidTree _) | render _ => .invalidTree

/-- The message of a failure. -/
def message : RunFailure → String
  | unknownLang tag => unknownLangMessage tag
  | load e => e.message
  | job e => e.message
  | render v => v.message

end RunFailure

namespace Assertion

/-- What is wrong with an assertion, given the outputs of a run. A run with outputs did not fail, so
no assertion about a failure holds. -/
def outputComplaint? (outputs : List Output) (a : Assertion) : Option String :=
  match a.kind with
  | .failure => some ("expected failure " ++ quote a.code ++ ", but the run succeeded")
  | _ => (a.shortfall? outputs).map a.shortfallMessage

/-- What is wrong with an assertion, given the failure of a run. -/
def failureComplaint? (f : RunFailure) (a : Assertion) : Option String :=
  if a.kind ≠ .failure then some (a.kind.tag ++ " not checked, the run failed: " ++ f.message)
  else if a.code ≠ f.code.tag then
    some ("expected failure " ++ quote a.code ++ ", got " ++ quote f.code.tag ++ ": " ++ f.message)
  else none

end Assertion

/-- What a run found. -/
structure Verdict where
  /-- Whether a run found nothing wrong. -/
  pass : Bool := true
  outputs : List Output := []
  /-- The kind of an expected failure. -/
  failure : Option FailureCode := none
  /-- The messages of the assertions that do not hold, in the order of the assertions. -/
  errors : List String := []
  deriving DecidableEq, Repr, Inhabited

namespace Verdict

/-- A verdict with one more message. -/
def addError (v : Verdict) (message : String) : Verdict :=
  { v with pass := false, errors := v.errors ++ [message] }

/-- The message of an assertion with its number. -/
def numbered (i : Nat) (message : String) : String :=
  "assertions[" ++ toString i ++ "]: " ++ message

/-- The assertions are checked one after the other, the first of them with number `i`. -/
def check (complaint? : Assertion → Option String) (v : Verdict) (i : Nat) :
    List Assertion → Verdict
  | [] => v
  | a :: rest =>
    match complaint? a with
    | none => check complaint? v (i + 1) rest
    | some message => check complaint? (v.addError (numbered i message)) (i + 1) rest

end Verdict

namespace Scenario

/-- The targets with some tags, or the first tag that names none. -/
def langsOf : List String → Except RunFailure (List Lang)
  | [] => .ok []
  | tag :: rest =>
    match Lang.parse? tag with
    | none => .error (.unknownLang tag)
    | some l => do return l :: (← langsOf rest)

/-- The targets of a scenario; without a choice these are all targets. -/
def targets (s : Scenario) : Except RunFailure (List Lang) :=
  match s.langs.getD [] with
  | [] => .ok Lang.all
  | tags => langsOf tags

/-- The outputs for some targets, with the records of the jobs created on the way. -/
def render (c : Content) : List Lang → List Record × Except RunFailure (List Output)
  | [] => ([], .ok [])
  | l :: rest =>
    match Job.create l.tag (c.config l) c.items with
    | .error e => ([], .error (.job e))
    | .ok job =>
      match job.text with
      | .error v => ([job.createdRecord], .error (.render v))
      | .ok text =>
        let (records, result) := render c rest
        (job.createdRecord :: records, result.map (⟨l, text⟩ :: ·))

/-- The outputs of a scenario's document, with the records of loading it and of the jobs. -/
def outcome (fs : Files) (s : Scenario) :
    List Record × List Record × Except RunFailure (List Output) :=
  match s.targets with
  | .error f => ([], [], .error f)
  | .ok langs =>
    match Document.load fs s.document with
    | (warnings, .error e) => (warnings, [], .error (.load e))
    | (warnings, .ok c) => (warnings, render c langs)

/-- What an outcome means for a scenario. -/
def verdict (s : Scenario) : Except RunFailure (List Output) → Except RunFailure Verdict
  | .ok outputs => .ok (Verdict.check (·.outputComplaint? outputs) { outputs } 0 s.assertions)
  | .error f =>
    if s.expectsFailure then
      .ok (Verdict.check (·.failureComplaint? f) { failure := some f.code } 0 s.assertions)
    else .error f

/-- The record of a failure that was expected. -/
def expectedRecord (s : Scenario) (f : RunFailure) : Record where
  level := .debug
  message := "scenario failed as expected"
  fields := [("scenario", s.name), ("code", f.code.tag), ("error", f.message)]

/-- The message of a run that failed although no failure was expected. -/
def runMessage (s : Scenario) (f : RunFailure) : String :=
  "scenario " ++ s.name ++ ": " ++ f.message

/-- What a run of a scenario leaves behind: records about the document, records of the run, and the
verdict. -/
structure RunReport where
  warnings : List Record
  records : List Record
  result : Except RunFailure Verdict

/-- A run of a scenario. -/
def run (fs : Files) (s : Scenario) : RunReport :=
  let (warnings, records, outcome) := s.outcome fs
  let records := match outcome with
    | .error f => if s.expectsFailure then records ++ [s.expectedRecord f] else records
    | .ok _ => records
  { warnings, records, result := s.verdict outcome }

end Scenario

end DeclGen
