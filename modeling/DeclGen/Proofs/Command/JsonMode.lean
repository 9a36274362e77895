import DeclGen.Command.Run
import DeclGen.Proofs.Command.OutputFiles
import DeclGen.Proofs.Command.Payloads
import DeclGen.Proofs.Command.ShownTrees
import DeclGen.Proofs.Command.SuiteRuns

/-!
# Commands with JSON reports

With JSON reports the standard output of a command is one answer and nothing else. The answer is a
success exactly when the exit code is zero. The other exit codes tell two kinds of endings apart: a
command that has found something wrong with what it was given to check, and a command that was
stopped. There are two exceptions. A tree with too many levels is not shown, and then nothing is
printed at all. A document that is loaded but cannot be checked against the schema stops the
command, whatever problems it has.

## Implementation notes

A document is read twice when it is validated, and the two readers do not refuse the same texts: a
document may go on after its first value when it is loaded, but not when it is checked. So a problem
of a document (`Validate.HasProblem`) and what the command finds out about it are told apart.
-/

namespace DeclGen

/-- An ending with an answer on the standard output: the answer is a success exactly when the exit
code is zero, the exit code is one exactly when something is wrong, and it is two otherwise. -/
structure Ending.Answers (e : Ending) (wrong : Prop) : Prop where
  answer : ∃ x : Response, x.IsIn e.out ∧ (x.isOk = true ↔ exitCode e.error = 0)
  one_iff : exitCode e.error = 1 ↔ wrong
  two : exitCode e.error ≠ 0 → ¬ wrong → exitCode e.error = 2

namespace Ending.Answers

variable {files : Files} {out : Text} {notes : List Note} {warnings : List Record}

theorem success {data : Option Json} (h : (Response.success data).IsIn out) :
    (Ending.reported files (.ok out) none notes warnings).Answers False where
  answer := ⟨_, h, by simp [Response.isOk, Ending.reported, exitCode]⟩
  one_iff := by simp [Ending.reported, exitCode]
  two h := absurd rfl h

theorem failed {code message text : String} {details : Option Json}
    (h : (Response.failure code message details).IsIn out) :
    (Ending.reported files (.ok out) (some (.exit { code := 1, message := text })) notes
      warnings).Answers True where
  answer := ⟨_, h, by simp [Response.isOk, Ending.reported, exitCode, CommandError.code]⟩
  one_iff := by simp [Ending.reported, exitCode, CommandError.code]
  two _ h := absurd trivial h

theorem stopped {r : Reporting} (hr : r.format = .json) (files : Files) (f : Failure)
    (notes : List Note) (warnings : List Record) :
    (Ending.stopped r files f notes warnings).Answers False where
  answer := ⟨_, Response.isIn_errorText hr f.code f.message (n := 0) Json.fitsIn_null (by decide),
    by simp [Response.isOk, Ending.stopped, exitCode]⟩
  one_iff := by simp [Ending.stopped, exitCode]
  two _ _ := by simp [Ending.stopped, exitCode]

/-- A payload of a few levels is a success. -/
theorem of_success {r : Reporting} (hr : r.format = .json) {data : Json} {n : Nat}
    (h : data.FitsIn n) (hn : n < Json.maxDepth) (files : Files) (notes : List Note)
    (warnings : List Record) :
    (Ending.reported files (r.success data) none notes warnings).Answers False := by
  obtain ⟨out, hout⟩ := Response.exists_success r h hn
  rw [hout]
  exact success (Response.isIn_success hr h.1 hout)

end Ending.Answers

/-- A document that can be loaded has a problem: it breaks the schema, or its items or its
configurations are wrong. -/
def Validate.HasProblem (path : String) (fs : Files) : Prop :=
  ∃ c, (Document.load fs path).2 = .ok c ∧
    ((∃ issues, Document.lintFile fs path = .ok issues ∧ issues ≠ []) ∨ complaints c ≠ [])

namespace Command

/-- What a command is to check is wrong: a document has a problem, or a scenario fails. -/
def IsWrong (fs : Files) : Command → Prop
  | validate path => Validate.HasProblem path fs
  | test o => ∃ x ∈ Suite.results o fs, x.pass = false
  | generate _ | inspect _ _ | langs | schema => False

/-- The document that a command is to validate can be loaded, but it cannot be checked against the
schema. -/
def IsUncheckable (fs : Files) (e : LintError) : Command → Prop
  | validate path => (∃ c, (Document.load fs path).2 = .ok c) ∧ Document.lintFile fs path = .error e
  | generate _ | inspect _ _ | langs | test _ | schema => False

/-- The tree that a command is to show has too many levels. -/
def IsTooDeep (fs : Files) : Command → Prop
  | inspect lang path =>
    ∃ f, Inspect.shown? lang path fs = some f ∧ Json.maxDepth < Inspect.levels f
  | generate _ | validate _ | langs | test _ | schema => False

/-- Whether a command goes on after its first answer. -/
def isWatching : Command → Bool
  | generate o => o.watch
  | _ => false

variable {r : Reporting} (hr : r.format = .json) (fs : Files)
include hr

theorem answers_generate (o : GenerateOptions) (token : String) (hwatch : o.watch = false) :
    (Generate.run r o token fs).1.Answers False := by
  have hstart : (Generate.run r o token fs).1 = (Generate.start r o token fs).1 := by
    rw [Generate.run]
    split <;> simp_all
  rw [hstart, Generate.start, hwatch, Bool.false_and, if_neg Bool.false_ne_true]
  split
  · exact .stopped hr fs _ [] []
  · simp only
    split
    · exact .stopped hr _ _ _ _
    · next gs _ =>
        have hreport : Generate.report r gs =
            r.success (.object [("outputs", .array (gs.map Generate.resultJson))]) := by
          simp only [Generate.report, hr]
        rw [hreport]
        exact .of_success hr (Generate.fitsIn_outputs gs) (by decide) _ _ _

/-- The answer about a document that was checked. -/
theorem answers_found (c : Content) (found : List Complaint) (notes : List Note)
    (warnings : List Record) :
    (Ending.reported fs (Validate.report r c found) (Validate.error? found) notes
      warnings).Answers (found ≠ []) := by
  have hfits := Validate.fitsIn_resultJson c found
  cases found with
  | nil =>
      have hreport : Validate.report r c [] = r.success (Validate.resultJson c []) := by
        rw [Validate.report.eq_def, hr]
      simp only [hreport, ne_eq, not_true_eq_false]
      exact .of_success hr hfits (by decide) fs notes warnings
  | cons i more =>
      have hreport : Validate.report r c (i :: more) =
          .ok (r.errorText i.code i.message (Validate.resultJson c (i :: more))) := by
        rw [Validate.report.eq_def, hr]
      simp only [hreport, ne_eq, reduceCtorEq, not_false_eq_true]
      exact .failed (Response.isIn_errorText hr i.code i.message hfits (by decide))

theorem answers_validate {path : String} (h : ∀ e, ¬ (validate path).IsUncheckable fs e) :
    (Validate.run r path fs).Answers ((validate path).IsWrong fs) := by
  rw [IsWrong, Validate.HasProblem, Validate.run, Document.load_eq rfl]
  cases hc : (Document.load fs path).2 with
  | error e => simpa using Ending.Answers.stopped hr fs (.load e) [] _
  | ok c =>
      cases hissues : Document.lintFile fs path with
      | error e => exact absurd ⟨⟨c, hc⟩, hissues⟩ (h e)
      | ok issues =>
          have hanswers := answers_found hr fs c
            (issues.map Validate.ofIssue ++ Validate.complaints c)
            (c.loadedNote path :: Validate.notes c) (Document.load fs path).1
          simpa [imp_iff_not_or] using hanswers

theorem stopped_of_isUncheckable {path : String} {e : LintError}
    (h : (validate path).IsUncheckable fs e) :
    (Validate.run r path fs).Answers False ∧
      (Validate.run r path fs).error = some (Failure.lint e).exit := by
  obtain ⟨⟨c, hc⟩, he⟩ := h
  rw [Validate.run, Document.load_eq hc]
  simp only [he]
  exact ⟨.stopped hr fs _ _ _, rfl⟩

theorem answers_inspect {lang path : String} (h : ¬ (inspect lang path).IsTooDeep fs) :
    (Inspect.run r lang path fs).Answers False := by
  cases hshown : Inspect.shown? lang path fs with
  | none =>
      obtain ⟨f, notes, warnings, hrun⟩ := Inspect.run_of_shown?_eq_none (r := r) hshown
      rw [hrun]
      exact .stopped hr fs f notes warnings
  | some f =>
      have hlevels : Inspect.levels f ≤ Json.maxDepth :=
        Nat.le_of_not_lt fun hdeep => h ⟨f, hshown, hdeep⟩
      obtain ⟨before, notes, warnings, hb, hrun⟩ := Inspect.run_of_shown? hr hshown
      rw [hrun]
      exact .of_success hr (Inspect.fitsIn_itemsObject hb f) hlevels fs notes warnings

theorem answers_test (o : SuiteOptions) :
    (Suite.run r o fs).Answers ((test o).IsWrong fs) := by
  cases hfiles : Suite.files o fs with
  | error f =>
      have hnone : ¬ (test o).IsWrong fs := by
        simp [IsWrong, Suite.results, hfiles]
      rw [eq_false hnone, Suite.run]
      split
      · exact .stopped hr fs _ [] []
      · rw [hfiles]
        exact .stopped hr fs _ [] []
  | ok paths =>
      have hanswer := Suite.answer_isIn_report hr (Suite.out_run r hfiles)
      have herror := (Suite.run_eq r hfiles).2
      have hwrong : (test o).IsWrong fs ↔
          ¬ Suite.failed (Suite.runFiles o fs paths).2.2.2 = 0 := by
        simp [IsWrong, Suite.results_eq hfiles, Suite.failed_eq_zero_iff]
      rw [propext hwrong]
      by_cases hzero : Suite.failed (Suite.runFiles o fs paths).2.2.2 = 0
      · rw [Suite.answer, if_pos hzero] at hanswer
        have hcode : exitCode (Suite.run r o fs).error = 0 := by
          rw [herror, Suite.exitCode_error?, if_pos hzero]
        exact ⟨⟨_, hanswer, by simp [Response.isOk, hcode]⟩, by simp [hcode, hzero],
          fun hne => absurd hcode hne⟩
      · rw [Suite.answer, if_neg hzero] at hanswer
        have hcode : exitCode (Suite.run r o fs).error = 1 := by
          rw [herror, Suite.exitCode_error?, if_neg hzero]
        exact ⟨⟨_, hanswer, by simp [Response.isOk, hcode]⟩, by simp [hcode, hzero],
          fun _ hfine => absurd hzero hfine⟩

/-- With JSON reports each command that does not go on answers once, unless its document cannot be
checked or its tree has too many levels. -/
theorem answers_run (token : String) {c : Command} (hwatch : c.isWatching = false)
    (hchecked : ∀ e, ¬ c.IsUncheckable fs e) (hlevels : ¬ c.IsTooDeep fs) :
    (c.run r token fs).1.Answers (c.IsWrong fs) := by
  cases c with
  | generate o => exact answers_generate hr fs o token hwatch
  | validate path => exact answers_validate hr fs hchecked
  | inspect lang path => exact answers_inspect hr fs hlevels
  | langs =>
      have hreport : Listing.langs r = r.success (.array (Lang.all.map Listing.langJson)) := by
        simp only [Listing.langs, hr]
      rw [run, hreport]
      exact .of_success hr Listing.fitsIn_langs (by decide) fs [] []
  | test o => exact answers_test hr fs o
  | schema =>
      have hreport : Listing.schema r = r.success Schema.json := by
        simp only [Listing.schema, hr]
      rw [run, hreport]
      exact .of_success hr Schema.fitsIn_json (by decide) fs [] []

end Command

/-- JSON reports can be read by a program. Whatever the store holds, a command line that is
understood, asks for JSON and does not go on watching prints exactly one answer. It is a success
exactly when the exit code is zero; the exit code is one exactly when a document that can be loaded
has a problem or a scenario fails, and two for every other failure. There are two exceptions: a
document that can be loaded but not checked against the schema stops the command, and for a tree
with too many levels nothing is printed and the exit code is one. -/
theorem perform_answers (token : String) (fs : Files) {args : List String} {r : Reporting}
    {c : Command} (hargs : Request.parse args = .ok (.command r c)) (hjson : r.format = .json)
    (hwatch : c.isWatching = false) :
    ((∀ e, ¬ c.IsUncheckable fs e) → ¬ c.IsTooDeep fs →
      (perform token fs args).ending.Answers (c.IsWrong fs)) ∧
    (∀ e, c.IsUncheckable fs e → (perform token fs args).ending.Answers False ∧
      (perform token fs args).ending.error = some (Failure.lint e).exit) ∧
    (c.IsTooDeep fs → (perform token fs args).ending.out = [] ∧
      (∃ bracket, (perform token fs args).ending.error = some (Reporting.tooDeep bracket)) ∧
      exitCode (perform token fs args).ending.error = 1) := by
  have hending : (perform token fs args).ending = (c.run r token fs).1 := by
    rw [perform, hargs]
  rw [hending]
  refine ⟨Command.answers_run hjson fs token hwatch, fun e he => ?_, fun hdeep => ?_⟩
  · cases c with
    | validate path => exact Command.stopped_of_isUncheckable hjson fs he
    | _ => exact he.elim
  · cases c with
    | inspect lang path =>
        obtain ⟨f, hshown, hlevels⟩ := hdeep
        obtain ⟨hout, bracket, herror⟩ := (Inspect.shows_run hjson hshown).tooDeep hlevels
        rw [Command.run]
        exact ⟨hout, ⟨bracket, herror⟩, congrArg exitCode herror⟩
    | _ => exact hdeep.elim

section Misplaced

/-- A document with an item in a place where it may not stand, and a text behind the document. -/
def misplacedItem (after : String) : Files :=
  ⟨[(["d.json"], .file (.ofString
      ("\x7b\"items\":[\x7b\"kind\":\"enum\",\"children\":[\x7b\"kind\":\"func\"\x7d]\x7d]\x7d"
        ++ after)))]⟩

theorem hasProblem_misplacedItem {after : String}
    (h : ((Document.load (misplacedItem after) "d.json").2.toOption.map
      fun c => (Validate.complaints c).isEmpty) = some false) :
    (Command.validate "d.json").IsWrong (misplacedItem after) := by
  obtain ⟨c, hc, hne⟩ := Option.map_eq_some_iff.mp h
  refine ⟨c, eq_ok_of_toOption hc, .inr fun hnil => ?_⟩
  rw [hnil] at hne
  cases hne

/-- With nothing behind it, the document is found wrong, and the answer says so. -/
theorem misplacedItem_answered :
    (perform "" (misplacedItem "") ["validate", "--format", "json", "d.json"]).ending.Answers
        ((Command.validate "d.json").IsWrong (misplacedItem "")) ∧
      exitCode (perform "" (misplacedItem "")
        ["validate", "--format", "json", "d.json"]).ending.error = 1 := by
  have hargs : Request.parse ["validate", "--format", "json", "d.json"] =
      .ok (.command { format := .json } (.validate "d.json")) := by
    decide +kernel
  have hchecked : (Document.lintFile (misplacedItem "") "d.json").toOption.isSome = true := by
    decide +kernel
  have hanswers := (perform_answers "" (misplacedItem "") hargs rfl rfl).1
    (fun e he => by rw [he.2] at hchecked; cases hchecked) id
  exact ⟨hanswers, hanswers.one_iff.mpr (hasProblem_misplacedItem (by decide +kernel))⟩

/-- With a word behind it, the document is still loaded and has its problem, but the command is
stopped. And of items that stand too far inside each other nothing is printed. So not every ending
is told by its exit code, nor is there always an answer. -/
theorem not_every_path_answers :
    ¬ (perform "" (misplacedItem " x") ["validate", "--format", "json", "d.json"]).ending.Answers
        ((Command.validate "d.json").IsWrong (misplacedItem " x")) ∧
      ¬ (perform "" (Document.nestedItemFiles 4998)
        ["inspect", "--format", "json", "d.json"]).ending.Answers
          ((Command.inspect "" "d.json").IsWrong (Document.nestedItemFiles 4998)) := by
  constructor
  · intro hanswers
    have hcode : exitCode (perform "" (misplacedItem " x")
        ["validate", "--format", "json", "d.json"]).ending.error = 2 := by
      decide +kernel
    rw [hanswers.one_iff.mpr (hasProblem_misplacedItem (by decide +kernel))] at hcode
    cases hcode
  · rintro ⟨⟨x, ⟨s, hs, -⟩, -⟩, -, -⟩
    have hargs : Request.parse ["inspect", "--format", "json", "d.json"] =
        .ok (.command { format := .json } (.inspect "" "d.json")) := by
      decide +kernel
    have hending : (perform "" (Document.nestedItemFiles 4998)
        ["inspect", "--format", "json", "d.json"]).ending =
          Inspect.run { format := .json } "" "d.json" (Document.nestedItemFiles 4998) := by
      rw [perform, hargs]
      rfl
    rw [hending, Inspect.out_run_nestedItemFiles rfl (by decide) (by decide)] at hs
    cases hs

end Misplaced

end DeclGen
