import DeclGen.Proofs.Decimal.Digits
import DeclGen.Proofs.Job.Outcome
import DeclGen.Proofs.Scenario.Golden
import DeclGen.Proofs.Scenario.Verdicts

/-!
# Runs of scenarios that were loaded

Loading a scenario checks its targets and the kinds of its assertions. A run of it, at any later
time, has no use for the failures that this rules out: it does not fail for an unknown target, and
it reports no assertion of an unknown kind. What it can fail for is the document, which may have
changed in the meantime.
-/

namespace DeclGen

section Codes

namespace RunFailure

/-- A failure for a target that is not known, met before the document is loaded or when a job is
created. -/
inductive IsUnknownLang : RunFailure → Prop
  | target (tag : String) : IsUnknownLang (.unknownLang tag)
  | job (tag : String) : IsUnknownLang (.job (.unknownLang tag))

variable {f : RunFailure}

theorem code_eq_unknownLang_iff : f.code = .unknownLang ↔ f.IsUnknownLang := by
  constructor
  · intro h
    cases f with
    | unknownLang tag => exact .target tag
    | load e => cases h
    | render v => cases h
    | job e =>
        cases e with
        | unknownLang tag => exact .job tag
        | invalidOption tag cause => cases h
        | invalidTree v => cases h
  · rintro (tag | tag)
    · rfl
    · rfl

end RunFailure

theorem FailureCode.tag_injective : Function.Injective FailureCode.tag := by
  intro c d h
  cases c <;> cases d <;> first | rfl | (revert h; decide)

/-- The kind of the failure that a run ended with, whether it was expected or not. -/
def Scenario.RunReport.failure? (r : Scenario.RunReport) : Option FailureCode :=
  match r.result with
  | .ok v => v.failure
  | .error f => some f.code

end Codes

section Messages

namespace Verdict

/-- The number and the message can be told from a numbered message. -/
theorem numbered_inj {i j : Nat} {m n : String} :
    numbered i m = numbered j n ↔ i = j ∧ m = n := by
  constructor
  · intro h
    have hlist := congrArg String.toList h
    simp only [numbered, String.toList_append, List.append_assoc] at hlist
    have hcut : (toString i).toList ++ ']' :: ':' :: ' ' :: m.toList =
        (toString j).toList ++ ']' :: ':' :: ' ' :: n.toList := List.append_cancel_left hlist
    obtain ⟨hij, hmessage⟩ := (Decimal.toString_append_inj (by decide)).mp hcut
    exact ⟨hij, String.toList_inj.mp (by simpa using hmessage)⟩
  · rintro ⟨rfl, rfl⟩
    rfl

end Verdict

/-- A message that some assertion is of an unknown kind. -/
def SaysUnknownKind (message : String) : Prop :=
  ∃ i rest, message = Verdict.numbered i ("unknown assertion type " ++ rest)

namespace Assertion

theorem failureMessage_ne (a : Assertion) (expected actual rest : String) :
    a.failureMessage expected actual ≠ "unknown assertion type " ++ rest := by
  intro h
  -- The definition is opened as a term: its unfolding equation takes too long to be derived.
  delta failureMessage at h
  have hhead := congrArg (fun m : String => m.toList.head?) h
  simp at hhead

variable {a : Assertion} (hkind : ∀ tag, a.kind ≠ .other tag)
include hkind

theorem textShortfall?_ne_unknownKind (hfailure : a.kind ≠ .failure) (t : Text) :
    a.textShortfall? t ≠ some .unknownKind := by
  rw [textShortfall?]
  cases h : a.kind with
  | contains =>
      simp only
      split <;> simp
  | excludes => simp
  | order =>
      simp only [orderShortfall?]
      split
      · simp
      · split <;> simp
      · simp
  | failure => exact absurd h hfailure
  | other tag => exact absurd h (hkind tag)

theorem shortfall?_ne_unknownKind (hfailure : a.kind ≠ .failure) (outputs : List Output) :
    a.shortfall? outputs ≠ some .unknownKind := by
  rw [shortfall?]
  split
  · simp
  · exact textShortfall?_ne_unknownKind hkind hfailure _

/-- Nothing that is wrong with an assertion of a known kind is told as an unknown kind. -/
theorem not_saysUnknownKind_of_complaint? {outcome : Except RunFailure (List Output)} {i : Nat}
    {complaint : String} (h : a.complaint? outcome = some complaint) :
    ¬ SaysUnknownKind (Verdict.numbered i complaint) := by
  rintro ⟨j, rest, hsays⟩
  obtain ⟨-, rfl⟩ := Verdict.numbered_inj.mp hsays
  cases outcome with
  | error f =>
      rw [complaint?, failureComplaint?] at h
      split at h
      · next hfailure =>
        have htext := Option.some.inj h
        cases hk : a.kind with
        | contains => simp [AssertionKind.tag, hk, String.ext_iff] at htext
        | excludes => simp [AssertionKind.tag, hk, String.ext_iff] at htext
        | order => simp [AssertionKind.tag, hk, String.ext_iff] at htext
        | failure => exact hfailure hk
        | other tag => exact absurd hk (hkind tag)
      · split at h
        · have htext := Option.some.inj h
          simp [String.ext_iff] at htext
        · cases h
  | ok outputs =>
      rw [complaint?, outputComplaint?] at h
      split at h
      · have htext := Option.some.inj h
        simp [String.ext_iff] at htext
      · next hfailure =>
          obtain ⟨shortfall, hs, htext⟩ := Option.map_eq_some_iff.mp h
          have hne : shortfall ≠ .unknownKind := by
            rintro rfl
            exact shortfall?_ne_unknownKind hkind hfailure outputs hs
          cases shortfall with
          | unknownKind => exact hne rfl
          | _ => exact failureMessage_ne a _ _ rest htext

end Assertion

end Messages

namespace Assertion

section Faults

/-- An assertion without a fault is of a known kind. -/
theorem kind_ne_other_of_fault? {a : Assertion} (h : a.fault? = none) (tag : String) :
    a.kind ≠ .other tag := by
  intro hk
  rw [fault?, hk] at h
  revert h
  split <;> simp_all

theorem firstFault?_eq_none_iff {as : List Assertion} {i : Nat} :
    firstFault? i as = none ↔ ∀ a ∈ as, a.fault? = none := by
  induction as generalizing i with
  | nil => simp [firstFault?]
  | cons a rest ih =>
      rw [firstFault?, List.forall_mem_cons]
      cases a.fault? with
      | some f => simp
      | none => simp [ih]

end Faults

end Assertion

namespace Scenario

section Loading

theorem unknownLang?_eq_none_iff {tags : List String} {i : Nat} :
    unknownLang? i tags = none ↔ ∀ tag ∈ tags, ∃ l, Lang.parse? tag = some l := by
  induction tags generalizing i with
  | nil => simp [unknownLang?]
  | cons tag rest ih =>
      rw [unknownLang?, List.forall_mem_cons]
      cases Lang.parse? tag with
      | none => simp
      | some l => simp [ih]

/-- Tags that each name a target name a list of targets. -/
theorem exists_langsOf {tags : List String} (h : ∀ tag ∈ tags, ∃ l, Lang.parse? tag = some l) :
    ∃ langs, langsOf tags = .ok langs := by
  induction tags with
  | nil => exact ⟨[], rfl⟩
  | cons tag rest ih =>
      obtain ⟨⟨l, hl⟩, hrest⟩ := List.forall_mem_cons.mp h
      obtain ⟨langs, hlangs⟩ := ih hrest
      exact ⟨l :: langs, by rw [langsOf, hl, hlangs]; rfl⟩

/-- What loading a scenario checks about it once and for all, whatever happens to its document. -/
structure IsSound (s : Scenario) : Prop where
  langs : ∀ tag ∈ s.langs.getD [], ∃ l, Lang.parse? tag = some l
  kinds : ∀ a ∈ s.assertions, ∀ tag, a.kind ≠ .other tag

variable {fs : Files} {path : String} {s : Scenario}

theorem isSound_of_load (h : load fs path = .ok s) : s.IsSound := by
  obtain ⟨t, raw, -, -, -, hfault⟩ := load_eq_ok_iff.mp h
  obtain ⟨-, -, -, -, hlangs, -, hassertions⟩ := fault?_eq_none_iff.mp hfault
  exact {
    langs := unknownLang?_eq_none_iff.mp hlangs
    kinds := fun a ha =>
      Assertion.kind_ne_other_of_fault? (Assertion.firstFault?_eq_none_iff.mp hassertions a ha) }

theorem IsSound.exists_targets (h : s.IsSound) : ∃ langs, s.targets = .ok langs := by
  rw [targets]
  split
  · exact ⟨Lang.all, rfl⟩
  · exact exists_langsOf h.langs

end Loading

section Failing

/-- Targets that are known can only be refused for the options or for the tree. -/
theorem code_of_render {c : Content} {langs : List Lang} {f : RunFailure}
    (h : (render c langs).2 = .error f) : f.code = .invalidOption ∨ f.code = .invalidTree := by
  induction langs with
  | nil => cases h
  | cons l rest ih =>
      rw [render] at h
      split at h
      · next e hcreate =>
          cases h
          rw [Job.create_eq, Job.chosenDialect, Option.none_or, Lang.ofTag?_tag] at hcreate
          simp only [Option.map_some] at hcreate
          split at hcreate
          · cases hcreate
            exact .inl rfl
          · split at hcreate
            · cases hcreate
              exact .inr rfl
            · cases hcreate
      · split at h
        · cases h
          exact .inr rfl
        · have hmap : (render c rest).2.map _ = .error f := h
          cases hrest : (render c rest).2 with
          | ok outputs =>
              rw [hrest] at hmap
              cases hmap
          | error g =>
              rw [hrest] at hmap
              cases hmap
              exact ih hrest

variable {s : Scenario} (hs : s.IsSound) (fs : Files)
include hs

/-- A sound scenario fails because its document is not loaded, or because the loaded content is
refused. -/
theorem IsSound.failure_cases {f : RunFailure} (h : (s.outcome fs).2.2 = .error f) :
    (∃ e, (Document.load fs s.document).2 = .error e ∧ f = .load e) ∨
      (∃ c, (Document.load fs s.document).2 = .ok c) ∧
        (f.code = .invalidOption ∨ f.code = .invalidTree) := by
  obtain ⟨langs, hlangs⟩ := hs.exists_targets
  simp only [outcome, hlangs] at h
  split at h
  · next e hload =>
      cases h
      exact .inl ⟨e, by rw [hload], rfl⟩
  · next c hload => exact .inr ⟨⟨c, by rw [hload]⟩, code_of_render h⟩

theorem IsSound.outcome_of_load_error {e : LoadError}
    (h : (Document.load fs s.document).2 = .error e) : (s.outcome fs).2.2 = .error (.load e) := by
  obtain ⟨langs, hlangs⟩ := hs.exists_targets
  simp only [outcome, hlangs]
  split
  · next g hload =>
      rw [hload] at h
      cases h
      rfl
  · next c hload =>
      rw [hload] at h
      cases h

end Failing

section Reporting

theorem failure_check (complaint? : Assertion → Option String) (v : Verdict) (i : Nat)
    (as : List Assertion) : (v.check complaint? i as).failure = v.failure := by
  induction as generalizing v i with
  | nil => rfl
  | cons a rest ih =>
      rw [Verdict.check]
      split
      · exact ih v (i + 1)
      · exact ih _ (i + 1)

/-- A run ends with the kind of failure of its outcome, whether that was expected or not. -/
theorem failure?_run (fs : Files) (s : Scenario) :
    (s.run fs).failure? =
      match (s.outcome fs).2.2 with
      | .ok _ => none
      | .error f => some f.code := by
  have hresult : (s.run fs).result = s.verdict (s.outcome fs).2.2 := rfl
  rw [RunReport.failure?, hresult]
  cases (s.outcome fs).2.2 with
  | ok outputs => simp [verdict, failure_check]
  | error f => cases h : s.expectsFailure <;> simp [verdict, h, failure_check]

/-- A sound scenario does not end with the failure for an unknown target. -/
theorem IsSound.failure?_ne_unknownLang {s : Scenario} (hs : s.IsSound) (fs : Files) :
    (s.run fs).failure? ≠ some .unknownLang := by
  rw [failure?_run]
  cases hout : (s.outcome fs).2.2 with
  | ok outputs => simp
  | error f =>
      rcases hs.failure_cases fs hout with ⟨e, -, rfl⟩ | ⟨-, hc | hc⟩
      · simp [RunFailure.code]
      · simp [hc]
      · simp [hc]

/-- A sound scenario ends with a failure to load exactly when its document is not loaded. -/
theorem IsSound.failure?_eq_load_iff {s : Scenario} (hs : s.IsSound) (fs : Files) :
    (s.run fs).failure? = some .load ↔ ∃ e, (Document.load fs s.document).2 = .error e := by
  rw [failure?_run]
  constructor
  · intro h
    cases hout : (s.outcome fs).2.2 with
    | ok outputs =>
        rw [hout] at h
        cases h
    | error f =>
        rw [hout] at h
        have hf : f.code = .load := Option.some.inj h
        rcases hs.failure_cases fs hout with ⟨e, hdoc, -⟩ | ⟨-, hc | hc⟩
        · exact ⟨e, hdoc⟩
        · rw [hc] at hf
          cases hf
        · rw [hc] at hf
          cases hf
  · rintro ⟨e, hdoc⟩
    rw [hs.outcome_of_load_error fs hdoc]
    rfl

/-- A run of a sound scenario reports no assertion of an unknown kind. -/
theorem IsSound.not_saysUnknownKind {s : Scenario} (hs : s.IsSound)
    {outcome : Except RunFailure (List Output)} {v : Verdict} (hv : s.verdict outcome = .ok v) :
    ∀ message ∈ v.errors, ¬ SaysUnknownKind message := by
  intro message hm
  rw [errors_of_verdict hv] at hm
  obtain ⟨p, hp, hcomplaint⟩ := List.mem_filterMap.mp hm
  obtain ⟨complaint, hc, rfl⟩ := Option.map_eq_some_iff.mp hcomplaint
  have hmem : p.1 ∈ s.assertions := List.fst_mem_of_mem_zipIdx hp
  exact Assertion.not_saysUnknownKind_of_complaint? (hs.kinds p.1 hmem) hc

/-- An assertion that asks for another failure than the one a run ended with is not met, and one
that asks for a failure is not met by a run that succeeded. -/
theorem pass_eq_false_of_asked {fs : Files} {s : Scenario} {a : Assertion} {code : FailureCode}
    (ha : a ∈ s.assertions) (hkind : a.kind = .failure) (hcode : a.code = code.tag)
    (hne : (s.run fs).failure? ≠ some code) {v : Verdict} (hv : (s.run fs).result = .ok v) :
    v.pass = false := by
  rw [failure?_run] at hne
  by_contra hpass
  rw [Bool.not_eq_false] at hpass
  have hmet := (pass_iff_of_verdict (fun outputs h => consistent_of_outcome h) hv).mp hpass a ha
  cases hout : (s.outcome fs).2.2 with
  | ok outputs =>
      rw [hout] at hmet
      exact hmet.1 hkind
  | error f =>
      rw [hout] at hmet hne
      have htag : code.tag = f.code.tag := hcode.symm.trans hmet.2
      exact hne (congrArg some (FailureCode.tag_injective htag.symm))

end Reporting

/-- Loading a scenario makes failures for unknown targets unreachable, whatever the store holds when
the scenario is run. No run of it fails for an unknown target or ends with that kind of failure, and
none reports an assertion of an unknown kind. A run ends with a failure to load exactly when its
document is not loaded. So no run passes if an assertion asks for the failure of an unknown
target. -/
theorem loaded_run_never_unknownLang {fs : Files} {path : String} {s : Scenario}
    (hload : load fs path = .ok s) (now : Files) :
    (s.run now).failure? ≠ some .unknownLang ∧
    (∀ f, (s.outcome now).2.2 = .error f ∨ (s.run now).result = .error f → ¬ f.IsUnknownLang) ∧
    (∀ v, (s.run now).result = .ok v → ∀ message ∈ v.errors, ¬ SaysUnknownKind message) ∧
    ((s.run now).failure? = some .load ↔ ∃ e, (Document.load now s.document).2 = .error e) ∧
    ((∃ a ∈ s.assertions, a.kind = .failure ∧ a.code = FailureCode.unknownLang.tag) →
      ∀ v, (s.run now).result = .ok v → v.pass = false) := by
  have hs := isSound_of_load hload
  have hcode := hs.failure?_ne_unknownLang now
  refine ⟨hcode, ?_, ?_, hs.failure?_eq_load_iff now, ?_⟩
  · intro f hf hunknown
    have hout : (s.outcome now).2.2 = .error f :=
      hf.elim id fun h => (verdict_eq_error_iff.mp h).1
    rw [failure?_run, hout] at hcode
    exact hcode (congrArg some (RunFailure.code_eq_unknownLang_iff.mpr hunknown))
  · intro v hv
    exact hs.not_saysUnknownKind hv
  · rintro ⟨a, ha, hkind, hasked⟩ v hv
    exact pass_eq_false_of_asked ha hkind hasked hcode hv

section Unasked

/-- A scenario file that asks for the failure of an unknown target, and its document. -/
def askingUnknown : Files :=
  ⟨[(["d.json"], .file (.ofString "\x7b\x7d")),
    (["s.yaml"], .file (.ofString
      ("name: n\ndescription: d\ndocument: d.json\n"
        ++ "assertions:\n- type: error\n  code: unknown_lang\n")))]⟩

/-- The scenario in that file. -/
def unknownAsked : Scenario where
  name := "n"
  description := "d"
  document := "d.json"
  assertions := [{ kind := .failure, code := "unknown_lang" }]
  file := some "s.yaml"

/-- It can be loaded. Without its document it then fails to load that, and does not pass. -/
theorem unknownAsked_fails :
    load askingUnknown "s.yaml" = .ok unknownAsked ∧
      (unknownAsked.run ⟨[]⟩).failure? = some .load ∧
      ∀ v, (unknownAsked.run ⟨[]⟩).result = .ok v → v.pass = false := by
  have hload : load askingUnknown "s.yaml" = .ok unknownAsked := by decide +kernel
  obtain ⟨-, -, -, hdocument, hasked⟩ := loaded_run_never_unknownLang hload ⟨[]⟩
  refine ⟨hload, hdocument.mpr ⟨.notFound "d.json", ?_⟩, hasked ?_⟩
  · have hformat : DocumentFormat.ofPath? "d.json" = some .json := by decide +kernel
    rw [unknownAsked, Document.load, hformat]
    rfl
  · decide

end Unasked

end Scenario

end DeclGen
