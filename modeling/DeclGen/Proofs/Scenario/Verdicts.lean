import DeclGen.Proofs.Text.Search
import DeclGen.Scenario.Run
import Mathlib.Data.List.Forall2

/-!
# What verdicts mean

A run checks the assertions of a scenario on its outputs, or on the failure that it ended with. The
meaning of an assertion is stated here without the search that checks it, and a verdict is shown to
report the assertions that are not met.

## Implementation notes

A target may be named more than once, by different spellings. Its outputs are then equal, since an
output depends on nothing but the document and the target, so it does not matter on which of them an
assertion is checked.
-/

namespace DeclGen

open Text

namespace Assertion

section Texts

/-- What an assertion says about the text of its target. -/
def HoldsOn (a : Assertion) (t : Text) : Prop :=
  match a.kind with
  | .contains => ofString a.text <:+: t
  | .excludes => ¬ ofString a.text <:+: t
  | .order => InOrder ((a.lines.getD []).map ofString) t
  | .failure | .other _ => False

/-- Looking for lines one by one finds them all exactly when they occur in order. -/
theorem firstMissing?_eq_none_iff (lines : List String) :
    ∀ (previous : Option String) (t : Text),
      firstMissing? previous lines t = none ↔ InOrder (lines.map ofString) t := by
  induction lines with
  | nil =>
      intro previous t
      simp [firstMissing?, InOrder]
  | cons line more ih =>
      intro previous t
      rw [List.map_cons, inOrder_cons_iff, firstMissing?]
      cases hfind : find? (ofString line) t with
      | none => simp
      | some i => simp [ih]

theorem orderShortfall?_eq_none_iff {lines : List String} {t : Text} :
    orderShortfall? lines t = none ↔ InOrder (lines.map ofString) t := by
  rw [← firstMissing?_eq_none_iff lines none t, orderShortfall?]
  split
  · next h => simp [h]
  · next h =>
      rw [h]
      split <;> simp
  · next h => simp [h]

theorem textShortfall?_eq_none_iff {a : Assertion} {t : Text} :
    a.textShortfall? t = none ↔ a.HoldsOn t := by
  rw [textShortfall?, HoldsOn]
  cases a.kind with
  | contains => simp [← hasPart_iff]
  | excludes => rw [Option.map_eq_none_iff, find?_eq_none_iff]
  | order => exact orderShortfall?_eq_none_iff
  | failure => simp
  | other tag => simp

instance (a : Assertion) (t : Text) : Decidable (a.HoldsOn t) :=
  decidable_of_iff _ textShortfall?_eq_none_iff

end Texts

section Outputs

/-- An assertion holds on outputs if its target is among them and has a text on which it holds. -/
def Holds (outputs : List Output) (a : Assertion) : Prop :=
  ∃ o ∈ outputs, Lang.parse? a.lang = some o.lang ∧ a.HoldsOn o.text

instance (outputs : List Output) (a : Assertion) : Decidable (a.Holds outputs) :=
  List.decidableBEx _ outputs

/-- Outputs for the same target have the same text. -/
def Consistent (outputs : List Output) : Prop :=
  ∀ o ∈ outputs, ∀ p ∈ outputs, o.lang = p.lang → o.text = p.text

/-- The first output for a target stands for all of them. -/
theorem shortfall?_eq_none_iff {outputs : List Output} (hout : Consistent outputs)
    {a : Assertion} : a.shortfall? outputs = none ↔ a.Holds outputs := by
  rw [shortfall?]
  cases ho : a.output? outputs with
  | none =>
      simp only [reduceCtorEq, false_iff]
      rintro ⟨o, hmem, hlang, -⟩
      rw [output?, hlang] at ho
      have hnone := List.find?_eq_none.mp ho o hmem
      simp at hnone
  | some o =>
      obtain ⟨l, hl, hfind⟩ := Option.bind_eq_some_iff.mp ho
      have hmem : o ∈ outputs := List.mem_of_find?_eq_some hfind
      have hlang : o.lang = l := by simpa using List.find?_some hfind
      simp only [textShortfall?_eq_none_iff]
      constructor
      · intro h
        exact ⟨o, hmem, hlang ▸ hl, h⟩
      · rintro ⟨p, hp, hparse, h⟩
        have hsame : o.lang = p.lang := by
          rw [hlang]
          exact Option.some.inj (hl.symm.trans hparse)
        rwa [hout o hmem p hp hsame]

end Outputs

section Outcomes

variable (outcome : Except RunFailure (List Output)) (a : Assertion)

/-- An assertion is met by an outcome: it asks for outputs and holds on them, or it asks for the
failure that there is. -/
def Meets : Prop :=
  match outcome with
  | .ok outputs => a.kind ≠ .failure ∧ a.Holds outputs
  | .error f => a.kind = .failure ∧ a.code = f.code.tag

instance : Decidable (a.Meets outcome) :=
  match outcome with
  | .ok _ => inferInstanceAs (Decidable (_ ∧ _))
  | .error _ => inferInstanceAs (Decidable (_ ∧ _))

/-- What is wrong with an assertion, given an outcome. -/
def complaint? : Option String :=
  match outcome with
  | .ok outputs => a.outputComplaint? outputs
  | .error f => a.failureComplaint? f

/-- A message about the assertion with some number. -/
def Reported (p : Assertion × Nat) (message : String) : Prop :=
  ∃ complaint, p.1.complaint? outcome = some complaint ∧
    message = Verdict.numbered p.2 complaint

variable {outcome a}

/-- There is something wrong with exactly those assertions that are not met. -/
theorem complaint?_eq_none_iff (hout : ∀ outputs, outcome = .ok outputs → Consistent outputs) :
    a.complaint? outcome = none ↔ a.Meets outcome := by
  cases outcome with
  | ok outputs =>
      rw [complaint?, Meets, outputComplaint?, ← shortfall?_eq_none_iff (hout outputs rfl)]
      cases a.kind <;> simp
  | error f =>
      rw [complaint?, Meets, failureComplaint?]
      split
      · next hkind => simp [hkind]
      · next hkind => simp [not_not.mp hkind]

end Outcomes

end Assertion

namespace Verdict

section Steps

/-- A verdict passes exactly when it has no messages. -/
def Candid (v : Verdict) : Prop := v.pass = true ↔ v.errors = []

theorem candid_addError (v : Verdict) (message : String) : (v.addError message).Candid := by
  simp [Candid, addError]

variable (complaint? : Assertion → Option String)

theorem Candid.check {v : Verdict} (hv : v.Candid) (i : Nat) (as : List Assertion) :
    (v.check complaint? i as).Candid := by
  induction as generalizing v i with
  | nil => exact hv
  | cons a rest ih =>
      rw [Verdict.check]
      split
      · exact ih hv (i + 1)
      · exact ih (candid_addError v _) (i + 1)

/-- The messages of a check stand behind those from before, each with the number of its
assertion. -/
theorem errors_check (v : Verdict) (i : Nat) (as : List Assertion) :
    (v.check complaint? i as).errors =
      v.errors ++ (as.zipIdx i).filterMap fun p => (complaint? p.1).map (numbered p.2) := by
  induction as generalizing v i with
  | nil => simp [Verdict.check]
  | cons a rest ih =>
      rw [Verdict.check, List.zipIdx_cons, List.filterMap_cons]
      cases complaint? a with
      | none => exact ih v (i + 1)
      | some message =>
          simp only [Option.map_some]
          rw [ih, addError, List.append_assoc, List.singleton_append]

theorem outputs_check (v : Verdict) (i : Nat) (as : List Assertion) :
    (v.check complaint? i as).outputs = v.outputs := by
  induction as generalizing v i with
  | nil => rfl
  | cons a rest ih =>
      rw [Verdict.check]
      split
      · exact ih v (i + 1)
      · exact ih _ (i + 1)

end Steps

end Verdict

/-- One message for each element that fails a test, in their order. -/
theorem forall₂_filterMap {α β : Type} {p : α → Prop} [DecidablePred p] {g : α → Option β}
    (h : ∀ x, g x = none ↔ p x) (xs : List α) :
    List.Forall₂ (fun x y => g x = some y) (xs.filter fun x => ¬ p x) (xs.filterMap g) := by
  induction xs with
  | nil => exact .nil
  | cons x rest ih =>
      rw [List.filterMap_cons]
      cases hg : g x with
      | none =>
          have hp : p x := (h x).mp hg
          rw [List.filter_cons_of_neg (by simp [hp])]
          exact ih
      | some y =>
          have hp : ¬ p x := by
            intro hx
            rw [(h x).mpr hx] at hg
            cases hg
          rw [List.filter_cons_of_pos (by simp [hp])]
          exact .cons hg ih

namespace Scenario

section Outcomes

/-- The first target is rendered, and then the others. -/
theorem render_cons_eq_ok {c : Content} {l : Lang} {rest : List Lang} {outputs : List Output}
    (h : (render c (l :: rest)).2 = .ok outputs) :
    ∃ job t others, Job.create l.tag (c.config l) c.items = .ok job ∧ job.text = .ok t ∧
      (render c rest).2 = .ok others ∧ outputs = ⟨l, t⟩ :: others := by
  rw [render] at h
  split at h
  · cases h
  · next job hjob =>
      split at h
      · cases h
      · next t ht =>
          have hmap : (render c rest).2.map (⟨l, t⟩ :: ·) = .ok outputs := h
          cases hrest : (render c rest).2 with
          | error f =>
              rw [hrest] at hmap
              cases hmap
          | ok others =>
              rw [hrest] at hmap
              exact ⟨job, t, others, hjob, ht, rfl, (Except.ok.inj hmap).symm⟩

/-- Rendering gives an output for each of the targets, which depends on the target alone. -/
theorem render_eq_ok {c : Content} {langs : List Lang} {outputs : List Output}
    (h : (render c langs).2 = .ok outputs) :
    outputs.map (·.lang) = langs ∧
      ∀ o ∈ outputs, ∃ job, Job.create o.lang.tag (c.config o.lang) c.items = .ok job ∧
        job.text = .ok o.text := by
  induction langs generalizing outputs with
  | nil =>
      cases h
      simp
  | cons l rest ih =>
      obtain ⟨job, t, others, hjob, ht, hrest, rfl⟩ := render_cons_eq_ok h
      obtain ⟨hlangs, htexts⟩ := ih hrest
      constructor
      · rw [List.map_cons, hlangs]
      · intro o ho
        rcases List.mem_cons.mp ho with rfl | ho
        · exact ⟨job, hjob, ht⟩
        · exact htexts o ho

variable {fs : Files} {s : Scenario} {outputs : List Output}

/-- A successful outcome comes from rendering for all targets. -/
theorem exists_render_of_outcome (h : (s.outcome fs).2.2 = .ok outputs) :
    ∃ c langs, s.targets = .ok langs ∧ (render c langs).2 = .ok outputs := by
  rw [outcome] at h
  split at h
  · cases h
  · next langs htargets =>
      split at h
      · cases h
      · next c _ => exact ⟨c, langs, htargets, h⟩

theorem consistent_of_outcome (h : (s.outcome fs).2.2 = .ok outputs) :
    Assertion.Consistent outputs := by
  obtain ⟨c, langs, -, hrender⟩ := exists_render_of_outcome h
  intro o ho p hp hlang
  obtain ⟨job, hjob, ht⟩ := (render_eq_ok hrender).2 o ho
  obtain ⟨job', hjob', ht'⟩ := (render_eq_ok hrender).2 p hp
  rw [hlang, hjob'] at hjob
  cases hjob
  exact Except.ok.inj (ht.symm.trans ht')

end Outcomes

section Verdicts

variable {s : Scenario} {outcome : Except RunFailure (List Output)}

theorem expectsFailure_eq_false_iff :
    s.expectsFailure = false ↔ ∀ a ∈ s.assertions, a.kind ≠ .failure := by
  simp [expectsFailure]

/-- A failure is an error exactly when no assertion asks for one. -/
theorem verdict_eq_error_iff {f : RunFailure} :
    s.verdict outcome = .error f ↔
      outcome = .error f ∧ ∀ a ∈ s.assertions, a.kind ≠ .failure := by
  rw [← expectsFailure_eq_false_iff]
  cases outcome with
  | ok outputs => simp [verdict]
  | error g => cases h : s.expectsFailure <;> simp [verdict, h]

variable {v : Verdict}

/-- A verdict is what checking all assertions finds, beginning with no messages. -/
theorem exists_check_of_verdict (h : s.verdict outcome = .ok v) :
    ∃ start : Verdict, start.Candid ∧ start.errors = [] ∧
      v = start.check (·.complaint? outcome) 0 s.assertions := by
  cases outcome with
  | ok outputs =>
      cases h
      exact ⟨{ outputs }, by simp [Verdict.Candid], rfl, rfl⟩
  | error f =>
      rw [verdict] at h
      split at h
      · cases h
        exact ⟨{ failure := some f.code }, by simp [Verdict.Candid], rfl, rfl⟩
      · cases h

theorem candid_of_verdict (h : s.verdict outcome = .ok v) : v.Candid := by
  obtain ⟨start, hstart, -, rfl⟩ := exists_check_of_verdict h
  exact hstart.check _ 0 s.assertions

theorem errors_of_verdict (h : s.verdict outcome = .ok v) :
    v.errors = s.assertions.zipIdx.filterMap fun p =>
      (p.1.complaint? outcome).map (Verdict.numbered p.2) := by
  obtain ⟨start, -, hnil, rfl⟩ := exists_check_of_verdict h
  rw [Verdict.errors_check, hnil, List.nil_append]

/-- A verdict has the outputs that there are. -/
theorem outputs_of_verdict (h : s.verdict outcome = .ok v) :
    outcome = .ok v.outputs ∨ v.outputs = [] := by
  cases outcome with
  | ok outputs =>
      cases h
      rw [Verdict.outputs_check]
      exact .inl rfl
  | error f =>
      rw [verdict] at h
      split at h
      · cases h
        rw [Verdict.outputs_check]
        exact .inr rfl
      · cases h

theorem consistent_of_run {fs : Files} (h : (s.run fs).result = .ok v) :
    Assertion.Consistent v.outputs := by
  rcases outputs_of_verdict h with houtcome | hnil
  · exact consistent_of_outcome houtcome
  · rw [hnil]
    nofun

variable (hout : ∀ outputs, outcome = .ok outputs → Assertion.Consistent outputs)
include hout

/-- A verdict has one message for each assertion that is not met, in the order of the
assertions. -/
theorem reported_of_verdict (h : s.verdict outcome = .ok v) :
    List.Forall₂ (Assertion.Reported outcome)
      (s.assertions.zipIdx.filter fun p => ¬ p.1.Meets outcome) v.errors := by
  have hfails (p : Assertion × Nat) :
      (p.1.complaint? outcome).map (Verdict.numbered p.2) = none ↔ p.1.Meets outcome := by
    rw [Option.map_eq_none_iff]
    exact Assertion.complaint?_eq_none_iff hout
  rw [errors_of_verdict h]
  refine (forall₂_filterMap hfails s.assertions.zipIdx).imp fun p message hp => ?_
  obtain ⟨complaint, hc, hm⟩ := Option.map_eq_some_iff.mp hp
  exact ⟨complaint, hc, hm.symm⟩

theorem pass_iff_of_verdict (h : s.verdict outcome = .ok v) :
    v.pass = true ↔ ∀ a ∈ s.assertions, a.Meets outcome := by
  have hcandid : v.pass = true ↔ v.errors = [] := candid_of_verdict h
  rw [hcandid, errors_of_verdict h, List.filterMap_eq_nil_iff]
  simp only [Option.map_eq_none_iff, Assertion.complaint?_eq_none_iff hout]
  have hfst := List.zipIdx_map_fst 0 s.assertions
  conv_rhs => rw [← hfst, List.forall_mem_map]

end Verdicts

/-- Verdicts mean what they say. Rendering gives an output for each of the targets or fails, and a
run returns an error exactly when it fails and no assertion asks for a failure. Any other verdict
passes exactly when there are outputs, no assertion asks for a failure and all hold on the outputs
of their targets, or there is a failure and all assertions ask for it. It passes exactly when it has
no messages, and it has one message for each assertion that is not met, in their order. -/
theorem run_verdict_means (fs : Files) (s : Scenario) :
    (∀ outputs, (s.outcome fs).2.2 = .ok outputs → s.targets = .ok (outputs.map (·.lang))) ∧
    ((∃ f, (s.run fs).result = .error f) ↔
      (∃ f, (s.outcome fs).2.2 = .error f) ∧ ∀ a ∈ s.assertions, a.kind ≠ .failure) ∧
    ∀ v, (s.run fs).result = .ok v →
      (v.pass = true ↔
        (∃ outputs, (s.outcome fs).2.2 = .ok outputs ∧
          ∀ a ∈ s.assertions, a.kind ≠ .failure ∧ a.Holds outputs) ∨
        ∃ f, (s.outcome fs).2.2 = .error f ∧
          ∀ a ∈ s.assertions, a.kind = .failure ∧ a.code = f.code.tag) ∧
      (v.pass = true ↔ v.errors = []) ∧
      List.Forall₂ (Assertion.Reported (s.outcome fs).2.2)
        (s.assertions.zipIdx.filter fun p => ¬ p.1.Meets (s.outcome fs).2.2) v.errors := by
  have hresult : (s.run fs).result = s.verdict (s.outcome fs).2.2 := rfl
  have hout : ∀ outputs, (s.outcome fs).2.2 = .ok outputs → Assertion.Consistent outputs :=
    fun outputs h => consistent_of_outcome h
  rw [hresult]
  refine ⟨?_, ?_, ?_⟩
  · intro outputs h
    obtain ⟨c, langs, htargets, hrender⟩ := exists_render_of_outcome h
    rw [(render_eq_ok hrender).1, htargets]
  · simp only [verdict_eq_error_iff, exists_and_right]
  · intro v hv
    refine ⟨?_, candid_of_verdict hv, reported_of_verdict hout hv⟩
    rw [pass_iff_of_verdict hout hv]
    cases (s.outcome fs).2.2 with
    | ok outputs => simp [Assertion.Meets]
    | error f => simp [Assertion.Meets]

/-- A store with one document. -/
def oneDocument : Files :=
  ⟨[(["d.json"], .file (.ofString
      "\x7b\"items\": [\x7b\"kind\": \"var\", \"name\": \"a\", \"type\": \"int\"\x7d]\x7d"))]⟩

/-- A scenario that names a target twice. Its first assertion is met; the second is about a target
that is not rendered, and the third about a failure. -/
def mixedScenario : Scenario where
  document := "d.json"
  langs := some ["C++", "cpp"]
  assertions := [{ kind := .order, lang := "c", lines := some ["int", "a"] },
    { kind := .contains, lang := "rust", text := "a" }, { kind := .failure, code := "load" }]

theorem mixedScenario_verdict :
    ∃ v, (mixedScenario.run oneDocument).result = .ok v ∧ v.errors.length = 2 ∧ ¬ v.pass = true ∧
      List.Forall₂ (Assertion.Reported (mixedScenario.outcome oneDocument).2.2)
        (mixedScenario.assertions.zipIdx.filter fun p =>
          ¬ p.1.Meets (mixedScenario.outcome oneDocument).2.2) v.errors := by
  have hlength : (mixedScenario.run oneDocument).result.toOption.map (·.errors.length) =
      some 2 := by
    decide +kernel
  obtain ⟨-, -, hmeans⟩ := run_verdict_means oneDocument mixedScenario
  cases hv : (mixedScenario.run oneDocument).result with
  | error f =>
      rw [hv] at hlength
      cases hlength
  | ok v =>
      rw [hv] at hlength
      have htwo : v.errors.length = 2 := Option.some.inj hlength
      obtain ⟨-, hcandid, hreported⟩ := hmeans v hv
      refine ⟨v, rfl, htwo, fun hpass => ?_, hreported⟩
      rw [hcandid.mp hpass] at htwo
      cases htwo

end Scenario

end DeclGen
