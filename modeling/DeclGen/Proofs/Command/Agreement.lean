import DeclGen.Proofs.Command.Generation

/-!
# Validating and generating agree

A document is checked in two ways. Validating it collects the problems of its forest and of all its
configurations; generating from it asks, target by target, for the options first and for the forest
then, and stops at the first problem. Both find a problem in the same documents, and what stops a
generation is among what validating reports.
-/

namespace DeclGen

namespace Validate

/-- Nothing is reported about a document whose forest is in order and whose options are accepted for
every target, whether it configures the target or not. -/
theorem complaints_eq_nil_iff (c : Content) :
    complaints c = [] ↔
      c.items.validate = none ∧ ∀ l, ∃ format, Config.format (c.config l) = .ok format := by
  have htree : treeComplaints c.items = [] ↔ c.items.validate = none := by
    rw [treeComplaints]
    cases c.items.validate <;> simp
  have hoption (l : Lang) :
      optionComplaints c l = [] ↔ ∃ format, Config.format (c.config l) = .ok format := by
    rw [optionComplaints]
    cases Config.format (c.config l) <;> simp
  rw [complaints, List.append_eq_nil_iff, htree, List.flatMap_eq_nil_iff]
  refine and_congr_right fun _ => ⟨fun h l => ?_, fun h l _ => (hoption l).mpr (h l)⟩
  cases hc : c.config l with
  | none => exact ⟨{}, rfl⟩
  | some config =>
      rw [← hc]
      refine (hoption l).mp (h l ?_)
      rw [configured, List.mem_filter, hc]
      exact ⟨by cases l <;> decide, rfl⟩

/-- What stops a target is reported, under the same code. -/
theorem exists_complaint_of_textFor {c : Content} {l : Lang} {f : Failure}
    (h : c.textFor l = .error f) : ∃ i ∈ complaints c, i.code = f.code := by
  rcases c.textFor_cases l with ⟨e, he, hf⟩ | ⟨_, _, ⟨v, hv, hf⟩ | ⟨_, t, ht⟩⟩
  · rw [h] at hf
    cases hf
    refine ⟨{ code := "E202", message := e.message, lang := some l }, ?_, rfl⟩
    refine List.mem_append_right _ (List.mem_flatMap.mpr ⟨l, ?_, ?_⟩)
    · rw [configured, List.mem_filter]
      refine ⟨by cases l <;> decide, ?_⟩
      cases hc : c.config l with
      | none =>
          rw [hc] at he
          cases he
      | some config => rfl
    · simp [optionComplaints, he]
  · rw [h] at hf
    cases hf
    refine ⟨{ code := "E201", message := v.message, path := v.place }, ?_, rfl⟩
    refine List.mem_append_left _ ?_
    simp [treeComplaints, hv]
  · rw [h] at ht
    cases ht

/-- A document about which nothing is reported has a text for every target. -/
theorem exists_text_of_complaints {c : Content} (h : complaints c = []) (l : Lang) :
    ∃ t, c.textFor l = .ok t := by
  cases ht : c.textFor l with
  | ok t => exact ⟨t, rfl⟩
  | error f =>
      obtain ⟨i, hi, _⟩ := exists_complaint_of_textFor ht
      rw [h] at hi
      cases hi

/-- The command ends well only for a document that loads and about which nothing is reported. -/
theorem content_of_exitCode {r : Reporting} {path : String} {fs : Files}
    (h : exitCode (run r path fs).error = 0) :
    ∃ c, (Document.load fs path).2 = .ok c ∧ complaints c = [] := by
  rw [run] at h
  generalize Document.load fs path = loading at h ⊢
  obtain ⟨warnings, loaded⟩ := loading
  cases loaded with
  | error e => cases h
  | ok c =>
      refine ⟨c, rfl, ?_⟩
      dsimp only at h
      cases hlint : Document.lintFile fs path with
      | error e =>
          rw [hlint] at h
          cases h
      | ok issues =>
          obtain ⟨out, hout⟩ := exists_report r c (issues.map ofIssue ++ complaints c)
          rw [hlint] at h
          simp only [hout, Ending.reported, error?] at h
          split at h
          · next hempty =>
              rw [List.isEmpty_iff, List.append_eq_nil_iff] at hempty
              exact hempty.2
          · cases h

end Validate

namespace Generate

/-- Some targets are found when every tag names one. -/
theorem exists_resolve {tags : List String} (h : ∀ tag ∈ tags, (Lang.parse? tag).isSome) :
    ∃ langs, Lang.resolve tags = .ok langs := by
  have hgo : ∀ found, ∃ langs, Lang.resolve.go found tags = .ok langs := by
    induction tags with
    | nil => exact fun found => ⟨found, rfl⟩
    | cons tag rest ih =>
        intro found
        obtain ⟨l, hl⟩ := Option.isSome_iff_exists.mp (h tag (by simp))
        rw [Lang.resolve.go, hl]
        exact ih (fun t ht => h t (by simp [ht])) _
  cases tags with
  | nil => exact ⟨Lang.all, rfl⟩
  | cons tag rest => exact hgo []

variable {o : GenerateOptions} (token : String)

/-- A document about which nothing is reported is printed for any targets. -/
theorem exists_once_of_complaints (hd : o.directory = "") {fs : Files} {c : Content}
    (hload : (Document.load fs o.document).2 = .ok c) (h : Validate.complaints c = [])
    (langs : List Lang) : ∃ gs, (once o token langs fs).result = .ok gs := by
  exact ⟨_, once_of_textFor hd token hload fun l _ => Validate.exists_text_of_complaints h l⟩

/-- Validating a document that loads reports nothing exactly if all targets can be printed, and what
stops printing some targets is reported under the same code. So when validating ends well, printing
ends well too, for any tags of targets. -/
theorem validate_agrees_with_generate (o : GenerateOptions) (hd : o.directory = "") (token : String)
    (fs : Files) :
    (∀ c, (Document.load fs o.document).2 = .ok c →
      (Validate.complaints c = [] ↔ ∃ gs, (once o token Lang.all fs).result = .ok gs) ∧
        ∀ langs f, (once o token langs fs).result = .error f →
          ∃ i ∈ Validate.complaints c, i.code = f.code) ∧
    ∀ r r', o.watch = false → (∀ tag ∈ o.langs, (Lang.parse? tag).isSome) →
      exitCode (Validate.run r o.document fs).error = 0 →
        exitCode (run r' o token fs).1.error = 0 := by
  constructor
  · intro c hload
    have hreported (langs : List Lang) (f : Failure)
        (hf : (once o token langs fs).result = .error f) :
        ∃ i ∈ Validate.complaints c, i.code = f.code := by
      rw [(once_printed hd token hload langs).2] at hf
      obtain ⟨l, -, hl⟩ := exists_of_mapM_eq_error hf
      apply Validate.exists_complaint_of_textFor (l := l)
      rw [printed] at hl
      cases ht : c.textFor l with
      | ok t =>
          rw [ht] at hl
          cases hl
      | error f' =>
          rw [ht] at hl
          cases hl
          rfl
    refine ⟨⟨fun h => exists_once_of_complaints token hd hload h Lang.all, ?_⟩, hreported⟩
    rintro ⟨gs, hgs⟩
    rw [(once_printed hd token hload Lang.all).2] at hgs
    -- No target is stopped, so neither the forest nor any options can be at fault.
    have htext (l : Lang) : ∃ t, c.textFor l = .ok t := by
      cases ht : c.textFor l with
      | ok t => exact ⟨t, rfl⟩
      | error f =>
          have hp : printed c l = .error f := by
            rw [printed, ht]
            rfl
          exact absurd hgs (mapM_ne_ok_of_mem (by cases l <;> decide) hp gs)
    rw [Validate.complaints_eq_nil_iff]
    refine ⟨?_, fun l => ?_⟩
    · obtain ⟨t, ht⟩ := htext .cpp
      rcases c.textFor_cases .cpp with ⟨e, _, hf⟩ | ⟨_, _, ⟨v, _, hf⟩ | ⟨hv, _⟩⟩
      · rw [ht] at hf
        cases hf
      · rw [ht] at hf
        cases hf
      · exact hv
    · obtain ⟨t, ht⟩ := htext l
      rcases c.textFor_cases l with ⟨e, _, hf⟩ | ⟨format, hformat, _⟩
      · rw [ht] at hf
        cases hf
      · exact ⟨format, hformat⟩
  · intro r r' hw htags hexit
    obtain ⟨c, hload, hc⟩ := Validate.content_of_exitCode hexit
    obtain ⟨langs, hl⟩ := exists_resolve htags
    obtain ⟨gs, hgs⟩ := exists_once_of_complaints token hd hload hc langs
    rw [(run_of_once hw r' hl hgs).2.1]
    rfl

/-- A document with options that one target refuses, and one that is in order. -/
def twoDocuments : Files :=
  ⟨[(["bad.json"], .file (.ofString
      "\x7b\"configs\": \x7b\"rust\": \x7b\"global\": \x7b\"num_tabs\": 300\x7d\x7d\x7d\x7d")),
    (["good.json"], .file (.ofString
      "\x7b\"items\": [\x7b\"kind\": \"var\", \"name\": \"a\", \"type\": \"int\"\x7d]\x7d"))]⟩

theorem twoDocuments_agree :
    (∃ c, (Document.load twoDocuments "bad.json").2 = .ok c ∧ Validate.complaints c ≠ [] ∧
      ∃ f, (once { document := "bad.json" } "t" [.rust] twoDocuments).result = .error f ∧
        ∃ i ∈ Validate.complaints c, i.code = f.code) ∧
    exitCode (Validate.run {} "good.json" twoDocuments).error = 0 ∧
      exitCode (run {} { document := "good.json", langs := ["C++", " rs "] } "t"
        twoDocuments).1.error = 0 := by
  constructor
  · have hload : (Document.load twoDocuments "bad.json").2.toOption.isSome = true := by
      decide +kernel
    have hall : (once { document := "bad.json" } "t" Lang.all twoDocuments).result.toOption =
        none := by
      decide +kernel
    have hrust : (once { document := "bad.json" } "t" [.rust] twoDocuments).result.toOption =
        none := by
      decide +kernel
    cases hc : (Document.load twoDocuments "bad.json").2 with
    | error e =>
        rw [hc] at hload
        cases hload
    | ok c =>
        obtain ⟨hiff, hcode⟩ :=
          (validate_agrees_with_generate { document := "bad.json" } rfl "t" twoDocuments).1 c hc
        refine ⟨c, rfl, fun hnil => ?_, ?_⟩
        · obtain ⟨gs, hgs⟩ := hiff.mp hnil
          rw [hgs] at hall
          cases hall
        · cases hf : (once { document := "bad.json" } "t" [.rust] twoDocuments).result with
          | ok gs =>
              rw [hf] at hrust
              cases hrust
          | error f => exact ⟨f, rfl, hcode [.rust] f hf⟩
  · have hvalid : exitCode (Validate.run {} "good.json" twoDocuments).error = 0 := by
      decide +kernel
    refine ⟨hvalid, ?_⟩
    exact (validate_agrees_with_generate { document := "good.json", langs := ["C++", " rs "] } rfl
      "t" twoDocuments).2 {} {} rfl (by decide +kernel) hvalid

end Generate

end DeclGen
