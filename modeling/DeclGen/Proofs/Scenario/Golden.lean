import DeclGen.Proofs.Document.Loading
import DeclGen.Proofs.Store.Rewriting
import DeclGen.Scenario.Golden
import DeclGen.Scenario.OfYaml

/-!
# Golden files and the scenarios around them

The names of golden files end in a way that neither scenario files nor documents do. So writing
golden files makes no difference to a scenario that could be loaded before: it is loaded as before,
and a run of it ends in the same way.
-/

namespace DeclGen

open Files (Replaced destination latest?)

namespace Scenario

section Places

/-- The golden files of a scenario, with the outputs that belong in them. -/
def goldenTexts (s : Scenario) (outputs : List Output) : List (Location × Text) :=
  outputs.map fun o => (destination (s.goldenPath o.lang), o.text)

theorem extension_goldenName (stem : String) (l : Lang) :
    Path.extension (stem ++ "." ++ l.tag ++ ".golden") = ".golden" :=
  @Path.extension_append_ending ['g', 'o', 'l', 'd', 'e', 'n'] (by decide) (by decide) _

theorem lastPiece_goldenPath (s : Scenario) (l : Lang) :
    Path.lastPiece (s.goldenPath l) =
      Path.lastPiece (s.goldenStem ++ "." ++ l.tag ++ ".golden") := by
  have hlong : 1 < (Path.extension (s.goldenStem ++ "." ++ l.tag ++ ".golden")).length := by
    rw [extension_goldenName]
    decide
  rw [goldenPath, Path.lastPiece_join hlong]

theorem extension_goldenPath (s : Scenario) (l : Lang) :
    Path.extension (s.goldenPath l) = ".golden" := by
  rw [Path.extension_congr (s.lastPiece_goldenPath l), extension_goldenName]

/-- The name of a golden file tells the stem and the target. -/
theorem goldenName_inj {stem stem' : String} {l m : Lang}
    (h : stem ++ "." ++ l.tag ++ ".golden" = stem' ++ "." ++ m.tag ++ ".golden") :
    stem = stem' ∧ l = m := by
  have hchars := congrArg String.toList h
  simp only [String.toList_append, List.append_left_inj] at hchars
  have hlast := congrArg List.getLast? hchars
  have hlang : l = m := by
    cases l <;> cases m
    · rfl
    · simp [Lang.tag] at hlast
    · simp [Lang.tag] at hlast
    · rfl
  subst hlang
  rw [List.append_left_inj, List.append_left_inj] at hchars
  exact ⟨String.toList_inj.mp hchars, rfl⟩

/-- Scenarios with golden files in the same place have the same stem. -/
theorem goldenPath_inj {s s' : Scenario} {l m : Lang} (hs : '/' ∉ s.goldenStem.toList)
    (hs' : '/' ∉ s'.goldenStem.toList)
    (h : destination (s.goldenPath l) = destination (s'.goldenPath m)) :
    s.goldenStem = s'.goldenStem ∧ l = m := by
  have hproper (s : Scenario) (l : Lang) : Path.IsProper (Path.lastName (s.goldenPath l)) := by
    apply Path.isProper_lastName
    rw [extension_goldenPath]
    decide
  have hname (s : Scenario) (l : Lang) (hslash : '/' ∉ s.goldenStem.toList) :
      Path.lastName (s.goldenPath l) = s.goldenStem ++ "." ++ l.tag ++ ".golden" := by
    have hwhole : '/' ∉ (s.goldenStem ++ "." ++ l.tag ++ ".golden").toList := by
      cases l <;> simp [hslash, Lang.tag]
    rw [Path.lastName, lastPiece_goldenPath, Path.lastPiece_of_not_mem hwhole,
      List.reverse_reverse, String.ofList_toList]
  have hlast := congrArg List.getLast? h
  rw [Files.getLast?_destination (hproper s l), Files.getLast?_destination (hproper s' m),
    hname s l hs, hname s' m hs'] at hlast
  exact goldenName_inj (Option.some.inj hlast)

/-- A place that ends like a golden file. -/
def IsGolden (loc : Location) : Prop :=
  ∃ name, loc.getLast? = some name ∧ Path.extension name = ".golden"

theorem isGolden_goldenPath (s : Scenario) (l : Lang) :
    IsGolden (destination (s.goldenPath l)) := by
  have hext := s.extension_goldenPath l
  have hlong : 1 < (Path.extension (s.goldenPath l)).length := by
    rw [hext]
    decide
  refine ⟨_, Files.getLast?_destination (Path.isProper_lastName hlong), ?_⟩
  rw [Path.extension_lastName, hext]

theorem not_isGolden_destination {path : String} (hlong : 1 < (Path.extension path).length)
    (hne : Path.extension path ≠ ".golden") : ¬ IsGolden (destination path) := by
  rintro ⟨name, hname, hext⟩
  rw [Files.getLast?_destination (Path.isProper_lastName hlong)] at hname
  cases hname
  rw [Path.extension_lastName] at hext
  exact hne hext

/-- Texts that are written to golden files. -/
def AllGolden (ws : List (Location × Text)) : Prop := ∀ w ∈ ws, IsGolden w.1

theorem allGolden_goldenTexts (s : Scenario) (outputs : List Output) :
    AllGolden (s.goldenTexts outputs) := by
  intro w hw
  obtain ⟨o, -, rfl⟩ := List.mem_map.mp hw
  exact s.isGolden_goldenPath o.lang

theorem AllGolden.latest? {ws : List (Location × Text)} (hg : AllGolden ws) {loc : Location}
    (h : ¬ IsGolden loc) : latest? ws loc = none := by
  apply Files.latest?_eq_none_iff.mpr
  rintro w hw rfl
  exact h (hg w hw)

end Places

section Updating

variable {s : Scenario} {fs after : Files} {outputs : List Output}

/-- Writing golden files puts each output in its place, where its name still leads afterwards. -/
theorem writeGolden_replaced (h : s.writeGolden fs outputs = (after, none)) :
    Replaced (s.goldenTexts outputs) fs after ∧
      ∀ o ∈ outputs, after.locate (s.goldenPath o.lang) =
        .ok (destination (s.goldenPath o.lang)) := by
  induction outputs generalizing fs with
  | nil =>
      cases h
      exact ⟨.refl _, by simp⟩
  | cons o rest ih =>
      rw [writeGolden] at h
      split at h
      · cases h
      · next mid hw =>
          obtain ⟨hloc, hfirst⟩ := Files.replaced_write hw
          obtain ⟨hrest, hlocs⟩ := ih h
          have hwhole : Replaced (s.goldenTexts (o :: rest)) fs after := hfirst.trans hrest
          refine ⟨hwhole, ?_⟩
          intro p hp
          rcases List.mem_cons.mp hp with rfl | hp
          · exact Files.locate_of_directories (fun l hd => hwhole.directory hd) hloc
          · exact hlocs p hp

theorem updateGolden_replaced (h : s.updateGolden fs outputs = (after, none)) :
    Replaced (s.goldenTexts outputs) fs after ∧
      ∀ o ∈ outputs, after.locate (s.goldenPath o.lang) =
        .ok (destination (s.goldenPath o.lang)) := by
  rw [updateGolden] at h
  split at h
  · cases h
  · next made hm =>
      obtain ⟨hwritten, hlocs⟩ := writeGolden_replaced h
      exact ⟨(Files.replaced_makeDirectories hm).trans hwritten, hlocs⟩

/-- Where all golden files can be read, nothing differs exactly when they hold the outputs. -/
theorem exists_mismatches (h : ∀ o ∈ outputs, ∃ t, fs.read (s.goldenPath o.lang) = .ok t) :
    ∃ langs, s.mismatches fs outputs = .ok langs ∧
      (langs = [] ↔ ∀ o ∈ outputs, fs.read (s.goldenPath o.lang) = .ok o.text) := by
  induction outputs with
  | nil => exact ⟨[], rfl, by simp⟩
  | cons o rest ih =>
      obtain ⟨t, ht⟩ := h o (by simp)
      obtain ⟨langs, hlangs, hiff⟩ := ih fun p hp => h p (by simp [hp])
      refine ⟨if t ≠ o.text then o.lang :: langs else langs, ?_, ?_⟩
      · simp [mismatches, differs, ht, hlangs, bind, Except.bind, pure, Except.pure]
      · rw [List.forall_mem_cons, ht]
        by_cases heq : t = o.text
        · simpa [heq] using hiff
        · simp [heq]

end Updating

section Unaffected

variable {s : Scenario} {fs after : Files} {path : String} {ws : List (Location × Text)}

theorem load_eq_ok_iff :
    load fs path = .ok s ↔
      ∃ t raw, fs.read path = .ok t ∧ readYaml t = .ok raw ∧ s = raw.placed path ∧
        s.fault? fs = none := by
  rw [load]
  cases hread : fs.read path with
  | error f => simp [Except.mapError, bind, Except.bind]
  | ok t =>
      cases hyaml : readYaml t with
      | error f => simp [Except.mapError, bind, Except.bind, hyaml]
      | ok raw =>
          simp only [Except.mapError, bind, Except.bind, hyaml]
          cases hfault : (raw.placed path).fault? fs with
          | some f =>
              simp only [reduceCtorEq, false_iff, throw, throwThe, MonadExceptOf.throw]
              rintro ⟨t', raw', ht, hraw, rfl, hnone⟩
              cases ht
              cases hyaml.symm.trans hraw
              rw [hfault] at hnone
              cases hnone
          | none =>
              constructor
              · intro h
                cases h
                exact ⟨t, raw, rfl, hyaml, rfl, hfault⟩
              · rintro ⟨t', raw', ht, hraw, rfl, -⟩
                cases ht
                cases hyaml.symm.trans hraw
                rfl

/-- All that a scenario can lack, of which only the document depends on the store. -/
theorem fault?_eq_none_iff :
    s.fault? fs = none ↔
      fs.stat s.document ≠ .error .notFound ∧ s.name ≠ "" ∧ s.description ≠ "" ∧
        s.document ≠ "" ∧ unknownLang? 0 (s.langs.getD []) = none ∧ s.assertions ≠ [] ∧
        Assertion.firstFault? 0 s.assertions = none := by
  rw [fault?]
  by_cases hname : s.name = ""
  · simp [hname]
  · by_cases hdescription : s.description = ""
    · simp [hname, hdescription]
    · by_cases hdocument : s.document = ""
      · simp [hname, hdescription, hdocument]
      · rw [if_neg hname, if_neg hdescription, if_neg hdocument]
        split
        · next hstat => simp [hstat]
        · next hstat =>
            have hfound : fs.stat s.document ≠ .error .notFound := hstat
            by_cases hempty : s.assertions = []
            · simp [hname, hdescription, hdocument, hfound, hempty]
            · simp [hname, hdescription, hdocument, hfound, hempty]

variable (h : Replaced ws fs after)
include h

theorem fault?_of_replaced (hf : s.fault? fs = none) : s.fault? after = none := by
  obtain ⟨hstat, hrest⟩ := fault?_eq_none_iff.mp hf
  exact fault?_eq_none_iff.mpr ⟨(h.stat hstat).1, hrest⟩

variable (hg : AllGolden ws)
include hg

/-- What can be read under a name that no golden file has can be read after golden files were
written. -/
theorem read_of_replaced (hlong : 1 < (Path.extension path).length)
    (hne : Path.extension path ≠ ".golden") (hs : fs.stat path ≠ .error .notFound) :
    after.read path = fs.read path := by
  apply Files.read_congr
  exact (h.stat hs).2 (hg.latest? (not_isGolden_destination hlong hne))

theorem load_of_replaced (hlong : 1 < (Path.extension path).length)
    (hne : Path.extension path ≠ ".golden") (hload : load fs path = .ok s) :
    load after path = .ok s := by
  obtain ⟨t, raw, hread, hyaml, hs, hfault⟩ := load_eq_ok_iff.mp hload
  have hstat : fs.stat path ≠ .error .notFound := by
    rw [Files.stat_of_read hread]
    simp
  have hafter : after.read path = .ok t := by
    rw [read_of_replaced h hg hlong hne hstat, hread]
  exact load_eq_ok_iff.mpr ⟨t, raw, hafter, hyaml, hs, fault?_of_replaced h hfault⟩

/-- Loading a document that is there, or has something in its way, ends in the same way. -/
theorem load_document_of_replaced (hs : fs.stat path ≠ .error .notFound) :
    Document.load after path = Document.load fs path := by
  cases hformat : DocumentFormat.ofPath? path with
  | none => rw [Document.load, Document.load, hformat]
  | some format =>
      apply Document.load_congr
      have hlong := DocumentFormat.length_of_ofPath? hformat
      have hne : Path.extension path ≠ ".golden" :=
        DocumentFormat.extension_ne_of_ofPath? hformat (by decide +kernel)
      exact read_of_replaced h hg hlong hne hs

theorem run_of_replaced (hf : s.fault? fs = none) : s.run after = s.run fs := by
  have hload := load_document_of_replaced h hg (fault?_eq_none_iff.mp hf).1
  have houtcome : s.outcome after = s.outcome fs := by
    rw [outcome, outcome, hload]
  rw [run, run, houtcome]

end Unaffected

end Scenario

end DeclGen
