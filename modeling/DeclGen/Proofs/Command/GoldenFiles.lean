import DeclGen.Proofs.Command.Payloads
import DeclGen.Proofs.Scenario.Golden
import DeclGen.Proofs.Scenario.Verdicts

/-!
# Golden files that were written anew

A run that writes golden files anew and passes leaves a store in which the same scenarios are found
and end as before. A plain run on this store compares each output with its golden file. It passes if
every golden file still holds the output that was written to it, and that is so unless two scenarios
share a golden file and have different outputs.

Two scenario files share their golden files if they stand in one directory and differ in nothing but
their extensions, since the names of golden files leave the extension out.

## Implementation notes

Along a run of several scenarios the store changes from one to the next. `Files.Replaced` relates
the store that a scenario was run on to the store at the end, and what is known about the scenario
is carried over to the end at once.
-/

namespace DeclGen.Suite

open Files (Replaced destination latest? Agree)
open Scenario (AllGolden IsGolden)

variable {o : SuiteOptions} {fs after : Files} {path : String} {paths : List String}
  {ws : List (Location × Text)}

section Finding

/-- A selection that may fail keeps what it accepts, if it does not fail. -/
theorem filter_of_filterM {α ε : Type} {f : α → Except ε Bool} {xs ys : List α}
    (h : xs.filterM f = .ok ys) : ys = xs.filter fun x => (f x).toOption == some true := by
  have haux : ∀ (acc zs : List α), List.filterAuxM f xs acc = .ok zs →
      zs = (xs.filter fun x => (f x).toOption == some true).reverse ++ acc := by
    clear h
    induction xs with
    | nil =>
        intro acc zs h
        cases h
        rfl
    | cons x rest ih =>
        intro acc zs h
        rw [List.filterAuxM] at h
        cases hx : f x with
        | error e =>
            rw [hx] at h
            cases h
        | ok b =>
            rw [hx] at h
            have hrest := ih _ zs h
            cases b with
            | true =>
                rw [List.filter_cons_of_pos (by simp [hx, Except.toOption])]
                simpa using hrest
            | false =>
                rw [List.filter_cons_of_neg (by simp [hx, Except.toOption])]
                simpa using hrest
  rw [List.filterM] at h
  cases hzs : List.filterAuxM f xs [] with
  | error e =>
      rw [hzs] at h
      cases h
  | ok zs =>
      rw [hzs] at h
      cases h
      rw [haux [] zs hzs, List.append_nil, List.reverse_reverse]

/-- A name that ends like a scenario file ends in neither of the other ways. -/
theorem extension_of_isScenarioName {name : String} (h : isScenarioName name = true) :
    1 < (Path.extension name).length ∧ Path.extension name ≠ ".golden" := by
  rw [isScenarioName, Bool.or_eq_true, beq_iff_eq, beq_iff_eq] at h
  rcases h with h | h
  · rw [h]
    decide
  · rw [h]
    decide

theorem isScenarioName_pathBelow {directory : String} {components : List String}
    (h : isScenarioName (components.getLastD directory) = true) :
    isScenarioName (pathBelow directory components) = true := by
  rw [pathBelow]
  split
  · next hempty =>
      rw [List.isEmpty_iff.mp hempty] at h
      exact h
  · next hne =>
      obtain ⟨last, hlast⟩ : ∃ last, components.getLast? = some last := by
        cases components with
        | nil => exact absurd rfl hne
        | cons c rest => exact ⟨_, List.getLast?_cons⟩
      have hext : Path.extension ("/".intercalate components) = Path.extension last :=
        Path.extension_congr (Path.lastPiece_intercalate hlast)
      have hname : components.getLastD directory = last := by
        rw [List.getLastD_eq_getLast?, hlast]
        rfl
      rw [hname] at h
      have hlong := (extension_of_isScenarioName h).1
      rw [← hext] at hlong
      rw [isScenarioName, Path.extension_join hlong, hext]
      exact h

theorem files_eq_ok (h : files o fs = .ok paths) :
    fs.locate o.directory = .ok (destination o.directory) ∧
      fs.stat o.directory ≠ .error .notFound ∧
      (((fs.walk (destination o.directory)).filter (isCandidate o.directory)).map
        (pathBelow o.directory)).filterM (fits o.filter) = .ok paths := by
  rw [files] at h
  split at h
  · next root e hroot hstat =>
      rw [← Files.eq_destination_of_locate hroot, hstat]
      exact ⟨hroot, by simp, h⟩
  · cases h
  · cases h

theorem isScenarioName_of_mem (h : files o fs = .ok paths) (hp : path ∈ paths) :
    isScenarioName path = true := by
  rw [filter_of_filterM (files_eq_ok h).2.2] at hp
  obtain ⟨components, hc, rfl⟩ := List.mem_map.mp (List.mem_of_mem_filter hp)
  have hcandidate := List.of_mem_filter hc
  rw [isCandidate, Bool.and_eq_true] at hcandidate
  exact isScenarioName_pathBelow hcandidate.2

/-- No golden file is taken for a scenario file. -/
theorem not_isCandidate {directory : String} {loc : Location} (hg : IsGolden loc)
    {components : List String} (hb : Files.below? (destination directory) loc = some components) :
    isCandidate directory components = false := by
  rw [isCandidate]
  apply Bool.and_eq_false_imp.mpr
  intro _
  by_contra hname
  rw [Bool.not_eq_false] at hname
  obtain ⟨hlong, hne⟩ := extension_of_isScenarioName hname
  rw [Files.below?] at hb
  split at hb
  · next hprefix =>
      cases hb
      obtain ⟨rest, rfl⟩ := List.isPrefixOf_iff_prefix.mp hprefix
      rw [List.drop_left] at hlong hne
      cases hrest : rest.getLast? with
      | none =>
          rw [List.getLastD_eq_getLast?, hrest] at hlong hne
          rw [List.getLast?_eq_none_iff.mp hrest, List.append_nil] at hg
          exact Scenario.not_isGolden_destination hlong hne hg
      | some last =>
          rw [List.getLastD_eq_getLast?, hrest] at hne
          obtain ⟨name, hlast, hext⟩ := hg
          rw [List.getLast?_append, hrest, Option.some_or] at hlast
          cases hlast
          exact hne hext
  · cases hb

/-- The same scenario files are found after golden files were written. -/
theorem files_of_replaced (h : Replaced ws fs after) (hg : AllGolden ws)
    (hf : files o fs = .ok paths) : files o after = .ok paths := by
  obtain ⟨hlocate, hstat, hfound⟩ := files_eq_ok hf
  have hlocate' := Files.locate_of_directories (fun l hd => h.directory hd) hlocate
  have hstat' := (h.stat hstat).1
  have hwalk := h.walk_filter (destination o.directory)
    fun w hw c hc => not_isCandidate (hg w hw) hc
  rw [files, hlocate']
  cases he : after.stat o.directory with
  | ok e =>
      simp only
      rw [hwalk]
      exact hfound
  | error e =>
      rw [Files.stat, hlocate'] at he hstat'
      simp only [bind, Except.bind] at he hstat'
      split at he
      · cases he
      · next hnone =>
          rw [hnone] at hstat'
          exact absurd rfl hstat'

end Finding

section Updating

/-- The golden files of a scenario file, with the outputs that belong in them. -/
def goldenTexts (fs : Files) (path : String) : List (Location × Text) :=
  match Scenario.load fs path with
  | .error _ => []
  | .ok s =>
    match (s.run fs).result with
    | .error _ => []
    | .ok v => s.goldenTexts v.outputs

theorem allGolden_goldenTexts (fs : Files) (path : String) : AllGolden (goldenTexts fs path) := by
  rw [goldenTexts]
  split
  · nofun
  · split
    · nofun
    · exact Scenario.allGolden_goldenTexts _ _

theorem allGolden_flatMap (fs : Files) (paths : List String) :
    AllGolden (paths.flatMap (goldenTexts fs)) := by
  intro w hw
  obtain ⟨p, -, hw⟩ := List.mem_flatMap.mp hw
  exact allGolden_goldenTexts fs p w hw

/-- A scenario file with a scenario that passes its assertions, and whose golden files have names
that lead to their places. -/
def Settled (fs : Files) (path : String) : Prop :=
  ∃ s v, Scenario.load fs path = .ok s ∧ (s.run fs).result = .ok v ∧ v.pass = true ∧
    ∀ x ∈ v.outputs, fs.locate (s.goldenPath x.lang) = .ok (destination (s.goldenPath x.lang))

theorem goldenTexts_eq {s : Scenario} {v : Verdict} (hload : Scenario.load fs path = .ok s)
    (hrun : (s.run fs).result = .ok v) : goldenTexts fs path = s.goldenTexts v.outputs := by
  simp only [goldenTexts, hload, hrun]

/-- A scenario is loaded and ends as before, after golden files were written. -/
theorem unaffected_of_replaced (h : Replaced ws fs after) (hg : AllGolden ws)
    (hname : isScenarioName path = true) {s : Scenario} (hload : Scenario.load fs path = .ok s) :
    Scenario.load after path = .ok s ∧ s.run after = s.run fs := by
  obtain ⟨hlong, hne⟩ := extension_of_isScenarioName hname
  obtain ⟨-, -, -, -, -, hfault⟩ := Scenario.load_eq_ok_iff.mp hload
  constructor
  · exact Scenario.load_of_replaced h hg hlong hne hload
  · exact Scenario.run_of_replaced h hg hfault

theorem Settled.replaced (hs : Settled fs path) (h : Replaced ws fs after) (hg : AllGolden ws)
    (hname : isScenarioName path = true) :
    Settled after path ∧ goldenTexts after path = goldenTexts fs path := by
  obtain ⟨s, v, hload, hrun, hpass, hlocs⟩ := hs
  obtain ⟨hload', hrun'⟩ := unaffected_of_replaced h hg hname hload
  have hresult : (s.run after).result = .ok v := by
    rw [hrun', hrun]
  constructor
  · refine ⟨s, v, hload', hresult, hpass, fun x hx => ?_⟩
    exact Files.locate_of_directories (fun l hd => h.directory hd) (hlocs x hx)
  · rw [goldenTexts_eq hload' hresult, goldenTexts_eq hload hrun]

/-- What is left of a scenario that passes its assertions is up to its golden files. -/
theorem runFile_eq (o : SuiteOptions) {s : Scenario} {v : Verdict}
    (hload : Scenario.load fs path = .ok s) (hrun : (s.run fs).result = .ok v)
    (hv : v.pass = true) :
    (runFile o fs path).files = (settleGolden o fs s v).1 ∧
      (runFile o fs path).result = (settleGolden o fs s v).2 := by
  simp [runFile, hload, hrun, hv]

/-- A scenario file does not pass and the store stays as it is, or its scenario passes its
assertions. -/
theorem runFile_cases (o : SuiteOptions) (fs : Files) (path : String) :
    ((runFile o fs path).files = fs ∧ (runFile o fs path).result.pass = false) ∨
      ∃ s v, Scenario.load fs path = .ok s ∧ (s.run fs).result = .ok v ∧ v.pass = true := by
  cases hload : Scenario.load fs path with
  | error e =>
      left
      simp [runFile, hload, ScenarioResult.pass]
  | ok s =>
      cases hrun : (s.run fs).result with
      | error f =>
          left
          simp [runFile, hload, hrun, ScenarioResult.pass]
      | ok v =>
          cases hv : v.pass with
          | false =>
              left
              -- A verdict that does not pass has messages.
              have hcandid : v.pass = true ↔ v.errors = [] := Scenario.candid_of_verdict hrun
              have hne : v.errors ≠ [] := by
                intro hnil
                rw [hcandid.mpr hnil] at hv
                cases hv
              simp [runFile, hload, hrun, hv, ScenarioResult.pass, hne]
          | true => exact .inr ⟨s, v, rfl, hrun, hv⟩

theorem runFile_of_updateGolden (hu : o.update = true) {s : Scenario} {v : Verdict}
    (hload : Scenario.load fs path = .ok s) (hrun : (s.run fs).result = .ok v)
    (hv : v.pass = true) (hwritten : s.updateGolden fs v.outputs = (after, none)) :
    (runFile o fs path).files = after ∧ (runFile o fs path).result.pass = true := by
  obtain ⟨hfiles, hresult⟩ := runFile_eq o hload hrun hv
  rw [hfiles, hresult, settleGolden, if_pos hu, hwritten]
  exact ⟨rfl, rfl⟩

/-- A scenario that passes while golden files are written anew has passed its assertions, and its
golden files have been written. -/
theorem exists_updateGolden (hu : o.update = true)
    (hpass : (runFile o fs path).result.pass = true) :
    ∃ s v, Scenario.load fs path = .ok s ∧ (s.run fs).result = .ok v ∧ v.pass = true ∧
      s.updateGolden fs v.outputs = ((runFile o fs path).files, none) := by
  rcases runFile_cases o fs path with ⟨-, hfails⟩ | ⟨s, v, hload, hrun, hv⟩
  · rw [hfails] at hpass
    cases hpass
  · refine ⟨s, v, hload, hrun, hv, ?_⟩
    obtain ⟨hfiles, hresult⟩ := runFile_eq o hload hrun hv
    rw [hresult] at hpass
    rw [hfiles]
    rw [settleGolden, if_pos hu] at hpass ⊢
    split at hpass
    · cases hpass
    · next written hwritten => rw [hwritten]

/-- One scenario file of a run that writes golden files anew. -/
theorem runFile_settled (hu : o.update = true) (hname : isScenarioName path = true)
    (hpass : (runFile o fs path).result.pass = true) :
    Replaced (goldenTexts fs path) fs (runFile o fs path).files ∧
      Settled (runFile o fs path).files path ∧
      goldenTexts (runFile o fs path).files path = goldenTexts fs path := by
  obtain ⟨s, v, hload, hrun, hv, hupdate⟩ := exists_updateGolden hu hpass
  obtain ⟨hwritten, hlocs⟩ := Scenario.updateGolden_replaced hupdate
  have hg := Scenario.allGolden_goldenTexts s v.outputs
  obtain ⟨hload', hrun'⟩ := unaffected_of_replaced hwritten hg hname hload
  have hresult : (s.run (runFile o fs path).files).result = .ok v := by
    rw [hrun', hrun]
  have htexts := goldenTexts_eq hload hrun
  refine ⟨?_, ⟨s, v, hload', hresult, hv, hlocs⟩, ?_⟩
  · rw [htexts]
    exact hwritten
  · rw [goldenTexts_eq hload' hresult, htexts]

/-- All scenario files of a run that writes golden files anew: at its end each is settled, and the
store has changed by their golden files. -/
theorem runFiles_settled (hu : o.update = true) (hnames : ∀ p ∈ paths, isScenarioName p = true)
    (hpass : ∀ x ∈ (runFiles o fs paths).2.2.2, x.pass = true) :
    Replaced (paths.flatMap (goldenTexts (runFiles o fs paths).1)) fs (runFiles o fs paths).1 ∧
      ∀ p ∈ paths, Settled (runFiles o fs paths).1 p := by
  induction paths generalizing fs with
  | nil => exact ⟨.refl fs, by simp⟩
  | cons p rest ih =>
      have hfirst : (runFile o fs p).result.pass = true := hpass _ (by simp [runFiles])
      obtain ⟨hwritten, hsettled, htexts⟩ := runFile_settled hu (hnames p (by simp)) hfirst
      obtain ⟨hrest, hothers⟩ := @ih (runFile o fs p).files (fun q hq => hnames q (by simp [hq]))
        fun x hx => hpass x (by simp [runFiles, hx])
      have hfiles : (runFiles o fs (p :: rest)).1 = (runFiles o (runFile o fs p).files rest).1 :=
        rfl
      rw [hfiles]
      -- The golden files of the scenarios behind do not disturb this one.
      obtain ⟨hsettled', htexts'⟩ :=
        hsettled.replaced hrest (allGolden_flatMap _ rest) (hnames p (by simp))
      constructor
      · rw [List.flatMap_cons, htexts', htexts]
        exact hwritten.trans hrest
      · exact List.forall_mem_cons.mpr ⟨hsettled', hothers⟩

end Updating

section Comparing

/-- A plain run changes nothing. -/
theorem files_runFile (hu : o.update = false) (fs : Files) (path : String) :
    (runFile o fs path).files = fs := by
  rcases runFile_cases o fs path with ⟨hfiles, -⟩ | ⟨s, v, hload, hrun, hv⟩
  · exact hfiles
  · rw [(runFile_eq o hload hrun hv).1, settleGolden, if_neg (by simp [hu])]
    split <;> rfl

/-- Where all golden files are there, a settled scenario passes exactly when they hold its
outputs. -/
theorem pass_runFile_iff (hu : o.update = false) (hs : Settled fs path)
    (hfile : ∀ w ∈ goldenTexts fs path, ∃ t, fs.get? w.1 = some (.file t)) :
    (runFile o fs path).result.pass = true ↔
      ∀ w ∈ goldenTexts fs path, fs.get? w.1 = some (.file w.2) := by
  obtain ⟨s, v, hload, hrun, hv, hlocs⟩ := hs
  rw [goldenTexts_eq hload hrun] at hfile ⊢
  have hread (x : Output) (hx : x ∈ v.outputs) (t : Text) :
      fs.read (s.goldenPath x.lang) = .ok t ↔
        fs.get? (destination (s.goldenPath x.lang)) = some (.file t) := by
    rw [Files.read_eq_ok_iff, hlocs x hx]
    simp
  obtain ⟨langs, hlangs, hiff⟩ := @Scenario.exists_mismatches s fs v.outputs fun x hx => by
    obtain ⟨t, ht⟩ := hfile _ (List.mem_map_of_mem hx)
    exact ⟨t, (hread x hx t).mpr ht⟩
  have hpass : (runFile o fs path).result.pass = true ↔ langs = [] := by
    rw [(runFile_eq o hload hrun hv).2]
    simp [settleGolden, hu, hlangs, ScenarioResult.pass]
  rw [hpass, hiff, Scenario.goldenTexts, List.forall_mem_map]
  constructor
  · intro hall x hx
    exact (hread x hx x.text).mp (hall x hx)
  · intro hall x hx
    exact (hread x hx x.text).mpr (hall x hx)

theorem pass_runFiles_iff (hu : o.update = false) (hs : ∀ p ∈ paths, Settled fs p)
    (hfile : ∀ w ∈ paths.flatMap (goldenTexts fs), ∃ t, fs.get? w.1 = some (.file t)) :
    (∀ x ∈ (runFiles o fs paths).2.2.2, x.pass = true) ↔
      ∀ w ∈ paths.flatMap (goldenTexts fs), fs.get? w.1 = some (.file w.2) := by
  induction paths with
  | nil => simp [runFiles]
  | cons p rest ih =>
      have hresults : (runFiles o fs (p :: rest)).2.2.2 =
          (runFile o fs p).result :: (runFiles o fs rest).2.2.2 := by
        have hfirst : (runFiles o fs (p :: rest)).2.2.2 =
            (runFile o fs p).result :: (runFiles o (runFile o fs p).files rest).2.2.2 := rfl
        rw [hfirst, files_runFile hu]
      rw [List.flatMap_cons, List.forall_mem_append] at hfile
      rw [hresults, List.forall_mem_cons, List.flatMap_cons, List.forall_mem_append,
        pass_runFile_iff hu (hs p (by simp)) hfile.1,
        ih (fun q hq => hs q (by simp [hq])) hfile.2]

end Comparing

section Runs

/-- The results of all scenarios. -/
def results (o : SuiteOptions) (fs : Files) : List ScenarioResult :=
  match files o fs with
  | .ok paths => (runFiles o fs paths).2.2.2
  | .error _ => []

theorem results_eq (h : files o fs = .ok paths) :
    results o fs = (runFiles o fs paths).2.2.2 := by
  rw [results, h]

theorem failed_eq_zero_iff {rs : List ScenarioResult} :
    failed rs = 0 ↔ ∀ x ∈ rs, x.pass = true := by
  simp [failed]

theorem run_eq (r : Reporting) (h : files o fs = .ok paths) :
    (run r o fs).files = (runFiles o fs paths).1 ∧
      (run r o fs).error = error? (runFiles o fs paths).2.2.2 := by
  have hstat := (files_eq_ok h).2.1
  rw [run]
  split
  · next hmissing => exact absurd hmissing hstat
  · rw [h]
    obtain ⟨out, hout⟩ := exists_report r (runFiles o fs paths).2.2.2
    simp [Ending.reported, hout]

/-- The command ends well exactly when the scenario files are found and all of them pass. -/
theorem exitCode_run_eq_zero_iff (r : Reporting) :
    exitCode (run r o fs).error = 0 ↔
      ∃ paths, files o fs = .ok paths ∧ ∀ x ∈ results o fs, x.pass = true := by
  cases hf : files o fs with
  | error f =>
      have hcode : exitCode (run r o fs).error ≠ 0 := by
        rw [run]
        split
        · simp [Ending.stopped, exitCode]
        · simp [hf, Ending.stopped, exitCode]
      simp [hcode]
  | ok paths =>
      rw [(run_eq r hf).2, results_eq hf, ← failed_eq_zero_iff, error?]
      split
      · next hzero => simp [hzero, exitCode]
      · next hne => simp [hne, exitCode, CommandError.code]

/-- A run that writes golden files anew and ends well: the same scenario files are found on its
store, and a plain run passes exactly when their outputs agree on the golden files. -/
theorem passes_iff_agree (r r' : Reporting)
    (hexit : exitCode (run r { o with update := true } fs).error = 0)
    (hafter : (run r { o with update := true } fs).files = after) :
    ∃ paths, files o fs = .ok paths ∧ files o after = .ok paths ∧
      Replaced (paths.flatMap (goldenTexts after)) fs after ∧ (∀ p ∈ paths, Settled after p) ∧
      ((exitCode (run r' { o with update := false } after).error = 0 ∧
          ∀ x ∈ results { o with update := false } after, x.pass = true) ↔
        Agree (paths.flatMap (goldenTexts after))) := by
  obtain ⟨paths, hfiles, hpass⟩ := (exitCode_run_eq_zero_iff r).mp hexit
  rw [results_eq hfiles] at hpass
  rw [(run_eq r hfiles).1] at hafter
  obtain ⟨hwritten, hsettled⟩ :=
    runFiles_settled rfl (fun p hp => isScenarioName_of_mem hfiles hp) hpass
  rw [hafter] at hwritten hsettled
  -- Finding scenario files does not depend on what is done with them.
  have hfound : files { o with update := false } after = .ok paths :=
    files_of_replaced hwritten (allGolden_flatMap after paths) hfiles
  refine ⟨paths, hfiles, hfound, hwritten, hsettled, ?_⟩
  have hplain := pass_runFiles_iff (o := { o with update := false }) rfl hsettled fun w hw => by
    obtain ⟨t, ht⟩ := Files.exists_latest? hw
    exact ⟨t, (hwritten.written _ t ht).2⟩
  rw [exitCode_run_eq_zero_iff, results_eq hfound, hplain, hwritten.agree_iff]
  simp [hfound]

/-- Scenario files with different stems agree on their golden files, since they share none. -/
theorem agree_of_stems (hs : ∀ p ∈ paths, Settled fs p)
    (hnames : ∀ p ∈ paths, isScenarioName p = true)
    (hstems : ∀ p ∈ paths, ∀ q ∈ paths, Path.stem p = Path.stem q → p = q) :
    Agree (paths.flatMap (goldenTexts fs)) := by
  have hstem {p : String} {s : Scenario} (hload : Scenario.load fs p = .ok s) :
      s.goldenStem = Path.stem p := by
    obtain ⟨-, raw, -, -, rfl, -⟩ := Scenario.load_eq_ok_iff.mp hload
    rfl
  have hslash {p : String} (hp : p ∈ paths) : '/' ∉ (Path.stem p).toList :=
    Path.slash_not_mem_stem (extension_of_isScenarioName (hnames p hp)).1
  intro x hx y hy hloc
  obtain ⟨p, hp, hx⟩ := List.mem_flatMap.mp hx
  obtain ⟨q, hq, hy⟩ := List.mem_flatMap.mp hy
  obtain ⟨s, v, hload, hrun, -, -⟩ := hs p hp
  obtain ⟨s', v', hload', hrun', -, -⟩ := hs q hq
  rw [goldenTexts_eq hload hrun] at hx
  rw [goldenTexts_eq hload' hrun'] at hy
  obtain ⟨a, ha, rfl⟩ := List.mem_map.mp hx
  obtain ⟨b, hb, rfl⟩ := List.mem_map.mp hy
  obtain ⟨hsame, hlang⟩ := Scenario.goldenPath_inj (hstem hload ▸ hslash hp)
    (hstem hload' ▸ hslash hq) hloc
  rw [hstem hload, hstem hload'] at hsame
  have hpq := hstems p hp q hq hsame
  subst hpq
  rw [hload] at hload'
  cases hload'
  rw [hrun] at hrun'
  cases hrun'
  exact Scenario.consistent_of_run hrun a ha b hb hlang

end Runs

/-- Golden files are stable under an update, but for conflicts. If a run that writes golden files
anew ends well, then the same scenario files are found on its store, and a plain run passes all of
them exactly when no two outputs differ that belong in the same golden file. There are no such
outputs if the scenario files have different stems. -/
theorem plain_run_after_update (r r' : Reporting) (o : SuiteOptions) (fs : Files) {after : Files}
    (hexit : exitCode (run r { o with update := true } fs).error = 0)
    (hafter : (run r { o with update := true } fs).files = after) :
    ∃ paths, files o fs = .ok paths ∧ files o after = .ok paths ∧
      ((exitCode (run r' { o with update := false } after).error = 0 ∧
          ∀ x ∈ results { o with update := false } after, x.pass = true) ↔
        Agree (paths.flatMap (goldenTexts after))) ∧
      ((∀ p ∈ paths, ∀ q ∈ paths, Path.stem p = Path.stem q → p = q) →
        Agree (paths.flatMap (goldenTexts after))) := by
  obtain ⟨paths, hfiles, hfound, -, hsettled, hiff⟩ := passes_iff_agree r r' hexit hafter
  refine ⟨paths, hfiles, hfound, hiff, fun hstems => ?_⟩
  exact agree_of_stems hsettled (fun p hp => isScenarioName_of_mem hfiles hp) hstems

section Twins

/-- The text of a scenario file with some document. -/
def scenarioText (document : String) : Text :=
  .ofString ("name: n\ndescription: d\ndocument: " ++ document ++
    "\nlangs: [c]\nassertions:\n- type: output_contains\n  lang: c\n  text: E\n")

/-- The scenario in such a file. -/
def scenarioOf (path document : String) : Scenario :=
  { name := "n", description := "d", document, langs := some ["c"],
    assertions := [{ kind := .contains, lang := "c", text := "E" }] : Scenario }.placed path

/-- Two documents, and two scenario files that differ in their documents. -/
def twinScenarios (second : String) : Files :=
  ⟨[(["s"], .directory), (["s", "a.json"], .file (.ofString "\x7b\x7d")),
    (["s", "a.yaml"], .file (scenarioText "a.json")),
    (["s", second], .file (scenarioText "b.json")),
    (["s", "b.json"], .file (.ofString
      "\x7b\"items\": [\x7b\"kind\": \"var\", \"type\": \"T\"\x7d]\x7d"))]⟩

/-- The second scenario file may have the stem of the first one, or another one. -/
def IsTwin (second : String) : Prop := second = "a.yml" ∨ second = "ab.yml"

/-- The verdict on a scenario with one output, of which some lines are given. -/
def verdictWith (lines : String) : Verdict :=
  { outputs := [⟨.cpp, .ofString ("// Code generated by codespawn. DO NOT EDIT.\n" ++ lines ++
      "// End of generated code.\n")⟩] }

variable {second : String} (hsecond : IsTwin second)
include hsecond

/-- Both scenario files can be read. -/
theorem load_twins :
    Scenario.load (twinScenarios second) "s/a.yaml" = .ok (scenarioOf "s/a.yaml" "a.json") ∧
      Scenario.load (twinScenarios second) ("s/" ++ second) =
        .ok (scenarioOf ("s/" ++ second) "b.json") := by
  have hfirst : Scenario.readYaml (scenarioText "a.json") = .ok
      { name := "n", description := "d", document := "a.json", langs := some ["c"],
        assertions := [{ kind := .contains, lang := "c", text := "E" }] } := by
    apply eq_ok_of_toOption
    decide +kernel
  have hnext : Scenario.readYaml (scenarioText "b.json") = .ok
      { name := "n", description := "d", document := "b.json", langs := some ["c"],
        assertions := [{ kind := .contains, lang := "c", text := "E" }] } := by
    apply eq_ok_of_toOption
    decide +kernel
  rcases hsecond with rfl | rfl
  · constructor
    · exact Scenario.load_eq_ok_iff.mpr ⟨_, _, rfl, hfirst, rfl, by decide +kernel⟩
    · exact Scenario.load_eq_ok_iff.mpr ⟨_, _, rfl, hnext, rfl, by decide +kernel⟩
  · constructor
    · exact Scenario.load_eq_ok_iff.mpr ⟨_, _, rfl, hfirst, rfl, by decide +kernel⟩
    · exact Scenario.load_eq_ok_iff.mpr ⟨_, _, rfl, hnext, rfl, by decide +kernel⟩

/-- Both scenarios pass, with different outputs. -/
theorem run_twins :
    ((scenarioOf "s/a.yaml" "a.json").run (twinScenarios second)).result = .ok (verdictWith "") ∧
      ((scenarioOf ("s/" ++ second) "b.json").run (twinScenarios second)).result =
        .ok (verdictWith "const T;\n") := by
  rcases hsecond with rfl | rfl
  · exact ⟨eq_ok_of_toOption (by decide +kernel), eq_ok_of_toOption (by decide +kernel)⟩
  · exact ⟨eq_ok_of_toOption (by decide +kernel), eq_ok_of_toOption (by decide +kernel)⟩

/-- The output of the first scenario can be written, and then that of the second one. -/
theorem update_twins :
    ∃ after₁ after₂,
      (scenarioOf "s/a.yaml" "a.json").updateGolden (twinScenarios second)
        (verdictWith "").outputs = (after₁, none) ∧
      (scenarioOf ("s/" ++ second) "b.json").updateGolden after₁
        (verdictWith "const T;\n").outputs = (after₂, none) := by
  rcases hsecond with rfl | rfl
  · exact ⟨_, _, Prod.ext rfl (by decide +kernel), Prod.ext rfl (by decide +kernel)⟩
  · exact ⟨_, _, Prod.ext rfl (by decide +kernel), Prod.ext rfl (by decide +kernel)⟩

/-- Both scenario files are found in their directory. -/
theorem files_twins (u : Bool) :
    files { directory := "s", update := u } (twinScenarios second) =
      .ok ["s/a.yaml", "s/" ++ second] := by
  have hlocate : (twinScenarios second).locate "s" = .ok ["s"] := rfl
  have hstat : (twinScenarios second).stat "s" = .ok .directory := rfl
  have hwalk : (twinScenarios second).walk ["s"] =
      [["a.json"], ["a.yaml"], [second], ["b.json"]] := by
    rcases hsecond with rfl | rfl
    · exact List.mergeSort_of_pairwise (by decide +kernel)
    · exact List.mergeSort_of_pairwise (by decide +kernel)
  simp only [files, hlocate, hstat, hwalk]
  rcases hsecond with rfl | rfl
  · exact eq_ok_of_toOption (by decide +kernel)
  · exact eq_ok_of_toOption (by decide +kernel)

/-- Both scenarios pass while their golden files are written anew. -/
theorem exitCode_update_twins :
    exitCode (run {} { directory := "s", update := true } (twinScenarios second)).error = 0 := by
  have hfound := files_twins hsecond true
  obtain ⟨after₁, after₂, hfirst, hnext⟩ := update_twins hsecond
  obtain ⟨hfiles, hpass⟩ := runFile_of_updateGolden (o := { directory := "s", update := true })
    rfl (load_twins hsecond).1 (run_twins hsecond).1 rfl hfirst
  -- The second scenario is run on a store with the golden file of the first one.
  obtain ⟨hload, hrun⟩ := unaffected_of_replaced (Scenario.updateGolden_replaced hfirst).1
    (Scenario.allGolden_goldenTexts _ _) (isScenarioName_of_mem hfound (by simp))
    (load_twins hsecond).2
  rw [← hfiles] at hload hrun hnext
  have hpass' := (runFile_of_updateGolden (o := { directory := "s", update := true }) rfl hload
    (by rw [hrun, (run_twins hsecond).2]) rfl hnext).2
  apply (exitCode_run_eq_zero_iff {}).mpr
  refine ⟨_, hfound, ?_⟩
  rw [results_eq hfound]
  exact List.forall_mem_cons.mpr ⟨hpass, List.forall_mem_singleton.mpr hpass'⟩

omit hsecond

/-- The golden files of two scenario files with different stems are stable. -/
theorem differentStems_stable :
    exitCode (run {} { directory := "s", update := true } (twinScenarios "ab.yml")).error = 0 ∧
      exitCode (run {} { directory := "s" }
        (run {} { directory := "s", update := true } (twinScenarios "ab.yml")).files).error = 0 ∧
      ∀ x ∈ results { directory := "s" }
        (run {} { directory := "s", update := true } (twinScenarios "ab.yml")).files,
          x.pass = true := by
  have hsecond : IsTwin "ab.yml" := .inr rfl
  have hexit := exitCode_update_twins hsecond
  obtain ⟨paths, hfiles, -, hiff, hstems⟩ :=
    plain_run_after_update {} {} { directory := "s" } (twinScenarios "ab.yml") hexit rfl
  have hpaths : ["s/a.yaml", "s/ab.yml"] = paths :=
    Except.ok.inj ((files_twins hsecond false).symm.trans hfiles)
  subst hpaths
  exact ⟨hexit, hiff.mpr (hstems (by decide +kernel))⟩

/-- Two scenario files with one stem in one directory share their golden files. The second one
overwrites what the first one has written, and the next run finds the first one at fault. -/
theorem not_all_updates_stable :
    ¬ ∀ (r : Reporting) (o : SuiteOptions) (fs : Files),
      exitCode (run r { o with update := true } fs).error = 0 →
      exitCode (run r { o with update := false }
        (run r { o with update := true } fs).files).error = 0 ∧
      ∀ x ∈ results { o with update := false } (run r { o with update := true } fs).files,
        x.pass = true := by
  intro hall
  have hsecond : IsTwin "a.yml" := .inl rfl
  have hexit := exitCode_update_twins hsecond
  have hpasses := hall {} { directory := "s" } (twinScenarios "a.yml") hexit
  obtain ⟨paths, hfiles, -, hwritten, -, hiff⟩ :=
    @passes_iff_agree { directory := "s" } (twinScenarios "a.yml") _ {} {} hexit rfl
  have hpaths : ["s/a.yaml", "s/" ++ "a.yml"] = paths :=
    Except.ok.inj ((files_twins hsecond false).symm.trans hfiles)
  subst hpaths
  have hagree := hiff.mp hpasses
  have hg := allGolden_flatMap
    (run {} { directory := "s", update := true } (twinScenarios "a.yml")).files
    ["s/a.yaml", "s/" ++ "a.yml"]
  obtain ⟨hload, hrun⟩ := unaffected_of_replaced hwritten hg
    (isScenarioName_of_mem hfiles (by simp)) (load_twins hsecond).1
  obtain ⟨hload', hrun'⟩ := unaffected_of_replaced hwritten hg
    (isScenarioName_of_mem hfiles (by simp)) (load_twins hsecond).2
  rw [List.flatMap_cons, List.flatMap_singleton,
    goldenTexts_eq hload (by rw [hrun, (run_twins hsecond).1]),
    goldenTexts_eq hload' (by rw [hrun', (run_twins hsecond).2])] at hagree
  have hequal := hagree _ (List.mem_append_left _ List.mem_cons_self) _
    (List.mem_append_right _ List.mem_cons_self) (by decide +kernel)
  revert hequal
  decide +kernel

end Twins

end DeclGen.Suite
