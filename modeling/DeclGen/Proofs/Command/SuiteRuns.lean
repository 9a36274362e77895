import DeclGen.Proofs.Command.GoldenFiles
import DeclGen.Proofs.Store.Patterns
import DeclGen.Proofs.Store.Trees

/-!
# Every scenario is run once

The scenario files below a directory are known by their places: a proper ending, no golden directory
on the way, and a stem that fits the filter. A run of a directory takes exactly these files, each
once and in the order of a walk, and its summary counts them all.
-/

namespace DeclGen.Suite

open Files (destination locationLe)

variable {o : SuiteOptions} {fs : Files} {root : Location}

section Finding

/-- A filter is no filter at all, or it spells a pattern. -/
def IsFilter (filter : String) : Prop := filter = "" ∨ ∃ g, Glob.Spells filter.toList g

/-- A name fits a filter, if there is one. -/
def FitsFilter (filter name : String) : Prop :=
  filter = "" ∨ ∃ g, Glob.Spells filter.toList g ∧ g.Matches name.toList

/-- The place of a scenario file below a root: a regular file with one of two endings, in
directories of which none is a golden one, and with a name that fits the filter. -/
def IsScenarioPlace (o : SuiteOptions) (fs : Files) (root : Location) (c : List String) : Prop :=
  ∃ dirs name ending t, c = dirs ++ [name ++ ending] ∧ (ending = ".yaml" ∨ ending = ".yml") ∧
    "golden" ∉ dirs ∧ FitsFilter o.filter name ∧ fs.get? (root ++ c) = some (.file t)

/-- A selection that cannot fail does not fail. -/
theorem exists_filterM {α ε : Type} {f : α → Except ε Bool} (xs : List α)
    (h : ∀ x ∈ xs, ∃ b, f x = .ok b) : ∃ ys, xs.filterM f = .ok ys := by
  have haux (acc : List α) : ∃ zs, List.filterAuxM f xs acc = .ok zs := by
    induction xs generalizing acc with
    | nil => exact ⟨acc, rfl⟩
    | cons x rest ih =>
        obtain ⟨⟨b, hb⟩, hrest⟩ := List.forall_mem_cons.mp h
        rw [List.filterAuxM, hb]
        exact ih hrest _
  obtain ⟨zs, hzs⟩ := haux []
  exact ⟨zs.reverse, by rw [List.filterM, hzs]; rfl⟩

/-- With a well-formed filter, fitting it is decided by the stem. -/
theorem exists_fits {filter : String} (h : IsFilter filter) (path : String) :
    ∃ b, fits filter path = .ok b ∧ (b = true ↔ FitsFilter filter (Path.stem path)) := by
  by_cases hempty : filter = ""
  · exact ⟨true, by rw [fits, if_pos hempty], by simp [FitsFilter, hempty]⟩
  · obtain ⟨g, hg⟩ := h.resolve_left hempty
    have hparse := Glob.parse?_eq_some_iff.mpr hg
    refine ⟨g.holds (Path.stem path).toList, by rw [fits, if_neg hempty, hparse], ?_⟩
    simp only [Glob.holds_iff_matches, FitsFilter, ← Glob.parse?_eq_some_iff, hparse]
    simp [hempty]

/-- A name with the ending of scenario files has that ending as its extension. -/
theorem extension_of_ending {ending : String} (h : ending = ".yaml" ∨ ending = ".yml")
    (name : String) : Path.extension (name ++ ending) = ending := by
  rcases h with rfl | rfl
  · exact @Path.extension_append_ending "yaml".toList (by decide) (by decide) name
  · exact @Path.extension_append_ending "yml".toList (by decide) (by decide) name

theorem isScenarioName_iff {name : String} :
    isScenarioName name = true ↔
      Path.extension name = ".yaml" ∨ Path.extension name = ".yml" := by
  simp [isScenarioName]

/-- The stem of a scenario file does not depend on where the file is. -/
theorem stem_pathBelow (directory : String) {dirs : List String} {name ending : String}
    (hending : ending = ".yaml" ∨ ending = ".yml") (hslash : '/' ∉ (name ++ ending).toList) :
    Path.stem (pathBelow directory (dirs ++ [name ++ ending])) = name := by
  have hext := extension_of_ending hending name
  have hlong : 1 < ending.length := by
    rcases hending with rfl | rfl <;> decide
  have hlast : Path.lastPiece ("/".intercalate (dirs ++ [name ++ ending])) =
      (name ++ ending).toList.reverse := by
    rw [Path.lastPiece_intercalate List.getLast?_concat, Path.lastPiece_of_not_mem hslash]
  have hnames : Path.extension ("/".intercalate (dirs ++ [name ++ ending])) = ending := by
    rw [Path.extension_congr (Path.lastPiece_intercalate List.getLast?_concat), hext]
  have hbelow : Path.lastPiece (pathBelow directory (dirs ++ [name ++ ending])) =
      (name ++ ending).toList.reverse := by
    rw [pathBelow, if_neg (by simp), Path.lastPiece_join (by rwa [hnames]), hlast]
  apply Path.stem_eq hlong
  · rw [Path.extension_congr (hbelow.trans (Path.lastPiece_of_not_mem hslash).symm), hext]
  · rw [Path.lastName, hbelow, List.reverse_reverse, String.ofList_toList]

/-- The files that a walk of a directory tree takes for scenario files are those at the places of
scenario files. -/
theorem isScenarioPlace_iff (htree : fs.IsTree) (hdir : fs.get? root = some .directory)
    {c : List String} :
    IsScenarioPlace o fs root c ↔
      c ∈ fs.walk root ∧ isCandidate o.directory c = true ∧
        FitsFilter o.filter (Path.stem (pathBelow o.directory c)) := by
  rw [htree.mem_walk_iff]
  constructor
  · rintro ⟨dirs, name, ending, t, rfl, hending, hgolden, hfits, hfile⟩
    have hslash := (htree.isComponent_of_file hfile (name ++ ending) (by simp)).2
    refine ⟨⟨t, hfile⟩, ?_, by rwa [stem_pathBelow o.directory hending hslash]⟩
    have hname : isScenarioName (name ++ ending) = true := by
      rw [isScenarioName_iff, extension_of_ending hending]
      exact hending
    simp [isCandidate, hgolden, hname]
  · rintro ⟨⟨t, hfile⟩, hcandidate, hfits⟩
    have hne : c ≠ [] := by
      rintro rfl
      rw [List.append_nil, hdir] at hfile
      cases hfile
    obtain ⟨dirs, last, rfl⟩ := (List.eq_nil_or_concat' c).resolve_left hne
    rw [isCandidate, Bool.and_eq_true] at hcandidate
    obtain ⟨hgolden, hname⟩ := hcandidate
    have hslash := (htree.isComponent_of_file hfile last (by simp)).2
    obtain ⟨name, hsplit⟩ := Path.exists_eq_append_extension hslash
    have hending : Path.extension last = ".yaml" ∨ Path.extension last = ".yml" := by
      simpa [isScenarioName_iff] using hname
    generalize Path.extension last = ending at hsplit hending
    subst hsplit
    rw [stem_pathBelow o.directory hending hslash] at hfits
    exact ⟨dirs, name, ending, t, rfl, hending, by simpa using hgolden, hfits, hfile⟩

/-- In a directory tree the scenario files are found, in the order of a walk. -/
theorem exists_files (htree : fs.IsTree) (hroot : fs.locate o.directory = .ok root)
    (hdir : fs.get? root = some .directory) (hfilter : IsFilter o.filter) :
    ∃ found : List (List String), (∀ c, c ∈ found ↔ IsScenarioPlace o fs root c) ∧
      found.Pairwise (fun a b => locationLe a b = true ∧ a ≠ b) ∧
      files o fs = .ok (found.map (pathBelow o.directory)) := by
  have hstat : fs.stat o.directory = .ok .directory := by
    simp [Files.stat, hroot, hdir, bind, Except.bind]
  have hfits (path : String) := exists_fits hfilter path
  obtain ⟨paths, hpaths⟩ := exists_filterM
    (((fs.walk root).filter (isCandidate o.directory)).map (pathBelow o.directory))
    fun path _ => (hfits path).imp fun b hb => hb.1
  have hchosen := filter_of_filterM hpaths
  rw [List.filter_map, List.filter_filter] at hchosen
  refine ⟨(fs.walk root).filter fun c =>
    (fits o.filter (pathBelow o.directory c)).toOption == some true &&
      isCandidate o.directory c, fun c => ?_, htree.walk_sorted.filter _, ?_⟩
  · obtain ⟨b, hb, hiff⟩ := hfits (pathBelow o.directory c)
    rw [isScenarioPlace_iff htree hdir, List.mem_filter, ← hiff, Bool.and_eq_true]
    simp [hb, Except.toOption, and_comm]
  · rw [files, hroot, hstat]
    exact hpaths.trans (congrArg _ hchosen)

end Finding

section Running

/-- Scenario files are run in turn, each of them once and on the store that those before it have
left. -/
inductive RunInTurn (o : SuiteOptions) : Files → List String → List ScenarioResult → Prop
  | nil (fs : Files) : RunInTurn o fs [] []
  | cons (fs : Files) (path : String) {rest : List String} {results : List ScenarioResult}
      (hrest : RunInTurn o (runFile o fs path).files rest results) :
      RunInTurn o fs (path :: rest) ((runFile o fs path).result :: results)

theorem runInTurn_runFiles (o : SuiteOptions) (fs : Files) (paths : List String) :
    RunInTurn o fs paths (runFiles o fs paths).2.2.2 := by
  induction paths generalizing fs with
  | nil => exact .nil fs
  | cons path rest ih => exact .cons fs path (ih _)

theorem RunInTurn.length_eq {paths : List String} {rs : List ScenarioResult}
    (h : RunInTurn o fs paths rs) : rs.length = paths.length := by
  induction h with
  | nil fs => rfl
  | cons fs path _ ih => rw [List.length_cons, List.length_cons, ih]

end Running

section Counting

theorem passed_add_failed (rs : List ScenarioResult) : passed rs + failed rs = rs.length := by
  rw [passed, failed, ← List.countP_eq_length_filter, ← List.countP_eq_length_filter]
  simpa using (List.length_eq_countP_add_countP ScenarioResult.pass).symm

theorem exitCode_error? (rs : List ScenarioResult) :
    exitCode (error? rs) = if failed rs = 0 then 0 else 1 := by
  rw [error?]
  split <;> rfl

/-- The answer about all scenarios. -/
def answer (rs : List ScenarioResult) : Response :=
  if failed rs = 0 then .success (some (summaryJson rs))
  else .failure "E301" (failedMessage rs) (some (summaryJson rs))

/-- All strings of a summary are read back as they are. -/
theorem repaired_summaryJson (rs : List ScenarioResult) :
    (summaryJson rs).repaired = summaryJson rs := by
  have hresult (x : ScenarioResult) : (resultJson x).repaired = resultJson x := by
    have herrors : (x.errors.map Json.ofString).map Json.repaired = x.errors.map Json.ofString := by
      simp [Json.ofString, Json.repaired]
    by_cases hnil : x.errors = []
    · simp [resultJson, hnil, Json.repaired, Json.repairedFields, Json.ofString]
    · simp [resultJson, hnil, Json.repaired, Json.repairedFields, Json.repairedList_eq_map,
        Json.ofString]
  have hresults : (rs.map resultJson).map Json.repaired = rs.map resultJson := by
    rw [List.map_map]
    exact List.map_congr_left fun x _ => hresult x
  simp [summaryJson, Json.repaired, Json.repairedFields, Json.repairedList_eq_map, hresults,
    Json.ofNat]

theorem answer_isIn_report {r : Reporting} (hr : r.format = .json) {rs : List ScenarioResult}
    {out : Text} (hout : report r rs = .ok out) : (answer rs).IsIn out := by
  have hpayload : Response.payload (summaryJson rs) = some (summaryJson rs) := by
    rw [Response.payload, repaired_summaryJson]
    rfl
  simp only [report, hr] at hout
  rw [answer, ← hpayload]
  split at hout
  · next hzero =>
      rw [if_pos hzero]
      exact Response.isIn_success hr (fitsIn_summaryJson rs).1 hout
  · next hne =>
      rw [if_neg hne]
      exact Response.isIn_error hr (fitsIn_summaryJson rs).1 hout

/-- What is printed about the scenarios that were found is the report on them. -/
theorem out_run (r : Reporting) {paths : List String} (h : files o fs = .ok paths) :
    report r (runFiles o fs paths).2.2.2 = .ok (run r o fs).out := by
  have hstat := (files_eq_ok h).2.1
  obtain ⟨out, hout⟩ := exists_report r (runFiles o fs paths).2.2.2
  rw [run]
  split
  · next hmissing => exact absurd hmissing hstat
  · simp [h, Ending.reported, hout]

end Counting

/-- Every scenario of a directory is run once and accounted for. In a directory tree, and with a
well-formed filter, the places of scenario files are found in the order of a walk, and their names
lead to them. They are run in turn, each once, and what is printed is the report on these runs in
this order: in JSON it is one answer, with all results and their numbers. The scenarios that passed
and those that failed add up to all of them, and the exit code is 0 or 1, depending on whether any
failed. -/
theorem every_scenario_run_once (r : Reporting) (htree : fs.IsTree)
    (hroot : fs.locate o.directory = .ok root) (hdir : fs.get? root = some .directory)
    (hfilter : IsFilter o.filter) :
    ∃ (found : List (List String)) (rs : List ScenarioResult),
      (∀ c, c ∈ found ↔ IsScenarioPlace o fs root c) ∧
      found.Pairwise (fun a b => locationLe a b = true ∧ a ≠ b) ∧
      (∀ c ∈ found, fs.locate (pathBelow o.directory c) = .ok (root ++ c)) ∧
      RunInTurn o fs (found.map (pathBelow o.directory)) rs ∧
      report r rs = .ok (run r o fs).out ∧
      (r.format = .json → (answer rs).IsIn (run r o fs).out) ∧
      rs.length = found.length ∧ passed rs + failed rs = rs.length ∧
      exitCode (run r o fs).error = if failed rs = 0 then 0 else 1 := by
  obtain ⟨found, hmem, hsorted, hfiles⟩ := exists_files htree hroot hdir hfilter
  have hturn := runInTurn_runFiles o fs (found.map (pathBelow o.directory))
  have hout := out_run r hfiles
  have herror := (run_eq r hfiles).2
  generalize (runFiles o fs (found.map (pathBelow o.directory))).2.2.2 = rs at hturn hout herror
  refine ⟨found, rs, hmem, hsorted, ?_, hturn, hout, ?_, ?_, passed_add_failed rs, ?_⟩
  · intro c hc
    obtain ⟨dirs, name, ending, t, rfl, -, -, -, hfile⟩ := (hmem c).mp hc
    rw [pathBelow, if_neg (by simp)]
    exact htree.locate_join hroot (by simp) hfile
  · exact fun hr => answer_isIn_report hr hout
  · rw [hturn.length_eq, List.length_map]
  · rw [herror, exitCode_error?]

section Prunings

/-- A directory with a scenario file in it, one in a golden directory and one in another
directory. -/
def prunedTree : Files :=
  ⟨[(["s"], .directory), (["s", "a.yaml"], .file []), (["s", "golden"], .directory),
    (["s", "golden", "ab.yaml"], .file []), (["s", "sub"], .directory),
    (["s", "sub", "ab.yml"], .file [])]⟩

theorem isTree_prunedTree : prunedTree.IsTree where
  distinct := by decide
  inside := by decide
  components := by
    simp only [Path.IsComponent, Path.IsProper]
    decide
  nested := by decide

/-- Two of the three files have names that fit the filter, and one of these is run. -/
theorem prunedTree_run_once :
    ∃ (found : List (List String)) (rs : List ScenarioResult),
      ["sub", "ab.yml"] ∈ found ∧ ["golden", "ab.yaml"] ∉ found ∧
      RunInTurn { directory := "s/.", filter := "a?" } prunedTree
        (found.map (pathBelow "s/.")) rs ∧
      (answer rs).IsIn
        (run { format := .json } { directory := "s/.", filter := "a?" } prunedTree).out := by
  have hroot : prunedTree.locate "s/." = .ok ["s"] := rfl
  have hfilter : Glob.Spells "a?".toList [.char 'a', .one] := .char (by decide) (.one .nil)
  obtain ⟨found, rs, hmem, -, -, hturn, -, hanswer, -⟩ :=
    every_scenario_run_once (o := { directory := "s/.", filter := "a?" }) { format := .json }
      isTree_prunedTree hroot rfl (.inr ⟨_, hfilter⟩)
  refine ⟨found, rs, ?_, ?_, hturn, hanswer rfl⟩
  · refine (hmem _).mpr ⟨["sub"], "ab", ".yml", [], rfl, .inr rfl, by decide, ?_, rfl⟩
    exact .inr ⟨_, hfilter, .char 'a' (.one (by decide) .nil)⟩
  · intro hfound
    obtain ⟨dirs, name, ending, t, hplace, -, hgolden, -⟩ := (hmem _).mp hfound
    have hsplit : ["golden"] ++ ["ab.yaml"] = dirs ++ [name ++ ending] := hplace
    obtain ⟨hdirs, -⟩ := List.append_inj' hsplit rfl
    exact hgolden (by rw [← hdirs]; decide)

end Prunings

end DeclGen.Suite
