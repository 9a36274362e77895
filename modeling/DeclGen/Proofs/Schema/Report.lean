import DeclGen.Document.Loading
import DeclGen.Proofs.Text.Order

/-!
# What is reported of findings

The check of a document gives a tree of findings, and the fields of an object can be visited in any
order, so the same findings can stand in the tree in different orders. The report does not depend on
this: it has one issue for each path and message of a leaf, in strictly increasing order.

## Implementation notes

A list in strictly increasing order is given by its elements. So it is enough that two trees have
the same leaves, in whatever order and however often.
-/

namespace DeclGen

/-- Once duplicates were taken out there are none. -/
theorem nodup_eraseDups {α : Type} [BEq α] [LawfulBEq α] (as : List α) : as.eraseDups.Nodup := by
  cases as with
  | nil => simp
  | cons a as =>
      rw [List.eraseDups_cons, List.nodup_cons]
      exact ⟨by simp [List.mem_eraseDups], nodup_eraseDups (as.filter fun b => !b == a)⟩
termination_by as.length
decreasing_by exact Nat.lt_succ_of_le (List.length_filter_le _ _)

namespace Issue

variable {a b c : Issue}

/-- One issue stands before another: its path is smaller, or the paths are equal and its message is
smaller, byte by byte. -/
def Before (a b : Issue) : Prop :=
  Text.ofString a.path < Text.ofString b.path ∨
    a.path = b.path ∧ Text.ofString a.message < Text.ofString b.message

theorem Before.trans (hab : Before a b) (hbc : Before b c) : Before a c := by
  rcases hab with hab | ⟨hpath, hab⟩
  · rcases hbc with hbc | ⟨hpath, -⟩
    · exact .inl (List.lt_trans hab hbc)
    · exact .inl (hpath ▸ hab)
  · rcases hbc with hbc | ⟨hpath', hbc⟩
    · exact .inl (hpath ▸ hbc)
    · exact .inr ⟨hpath.trans hpath', List.lt_trans hab hbc⟩

theorem not_before_self (a : Issue) : ¬ Before a a := by
  rintro (h | ⟨-, h⟩)
  · exact List.lt_irrefl _ h
  · exact List.lt_irrefl _ h

theorem le_iff (a b : Issue) : le a b = true ↔ Before a b ∨ a = b := by
  obtain ⟨p, m⟩ := a
  obtain ⟨q, n⟩ := b
  have hcompare (s t : String) : Text.le (.ofString s) (.ofString t) = true ↔
      Text.ofString s < Text.ofString t ∨ s = t := by
    rw [Text.le_iff, ← Text.ofString_injective.eq_iff]
    exact List.le_iff_lt_or_eq
  by_cases hp : p = q
  · subst hp
    have hirrefl : ¬ Text.ofString p < Text.ofString p := List.lt_irrefl _
    simp [le, Before, hcompare, hirrefl]
  · simp [le, Before, hcompare, hp]

theorem le_trans (a b c : Issue) (hab : le a b = true) (hbc : le b c = true) : le a c = true := by
  rw [le_iff] at hab hbc ⊢
  rcases hab with hab | rfl
  · rcases hbc with hbc | rfl
    · exact .inl (hab.trans hbc)
    · exact .inl hab
  · exact hbc

theorem le_total (a b : Issue) : (le a b || le b a) = true := by
  by_cases hp : a.path = b.path
  · rw [le, le, if_pos hp, if_pos hp.symm]
    exact Text.le_total _ _
  · rw [le, le, if_neg hp, if_neg (Ne.symm hp)]
    exact Text.le_total _ _

end Issue

namespace Schema

section Leaves

variable {loc : Pointer} {p : Problem}

/-- A problem at a location is a leaf of a finding. -/
inductive Finding.HasLeaf (loc : Pointer) (p : Problem) : Finding → Prop
  | here : HasLeaf loc p (.leaf loc p)
  | inside {causes : List Finding} {f : Finding} :
      f ∈ causes → HasLeaf loc p f → HasLeaf loc p (.group causes)

/-- Findings of which the causes at any level stand in another order. -/
inductive Reordered : List Finding → List Finding → Prop
  | nil : Reordered [] []
  | leaf (loc : Pointer) (p : Problem) {fs gs : List Finding} :
      Reordered fs gs → Reordered (.leaf loc p :: fs) (.leaf loc p :: gs)
  | group {causes others fs gs : List Finding} :
      Reordered causes others → Reordered fs gs →
        Reordered (.group causes :: fs) (.group others :: gs)
  | swap (f g : Finding) (fs : List Finding) : Reordered (f :: g :: fs) (g :: f :: fs)
  | trans {fs gs hs : List Finding} : Reordered fs gs → Reordered gs hs → Reordered fs hs

mutual

theorem Finding.hasLeaf_of_mem_leaves : ∀ f : Finding, (loc, p) ∈ f.leaves → f.HasLeaf loc p
  | .leaf l q, h => by
      rw [Finding.leaves, List.mem_singleton] at h
      cases h
      exact .here
  | .group causes, h => by
      rw [Finding.leaves] at h
      obtain ⟨f, hf, hleaf⟩ := exists_hasLeaf_of_mem_leavesOf causes h
      exact .inside hf hleaf

theorem exists_hasLeaf_of_mem_leavesOf :
    ∀ fs : List Finding, (loc, p) ∈ leavesOf fs → ∃ f ∈ fs, f.HasLeaf loc p
  | f :: fs, h => by
      rw [leavesOf, List.mem_append] at h
      rcases h with h | h
      · exact ⟨f, List.mem_cons_self, f.hasLeaf_of_mem_leaves h⟩
      · obtain ⟨g, hg, hleaf⟩ := exists_hasLeaf_of_mem_leavesOf fs h
        exact ⟨g, List.mem_cons_of_mem f hg, hleaf⟩

end

theorem mem_leavesOf_of_mem {f : Finding} {fs : List Finding} (hf : f ∈ fs)
    (h : (loc, p) ∈ f.leaves) : (loc, p) ∈ leavesOf fs := by
  induction fs with
  | nil => cases hf
  | cons g fs ih =>
      rw [leavesOf, List.mem_append]
      rcases List.mem_cons.mp hf with rfl | hf
      · exact .inl h
      · exact .inr (ih hf)

theorem Finding.HasLeaf.mem_leaves {f : Finding} (h : f.HasLeaf loc p) : (loc, p) ∈ f.leaves := by
  induction h with
  | here => simp [leaves]
  | inside hf _ ih =>
      rw [leaves]
      exact mem_leavesOf_of_mem hf ih

/-- The leaves are found wherever they stand. -/
theorem mem_leavesOf_iff {fs : List Finding} :
    (loc, p) ∈ leavesOf fs ↔ ∃ f ∈ fs, f.HasLeaf loc p := by
  constructor
  · exact exists_hasLeaf_of_mem_leavesOf fs
  · rintro ⟨f, hf, hleaf⟩
    exact mem_leavesOf_of_mem hf hleaf.mem_leaves

mutual

theorem Reordered.refl_cons (fs : List Finding) (h : Reordered fs fs) :
    ∀ f : Finding, Reordered (f :: fs) (f :: fs)
  | .leaf loc p => .leaf loc p h
  | .group causes => .group (Reordered.refl causes) h

theorem Reordered.refl : ∀ fs : List Finding, Reordered fs fs
  | [] => .nil
  | f :: fs => Reordered.refl_cons fs (Reordered.refl fs) f

end

/-- Findings may stand in any other order. -/
theorem Reordered.of_perm {fs gs : List Finding} (h : fs.Perm gs) : Reordered fs gs := by
  induction h with
  | nil => exact .nil
  | cons f _ ih =>
      cases f with
      | leaf loc p => exact .leaf loc p ih
      | group causes => exact .group (.refl causes) ih
  | swap f g fs => exact .swap g f fs
  | trans _ _ ih ih' => exact ih.trans ih'

/-- Another order of the findings is another order of their leaves. -/
theorem Reordered.leavesOf_perm {fs gs : List Finding} (h : Reordered fs gs) :
    (leavesOf fs).Perm (leavesOf gs) := by
  induction h with
  | nil => exact .refl _
  | leaf loc p _ ih => exact ih.append_left _
  | group _ _ ihcauses ih => exact ihcauses.append ih
  | swap f g fs =>
      simp only [leavesOf, ← List.append_assoc]
      exact List.perm_append_comm.append_right _
  | trans _ _ ih ih' => exact ih.trans ih'

end Leaves

section Reports

variable {fs gs : List Finding}

/-- A report has the path and the message of each leaf, and nothing else. -/
theorem mem_report_iff {i : Issue} :
    i ∈ report fs ↔ ∃ loc p, (loc, p) ∈ leavesOf fs ∧ i = ⟨loc.path, p.message⟩ := by
  rw [report, List.mem_mergeSort, List.mem_eraseDups, List.mem_map]
  constructor
  · rintro ⟨⟨loc, p⟩, hleaf, rfl⟩
    exact ⟨loc, p, hleaf, rfl⟩
  · rintro ⟨loc, p, hleaf, rfl⟩
    exact ⟨(loc, p), hleaf, rfl⟩

theorem nodup_report (fs : List Finding) : (report fs).Nodup :=
  (List.mergeSort_perm _ _).nodup_iff.mpr (nodup_eraseDups _)

/-- The issues of a report stand in strictly increasing order. -/
theorem report_before (fs : List Finding) : (report fs).Pairwise Issue.Before := by
  have hsorted : (report fs).Pairwise fun a b => Issue.le a b = true :=
    List.pairwise_mergeSort Issue.le_trans Issue.le_total _
  refine (hsorted.and (nodup_report fs)).imp fun ⟨hle, hne⟩ => ?_
  exact ((Issue.le_iff _ _).mp hle).resolve_right hne

/-- Findings with the same leaves have the same report. -/
theorem report_congr (h : ∀ l, l ∈ leavesOf fs ↔ l ∈ leavesOf gs) : report fs = report gs := by
  have hmem (i : Issue) : i ∈ report fs ↔ i ∈ report gs := by
    simp only [mem_report_iff, h]
  have hperm : (report fs).Perm (report gs) :=
    (List.perm_ext_iff_of_nodup (nodup_report fs) (nodup_report gs)).mpr hmem
  refine List.Perm.eq_of_pairwise ?_ (report_before fs) (report_before gs) hperm
  intro a b _ _ hab hba
  exact absurd (hab.trans hba) (Issue.not_before_self a)

theorem Reordered.report_eq (h : Reordered fs gs) : report fs = report gs :=
  report_congr fun _ => h.leavesOf_perm.mem_iff

/-- A report is canonical. The order of the findings does not matter at any level, nor does it for
the check of a document; the issues are strictly increasing by path and message, so there are no
duplicates, and they are the paths and messages of the leaves. -/
theorem report_canonical (fs : List Finding) :
    (∀ gs, Reordered fs gs → report gs = report fs) ∧
    (∀ format t file v, Document.readValue format t = .ok v →
      Reordered (Part.document.check [] v) fs → Document.lint format t file = .ok (report fs)) ∧
    (report fs).Pairwise Issue.Before ∧ (report fs).Nodup ∧
    ∀ i, i ∈ report fs ↔ ∃ f ∈ fs, ∃ loc p, f.HasLeaf loc p ∧ i = ⟨loc.path, p.message⟩ := by
  refine ⟨fun gs h => h.report_eq.symm, ?_, report_before fs, nodup_report fs, ?_⟩
  · intro format t file v hv h
    rw [Document.lint, hv, ← h.report_eq]
    rfl
  · intro i
    simp only [mem_report_iff, mem_leavesOf_iff]
    constructor
    · rintro ⟨loc, p, ⟨f, hf, hleaf⟩, rfl⟩
      exact ⟨f, hf, loc, p, hleaf, rfl⟩
    · rintro ⟨f, hf, loc, p, hleaf, rfl⟩
      exact ⟨loc, p, ⟨f, hf, hleaf⟩, rfl⟩

/-- A document with an unknown field and an item that lacks its kind and has no proper name. -/
def threeFaults : Text :=
  .ofString "\x7b\"items\": [\x7b\"name\": []\x7d], \"x\": 1\x7d"

/-- Its three problems are reported the same in the other order. -/
theorem threeFaults_reported :
    ∃ v, Document.readValue .json threeFaults = .ok v ∧
      (leavesOf (Part.document.check [] v)).length = 3 ∧
      Reordered (Part.document.check [] v) (Part.document.check [] v).reverse ∧
      Document.lint .json threeFaults "d.json" =
        .ok (report (Part.document.check [] v).reverse) := by
  have hthree : ((Document.readValue .json threeFaults).toOption.map fun v =>
      (leavesOf (Part.document.check [] v)).length) = some 3 := by
    decide +kernel
  cases hv : Document.readValue .json threeFaults with
  | error f =>
      rw [hv] at hthree
      cases hthree
  | ok v =>
      rw [hv] at hthree
      have hreordered := Reordered.of_perm (Part.document.check [] v).reverse_perm.symm
      obtain ⟨-, hlint, -⟩ := report_canonical (Part.document.check [] v).reverse
      exact ⟨v, rfl, Option.some.inj hthree, hreordered, hlint _ _ _ _ hv hreordered⟩

end Reports

end Schema

end DeclGen
