import DeclGen.Proofs.Store.Naming
import DeclGen.Proofs.Store.Rewriting
import Mathlib.Data.List.Induction
import Mathlib.Data.List.Nodup

/-!
# Directory trees

A store is a directory tree when each of its places holds one thing, has a proper path, and lies in
a directory. A walk of a tree finds every regular file below its root once, and the name of a place
below a directory leads to that place.

## Implementation notes

The name of a place below a directory is the shortest one, where the steps of the directory's own
name to parent directories are already taken. It is the same place because there are no links, and
because a name inside the tree never leaves the working directory.
-/

namespace DeclGen

namespace Path

/-- A component of a place: a proper name without slashes. -/
def IsComponent (name : String) : Prop := IsProper name ∧ '/' ∉ name.toList

section Pieces

theorem piecesFrom_append_slash (xs ys : List Char) (piece : List Char) :
    piecesFrom piece (xs ++ '/' :: ys) = piecesFrom piece xs ++ piecesFrom [] ys := by
  induction xs generalizing piece with
  | nil => simp [piecesFrom]
  | cons c rest ih =>
      by_cases hc : c = '/'
      · rw [hc, List.cons_append, piecesFrom, piecesFrom, ih, List.cons_append]
      · rw [List.cons_append, piecesFrom.eq_3 _ _ _ hc, piecesFrom.eq_3 _ _ _ hc, ih]

/-- A slash separates the pieces of two names. -/
theorem pieces_append_slash (s t : String) : pieces (s ++ "/" ++ t) = pieces s ++ pieces t := by
  have hc : ("/" : String).toList = ['/'] := rfl
  rw [pieces, String.toList_append, String.toList_append, hc, List.append_assoc,
    List.singleton_append, piecesFrom_append_slash]
  rfl

theorem piecesFrom_of_not_mem {cs : List Char} (h : '/' ∉ cs) (piece : List Char) :
    piecesFrom piece cs = [String.ofList (piece.reverse ++ cs)] := by
  induction cs generalizing piece with
  | nil => simp [piecesFrom]
  | cons c rest ih =>
      obtain ⟨hc, hrest⟩ := List.ne_and_not_mem_of_not_mem_cons h
      rw [piecesFrom.eq_3 _ _ _ (Ne.symm hc), ih hrest, List.reverse_cons, List.append_assoc,
        List.singleton_append]

/-- The pieces of a name that is put together from names without slashes. -/
theorem pieces_intercalate {cs : List String} (hne : cs ≠ []) (h : ∀ c ∈ cs, '/' ∉ c.toList) :
    pieces ("/".intercalate cs) = cs := by
  induction cs with
  | nil => exact absurd rfl hne
  | cons c rest ih =>
      obtain ⟨hc, hrest⟩ := List.forall_mem_cons.mp h
      have hpieces : pieces c = [c] := by
        rw [pieces, piecesFrom_of_not_mem hc]
        simp
      cases rest with
      | nil => rw [String.intercalate_singleton, hpieces]
      | cons d more =>
          rw [String.intercalate_cons_cons, pieces_append_slash, hpieces, ih (by simp) hrest,
            List.singleton_append]

end Pieces

section Components

/-- Proper names are stacked as they come. -/
theorem foldl_push_of_isProper (rooted : Bool) {cs : List String} (h : ∀ c ∈ cs, IsProper c)
    (stack : List String) : cs.foldl (push rooted) stack = cs.reverse ++ stack := by
  induction cs generalizing stack with
  | nil => rfl
  | cons c rest ih =>
      obtain ⟨hc, hrest⟩ := List.forall_mem_cons.mp h
      rw [List.foldl_cons, push_of_isProper hc, ih hrest]
      simp

/-- A step above the working directory is never taken back. -/
theorem mem_push {stack : List String} (h : ".." ∈ stack) (piece : String) :
    ".." ∈ push false stack piece := by
  unfold push
  split
  · exact h
  · split
    · cases stack with
      | nil => cases h
      | cons top below =>
          by_cases htop : top = ".."
          · simp [htop]
          · simpa [htop, Ne.symm htop] using h
    · exact List.mem_cons_of_mem piece h

theorem mem_foldl_push {ps stack : List String} (h : ".." ∈ stack) :
    ".." ∈ ps.foldl (push false) stack := by
  induction ps generalizing stack with
  | nil => exact h
  | cons p rest ih => exact ih (mem_push h p)

/-- It does not matter whether a name starts at the root if it never leaves the working
directory. -/
theorem foldl_push_rooted {ps stack : List String} (h : ".." ∉ ps.foldl (push false) stack) :
    ps.foldl (push true) stack = ps.foldl (push false) stack := by
  induction ps generalizing stack with
  | nil => rfl
  | cons p rest ih =>
      have hpush : push true stack p = push false stack p := by
        by_cases hleaves : stack = [] ∧ p = ".."
        · obtain ⟨rfl, rfl⟩ := hleaves
          have hleft : ".." ∈ rest.foldl (push false) [".."] := mem_foldl_push (by decide)
          exact absurd hleft h
        · unfold push
          cases stack with
          | nil => simp_all
          | cons top below => rfl
      rw [List.foldl_cons, List.foldl_cons, hpush]
      exact ih h

theorem components_eq_of_not_mem {path : String}
    (h : ".." ∉ (pieces path).foldl (push false) []) :
    components path = ((pieces path).foldl (push false) []).reverse := by
  rw [components]
  cases isAbsolute path with
  | false => rfl
  | true => rw [foldl_push_rooted h]

/-- The components of a name below a directory. -/
theorem components_below {dir : String} (hdir : dir ≠ "") {cs : List String} (hne : cs ≠ [])
    (h : ∀ c ∈ cs, IsComponent c) :
    components (dir ++ "/" ++ "/".intercalate cs) = components dir ++ cs := by
  have habsolute : isAbsolute (dir ++ "/" ++ "/".intercalate cs) = isAbsolute dir := by
    obtain ⟨c, rest, hcs⟩ := List.exists_cons_of_ne_nil (l := dir.toList) (by simpa using hdir)
    simp [isAbsolute, hcs]
  rw [components, components, habsolute, pieces_append_slash,
    pieces_intercalate hne fun c hc => (h c hc).2, List.foldl_append,
    foldl_push_of_isProper _ fun c hc => (h c hc).1]
  simp

end Components

end Path

namespace Files

open DeclGen.Path (IsComponent)

section Names

theorem destination_eq (path : String) :
    destination path = ((Path.pieces path).foldl (Path.push false) []).reverse := by
  have hfold (ps : List String) (loc : Location) :
      ps.foldl step loc = (ps.foldl (Path.push false) loc.reverse).reverse := by
    induction ps generalizing loc with
    | nil => simp
    | cons p rest ih => rw [List.foldl_cons, List.foldl_cons, ih, step, List.reverse_reverse]
  exact hfold _ []

variable {fs : Files}

/-- Proper names are followed one by one if all places on the way are directories. -/
theorem follow_of_prefixes {cs : List String} (h : ∀ c ∈ cs, IsComponent c) {loc : Location}
    (hdirs : ∀ dir, dir <+: cs → dir ≠ cs → fs.get? (loc ++ dir) = some .directory) :
    fs.follow loc cs = .ok (loc ++ cs) := by
  induction cs generalizing loc with
  | nil => rw [follow, List.append_nil]
  | cons c rest ih =>
      obtain ⟨hc, hrest⟩ := List.forall_mem_cons.mp h
      have hstart : fs.get? loc = some .directory := by
        simpa using hdirs [] (List.nil_prefix) (by simp)
      have hstep : step loc c = loc ++ [c] := by
        rw [step, Path.push_of_isProper hc.1]
        simp
      rw [follow, hstart]
      simp only
      rw [hstep, ih hrest fun dir hdir hne => ?_, List.append_assoc, List.singleton_append]
      have hbelow := hdirs (c :: dir) (List.cons_prefix_cons.mpr ⟨rfl, hdir⟩) (by simpa using hne)
      simpa using hbelow

/-- The shortest name for a place inside the working directory leads there. -/
theorem locate_clean {path : String} (h : ∀ c ∈ Path.components path, IsComponent c)
    (hdirs : ∀ dir, dir <+: Path.components path → dir ≠ Path.components path →
      fs.get? dir = some .directory) :
    fs.locate (Path.clean path) = .ok (Path.components path) := by
  generalize hcs : Path.components path = cs at h hdirs
  have hslashes : ∀ c ∈ cs, '/' ∉ c.toList := fun c hc => (h c hc).2
  have hbody : fs.follow [] (Path.pieces ("/".intercalate cs)) = .ok cs := by
    by_cases hnil : cs = []
    · subst hnil
      rfl
    · rw [Path.pieces_intercalate hnil hslashes]
      exact follow_of_prefixes h hdirs
  rw [Path.clean, hcs]
  split
  · have hpieces : Path.pieces ("/" ++ "/".intercalate cs) =
        "" :: Path.pieces ("/".intercalate cs) := by
      have hslash := Path.pieces_append_slash "" ("/".intercalate cs)
      rw [String.empty_append] at hslash
      exact hslash
    rw [locate, if_neg (by simp), hpieces]
    exact hbody
  · split
    · next hempty =>
        have hnil : cs = [] := by
          by_contra hnil
          have hpieces := Path.pieces_intercalate hnil hslashes
          rw [String.isEmpty_iff.mp hempty] at hpieces
          exact (h "" (hpieces ▸ List.mem_singleton.mpr rfl)).1.1 rfl
        subst hnil
        rfl
    · next hempty =>
        rw [locate, if_neg hempty]
        exact hbody

end Names

/-- A store is a directory tree: each place holds one thing, is inside the working directory, and
has a directory for its parent. -/
structure IsTree (fs : Files) : Prop where
  distinct : (fs.entries.map (·.1)).Nodup
  inside : ∀ e ∈ fs.entries, e.1 ≠ []
  components : ∀ e ∈ fs.entries, ∀ name ∈ e.1, IsComponent name
  nested : ∀ e ∈ fs.entries, fs.get? e.1.dropLast = some .directory

theorem below?_eq_some_iff {root loc : Location} {c : List String} :
    below? root loc = some c ↔ loc = root ++ c := by
  rw [below?]
  constructor
  · intro h
    split at h
    · next hprefix =>
        cases h
        obtain ⟨rest, rfl⟩ := List.isPrefixOf_iff_prefix.mp hprefix
        rw [List.drop_left]
    · cases h
  · rintro rfl
    simp

namespace IsTree

variable {fs : Files} (h : fs.IsTree) {loc root : Location}
include h

theorem lookup_eq_some_iff {e : Entry} :
    fs.entries.lookup loc = some e ↔ (loc, e) ∈ fs.entries := by
  have hentries (es : List (Location × Entry)) (hnodup : (es.map (·.1)).Nodup) :
      es.lookup loc = some e ↔ (loc, e) ∈ es := by
    induction es with
    | nil => simp
    | cons entry rest ih =>
        obtain ⟨k, x⟩ := entry
        rw [List.map_cons, List.nodup_cons] at hnodup
        rw [lookup_cons_ite, List.mem_cons]
        split
        · next hk =>
            subst hk
            have hnot : (loc, e) ∉ rest := fun hmem =>
              hnodup.1 (List.mem_map_of_mem (f := (·.1)) hmem)
            simp [hnot, eq_comm]
        · next hk => simp [ih hnodup.2, hk]
  exact hentries fs.entries h.distinct

/-- A place with an entry is inside the working directory. -/
theorem isOutside_eq_false {e : Entry} (hmem : (loc, e) ∈ fs.entries) : isOutside loc = false := by
  obtain ⟨c, rest, rfl⟩ := List.exists_cons_of_ne_nil (h.inside _ hmem)
  have hc : c ≠ ".." := (h.components _ hmem c List.mem_cons_self).1.2.2
  simp [isOutside, hc]

theorem get?_of_mem {e : Entry} (hmem : (loc, e) ∈ fs.entries) : fs.get? loc = some e := by
  rw [get?, h.isOutside_eq_false hmem]
  exact h.lookup_eq_some_iff.mpr hmem

theorem get?_eq_file_iff {t : Text} :
    fs.get? loc = some (.file t) ↔ (loc, .file t) ∈ fs.entries := by
  constructor
  · intro hget
    rw [get?] at hget
    split at hget
    · cases hget
    · exact h.lookup_eq_some_iff.mp hget
  · exact h.get?_of_mem

/-- All places on the way to an entry are directories. -/
theorem directory_of_prefix {e : Entry} (hmem : (loc, e) ∈ fs.entries) {dir : Location}
    (hdir : dir <+: loc) (hne : dir ≠ loc) : fs.get? dir = some .directory := by
  induction loc using List.reverseRecOn generalizing e with
  | nil => exact absurd rfl (h.inside _ hmem)
  | append_singleton front last ih =>
      have hfront : fs.get? front = some .directory := by
        simpa using h.nested _ hmem
      have hbefore : dir <+: front := (List.prefix_concat_iff.mp hdir).resolve_left hne
      by_cases heq : dir = front
      · rw [heq]
        exact hfront
      · -- The directory before the last name is not the working directory, so it has an entry.
        have houtside : isOutside front = false := by
          cases front with
          | nil => exact absurd (List.prefix_nil.mp hbefore) heq
          | cons c rest =>
              have hc := (h.components _ hmem c (by simp)).1.2.2
              simp [isOutside, hc]
        rw [get?, houtside] at hfront
        exact ih (h.lookup_eq_some_iff.mp hfront) hbefore heq

/-- The names of a place are components. -/
theorem isComponent_of_file {t : Text} (hfile : fs.get? loc = some (.file t)) :
    ∀ c ∈ loc, IsComponent c :=
  h.components _ (h.get?_eq_file_iff.mp hfile)

section Walks

theorem mem_places_iff : loc ∈ fs.places ↔ ∃ t, fs.get? loc = some (.file t) := by
  simp only [h.get?_eq_file_iff]
  rw [places, regular]
  simp only [List.mem_map, List.mem_filterMap]
  constructor
  · rintro ⟨⟨l, t⟩, ⟨⟨k, e⟩, hmem, hfile⟩, rfl⟩
    cases e with
    | directory => cases hfile
    | file t' =>
        cases hfile
        exact ⟨t, hmem⟩
  · rintro ⟨t, hmem⟩
    exact ⟨(loc, t), ⟨_, hmem, rfl⟩, rfl⟩

/-- A walk finds the regular files below its root. -/
theorem mem_walk_iff {c : List String} :
    c ∈ fs.walk root ↔ ∃ t, fs.get? (root ++ c) = some (.file t) := by
  rw [walk_eq, List.mem_mergeSort, List.mem_filterMap, ← h.mem_places_iff]
  simp only [below?_eq_some_iff]
  constructor
  · rintro ⟨l, hl, rfl⟩
    exact hl
  · intro hmem
    exact ⟨_, hmem, rfl⟩

theorem nodup_places : fs.places.Nodup := by
  have hsublist (es : List (Location × Entry)) :
      (places ⟨es⟩).Sublist (es.map (·.1)) := by
    induction es with
    | nil => exact .slnil
    | cons entry rest ih =>
        obtain ⟨k, e⟩ := entry
        cases e with
        | directory => exact ih.cons k
        | file t => exact ih.cons_cons k
  exact h.distinct.sublist (hsublist fs.entries)

/-- A walk finds each file once, and the files come in the order of their components. -/
theorem walk_sorted :
    (fs.walk root).Pairwise fun a b => locationLe a b = true ∧ a ≠ b := by
  have hnodup : (fs.walk root).Nodup := by
    rw [walk_eq, (List.mergeSort_perm _ _).nodup_iff]
    refine List.Nodup.filterMap (fun a b c ha hb => ?_) h.nodup_places
    rw [below?_eq_some_iff.mp ha, below?_eq_some_iff.mp hb]
  have hsorted : (fs.walk root).Pairwise fun a b => locationLe a b = true := by
    rw [walk_eq]
    exact List.pairwise_mergeSort locationLe_trans locationLe_total _
  exact hsorted.and hnodup

end Walks

/-- The name of a file below a directory leads to the file. -/
theorem locate_join {dir : String} (hdir : fs.locate dir = .ok root) {c : List String}
    (hne : c ≠ []) {t : Text} (hfile : fs.get? (root ++ c) = some (.file t)) :
    fs.locate (Path.join dir ("/".intercalate c)) = .ok (root ++ c) := by
  have hcomp := h.isComponent_of_file hfile
  have hc : ∀ name ∈ c, IsComponent name := fun name hn => hcomp name (List.mem_append_right _ hn)
  have hempty : ¬ dir.isEmpty = true := by
    intro hempty
    rw [locate, if_pos hempty] at hdir
    cases hdir
  have hname : ¬ ("/".intercalate c).isEmpty = true := by
    intro hempty
    have hpieces := Path.pieces_intercalate hne fun name hn => (hc name hn).2
    rw [String.isEmpty_iff.mp hempty] at hpieces
    exact (hc "" (hpieces ▸ List.mem_singleton.mpr rfl)).1.1 rfl
  have hroot : Path.components dir = root := by
    have hdest := eq_destination_of_locate hdir
    rw [destination_eq] at hdest
    rw [hdest]
    apply Path.components_eq_of_not_mem
    intro hmem
    rw [← List.mem_reverse, ← hdest] at hmem
    exact (hcomp ".." (List.mem_append_left _ hmem)).1.2.2 rfl
  have hbelow : Path.components (dir ++ "/" ++ "/".intercalate c) = root ++ c := by
    rw [Path.components_below (by simpa using hempty) hne hc, hroot]
  rw [Path.join, if_neg hempty, if_neg hname]
  rw [locate_clean (hbelow ▸ hcomp), hbelow]
  rw [hbelow]
  intro d hd hne
  exact h.directory_of_prefix (h.get?_eq_file_iff.mp hfile) hd hne

end IsTree

end Files

end DeclGen
