import DeclGen.Proofs.Store.Lookup

/-!
# Stores after several writes

When files are written one after the other, the text that is written last to a place is the one that
stays. Names that lead to other places find there what they found before, and a walk finds the same
other files.

## Implementation notes

`Files.Replaced` relates the stores before and after some writes, between which directories may be
made. It composes along lists of writes. A walk goes through the entries of a store, so for it alone
the relation speaks about entries.
-/

namespace DeclGen.Files

section History

/-- The text that is written last to a place. -/
def latest? (writes : List (Location × Text)) (loc : Location) : Option Text :=
  writes.reverse.lookup loc

theorem latest?_singleton (place loc : Location) (t : Text) :
    latest? [(place, t)] loc = if loc = place then some t else none := by
  rw [latest?, List.reverse_singleton, List.lookup_cons, List.lookup_nil]
  by_cases heq : loc = place
  · simp [heq]
  · simp [heq, beq_eq_false_iff_ne.mpr heq]

theorem latest?_append (ws vs : List (Location × Text)) (loc : Location) :
    latest? (ws ++ vs) loc = (latest? vs loc).or (latest? ws loc) := by
  rw [latest?, List.reverse_append, List.lookup_append]
  rfl

theorem latest?_eq_none_iff {writes : List (Location × Text)} {loc : Location} :
    latest? writes loc = none ↔ ∀ w ∈ writes, w.1 ≠ loc := by
  rw [latest?, List.lookup_eq_none_iff]
  simp only [List.mem_reverse, bne_iff_ne]
  constructor
  · intro h w hw
    exact (h w hw).symm
  · intro h w hw
    exact (h w hw).symm

theorem mem_of_latest? {writes : List (Location × Text)} {loc : Location} {t : Text}
    (h : latest? writes loc = some t) : (loc, t) ∈ writes := by
  obtain ⟨later, earlier, hsplit, -⟩ := List.lookup_eq_some_iff.mp h
  rw [← List.mem_reverse, hsplit]
  simp

theorem exists_latest? {writes : List (Location × Text)} {w : Location × Text} (h : w ∈ writes) :
    ∃ t, latest? writes w.1 = some t := by
  cases hl : latest? writes w.1 with
  | none => exact absurd rfl (latest?_eq_none_iff.mp hl w h)
  | some t => exact ⟨t, rfl⟩

end History

/-- The places of the regular files of a store. -/
def places (fs : Files) : List Location := fs.regular.map (·.1)

/-- A store before and after some texts were written to places, while directories may have been
made. -/
structure Replaced (writes : List (Location × Text)) (fs after : Files) : Prop where
  written : ∀ loc t, latest? writes loc = some t →
    fs.get? loc ≠ some .directory ∧ after.get? loc = some (.file t)
  kept : ∀ loc, latest? writes loc = none →
    after.get? loc = fs.get? loc ∨ fs.get? loc = none ∧ after.get? loc = some .directory
  others : after.places.filter (fun l => (latest? writes l).isNone) =
    fs.places.filter fun l => (latest? writes l).isNone

namespace Replaced

variable {ws vs : List (Location × Text)} {fs mid after : Files} {loc : Location}

theorem refl (fs : Files) : Replaced [] fs fs where
  written _ _ h := by cases h
  kept _ _ := .inl rfl
  others := rfl

theorem directory (h : Replaced ws fs after) (hd : fs.get? loc = some .directory) :
    after.get? loc = some .directory := by
  cases hl : latest? ws loc with
  | some t => exact absurd hd (h.written loc t hl).1
  | none =>
      rcases h.kept loc hl with heq | ⟨-, hafter⟩
      · rw [heq, hd]
      · exact hafter

theorem trans (h : Replaced ws fs mid) (h' : Replaced vs mid after) :
    Replaced (ws ++ vs) fs after where
  written loc t hl := by
    rw [latest?_append] at hl
    cases hv : latest? vs loc with
    | some u =>
        rw [hv] at hl
        cases hl
        obtain ⟨hmid, hafter⟩ := h'.written loc _ hv
        exact ⟨fun hd => hmid (h.directory hd), hafter⟩
    | none =>
        rw [hv, Option.none_or] at hl
        obtain ⟨hd, hmid⟩ := h.written loc t hl
        refine ⟨hd, ?_⟩
        rcases h'.kept loc hv with heq | ⟨hnone, -⟩
        · rw [heq, hmid]
        · rw [hmid] at hnone
          cases hnone
  kept loc hl := by
    rw [latest?_append, Option.or_eq_none_iff] at hl
    rcases h'.kept loc hl.1 with heq | ⟨hnone, hafter⟩
    · rw [heq]
      exact h.kept loc hl.2
    · rcases h.kept loc hl.2 with heq | ⟨-, hmid⟩
      · exact .inr ⟨heq ▸ hnone, hafter⟩
      · rw [hmid] at hnone
        cases hnone
  others := by
    have hboth (l : Location) : (latest? (ws ++ vs) l).isNone =
        ((latest? ws l).isNone && (latest? vs l).isNone) := by
      rw [latest?_append]
      cases latest? vs l <;> cases latest? ws l <;> rfl
    simp only [hboth]
    calc
      after.places.filter (fun l => (latest? ws l).isNone && (latest? vs l).isNone)
        = (after.places.filter fun l => (latest? vs l).isNone).filter
            fun l => (latest? ws l).isNone := by rw [List.filter_filter]
      _ = (mid.places.filter fun l => (latest? ws l).isNone).filter
            fun l => (latest? vs l).isNone := by
          rw [h'.others, List.filter_filter, List.filter_filter]
          simp only [Bool.and_comm]
      _ = fs.places.filter fun l => (latest? ws l).isNone && (latest? vs l).isNone := by
          rw [h.others, List.filter_filter]
          simp only [Bool.and_comm]

end Replaced

section Steps

variable {fs after : Files}

theorem setEntry_of_lookup {loc : Location} {es : List (Location × Entry)}
    (h : es.lookup loc = none) (e : Entry) : setEntry loc e es = es ++ [(loc, e)] := by
  induction es with
  | nil => rfl
  | cons entry rest ih =>
      obtain ⟨k, x⟩ := entry
      rw [lookup_cons_ite] at h
      split at h
      · cases h
      · next hk => rw [setEntry, if_neg (Ne.symm hk), ih h, List.cons_append]

/-- A new directory is no regular file. -/
theorem places_set_directory {loc : Location} (h : fs.get? loc = none) :
    (fs.set loc .directory).places = fs.places := by
  have hlookup : fs.entries.lookup loc = none := by
    rw [get?] at h
    split at h
    · cases h
    · exact h
  rw [places, places, regular, regular, set, setEntry_of_lookup hlookup, List.filterMap_append]
  simp

/-- Setting an entry leaves the regular files at other places. -/
theorem places_set_filter {loc : Location} (e : Entry) {p : Location → Bool}
    (hp : p loc = false) : (fs.set loc e).places.filter p = fs.places.filter p := by
  obtain ⟨es⟩ := fs
  simp only [places, regular, set]
  induction es with
  | nil => cases e <;> simp [setEntry, hp]
  | cons entry rest ih =>
      obtain ⟨k, x⟩ := entry
      rw [setEntry]
      split
      · next hk =>
          subst hk
          cases e <;> cases x <;> simp [hp]
      · cases x with
        | directory => simpa using ih
        | file t =>
            cases hpk : p k with
            | true => simpa [hpk] using ih
            | false => simpa [hpk] using ih

theorem replaced_set_directory {loc : Location} (h : fs.get? loc = none) :
    Replaced [] fs (fs.set loc .directory) where
  written _ _ hl := by cases hl
  kept l _ := grown_set_directory h l
  others := by rw [places_set_directory h]

theorem replaced_makeDirectories {path : String} (h : fs.makeDirectories path = .ok after) :
    Replaced [] fs after :=
  makeDirectories_induction .refl .trans replaced_set_directory h

/-- Writing a file puts its text in the place that the name leads to. -/
theorem replaced_write {path : String} {t : Text} (h : fs.write path t = .ok after) :
    fs.locate path = .ok (destination path) ∧ Replaced [(destination path, t)] fs after := by
  rw [write] at h
  cases hl : fs.locate path with
  | error e =>
      rw [hl] at h
      cases h
  | ok loc =>
      have hloc := eq_destination_of_locate hl
      subst hloc
      simp only [hl] at h
      refine ⟨rfl, ?_⟩
      split at h
      · cases h
      · next hd =>
          cases h
          have hdir : fs.get? (destination path) ≠ some .directory := fun h => hd h
          refine ⟨fun l u hu => ?_, fun l hn => ?_, ?_⟩
          · rw [latest?_singleton] at hu
            split at hu
            · next heq =>
                cases hu
                rw [heq, get?_set hdir, if_pos rfl]
                exact ⟨hdir, rfl⟩
            · cases hu
          · rw [latest?_singleton] at hn
            split at hn
            · cases hn
            · next hne =>
                rw [get?_set hdir, if_neg hne]
                exact .inl rfl
          · apply places_set_filter
            rw [latest?_singleton, if_pos rfl]
            rfl

end Steps

section Agreement

/-- Texts of which no two belong in the same place and differ. -/
def Agree (ws : List (Location × Text)) : Prop := ∀ x ∈ ws, ∀ y ∈ ws, x.1 = y.1 → x.2 = y.2

/-- All texts stay in their places exactly when no two of them are in conflict. -/
theorem Replaced.agree_iff {ws : List (Location × Text)} {fs after : Files}
    (h : Replaced ws fs after) :
    (∀ w ∈ ws, after.get? w.1 = some (.file w.2)) ↔ Agree ws := by
  constructor
  · intro hall x hx y hy hloc
    have hx' := hall x hx
    rw [hloc, hall y hy] at hx'
    exact (Entry.file.inj (Option.some.inj hx')).symm
  · intro hagree w hw
    obtain ⟨t, ht⟩ := exists_latest? hw
    rw [(h.written _ t ht).2, hagree w hw (w.1, t) (mem_of_latest? ht) rfl]

end Agreement

section Reading

variable {ws : List (Location × Text)} {fs after : Files} {loc : Location} {path : String}

/-- A name that does not lead anywhere because of a file in its way is still stopped by it. -/
theorem Replaced.follow_error (h : Replaced ws fs after) {ps : List String} {e : StoreError}
    (he : fs.follow loc ps = .error e) (hne : e ≠ .notFound) : after.follow loc ps = .error e := by
  induction ps generalizing loc with
  | nil => cases he
  | cons p rest ih =>
      rw [follow] at he ⊢
      split at he
      · next hd =>
          rw [h.directory hd]
          exact ih he
      · next t ht =>
          have hfile : ∃ u, after.get? loc = some (.file u) := by
            cases hl : latest? ws loc with
            | some u => exact ⟨u, (h.written loc u hl).2⟩
            | none =>
                rcases h.kept loc hl with heq | ⟨hnone, -⟩
                · exact ⟨t, heq.trans ht⟩
                · rw [ht] at hnone
                  cases hnone
          obtain ⟨u, hu⟩ := hfile
          rw [hu]
          exact he
      · cases he
        exact absurd rfl hne

/-- What was found before is found after, and it is the same unless it was written. -/
theorem Replaced.stat (h : Replaced ws fs after) (hs : fs.stat path ≠ .error .notFound) :
    after.stat path ≠ .error .notFound ∧
      (latest? ws (destination path) = none → after.stat path = fs.stat path) := by
  rw [Files.stat] at hs ⊢
  rw [Files.stat]
  cases hl : fs.locate path with
  | error e =>
      have he : after.locate path = .error e := by
        rw [locate] at hl ⊢
        split at hl
        · cases hl
          rw [locate, if_pos ‹_›] at hs
          exact absurd rfl hs
        · next hp =>
            rw [if_neg hp]
            refine h.follow_error hl ?_
            rintro rfl
            rw [locate, if_neg hp, hl] at hs
            exact hs rfl
      rw [hl] at hs
      rw [he]
      exact ⟨hs, fun _ => rfl⟩
  | ok l =>
      have hloc := eq_destination_of_locate hl
      subst hloc
      rw [locate_of_directories (fun l hd => h.directory hd) hl]
      rw [hl] at hs
      simp only [bind, Except.bind] at hs ⊢
      cases hg : fs.get? (destination path) with
      | none =>
          rw [hg] at hs
          exact absurd rfl hs
      | some x =>
          cases hw : latest? ws (destination path) with
          | some t =>
              rw [(h.written _ t hw).2]
              exact ⟨by simp, by simp⟩
          | none =>
              rcases h.kept _ hw with heq | ⟨hnone, -⟩
              · rw [heq, hg]
                exact ⟨by simp, fun _ => rfl⟩
              · rw [hg] at hnone
                cases hnone

theorem read_congr (h : after.stat path = fs.stat path) : after.read path = fs.read path := by
  rw [read, read, h]

theorem stat_of_read {t : Text} (h : fs.read path = .ok t) : fs.stat path = .ok (.file t) := by
  rw [read] at h
  split at h
  · next u hu =>
      cases h
      exact hu
  · cases h
  · cases h

end Reading

section Walking

/-- The components of a place below another. -/
def below? (root loc : Location) : Option (List String) :=
  if root.isPrefixOf loc then some (loc.drop root.length) else none

theorem walk_eq (fs : Files) (root : Location) :
    fs.walk root = (fs.places.filterMap (below? root)).mergeSort locationLe := by
  rw [walk, places, regular, List.map_filterMap, List.filterMap_filterMap]
  congr 2
  funext entry
  obtain ⟨loc, e⟩ := entry
  cases e with
  | directory => rfl
  | file t => rfl

theorem locationLe_iff (a b : Location) : locationLe a b = true ↔ List.le a b := by
  induction a generalizing b with
  | nil => exact ⟨fun _ => List.nil_le b, fun _ => rfl⟩
  | cons x s ih =>
      cases b with
      | nil => exact ⟨nofun, fun h => absurd (List.nil_lt_cons x s) h⟩
      | cons y t =>
          have hcons : List.le (x :: s) (y :: t) ↔ x < y ∨ x = y ∧ List.le s t :=
            List.cons_le_cons_iff
          rw [hcons, ← ih]
          simp [locationLe]

theorem locationLe_trans (a b c : Location) (hab : locationLe a b = true)
    (hbc : locationLe b c = true) : locationLe a c = true := by
  rw [locationLe_iff] at hab hbc ⊢
  exact List.le_trans hab hbc

theorem locationLe_total (a b : Location) : (locationLe a b || locationLe b a) = true := by
  rw [Bool.or_eq_true, locationLe_iff, locationLe_iff]
  exact List.le_total a b

theorem locationLe_antisymm (a b : Location) (hab : locationLe a b = true)
    (hba : locationLe b a = true) : a = b := by
  rw [locationLe_iff] at hab hba
  exact List.le_antisymm hab hba
/-- A walk finds the same files in the same order, but for those that were written. -/
theorem Replaced.walk_filter {ws : List (Location × Text)} {fs after : Files}
    (h : Replaced ws fs after) (root : Location) {p : List String → Bool}
    (hp : ∀ w ∈ ws, ∀ c, below? root w.1 = some c → p c = false) :
    (after.walk root).filter p = (fs.walk root).filter p := by
  -- Both are sorted lists of the same files.
  have hfound (gs : Files) : (gs.places.filterMap (below? root)).filter p =
      ((gs.places.filter fun l => (latest? ws l).isNone).filterMap (below? root)).filter p := by
    rw [List.filterMap_filter, List.filter_filterMap, List.filter_filterMap]
    congr 1
    funext l
    cases hl : latest? ws l with
    | none => rfl
    | some t =>
        cases hb : below? root l with
        | none => simp
        | some c => simp [hp _ (mem_of_latest? hl) c hb]
  have hperm (gs : Files) :
      ((gs.walk root).filter p).Perm ((gs.places.filterMap (below? root)).filter p) := by
    rw [walk_eq]
    exact (List.mergeSort_perm _ _).filter p
  have hsorted (gs : Files) :
      ((gs.walk root).filter p).Pairwise fun a b => locationLe a b = true := by
    rw [walk_eq]
    exact (List.pairwise_mergeSort locationLe_trans locationLe_total _).filter p
  apply List.Perm.eq_of_pairwise (fun a b _ _ => locationLe_antisymm a b) (hsorted _) (hsorted _)
  refine (hperm after).trans (.trans ?_ (hperm fs).symm)
  rw [hfound after, h.others, ← hfound fs]

end Walking

end DeclGen.Files
