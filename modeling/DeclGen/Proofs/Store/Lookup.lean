import DeclGen.Store.Atomic

/-!
# What a store holds after an operation

A store is known by what stands at each location. This module says for the operations of the store
what stands where afterwards. A file that is written atomically is either in its place, with all
else as it was, or nothing has changed: no temporary file is left. Directories that are made take
nothing away.

## Implementation notes

The entry list of a store may hold a location twice or hold one above the working directory, and
neither can be seen. So stores are compared by `Files.get?` and not as lists. A store that is given
back by a failed attempt is the old one even as a list.
-/

namespace DeclGen.Files

variable {fs gs after : Files} {loc : Location}

/-- The content of the regular file at a location. -/
def content? (fs : Files) (loc : Location) : Option Text :=
  match fs.get? loc with
  | some (.file t) => some t
  | _ => none

theorem content?_congr (h : gs.get? loc = fs.get? loc) : gs.content? loc = fs.content? loc := by
  rw [content?, content?, h]

section Entries

theorem lookup_cons_ite (k l : Location) (x : Entry) (es : List (Location × Entry)) :
    List.lookup l ((k, x) :: es) = if l = k then some x else es.lookup l := by
  rw [List.lookup_cons]
  by_cases h : l = k
  · simp [h]
  · simp [h, beq_eq_false_iff_ne.mpr h]

theorem lookup_setEntry (loc : Location) (e : Entry) (es : List (Location × Entry))
    (l : Location) :
    (setEntry loc e es).lookup l = if l = loc then some e else es.lookup l := by
  induction es with
  | nil => rw [setEntry, lookup_cons_ite]
  | cons entry rest ih =>
      obtain ⟨k, x⟩ := entry
      rw [setEntry, lookup_cons_ite]
      split
      · next hk =>
          rw [lookup_cons_ite, hk]
          split <;> rfl
      · next hk =>
          rw [lookup_cons_ite, ih]
          by_cases hl : l = k
          · rw [if_pos hl, if_pos hl, if_neg (hl ▸ hk)]
          · rw [if_neg hl, if_neg hl]

theorem filter_setEntry (loc : Location) (e : Entry) (es : List (Location × Entry)) :
    (setEntry loc e es).filter (·.1 != loc) = es.filter (·.1 != loc) := by
  induction es with
  | nil => simp [setEntry]
  | cons entry rest ih =>
      obtain ⟨k, x⟩ := entry
      by_cases hk : k = loc
      · simp [setEntry, hk]
      · simp [setEntry, hk, ih]

end Entries

/-- Only a directory can stand above the working directory. -/
theorem isOutside_eq_false (h : fs.get? loc ≠ some .directory) : isOutside loc = false := by
  cases ho : isOutside loc with
  | false => rfl
  | true =>
      refine absurd ?_ h
      simp [get?, ho]

/-- What is put in the place of no directory stands there, and all else is as before. -/
theorem get?_set (hd : fs.get? loc ≠ some .directory) (e : Entry) (l : Location) :
    (fs.set loc e).get? l = if l = loc then some e else fs.get? l := by
  by_cases hl : l = loc
  · subst hl
    simp [get?, set, isOutside_eq_false hd, lookup_setEntry]
  · simp [get?, set, lookup_setEntry, hl]

/-- The location that a path name leads to, where every place on the way is a directory. -/
def destination (path : String) : Location := (Path.pieces path).foldl step []

theorem eq_foldl_of_follow {ps : List String} {l : Location} (h : fs.follow loc ps = .ok l) :
    l = ps.foldl step loc := by
  induction ps generalizing loc with
  | nil =>
      rw [follow] at h
      cases h
      rfl
  | cons p rest ih =>
      rw [follow] at h
      split at h
      · exact ih h
      · cases h
      · cases h

theorem eq_destination_of_locate {path : String} (h : fs.locate path = .ok loc) :
    loc = destination path := by
  rw [locate] at h
  split at h
  · cases h
  · exact eq_foldl_of_follow h

/-- A name leads through directories only, so it leads to the same place in a store that has them
all. -/
theorem follow_of_directories
    (hdir : ∀ l, fs.get? l = some .directory → gs.get? l = some .directory) {ps : List String}
    {l : Location} (h : fs.follow loc ps = .ok l) : gs.follow loc ps = .ok l := by
  induction ps generalizing loc with
  | nil => exact h
  | cons p rest ih =>
      rw [follow] at h
      split at h
      · next hd =>
          rw [follow, hdir loc hd]
          exact ih h
      · cases h
      · cases h

theorem locate_of_directories
    (hdir : ∀ l, fs.get? l = some .directory → gs.get? l = some .directory) {path : String}
    (h : fs.locate path = .ok loc) : gs.locate path = .ok loc := by
  rw [locate] at h ⊢
  split at h
  · cases h
  · next hp =>
      rw [if_neg hp]
      exact follow_of_directories hdir h

/-- A file is read where its name leads. -/
theorem read_eq_ok_iff {path : String} {t : Text} :
    fs.read path = .ok t ↔ ∃ loc, fs.locate path = .ok loc ∧ fs.get? loc = some (.file t) := by
  rw [read, stat]
  cases hl : fs.locate path with
  | error e => simp [bind, Except.bind]
  | ok loc =>
      cases hg : fs.get? loc with
      | none => simp [bind, Except.bind, hg]
      | some e => cases e <;> simp [bind, Except.bind, hg]

section Writing

theorem create_eq_ok_iff {path : String} :
    fs.create path = .ok (loc, after) ↔
      fs.locate path = .ok loc ∧ fs.get? loc = none ∧ after = fs.set loc (.file []) := by
  rw [create]
  cases hl : fs.locate path with
  | error e => simp
  | ok l =>
      cases hg : fs.get? l with
      | some e =>
          simp only [hg, reduceCtorEq, Except.ok.injEq, false_iff, not_and]
          rintro rfl hn
          rw [hg] at hn
          cases hn
      | none =>
          simp only [hg, Except.ok.injEq, Prod.mk.injEq]
          constructor
          · rintro ⟨rfl, rfl⟩
            exact ⟨rfl, hg, rfl⟩
          · rintro ⟨rfl, -, rfl⟩
            exact ⟨rfl, rfl⟩

theorem rename_eq_ok_iff {source target : String} :
    fs.rename source target = .ok after ↔
      ∃ a b e, fs.locate source = .ok a ∧ fs.locate target = .ok b ∧
        fs.get? b ≠ some .directory ∧ fs.get? a = some e ∧ after = (fs.erase a).set b e := by
  rw [rename]
  cases ha : fs.locate source with
  | error e => simp
  | ok a =>
      cases hb : fs.locate target with
      | error e => simp
      | ok b =>
          dsimp only
          split
          · next hdir => simp [hdir]
          · next hdir =>
              cases he : fs.get? a with
              | none => simp [he]
              | some e =>
                  simp only [Except.ok.injEq]
                  constructor
                  · rintro rfl
                    exact ⟨a, b, e, rfl, rfl, hdir, he, rfl⟩
                  · rintro ⟨_, _, _, rfl, rfl, -, he', rfl⟩
                    rw [he] at he'
                    cases he'
                    rfl

theorem set_set (fs : Files) (loc : Location) (d e : Entry) :
    (fs.set loc d).set loc e = fs.set loc e := by
  have hentries (es : List (Location × Entry)) :
      setEntry loc e (setEntry loc d es) = setEntry loc e es := by
    induction es with
    | nil => simp [setEntry]
    | cons entry rest ih =>
        obtain ⟨k, x⟩ := entry
        by_cases hk : k = loc
        · simp [setEntry, hk]
        · simp [setEntry, hk, ih]
  rw [set, set, hentries, set]

/-- Where nothing stood, taking away what was put there gives the old store back. -/
theorem erase_set (hnew : fs.get? loc = none) (e : Entry) : (fs.set loc e).erase loc = fs := by
  have hd : fs.get? loc ≠ some .directory := by simp [hnew]
  have hlookup : fs.entries.lookup loc = none := by
    simpa [get?, isOutside_eq_false hd] using hnew
  have hold : fs.entries.filter (·.1 != loc) = fs.entries := by
    rw [List.filter_eq_self]
    intro entry hmem
    rw [bne_comm]
    exact List.lookup_eq_none_iff.mp hlookup entry hmem
  rw [set, erase, filter_setEntry, hold]

/-- A file in the place of no directory changes no way through the store. -/
theorem locate_set_file_iff (hd : fs.get? loc ≠ some .directory) (t : Text) {path : String}
    {l : Location} :
    (fs.set loc (.file t)).locate path = .ok l ↔ fs.locate path = .ok l := by
  have hget := get?_set hd (.file t)
  constructor
  · apply locate_of_directories
    intro k hk
    rw [hget] at hk
    split at hk
    · cases hk
    · exact hk
  · apply locate_of_directories
    intro k hk
    rw [hget, if_neg, hk]
    rintro rfl
    exact hd hk

/-- A file can be written at a path name: its temporary file can be made, and no directory is in
its place. -/
def Admits (fs : Files) (token path : String) : Prop :=
  (∃ temp, fs.locate (temporaryName token path) = .ok temp ∧ fs.get? temp = none) ∧
    ∃ loc, fs.locate path = .ok loc ∧ fs.get? loc ≠ some .directory

/-- A new file can be moved just where no directory is in the way, and the store then has it there
only. -/
theorem rename_set_file_iff {temp : Location} {source path : String}
    (hsource : fs.locate source = .ok temp) (hnew : fs.get? temp = none) (t : Text) :
    (fs.set temp (.file t)).rename source path = .ok after ↔
      ∃ loc, fs.locate path = .ok loc ∧ fs.get? loc ≠ some .directory ∧
        after = fs.set loc (.file t) := by
  have hd : fs.get? temp ≠ some .directory := by simp [hnew]
  have hget := get?_set hd (.file t)
  have hdirectory (l : Location) :
      (fs.set temp (.file t)).get? l = some .directory ↔ fs.get? l = some .directory := by
    rw [hget]
    split
    · next hl => simp [hl, hnew]
    · rfl
  simp only [rename_eq_ok_iff, locate_set_file_iff hd, hsource, ne_eq, hdirectory,
    Except.ok.injEq]
  constructor
  · rintro ⟨_, loc, e, rfl, hloc, hkept, he, rfl⟩
    rw [hget, if_pos rfl] at he
    cases he
    exact ⟨loc, hloc, hkept, by rw [erase_set hnew]⟩
  · rintro ⟨loc, hloc, hkept, rfl⟩
    exact ⟨temp, loc, .file t, rfl, hloc, hkept, by rw [hget, if_pos rfl], by rw [erase_set hnew]⟩

/-- Removing a new file gives the old store back, whatever the file holds. -/
theorem remove_set_file {path : String} (hpath : fs.locate path = .ok loc)
    (hnew : fs.get? loc = none) (t : Text) : (fs.set loc (.file t)).remove path = fs := by
  have hd : fs.get? loc ≠ some .directory := by simp [hnew]
  rw [remove, (locate_set_file_iff hd t).mpr hpath]
  exact erase_set hnew _

/-- An attempt to write a file puts it in its place and changes nothing else, when the store admits
the file and its bytes are not interrupted. Otherwise it fails and changes nothing. -/
theorem persist_cases (interruption : Option Interruption) (fs : Files) (token path : String)
    (t : Text) :
    (interruption = none ∧ fs.Admits token path ∧
        fs.persist interruption token path t = (fs.set (destination path) (.file t), none)) ∨
      ¬ (interruption = none ∧ fs.Admits token path) ∧
        ∃ e, fs.persist interruption token path t = (fs, some e) ∧ e.path = path := by
  unfold persist
  dsimp only
  cases hc : fs.create (temporaryName token path) with
  | error f =>
      refine .inr ⟨?_, _, rfl, rfl⟩
      rintro ⟨-, ⟨temp, htemp, hnew⟩, -⟩
      have hcreate : fs.create (temporaryName token path) = .ok (temp, fs.set temp (.file [])) :=
        create_eq_ok_iff.mpr ⟨htemp, hnew, rfl⟩
      rw [hcreate] at hc
      cases hc
  | ok created =>
      obtain ⟨temp, created⟩ := created
      obtain ⟨htemp, hnew, rfl⟩ := create_eq_ok_iff.mp hc
      simp only [set_set, remove_set_file htemp hnew]
      cases interruption with
      | some i =>
          refine .inr ⟨?_, _, rfl, rfl⟩
          rintro ⟨hnone, -⟩
          cases hnone
      | none =>
          dsimp only
          cases hr : (fs.set temp (.file t)).rename (temporaryName token path) path with
          | error f =>
              refine .inr ⟨?_, _, rfl, rfl⟩
              rintro ⟨-, -, loc, hloc, hkept⟩
              rw [(rename_set_file_iff htemp hnew t).mpr ⟨loc, hloc, hkept, rfl⟩] at hr
              cases hr
          | ok moved =>
              obtain ⟨loc, hloc, hkept, rfl⟩ := (rename_set_file_iff htemp hnew t).mp hr
              rw [← eq_destination_of_locate hloc]
              exact .inl ⟨rfl, ⟨⟨temp, htemp, hnew⟩, loc, hloc, hkept⟩, rfl⟩

/-- An atomic write has failed and changed nothing, or it has put the file in its place and changed
nothing else. -/
theorem writeAtomic_cases (fs : Files) (token path : String) (t : Text) :
    (∃ after e, fs.writeAtomic token path t = (after, some e) ∧
        ∀ l, after.get? l = fs.get? l) ∨
      ∃ after, fs.writeAtomic token path t = (after, none) ∧
        fs.locate path = .ok (destination path) ∧
        fs.get? (destination path) ≠ some .directory ∧
        ∀ l, after.get? l = if l = destination path then some (.file t) else fs.get? l := by
  rcases persist_cases none fs token path t with ⟨-, ⟨-, loc, hloc, hkept⟩, hw⟩ | ⟨-, e, hw, -⟩
  · obtain rfl := eq_destination_of_locate hloc
    exact .inr ⟨_, hw, hloc, hkept, get?_set hkept _⟩
  · exact .inl ⟨fs, e, hw, fun _ => rfl⟩

end Writing

/-- One store has grown into another: what stood somewhere stands there still, and only directories
have come. -/
def Grown (fs after : Files) : Prop :=
  ∀ loc, after.get? loc = fs.get? loc ∨ fs.get? loc = none ∧ after.get? loc = some .directory

namespace Grown

theorem refl (fs : Files) : Grown fs fs := fun _ => .inl rfl

theorem trans {a b c : Files} (hab : Grown a b) (hbc : Grown b c) : Grown a c := by
  intro loc
  rcases hbc loc with h | ⟨hn, hd⟩
  · rcases hab loc with h' | ⟨hn', hd'⟩
    · exact .inl (h.trans h')
    · exact .inr ⟨hn', h.trans hd'⟩
  · rcases hab loc with h' | ⟨hn', hd'⟩
    · exact .inr ⟨h'.symm.trans hn, hd⟩
    · exact .inr ⟨hn', hd⟩

theorem content? (h : Grown fs after) (loc : Location) :
    after.content? loc = fs.content? loc := by
  rcases h loc with h | ⟨hn, hd⟩
  · exact content?_congr h
  · simp [Files.content?, hn, hd]

theorem directory (h : Grown fs after) (hd : fs.get? loc = some .directory) :
    after.get? loc = some .directory := by
  rcases h loc with h | ⟨hn, _⟩
  · exact h.trans hd
  · rw [hn] at hd
    cases hd

end Grown

section Directories

/-- A directory is there already, or it is put where nothing stood. -/
theorem makeDirectory_cases {path : String} (h : fs.makeDirectory path = .ok after) :
    after = fs ∨ ∃ loc, fs.get? loc = none ∧ after = fs.set loc .directory := by
  rw [makeDirectory] at h
  split at h
  · cases h
    exact .inl rfl
  · cases h
  · next e hs =>
      split at h
      · next loc hl =>
          cases h
          refine .inr ⟨loc, ?_, rfl⟩
          -- The name leads somewhere and yet nothing is found, so nothing stands there.
          rw [stat, hl] at hs
          cases hg : fs.get? loc with
          | none => rfl
          | some x => simp [bind, Except.bind, hg] at hs
      · cases h

/-- What holds of one new directory and composes holds of all that are made for a name. -/
theorem makeDirectories_induction {R : Files → Files → Prop} (refl : ∀ fs, R fs fs)
    (trans : ∀ {a b c}, R a b → R b c → R a c)
    (new : ∀ {fs loc}, fs.get? loc = none → R fs (fs.set loc .directory)) {path : String}
    (h : fs.makeDirectories path = .ok after) : R fs after := by
  rw [makeDirectories] at h
  generalize leadingNames path = names at h
  induction names generalizing fs with
  | nil =>
      cases h
      exact refl _
  | cons name rest ih =>
      rw [List.foldlM_cons] at h
      cases hm : fs.makeDirectory name with
      | error f =>
          rw [hm] at h
          cases h
      | ok made =>
          rw [hm] at h
          refine trans ?_ (ih h)
          rcases makeDirectory_cases hm with rfl | ⟨loc, hnone, rfl⟩
          · exact refl _
          · exact new hnone

theorem grown_set_directory (h : fs.get? loc = none) : Grown fs (fs.set loc .directory) := by
  have hd : fs.get? loc ≠ some .directory := by simp [h]
  intro l
  rw [get?_set hd]
  by_cases hl : l = loc
  · exact .inr ⟨hl ▸ h, if_pos hl⟩
  · exact .inl (if_neg hl)

theorem grown_makeDirectories {path : String} (h : fs.makeDirectories path = .ok after) :
    Grown fs after :=
  makeDirectories_induction .refl .trans grown_set_directory h

end Directories

end DeclGen.Files
