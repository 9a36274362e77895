import DeclGen.Proofs.Store.Lookup
import Mathlib.Data.List.TakeWhile

/-!
# How names and places end

A path name and the place it leads to end in the same component, as long as that component is a
proper name and no step to the same or the parent directory. So two names with different extensions
lead to different places, however they are spelled before their last slash.

A name can be taken apart into its directory and its last component, and put together again: the
last component is still the same.
-/

namespace DeclGen

namespace Path

/-- Up to the first element that ends it, a beginning of a list is taken as a whole. -/
theorem takeWhile_append_stop {α : Type} {p : α → Bool} {stop : α} (hs : p stop = false)
    (l r : List α) : (l ++ stop :: r).takeWhile p = l.takeWhile p := by
  rw [List.takeWhile_append, List.takeWhile_cons_of_neg (by simp [hs])]
  split
  · next h =>
      rw [List.append_nil]
      exact ((List.takeWhile_prefix p).eq_of_length h).symm
  · rfl

theorem lastPiece_append_slash (s t : String) : lastPiece (s ++ "/" ++ t) = lastPiece t := by
  have hc : ("/" : String).toList = ['/'] := rfl
  rw [lastPiece, lastPiece, String.toList_append, String.toList_append, hc]
  simp only [List.reverse_append, List.reverse_cons, List.reverse_nil, List.nil_append,
    List.singleton_append]
  exact takeWhile_append_stop rfl _ _

theorem lastPiece_slash_append (t : String) : lastPiece ("/" ++ t) = lastPiece t := by
  have h := lastPiece_append_slash "" t
  rwa [String.empty_append] at h

/-- An ending without a slash belongs to the last piece. -/
theorem lastPiece_append {ending : String} (h : '/' ∉ ending.toList) (s : String) :
    lastPiece (s ++ ending) = ending.toList.reverse ++ lastPiece s := by
  rw [lastPiece, lastPiece, String.toList_append, List.reverse_append]
  apply List.takeWhile_append_of_pos
  intro c hc
  simp only [bne_iff_ne, ne_eq]
  rintro rfl
  exact h (by simpa using hc)

theorem slash_not_mem_lastPiece (path : String) : '/' ∉ lastPiece path := by
  intro h
  have hp := List.mem_takeWhile_imp h
  simp at hp

/-- A name without slashes is its own last piece. -/
theorem lastPiece_of_not_mem {s : String} (h : '/' ∉ s.toList) :
    lastPiece s = s.toList.reverse := by
  have ha := lastPiece_append h ""
  rw [String.empty_append] at ha
  rw [ha]
  simp [lastPiece]

theorem getLast?_piecesFrom (cs : List Char) :
    ∀ piece : List Char, '/' ∉ piece →
      (piecesFrom piece cs).getLast? =
        some (String.ofList ((piece.reverse ++ cs).reverse.takeWhile (· != '/')).reverse) := by
  induction cs with
  | nil =>
      intro piece hp
      have hall : ∀ c ∈ piece, (c != '/') = true := by
        intro c hc
        simp only [bne_iff_ne, ne_eq]
        rintro rfl
        exact hp hc
      rw [piecesFrom, List.append_nil, List.reverse_reverse, List.takeWhile_eq_self_iff.mpr hall]
      rfl
  | cons c rest ih =>
      intro piece hp
      by_cases hc : c = '/'
      · subst hc
        have hne : piecesFrom [] rest ≠ [] := by
          intro hnil
          have hl := ih [] (by simp)
          rw [hnil] at hl
          cases hl
        rw [piecesFrom, List.getLast?_cons, List.getLast?_eq_some_getLast hne, Option.getD_some,
          ← List.getLast?_eq_some_getLast hne, ih [] (by simp), List.reverse_nil, List.nil_append]
        rw [List.reverse_append, List.reverse_cons, List.append_assoc, List.singleton_append,
          takeWhile_append_stop rfl]
      · rw [piecesFrom, ih (c :: piece) (by simp [Ne.symm hc, hp]), List.reverse_cons,
          List.append_assoc, List.singleton_append]
        exact hc

/-- The last of the pieces of a name. -/
def lastName (path : String) : String := String.ofList (lastPiece path).reverse

theorem getLast?_pieces (path : String) : (pieces path).getLast? = some (lastName path) :=
  getLast?_piecesFrom path.toList [] (by simp)

/-- A piece that names an entry of a directory. -/
def IsProper (piece : String) : Prop := piece ≠ "" ∧ piece ≠ "." ∧ piece ≠ ".."

theorem push_of_isProper {piece : String} (h : IsProper piece) (rooted : Bool)
    (stack : List String) : push rooted stack piece = piece :: stack := by
  obtain ⟨h0, h1, h2⟩ := h
  simp [push, h0, h1, h2]

theorem getLast?_components {path : String} (h : IsProper (lastName path)) :
    (components path).getLast? = some (lastName path) := by
  obtain ⟨before, hb⟩ := List.getLast?_eq_some_iff.mp (getLast?_pieces path)
  rw [components, hb, List.foldl_append, List.foldl_cons, List.foldl_nil, push_of_isProper h,
    List.reverse_cons]
  simp

/-- The last piece of components that are joined is that of the last component. -/
theorem lastPiece_intercalate {cs : List String} {name : String}
    (hl : cs.getLast? = some name) : lastPiece ("/".intercalate cs) = lastPiece name := by
  induction cs with
  | nil => cases hl
  | cons c rest ih =>
      cases rest with
      | nil =>
          have hc : c = name := by simpa using hl
          rw [String.intercalate_singleton, hc]
      | cons d rest =>
          rw [String.intercalate_cons_cons, lastPiece_append_slash]
          exact ih (by simpa using hl)

/-- The shortest name for a place has the same last piece. -/
theorem lastPiece_clean {path : String} (h : IsProper (lastName path)) :
    lastPiece (clean path) = lastPiece path := by
  have hslash : '/' ∉ (lastName path).toList := by
    rw [lastName, String.toList_ofList, List.mem_reverse]
    exact slash_not_mem_lastPiece path
  have hbody : lastPiece ("/".intercalate (components path)) = lastPiece path := by
    rw [lastPiece_intercalate (getLast?_components h), lastPiece_of_not_mem hslash, lastName,
      String.toList_ofList, List.reverse_reverse]
  rw [clean]
  split
  · rw [lastPiece_slash_append, hbody]
  · split
    · next hempty =>
        -- An empty body has an empty last piece, which is not a proper one.
        refine absurd ?_ h.1
        rw [String.isEmpty_iff.mp hempty] at hbody
        rw [lastName, ← hbody]
        rfl
    · exact hbody

theorem extension_congr {p q : String} (h : lastPiece p = lastPiece q) :
    extension p = extension q := by
  rw [extension, extension, h]

/-- A name with something after its last dot ends in a proper piece. -/
theorem isProper_lastName {path : String} (h : 1 < (extension path).length) :
    IsProper (lastName path) := by
  have hpiece (s : String) (hs : lastName path = s) : lastPiece path = s.toList.reverse := by
    rw [← hs, lastName, String.toList_ofList, List.reverse_reverse]
  refine ⟨fun hs => ?_, fun hs => ?_, fun hs => ?_⟩
  · rw [extension, hpiece _ hs] at h
    exact absurd h (by decide)
  · rw [extension, hpiece _ hs] at h
    exact absurd h (by decide)
  · rw [extension, hpiece _ hs] at h
    exact absurd h (by decide)

/-- A name below a directory has the same last piece. -/
theorem lastPiece_join {name : String} (h : 1 < (extension name).length) (dir : String) :
    lastPiece (join dir name) = lastPiece name := by
  have hname : ¬ name.isEmpty = true := by
    intro hempty
    rw [String.isEmpty_iff.mp hempty] at h
    exact absurd h (by decide)
  have hbelow : lastPiece (dir ++ "/" ++ name) = lastPiece name := lastPiece_append_slash dir name
  rw [join, if_neg hname, if_neg hname]
  split
  · exact lastPiece_clean (isProper_lastName h)
  · rw [← extension_congr hbelow] at h
    rw [lastPiece_clean (isProper_lastName h), hbelow]

theorem extension_join {name : String} (h : 1 < (extension name).length) (dir : String) :
    extension (join dir name) = extension name :=
  extension_congr (lastPiece_join h dir)

theorem extension_lastName (path : String) : extension (lastName path) = extension path := by
  apply extension_congr
  have hslash : '/' ∉ (lastName path).toList := by
    rw [lastName, String.toList_ofList, List.mem_reverse]
    exact slash_not_mem_lastPiece path
  rw [lastPiece_of_not_mem hslash, lastName, String.toList_ofList, List.reverse_reverse]

/-- The extension of a name is that of its ending, as far as the ending has one dot, in front. -/
theorem extension_append_ending {ending : List Char} (hd : '.' ∉ ending) (hs : '/' ∉ ending)
    (s : String) :
    extension (s ++ String.ofList ('.' :: ending)) = String.ofList ('.' :: ending) := by
  have hslash : '/' ∉ (String.ofList ('.' :: ending)).toList := by
    simp [hs]
  have hall : ∀ c ∈ ending.reverse, (c != '.') = true := by
    intro c hc
    simp only [bne_iff_ne, ne_eq]
    rintro rfl
    exact hd (by simpa using hc)
  rw [extension, lastPiece_append hslash, String.toList_ofList, List.reverse_cons,
    List.append_assoc, List.singleton_append]
  have hwhile (r : List Char) :
      (ending.reverse ++ '.' :: r).takeWhile (· != '.') = ending.reverse := by
    rw [takeWhile_append_stop rfl, List.takeWhile_eq_self_iff.mpr hall]
  simp [hwhile]

section Base

/-- The last component of a name that ends in a slash and a name without slashes. -/
theorem base_append_slash {b : String} (hslash : '/' ∉ b.toList) (hne : b ≠ "") (p : String) :
    base (p ++ "/" ++ b) = b := by
  have hrev : (p ++ "/" ++ b).toList.reverse = b.toList.reverse ++ '/' :: p.toList.reverse := by
    simp [String.toList_append]
  have hlast : b.toList.reverse.takeWhile (· != '/') = b.toList.reverse := by
    apply List.takeWhile_eq_self_iff.mpr
    intro c hc
    rw [bne_iff_ne]
    rintro rfl
    exact hslash (List.mem_reverse.mp hc)
  obtain ⟨c, cs, hcs⟩ : ∃ c cs, b.toList.reverse = c :: cs := by
    apply List.exists_cons_of_ne_nil
    simpa using hne
  have hhead : c ≠ '/' := by
    rintro rfl
    exact hslash (List.mem_reverse.mp (by rw [hcs]; exact List.mem_cons_self))
  have hdrop : (p ++ "/" ++ b).toList.reverse.dropWhile (· == '/') =
      b.toList.reverse ++ '/' :: p.toList.reverse := by
    rw [hrev, hcs, List.cons_append, List.dropWhile_cons_of_neg (by simpa using hhead)]
  rw [base, if_neg (by simp [hne]), hdrop, if_neg (by simp), takeWhile_append_stop rfl, hlast,
    List.reverse_reverse, String.ofList_toList]

/-- A name with something after its last dot does not end in a slash. -/
theorem base_eq_lastName {p : String} (h : 1 < (extension p).length) : base p = lastName p := by
  have hpiece : lastPiece p ≠ [] := by
    intro hnil
    rw [extension, hnil] at h
    exact absurd h (by decide)
  cases hrev : p.toList.reverse with
  | nil => exact absurd (by rw [lastPiece, hrev]; rfl) hpiece
  | cons c cs =>
      have hc : (c == '/') = false := by
        refine Bool.eq_false_iff.mpr fun hc => hpiece ?_
        rw [lastPiece, hrev, eq_of_beq hc]
        rfl
      have hne : p ≠ "" := by
        rintro rfl
        cases hrev
      rw [base, if_neg (by simpa using hne), hrev, List.dropWhile_cons_of_neg (by simp [hc]),
        if_neg (by simp), lastName, lastPiece, hrev]

/-- Names with different extensions have different last components. -/
theorem base_ne_of_extension_ne {p q : String} (hp : 1 < (extension p).length)
    (hq : 1 < (extension q).length) (hne : extension p ≠ extension q) : base p ≠ base q := by
  rw [base_eq_lastName hp, base_eq_lastName hq]
  intro h
  exact hne (by rw [← extension_lastName p, h, extension_lastName])

/-- The last component of a name has no slashes, unless the name has nothing but slashes. -/
theorem base_cases (p : String) :
    ('/' ∉ (base p).toList ∧ base p ≠ "") ∨ p ≠ "" ∧ ∀ c ∈ p.toList, c = '/' := by
  by_cases hne : p = ""
  · subst hne
    exact .inl (by decide)
  · cases htrim : p.toList.reverse.dropWhile (· == '/') with
    | nil =>
        refine .inr ⟨hne, fun c hc => ?_⟩
        exact eq_of_beq (List.dropWhile_eq_nil_iff.mp htrim c (List.mem_reverse.mpr hc))
    | cons c cs =>
        left
        have hc : (c != '/') = true := by
          have hhead := List.head_dropWhile_not (l := p.toList.reverse) (· == '/')
            (by simp [htrim])
          simpa [htrim] using hhead
        have hbase : base p = String.ofList ((c :: cs).takeWhile (· != '/')).reverse := by
          simp [base, hne, htrim]
        rw [hbase, String.toList_ofList, List.mem_reverse]
        constructor
        · intro hmem
          exact absurd (List.mem_takeWhile_imp hmem) (by decide)
        · intro hempty
          rw [List.takeWhile_cons_of_pos (p := (· != '/')) hc] at hempty
          simpa using congrArg String.toList hempty

/-- The stem of a name with an extension has no slashes. -/
theorem slash_not_mem_stem {p : String} (h : 1 < (extension p).length) :
    '/' ∉ (stem p).toList := by
  have hbase : '/' ∉ (base p).toList := by
    rcases base_cases p with ⟨hslash, -⟩ | ⟨-, hslashes⟩
    · exact hslash
    · have hpiece : lastPiece p = [] := by
        rw [lastPiece, List.takeWhile_eq_nil_iff]
        intro hlen
        rw [hslashes _ (List.mem_reverse.mp (List.get_mem _ ⟨0, hlen⟩))]
        simp
      rw [extension, hpiece] at h
      exact absurd h (by decide)
  rw [stem, dropEnding]
  split
  · rw [String.toList_ofList]
    intro hmem
    exact hbase (List.mem_of_mem_take hmem)
  · exact hbase

theorem piecesFrom_of_slashes {cs : List Char} (h : ∀ c ∈ cs, c = '/') :
    ∀ piece ∈ piecesFrom [] cs, piece = "" := by
  induction cs with
  | nil => simp [piecesFrom]
  | cons c rest ih =>
      rw [h c (by simp), piecesFrom]
      simpa using ih fun c hc => h c (by simp [hc])

/-- The directory of a name that has nothing but slashes is the root. -/
theorem dir_of_slashes {p : String} (hne : p ≠ "") (h : ∀ c ∈ p.toList, c = '/') :
    dir p = "/" := by
  obtain ⟨c, cs, hcs⟩ := List.exists_cons_of_ne_nil (l := p.toList) (by simpa using hne)
  have hkept : p.toList.reverse.dropWhile (· != '/') = p.toList.reverse := by
    cases hr : p.toList.reverse with
    | nil => rfl
    | cons d ds =>
        have hd : d = '/' := h d (List.mem_reverse.mp (by rw [hr]; exact List.mem_cons_self))
        rw [List.dropWhile_cons_of_neg (by simp [hd])]
  have hroot : isAbsolute p = true := by
    simp [isAbsolute, hcs, h c (by simp [hcs])]
  have hnone (stack : List String) : (pieces p).foldl (push true) stack = stack := by
    have hpieces := piecesFrom_of_slashes h
    rw [← pieces] at hpieces
    generalize pieces p = ps at hpieces
    induction ps with
    | nil => rfl
    | cons q ps ih =>
        rw [List.foldl_cons, hpieces q (by simp)]
        exact ih fun r hr => hpieces r (by simp [hr])
  rw [dir, hkept, List.reverse_reverse, String.ofList_toList, clean, components, hroot, hnone]
  rfl

/-- The last component of a name, put below its directory, is the last component again. -/
theorem base_below_dir (p : String) : base (dir p ++ "/" ++ base p) = base p := by
  rcases base_cases p with ⟨hslash, hne⟩ | ⟨hne, hslashes⟩
  · exact base_append_slash hslash hne _
  · have hbase : base p = "/" := by
      rw [base, if_neg (by simpa using hne), if_pos]
      rw [List.isEmpty_iff, List.dropWhile_eq_nil_iff]
      intro c hc
      rw [hslashes c (List.mem_reverse.mp hc)]
      rfl
    rw [dir_of_slashes hne hslashes, hbase]
    decide +kernel

end Base

end Path

namespace Files

/-- A place ends in the last piece of a name that leads there. -/
theorem getLast?_destination {path : String} (h : Path.IsProper (Path.lastName path)) :
    (destination path).getLast? = some (Path.lastName path) := by
  obtain ⟨before, hb⟩ := List.getLast?_eq_some_iff.mp (Path.getLast?_pieces path)
  rw [destination, hb, List.foldl_append, List.foldl_cons, List.foldl_nil, step,
    Path.push_of_isProper h, List.reverse_cons]
  simp

/-- Names with different extensions lead to different places. -/
theorem destination_ne {p q : String} (hp : 1 < (Path.extension p).length)
    (hq : 1 < (Path.extension q).length) (hne : Path.extension p ≠ Path.extension q) :
    destination p ≠ destination q := by
  intro heq
  have hp' := getLast?_destination (Path.isProper_lastName hp)
  have hq' := getLast?_destination (Path.isProper_lastName hq)
  rw [heq, hq'] at hp'
  have hname : Path.lastName q = Path.lastName p := Option.some.inj hp'
  have hpiece : Path.lastPiece q = Path.lastPiece p := by
    have hchars := congrArg String.toList hname
    simpa [Path.lastName] using hchars
  exact hne (Path.extension_congr hpiece).symm

/-- A temporary file is told by its extension. -/
theorem extension_temporaryName (token path : String) :
    Path.extension (temporaryName token path) = ".tmp" := by
  have hdot : '.' ∉ ['t', 'm', 'p'] := by decide
  have hslash : '/' ∉ ['t', 'm', 'p'] := by decide
  have hname : Path.extension ("." ++ Path.base path ++ "." ++ token ++ ".tmp") = ".tmp" :=
    Path.extension_append_ending hdot hslash _
  rw [temporaryName, Path.extension_join (by rw [hname]; decide), hname]

end Files

end DeclGen
