import DeclGen.Proofs.Store.Naming
import DeclGen.Store.Glob

/-!
# Names that fit a pattern

How a name pattern is spelled and what it means, both stated piece by piece: without the fuel of the
reader, and without the search that tries all lengths for a star. A file name is its stem and its
extension, and patterns are about the stem.
-/

namespace DeclGen

namespace Glob

section Spelling

/-- The spelling of a bound: a plain character or one behind a backslash. -/
inductive SpellsBound : List Char → Char → Prop
  | plain {c : Char} (hdash : c ≠ '-') (hbracket : c ≠ ']') (hslash : c ≠ '\\') :
      SpellsBound [c] c
  | escaped (c : Char) : SpellsBound ['\\', c] c

/-- The spelling of a range: a single character, or two bounds with a dash between them. -/
inductive SpellsRange : List Char → Char × Char → Prop
  | single {cs : List Char} {c : Char} (h : SpellsBound cs c) : SpellsRange cs (c, c)
  | between {cs ds : List Char} {low high : Char} (hlow : SpellsBound cs low)
      (hhigh : SpellsBound ds high) : SpellsRange (cs ++ '-' :: ds) (low, high)

/-- The spelling of ranges, one behind the other. -/
inductive SpellsRanges : List Char → List (Char × Char) → Prop
  | nil : SpellsRanges [] []
  | cons {cs ds : List Char} {b : Char × Char} {bs : List (Char × Char)} (h : SpellsRange cs b)
      (hrest : SpellsRanges ds bs) : SpellsRanges (cs ++ ds) (b :: bs)

/-- The spelling of a pattern. A caret in front negates the ranges in brackets, of which there is at
least one; a character with a meaning of its own stands behind a backslash. -/
inductive Spells : List Char → Glob → Prop
  | nil : Spells [] []
  | star {cs : List Char} {g : Glob} (h : Spells cs g) : Spells ('*' :: cs) (.star :: g)
  | one {cs : List Char} {g : Glob} (h : Spells cs g) : Spells ('?' :: cs) (.one :: g)
  | escaped (c : Char) {cs : List Char} {g : Glob} (h : Spells cs g) :
      Spells ('\\' :: c :: cs) (.char c :: g)
  | negated {inner cs : List Char} {bs : List (Char × Char)} {g : Glob}
      (hbounds : SpellsRanges inner bs) (hne : bs ≠ []) (h : Spells cs g) :
      Spells ('[' :: '^' :: (inner ++ ']' :: cs)) (.range true bs :: g)
  | range {inner cs : List Char} {bs : List (Char × Char)} {g : Glob}
      (hbounds : SpellsRanges inner bs) (hne : bs ≠ []) (hcaret : inner.head? ≠ some '^')
      (h : Spells cs g) : Spells ('[' :: (inner ++ ']' :: cs)) (.range false bs :: g)
  | char {c : Char} (hc : c ∉ ['*', '?', '\\', '[']) {cs : List Char} {g : Glob}
      (h : Spells cs g) : Spells (c :: cs) (.char c :: g)

theorem bound?_eq_some_iff {cs rest : List Char} {c : Char} :
    bound? cs = some (c, rest) ↔
      rest ≠ [] ∧ ∃ spelled, cs = spelled ++ rest ∧ SpellsBound spelled c := by
  constructor
  · intro h
    unfold bound? at h
    obtain ⟨⟨d, ds⟩, hfound, hkept⟩ := Option.bind_eq_some_iff.mp h
    have hpair : ds ≠ [] ∧ d = c ∧ ds = rest := by
      simpa using hkept
    obtain ⟨hne, rfl, rfl⟩ := hpair
    refine ⟨hne, ?_⟩
    split at hfound
    · cases hfound
    · cases hfound
    · cases hfound
      exact ⟨['\\', d], rfl, .escaped d⟩
    · cases hfound
    · cases hfound
    · next hdash hbracket hslash hlone =>
        cases hfound
        refine ⟨[d], rfl, .plain hdash hbracket ?_⟩
        rintro rfl
        cases ds with
        | nil => exact hlone rfl rfl
        | cons e es => exact hslash _ _ rfl rfl
  · rintro ⟨hne, spelled, rfl, h⟩
    cases h with
    | escaped => simp [bound?, hne]
    | plain hdash hbracket hslash =>
        unfold bound?
        split <;> simp_all

/-- A bound begins with neither a dash nor a closing bracket. -/
theorem SpellsBound.head {cs : List Char} {c : Char} (h : SpellsBound cs c) :
    ∃ d ds, cs = d :: ds ∧ d ≠ '-' ∧ d ≠ ']' := by
  cases h with
  | plain hdash hbracket hslash => exact ⟨_, _, rfl, hdash, hbracket⟩
  | escaped => exact ⟨_, _, rfl, by decide, by decide⟩

theorem SpellsRange.head {cs : List Char} {b : Char × Char} (h : SpellsRange cs b) :
    ∃ d ds, cs = d :: ds ∧ d ≠ '-' ∧ d ≠ ']' := by
  cases h with
  | single h => exact h.head
  | between hlow hhigh =>
      obtain ⟨d, ds, rfl, hd⟩ := hlow.head
      exact ⟨d, _, rfl, hd⟩

/-- What stands between the last bound of a range and the closing bracket is no dash. -/
theorem SpellsRanges.ne_dash {inner rest more : List Char} {bs : List (Char × Char)}
    (h : SpellsRanges inner bs) : inner ++ ']' :: rest ≠ '-' :: more := by
  intro heq
  cases h with
  | nil => cases heq
  | cons hrange hrest =>
      obtain ⟨d, ds, rfl, hdash, -⟩ := hrange.head
      exact hdash (List.cons.inj heq).1

/-- Reading ranges gives those that are spelled up to a closing bracket, behind those that were read
before. -/
theorem bounds?_eq_some {fuel : Nat} {read bounds : List (Char × Char)} {cs rest : List Char}
    (h : bounds? fuel read cs = some (bounds, rest)) :
    ∃ inner bs, cs = inner ++ ']' :: rest ∧ SpellsRanges inner bs ∧ bounds = read.reverse ++ bs ∧
      bounds ≠ [] := by
  induction fuel generalizing read cs with
  | zero => cases h
  | succ fuel ih =>
      by_cases hclose : ∃ more b before, cs = ']' :: more ∧ read = b :: before
      · obtain ⟨more, b, before, rfl, rfl⟩ := hclose
        cases h
        exact ⟨[], [], rfl, .nil, by simp, by simp⟩
      · have hopen : ∀ more b before, cs = ']' :: more → read = b :: before → False :=
          fun more b before hcs hread => hclose ⟨more, b, before, hcs, hread⟩
        rw [bounds?.eq_3 _ _ _ hopen] at h
        obtain ⟨⟨low, more⟩, hlow, hmore⟩ := Option.bind_eq_some_iff.mp h
        obtain ⟨-, spelled, rfl, hspelled⟩ := bound?_eq_some_iff.mp hlow
        simp only at hmore
        split at hmore
        · obtain ⟨⟨high, last⟩, hhigh, hlast⟩ := Option.bind_eq_some_iff.mp hmore
          obtain ⟨-, upper, rfl, hupper⟩ := bound?_eq_some_iff.mp hhigh
          obtain ⟨inner, bs, rfl, hinner, rfl, hne⟩ := ih hlast
          exact ⟨(spelled ++ '-' :: upper) ++ inner, (low, high) :: bs, by simp,
            .cons (.between hspelled hupper) hinner, by simp, hne⟩
        · obtain ⟨inner, bs, rfl, hinner, rfl, hne⟩ := ih hmore
          exact ⟨spelled ++ inner, (low, low) :: bs, by simp, .cons (.single hspelled) hinner,
            by simp, hne⟩

/-- Ranges that are spelled are read, with enough fuel. -/
theorem bounds?_of_spellsRanges {inner : List Char} {bs : List (Char × Char)}
    (h : SpellsRanges inner bs) {fuel : Nat} (hfuel : bs.length < fuel)
    {read : List (Char × Char)} (hne : read ≠ [] ∨ bs ≠ []) (rest : List Char) :
    bounds? fuel read (inner ++ ']' :: rest) = some (read.reverse ++ bs, rest) := by
  induction h generalizing fuel read with
  | nil =>
      obtain ⟨b, before, rfl⟩ := List.exists_cons_of_ne_nil (hne.resolve_right (by simp))
      obtain ⟨fuel, rfl⟩ : ∃ n, fuel = n + 1 := ⟨fuel - 1, by omega⟩
      rw [List.nil_append, bounds?.eq_2, List.append_nil]
  | @cons cs ds b bs hrange hrest ih =>
      obtain ⟨fuel, rfl⟩ : ∃ n, fuel = n + 1 := ⟨fuel - 1, by omega⟩
      have hnext : bounds? fuel (b :: read) (ds ++ ']' :: rest) =
          some ((b :: read).reverse ++ bs, rest) :=
        ih (by simpa using hfuel) (.inl (by simp))
      have hopen : ∀ more c before, (cs ++ ds) ++ ']' :: rest = ']' :: more →
          read = c :: before → False := by
        intro more c before heq
        obtain ⟨d, more', rfl, -, hbracket⟩ := hrange.head
        exact absurd (List.cons.inj heq).1 hbracket
      rw [bounds?.eq_3 _ _ _ hopen]
      cases hrange with
      | single hbound =>
          have hlow := bound?_eq_some_iff.mpr
            ⟨by simp, cs, List.append_assoc cs ds (']' :: rest), hbound⟩
          rw [hlow]
          simp only [Option.bind_eq_bind, Option.bind_some]
          split
          · next heq => exact absurd heq hrest.ne_dash
          · rw [hnext]
            simp
      | @between lows highs low high hbound hupper =>
          have hlow : bound? (lows ++ '-' :: highs ++ ds ++ ']' :: rest) =
              some (low, '-' :: (highs ++ (ds ++ ']' :: rest))) :=
            bound?_eq_some_iff.mpr ⟨by simp, lows, by simp, hbound⟩
          have hhigh : bound? (highs ++ (ds ++ ']' :: rest)) = some (high, ds ++ ']' :: rest) :=
            bound?_eq_some_iff.mpr ⟨by simp, highs, rfl, hupper⟩
          rw [hlow]
          simp only [Option.bind_eq_bind, Option.bind_some, hhigh]
          rw [hnext]
          simp

theorem SpellsRanges.length_le {inner : List Char} {bs : List (Char × Char)}
    (h : SpellsRanges inner bs) : bs.length ≤ inner.length := by
  induction h with
  | nil => exact le_rfl
  | cons hrange _ ih =>
      obtain ⟨d, ds, rfl, -⟩ := hrange.head
      simp only [List.length_cons, List.length_append]
      omega

theorem piecesFrom?_plain {c : Char} (hc : c ∉ ['*', '?', '\\', '[']) (fuel : Nat)
    (rest : List Char) :
    piecesFrom? (fuel + 1) (c :: rest) = (piecesFrom? fuel rest).map (.char c :: ·) := by
  simp only [List.mem_cons, List.not_mem_nil, or_false, not_or] at hc
  obtain ⟨hstar, hone, hslash, hbracket⟩ := hc
  exact piecesFrom?.eq_9 _ _ _ hstar hone (fun h => absurd h hslash)
    (fun _ _ h => absurd h hslash) hbracket

/-- Ranges and what is behind their closing bracket. -/
theorem exists_ranges {fuel limit : Nat} {negated : Bool} {cs : List Char} {g : Glob}
    (h : (do
      let (bounds, rest) ← bounds? limit [] cs
      return .range negated bounds :: (← piecesFrom? fuel rest)) = some g) :
    ∃ inner rest bs g', cs = inner ++ ']' :: rest ∧ SpellsRanges inner bs ∧ bs ≠ [] ∧
      piecesFrom? fuel rest = some g' ∧ g = .range negated bs :: g' := by
  obtain ⟨⟨bounds, rest⟩, hbounds, hmore⟩ := Option.bind_eq_some_iff.mp h
  obtain ⟨inner, bs, rfl, hinner, rfl, hne⟩ := bounds?_eq_some hbounds
  obtain ⟨g', hg', hpieces⟩ := Option.bind_eq_some_iff.mp hmore
  cases hpieces
  exact ⟨inner, rest, bounds, g', rfl, hinner, hne, hg', rfl⟩

/-- Reading a pattern gives the one that is spelled. -/
theorem spells_of_piecesFrom? {fuel : Nat} {cs : List Char} {g : Glob}
    (h : piecesFrom? fuel cs = some g) : Spells cs g := by
  induction fuel generalizing cs g with
  | zero => cases h
  | succ fuel ih =>
      cases cs with
      | nil =>
          cases h
          exact .nil
      | cons c rest =>
          by_cases hc : c ∈ ['*', '?', '\\', '[']
          · simp only [List.mem_cons, List.not_mem_nil, or_false] at hc
            rcases hc with rfl | rfl | rfl | rfl
            · obtain ⟨g', hg', rfl⟩ := Option.map_eq_some_iff.mp h
              exact .star (ih hg')
            · obtain ⟨g', hg', rfl⟩ := Option.map_eq_some_iff.mp h
              exact .one (ih hg')
            · cases rest with
              | nil => cases h
              | cons d more =>
                  obtain ⟨g', hg', rfl⟩ := Option.map_eq_some_iff.mp h
                  exact .escaped d (ih hg')
            · by_cases hcaret : ∃ more, rest = '^' :: more
              · obtain ⟨more, rfl⟩ := hcaret
                obtain ⟨inner, rest, bs, g', rfl, hinner, hne, hg', rfl⟩ := exists_ranges h
                exact .negated hinner hne (ih hg')
              · rw [piecesFrom?.eq_8 _ _ fun more hrest => hcaret ⟨more, hrest⟩] at h
                obtain ⟨inner, rest, bs, g', rfl, hinner, hne, hg', rfl⟩ := exists_ranges h
                refine .range hinner hne (fun hhead => hcaret ?_) (ih hg')
                obtain ⟨more, rfl⟩ := List.head?_eq_some_iff.mp hhead
                exact ⟨_, rfl⟩
          · rw [piecesFrom?_plain hc] at h
            obtain ⟨g', hg', rfl⟩ := Option.map_eq_some_iff.mp h
            exact .char hc (ih hg')

/-- Ranges that are spelled are read, and so is the pattern behind them. -/
theorem piecesFrom?_behind_ranges {fuel : Nat} {inner cs : List Char} {bs : List (Char × Char)}
    {g : Glob} (hbounds : SpellsRanges inner bs) (hne : bs ≠ [])
    (hcs : piecesFrom? fuel cs = some g) (negated : Bool) :
    (do
      let (bounds, rest) ← bounds? ((inner ++ ']' :: cs).length + 1) [] (inner ++ ']' :: cs)
      return .range negated bounds :: (← piecesFrom? fuel rest)) =
    some (.range negated bs :: g) := by
  have hlength : bs.length < (inner ++ ']' :: cs).length + 1 := by
    have hle := hbounds.length_le
    simp only [List.length_append]
    omega
  rw [bounds?_of_spellsRanges hbounds hlength (.inr hne)]
  simp [hcs]

/-- A pattern that is spelled is read, with enough fuel. -/
theorem piecesFrom?_of_spells {cs : List Char} {g : Glob} (h : Spells cs g) {fuel : Nat}
    (hfuel : cs.length < fuel) : piecesFrom? fuel cs = some g := by
  induction h generalizing fuel with
  | nil =>
      obtain ⟨fuel, rfl⟩ : ∃ n, fuel = n + 1 := ⟨fuel - 1, by omega⟩
      rfl
  | star _ ih =>
      obtain ⟨fuel, rfl⟩ : ∃ n, fuel = n + 1 := ⟨fuel - 1, by omega⟩
      rw [piecesFrom?.eq_3, ih (by simpa using hfuel), Option.map_some]
  | one _ ih =>
      obtain ⟨fuel, rfl⟩ : ∃ n, fuel = n + 1 := ⟨fuel - 1, by omega⟩
      rw [piecesFrom?.eq_4, ih (by simpa using hfuel), Option.map_some]
  | escaped c _ ih =>
      obtain ⟨fuel, rfl⟩ : ∃ n, fuel = n + 1 := ⟨fuel - 1, by omega⟩
      rw [List.length_cons, List.length_cons] at hfuel
      rw [piecesFrom?.eq_6, ih (by omega), Option.map_some]
  | negated hbounds hne _ ih =>
      obtain ⟨fuel, rfl⟩ : ∃ n, fuel = n + 1 := ⟨fuel - 1, by omega⟩
      simp only [List.length_cons, List.length_append] at hfuel
      exact piecesFrom?_behind_ranges hbounds hne (ih (by omega)) true
  | range hbounds hne hcaret _ ih =>
      obtain ⟨fuel, rfl⟩ : ∃ n, fuel = n + 1 := ⟨fuel - 1, by omega⟩
      simp only [List.length_cons, List.length_append] at hfuel
      rw [piecesFrom?.eq_8]
      · exact piecesFrom?_behind_ranges hbounds hne (ih (by omega)) false
      · -- The first bound is no caret, and without one there would be a closing bracket.
        intro more hmore
        cases hbounds with
        | nil => exact hne rfl
        | cons hrange hrest =>
            obtain ⟨d, ds, rfl, -⟩ := hrange.head
            exact hcaret (by simpa using (List.cons.inj hmore).1)
  | char hc _ ih =>
      obtain ⟨fuel, rfl⟩ : ∃ n, fuel = n + 1 := ⟨fuel - 1, by omega⟩
      rw [piecesFrom?_plain hc, ih (by simpa using hfuel), Option.map_some]

/-- A string is read as a pattern exactly when it spells one. -/
theorem parse?_eq_some_iff {s : String} {g : Glob} :
    parse? s = some g ↔ Spells s.toList g := by
  constructor
  · exact spells_of_piecesFrom?
  · intro h
    exact piecesFrom?_of_spells h (by rw [String.length_toList]; exact Nat.lt_succ_self _)

end Spelling

/-- A name fits a pattern: a star takes any characters but slashes, a question mark one such
character, and ranges take a character in one of them, or in none of them if they are negated. -/
inductive Matches : Glob → List Char → Prop
  | nil : Matches [] []
  | star {g : Glob} {taken rest : List Char} (hslash : '/' ∉ taken) (hrest : Matches g rest) :
      Matches (.star :: g) (taken ++ rest)
  | one {g : Glob} {c : Char} {rest : List Char} (hslash : c ≠ '/') (hrest : Matches g rest) :
      Matches (.one :: g) (c :: rest)
  | char {g : Glob} (c : Char) {rest : List Char} (hrest : Matches g rest) :
      Matches (.char c :: g) (c :: rest)
  | range {g : Glob} {negated : Bool} {bounds : List (Char × Char)} {c : Char} {rest : List Char}
      (hbounds : (∃ b ∈ bounds, b.1 ≤ c ∧ c ≤ b.2) ↔ negated = false) (hrest : Matches g rest) :
      Matches (.range negated bounds :: g) (c :: rest)

/-- Skipping tries every beginning without a slash. -/
theorem skip_eq_true_iff {p : List Char → Bool} {cs : List Char} :
    skip p cs = true ↔ ∃ taken rest, cs = taken ++ rest ∧ '/' ∉ taken ∧ p rest = true := by
  induction cs with
  | nil =>
      rw [skip]
      constructor
      · intro hp
        exact ⟨[], [], rfl, by simp, hp⟩
      · rintro ⟨taken, rest, htaken, -, hp⟩
        obtain ⟨rfl, rfl⟩ := List.nil_eq_append_iff.mp htaken
        exact hp
  | cons c cs ih =>
      rw [skip, Bool.or_eq_true, Bool.and_eq_true, bne_iff_ne, ih]
      constructor
      · rintro (hp | ⟨hc, taken, rest, rfl, hslash, hp⟩)
        · exact ⟨[], c :: cs, rfl, by simp, hp⟩
        · exact ⟨c :: taken, rest, rfl, by simp [hslash, Ne.symm hc], hp⟩
      · rintro ⟨taken, rest, htaken, hslash, hp⟩
        cases taken with
        | nil =>
            rw [List.nil_append] at htaken
            exact .inl (htaken ▸ hp)
        | cons d taken =>
            obtain ⟨rfl, rfl⟩ := List.cons.inj htaken
            obtain ⟨hd, hmore⟩ := List.ne_and_not_mem_of_not_mem_cons hslash
            exact .inr ⟨Ne.symm hd, taken, rest, rfl, hmore, hp⟩

theorem inBounds_iff {c : Char} {bounds : List (Char × Char)} :
    inBounds c bounds = true ↔ ∃ b ∈ bounds, b.1 ≤ c ∧ c ≤ b.2 := by
  simp [inBounds]

/-- The search finds out whether a name fits a pattern. -/
theorem holds_iff_matches {g : Glob} {cs : List Char} : g.holds cs = true ↔ g.Matches cs := by
  induction g generalizing cs with
  | nil =>
      rw [holds, List.isEmpty_iff]
      constructor
      · rintro rfl
        exact .nil
      · intro h
        cases h
        rfl
  | cons piece g ih =>
      cases piece with
      | star =>
          rw [holds, skip_eq_true_iff]
          constructor
          · rintro ⟨taken, rest, rfl, hslash, hrest⟩
            exact .star hslash (ih.mp hrest)
          · intro h
            cases h with
            | star hslash hrest => exact ⟨_, _, rfl, hslash, ih.mpr hrest⟩
      | one =>
          cases cs with
          | nil => exact ⟨nofun, nofun⟩
          | cons c rest =>
              rw [holds, Bool.and_eq_true, bne_iff_ne, ih]
              constructor
              · rintro ⟨hslash, hrest⟩
                exact .one hslash hrest
              · intro h
                cases h with
                | one hslash hrest => exact ⟨hslash, hrest⟩
      | char d =>
          cases cs with
          | nil => exact ⟨nofun, nofun⟩
          | cons c rest =>
              rw [holds, Bool.and_eq_true, beq_iff_eq, ih]
              constructor
              · rintro ⟨rfl, hrest⟩
                exact .char c hrest
              · intro h
                cases h with
                | char _ hrest => exact ⟨rfl, hrest⟩
      | range negated bounds =>
          cases cs with
          | nil => exact ⟨nofun, nofun⟩
          | cons c rest =>
              have hbounds : (inBounds c bounds != negated) = true ↔
                  ((∃ b ∈ bounds, b.1 ≤ c ∧ c ≤ b.2) ↔ negated = false) := by
                rw [← inBounds_iff]
                cases inBounds c bounds <;> cases negated <;> simp
              rw [holds, Bool.and_eq_true, hbounds, ih]
              constructor
              · rintro ⟨hb, hrest⟩
                exact .range hb hrest
              · intro h
                cases h with
                | range hb hrest => exact ⟨hb, hrest⟩

end Glob

namespace Path

section Stems

/-- A name without slashes is what stands before its extension, and the extension. -/
theorem exists_eq_append_extension {s : String} (h : '/' ∉ s.toList) :
    ∃ name, s = name ++ extension s := by
  rw [extension, lastPiece_of_not_mem h]
  split
  · next hdot =>
      have hparts := List.takeWhile_append_dropWhile (p := (· != '.')) (l := s.toList.reverse)
      cases hdrop : s.toList.reverse.dropWhile (· != '.') with
      | nil =>
          have hall := List.dropWhile_eq_nil_iff.mp hdrop '.' (List.contains_iff_mem.mp hdot)
          simp at hall
      | cons d more =>
          have hd : d = '.' := by
            have hhead := List.head_dropWhile_not (l := s.toList.reverse) (· != '.')
              (by simp [hdrop])
            simpa [hdrop] using hhead
          rw [hdrop, hd] at hparts
          refine ⟨String.ofList more.reverse, String.toList_inj.mp ?_⟩
          have hreverse := congrArg List.reverse hparts
          rw [List.reverse_reverse] at hreverse
          calc
            s.toList = (s.toList.reverse.takeWhile (· != '.') ++ '.' :: more).reverse :=
              hreverse.symm
            _ = _ := by simp
  · exact ⟨s, by simp⟩

/-- The stem of a name is its last component without the extension. -/
theorem stem_eq {path name ending : String} (hlong : 1 < ending.length)
    (hext : extension path = ending) (hlast : lastName path = name ++ ending) :
    stem path = name := by
  rw [stem, hext, base_eq_lastName (hext ▸ hlong), hlast, dropEnding]
  have hlength : name.toList.length + ending.toList.length - ending.length =
      name.toList.length := by
    rw [← String.length_toList, Nat.add_sub_cancel]
  simp [String.toList_append, hlength]

end Stems

end Path

end DeclGen
