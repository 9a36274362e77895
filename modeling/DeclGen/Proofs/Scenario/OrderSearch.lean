import DeclGen.Proofs.Scenario.Verdicts

/-!
# Looking for lines in order

An order asks for lines one after the other. They are looked for from front to back, each one behind
the place where the one before it was found. This finds them all exactly when there are places for
them in the text at which none of them overlaps the next. The search never leaves the text, and a
line that occurs in the text but is not found has a line before it.

## Implementation notes

The check carries what is left of the text and of the lines. `OrderSearch` says the same in numbers,
how many lines were found and how far the search has come, so that both can be compared with the
text and the list of lines.
-/

namespace DeclGen

namespace Text

variable {part t : Text} {place : Nat}

/-- A part stands in a text at a place. -/
def OccursAt (part t : Text) (place : Nat) : Prop :=
  ∃ before after, before ++ part ++ after = t ∧ before.length = place

theorem OccursAt.append_left (h : OccursAt part t place) (front : Text) :
    OccursAt part (front ++ t) (front.length + place) := by
  obtain ⟨before, after, rfl, rfl⟩ := h
  exact ⟨front ++ before, after, by simp only [List.append_assoc], List.length_append⟩

theorem OccursAt.of_append_left {front : Text} (h : OccursAt part (front ++ t) place)
    (hle : front.length ≤ place) : OccursAt part t (place - front.length) := by
  obtain ⟨before, after, heq, rfl⟩ := h
  rw [List.append_assoc] at heq
  obtain ⟨rest, rfl, hrest⟩ | ⟨rest, rfl, hrest⟩ := List.append_eq_append_iff.mp heq
  · have hnil : rest = [] := by
      rw [List.length_append] at hle
      exact List.length_eq_zero_iff.mp (by omega)
    subst hnil
    exact ⟨[], after, by simpa using hrest, by simp⟩
  · exact ⟨rest, after, by rw [List.append_assoc, hrest], by simp⟩

/-- The places at which parts stand in a text, none of them reaching into the next. -/
def Placed (parts : List Text) (t : Text) (place : Nat → Nat) : Prop :=
  (∀ i (h : i < parts.length), OccursAt parts[i] t (place i)) ∧
    ∀ i (h : i + 1 < parts.length), place i + parts[i].length ≤ place (i + 1)

/-- Behind the first part there is room for all the others. -/
theorem Placed.le_place {more : List Text} {place : Nat → Nat} (h : Placed (part :: more) t place) :
    ∀ i < more.length, place 0 + part.length ≤ place (i + 1) := by
  intro i hi
  induction i with
  | zero => exact h.2 0 (by simpa using hi)
  | succ i ih =>
      have hnext := h.2 (i + 1) (by simpa using hi)
      have hle := ih (by omega)
      omega

theorem placed_nil (t : Text) (place : Nat → Nat) : Placed [] t place :=
  ⟨fun _ h => absurd h (Nat.not_lt_zero _), fun _ h => absurd h (Nat.not_lt_zero _)⟩

/-- The places of a first part and of others, which are counted from its end. -/
def placesBehind (first last : Nat) (place : Nat → Nat) : Nat → Nat
  | 0 => first
  | i + 1 => last + place i

theorem Placed.behind {before after : Text} {more : List Text} {place : Nat → Nat}
    (h : Placed more after place) :
    Placed (part :: more) (before ++ part ++ after)
      (placesBehind before.length (before ++ part).length place) := by
  constructor
  · rintro (_ | i) hi
    · exact ⟨before, after, rfl, rfl⟩
    · exact (h.1 i (by simpa using hi)).append_left (before ++ part)
  · rintro (_ | i) hi
    · simp [placesBehind]
    · have hnext := h.2 i (by simpa using hi)
      simpa [placesBehind, Nat.add_assoc] using hnext

/-- Parts occur in order exactly when there are places for them. -/
theorem inOrder_iff_exists_placed {parts : List Text} :
    InOrder parts t ↔ ∃ place, Placed parts t place := by
  induction parts generalizing t with
  | nil => exact ⟨fun _ => ⟨id, placed_nil t id⟩, fun _ => trivial⟩
  | cons part more ih =>
      constructor
      · rintro ⟨before, after, rfl, hmore⟩
        obtain ⟨place, hplaced⟩ := ih.mp hmore
        exact ⟨_, hplaced.behind⟩
      · rintro ⟨place, hplaced⟩
        obtain ⟨before, after, rfl, hbefore⟩ := hplaced.1 0 (by simp)
        have hle := hplaced.le_place
        have hlength : (before ++ part).length = place 0 + part.length := by
          rw [List.length_append, hbefore]
        refine ⟨before, after, rfl,
          ih.mpr ⟨fun i => place (i + 1) - (before ++ part).length, ?_, ?_⟩⟩
        · intro i hi
          exact (hplaced.1 (i + 1) (by simpa using hi)).of_append_left (hlength ▸ hle i hi)
        · intro i hi
          have hnext := hplaced.2 (i + 1) (by simpa using hi)
          have hroom := hle i (by omega)
          simp only [List.getElem_cons_succ] at hnext ⊢
          omega

/-- A part that is found lies within the text. -/
theorem find?_add_length_le {i : Nat} (h : find? part t = some i) : i + part.length ≤ t.length := by
  have ht := eq_append_of_find? h
  -- The equation alone does not bound the place of an empty part, but the first occurrence does.
  obtain ⟨j, (hj : find? part _ = some j), hle⟩ :=
    find?_append (t.take i) (t.drop (i + part.length))
  rw [← ht, h] at hj
  cases hj
  have hlength := congrArg List.length ht
  rw [List.length_take] at hle
  simp only [List.length_append, List.length_take, List.length_drop] at hlength
  omega

end Text

namespace Assertion

open Text

/-- How far the lines of an order have been looked for: how many of them were found, and the place
behind the last of these. -/
structure OrderSearch where
  found : Nat := 0
  offset : Nat := 0
  deriving DecidableEq

namespace OrderSearch

variable {lines : List String} {t : Text} {s s' : OrderSearch} {line : String}

/-- The search after one more line, if it is found. -/
def next? (lines : List String) (t : Text) (s : OrderSearch) : Option OrderSearch := do
  let line ← lines[s.found]?
  let i ← find? (ofString line) (t.drop s.offset)
  return ⟨s.found + 1, s.offset + i + (ofString line).length⟩

theorem next?_eq_some (h : s.next? lines t = some s') :
    ∃ line i, lines[s.found]? = some line ∧ find? (ofString line) (t.drop s.offset) = some i ∧
      s' = ⟨s.found + 1, s.offset + i + (ofString line).length⟩ := by
  obtain ⟨line, hline, h⟩ := Option.bind_eq_some_iff.mp h
  obtain ⟨i, hi, h⟩ := Option.bind_eq_some_iff.mp h
  exact ⟨line, i, hline, hi, (Option.some.inj h).symm⟩

/-- The states of a search, from the start of the text on. -/
inductive Reached (lines : List String) (t : Text) : OrderSearch → Prop
  | start : Reached lines t {}
  | next {s s' : OrderSearch} :
      Reached lines t s → s.next? lines t = some s' → Reached lines t s'

/-- The line that was found last. -/
def previous? (lines : List String) (s : OrderSearch) : Option String :=
  if s.found = 0 then none else lines[s.found - 1]?

/-- A step stays within the text and within the lines. -/
theorem next?_le (hs : s.offset ≤ t.length) (h : s.next? lines t = some s') :
    s'.offset ≤ t.length ∧ s'.found ≤ lines.length := by
  obtain ⟨line, i, hline, hi, rfl⟩ := next?_eq_some h
  have hle := find?_add_length_le hi
  have hfound := (List.getElem?_eq_some_iff.mp hline).1
  rw [List.length_drop] at hle
  exact ⟨by dsimp only; omega, hfound⟩

theorem Reached.le (h : Reached lines t s) : s.offset ≤ t.length ∧ s.found ≤ lines.length := by
  induction h with
  | start => exact ⟨Nat.zero_le _, Nat.zero_le _⟩
  | next _ hnext ih => exact next?_le ih.1 hnext

/-- Before a line was found the search stands at the start of the text. -/
theorem Reached.offset_of_found (h : Reached lines t s) (hzero : s.found = 0) : s.offset = 0 := by
  cases h with
  | start => rfl
  | next _ hnext =>
      obtain ⟨line, i, -, -, rfl⟩ := next?_eq_some hnext
      cases hzero

/-- Once a line was found, there is a line that was found last. -/
theorem Reached.exists_previous (h : Reached lines t s) (hpos : 0 < s.found) :
    ∃ previous, lines[s.found - 1]? = some previous ∧ s.previous? lines = some previous := by
  have hle := h.le.2
  have hlt : s.found - 1 < lines.length := by omega
  refine ⟨lines[s.found - 1], List.getElem?_eq_getElem hlt, ?_⟩
  rw [previous?, if_neg (by omega), List.getElem?_eq_getElem hlt]

/-- From a state that is reached the check goes on with what is left of the lines and the text. -/
theorem Reached.firstMissing?_eq (h : Reached lines t s) :
    firstMissing? none lines t =
      firstMissing? (s.previous? lines) (lines.drop s.found) (t.drop s.offset) := by
  induction h with
  | start => rfl
  | @next s s' _ hnext ih =>
      obtain ⟨line, i, hline, hi, rfl⟩ := next?_eq_some hnext
      obtain ⟨hlt, hget⟩ := List.getElem?_eq_some_iff.mp hline
      rw [ih, List.drop_eq_getElem_cons hlt, hget, firstMissing?, hi]
      simp only [previous?, List.drop_drop, Nat.add_one_ne_zero, if_false, Nat.add_sub_cancel,
        hline, Nat.add_assoc]

/-- What the check says of a line that is not found: whether it occurs before, and then with the
line that was found last, which there is. -/
theorem Reached.orderShortfall?_cases (h : Reached lines t s) (hline : lines[s.found]? = some line)
    (hmissing : find? (ofString line) (t.drop s.offset) = none) :
    (t.hasPart (ofString line) = true ∧ 0 < s.found ∧ ∃ previous,
        lines[s.found - 1]? = some previous ∧
          orderShortfall? lines t = some (.outOfOrder line previous)) ∨
      t.hasPart (ofString line) = false ∧ orderShortfall? lines t = some .missingLine := by
  have hfirst : firstMissing? none lines t = some (line, s.previous? lines) := by
    obtain ⟨hlt, hget⟩ := List.getElem?_eq_some_iff.mp hline
    rw [h.firstMissing?_eq, List.drop_eq_getElem_cons hlt, hget, firstMissing?, hmissing]
  rw [orderShortfall?, hfirst]
  cases hpart : t.hasPart (ofString line) with
  | true =>
      -- The first line is looked for in the whole text, so what occurs is found.
      have hpos : 0 < s.found := by
        refine Nat.pos_of_ne_zero fun hzero => ?_
        rw [h.offset_of_found hzero, List.drop_zero, find?_eq_none_iff, ← hasPart_iff] at hmissing
        exact hmissing hpart
      obtain ⟨previous, hprevious, hs⟩ := h.exists_previous hpos
      rw [hs]
      exact .inl ⟨rfl, hpos, previous, hprevious, if_pos hpart⟩
  | false =>
      refine .inr ⟨rfl, ?_⟩
      cases s.previous? lines with
      | none => rfl
      | some previous => exact if_neg (by simp [hpart])

end OrderSearch

open OrderSearch

/-- The check of an order is complete and safe. It passes exactly when there are places for all
lines at which none reaches into the next. Its search never leaves the text or the list of lines,
and the check goes on with what is left of both. A line that is not found is reported as missing,
or, where it occurs before, as standing before the line that was found last; it is then not the
first line. -/
theorem order_check_complete_and_safe (lines : List String) (t : Text) :
    (orderShortfall? lines t = none ↔ ∃ place, Placed (lines.map ofString) t place) ∧
    ∀ s, Reached lines t s →
      s.offset ≤ t.length ∧ s.found ≤ lines.length ∧
      firstMissing? none lines t =
        firstMissing? (s.previous? lines) (lines.drop s.found) (t.drop s.offset) ∧
      ∀ line, lines[s.found]? = some line → find? (ofString line) (t.drop s.offset) = none →
        (t.hasPart (ofString line) = true ∧ 0 < s.found ∧ ∃ previous,
            lines[s.found - 1]? = some previous ∧
              orderShortfall? lines t = some (.outOfOrder line previous)) ∨
          t.hasPart (ofString line) = false ∧ orderShortfall? lines t = some .missingLine := by
  constructor
  · rw [orderShortfall?_eq_none_iff, inOrder_iff_exists_placed]
  · intro s hs
    obtain ⟨hoffset, hfound⟩ := hs.le
    refine ⟨hoffset, hfound, hs.firstMissing?_eq, ?_⟩
    intro line hline hmissing
    exact hs.orderShortfall?_cases hline hmissing

/-- An empty line and a line that is asked for twice. -/
def repeatedLines : List String := ["ab", "", "b", "b", "ab"]

/-- A text in which the last of these lines stands only before the others. -/
def overlappingText : Text := .ofString "ab ab b\n"

theorem repeatedLines_search :
    Reached repeatedLines overlappingText ⟨4, 7⟩ ∧ 7 ≤ overlappingText.length ∧
      ∃ previous, repeatedLines[3]? = some previous ∧
        orderShortfall? repeatedLines overlappingText = some (.outOfOrder "ab" previous) := by
  have hreached : Reached repeatedLines overlappingText ⟨4, 7⟩ := by
    apply Reached.next (s := ⟨3, 5⟩)
    · apply Reached.next (s := ⟨2, 2⟩)
      · apply Reached.next (s := ⟨1, 2⟩)
        · apply Reached.next .start
          decide +kernel
        · decide +kernel
      · decide +kernel
    · decide +kernel
  obtain ⟨-, hsafe⟩ := order_check_complete_and_safe repeatedLines overlappingText
  obtain ⟨hoffset, -, -, hmissing⟩ := hsafe _ hreached
  rcases hmissing "ab" rfl (by decide +kernel) with ⟨-, -, h⟩ | ⟨hpart, -⟩
  · exact ⟨hreached, hoffset, h⟩
  · exact absurd hpart (by decide +kernel)

end Assertion

end DeclGen
