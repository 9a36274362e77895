import DeclGen.Proofs.Text.Casing

/-!
# Paired brackets

A text is balanced when its round, square and curly brackets are paired; all other bytes may stand
anywhere. Balanced texts are given by a grammar, and recognized by going through a text with the
brackets that are still open.

Only the brackets of a text count, so a text is balanced in upper case if it is balanced at all.
-/

namespace DeclGen.Text

/-- The pairs of brackets. -/
inductive Pair where
  | round
  | square
  | curly
  deriving DecidableEq, Repr

namespace Pair

/-- The byte that opens a pair. -/
def opening : Pair → UInt8
  | round => 40
  | square => 91
  | curly => 123

/-- The byte that closes a pair. -/
def closing : Pair → UInt8
  | round => 41
  | square => 93
  | curly => 125

end Pair

/-- Texts with paired brackets. -/
inductive Balanced : Text → Prop
  | nil : Balanced []
  | other {b : UInt8} : (∀ p : Pair, b ≠ p.opening ∧ b ≠ p.closing) → Balanced [b]
  | append {s t : Text} : Balanced s → Balanced t → Balanced (s ++ t)
  | enclosed (p : Pair) {t : Text} : Balanced t → Balanced (p.opening :: t ++ [p.closing])

/-- What a byte does as a bracket. -/
inductive Bracket where
  | opens (p : Pair)
  | closes (p : Pair)
  deriving DecidableEq, Repr

/-- The bracket that a byte is, if it is one. -/
def bracket? (b : UInt8) : Option Bracket :=
  if b = 40 then some (.opens .round)
  else if b = 41 then some (.closes .round)
  else if b = 91 then some (.opens .square)
  else if b = 93 then some (.closes .square)
  else if b = 123 then some (.opens .curly)
  else if b = 125 then some (.closes .curly)
  else none

@[simp]
theorem bracket?_opening (p : Pair) : bracket? p.opening = some (.opens p) := by
  cases p <;> rfl

@[simp]
theorem bracket?_closing (p : Pair) : bracket? p.closing = some (.closes p) := by
  cases p <;> rfl

/-- A byte opens a pair, closes a pair, or is no bracket. -/
theorem bracket?_cases (b : UInt8) :
    (∃ p : Pair, b = p.opening) ∨ (∃ p : Pair, b = p.closing) ∨
      bracket? b = none ∧ ∀ p : Pair, b ≠ p.opening ∧ b ≠ p.closing := by
  cases h : bracket? b with
  | none =>
      refine .inr (.inr ⟨rfl, fun p => ⟨?_, ?_⟩⟩)
      · rintro rfl
        simp at h
      · rintro rfl
        simp at h
  | some m =>
      unfold bracket? at h
      split at h
      · next hb => exact .inl ⟨.round, hb⟩
      · split at h
        · next hb => exact .inr (.inl ⟨.round, hb⟩)
        · split at h
          · next hb => exact .inl ⟨.square, hb⟩
          · split at h
            · next hb => exact .inr (.inl ⟨.square, hb⟩)
            · split at h
              · next hb => exact .inl ⟨.curly, hb⟩
              · split at h
                · next hb => exact .inr (.inl ⟨.curly, hb⟩)
                · cases h

/-- The pairs that are open after a text, the innermost first, given those that are open before it;
nothing if a bracket closes a pair that is not the innermost one. -/
def pending? : List Pair → Text → Option (List Pair)
  | pairs, [] => some pairs
  | pairs, b :: rest =>
    match bracket? b, pairs with
    | none, pairs => pending? pairs rest
    | some (.opens p), pairs => pending? (p :: pairs) rest
    | some (.closes p), q :: outer => if q = p then pending? outer rest else none
    | some (.closes _), [] => none

theorem pending?_opening (pairs : List Pair) (p : Pair) (rest : Text) :
    pending? pairs (p.opening :: rest) = pending? (p :: pairs) rest := by
  simp [pending?]

theorem pending?_closing (p q : Pair) (outer : List Pair) (rest : Text) :
    pending? (q :: outer) (p.closing :: rest) = if q = p then pending? outer rest else none := by
  simp [pending?]

theorem pending?_other {b : UInt8} (h : bracket? b = none) (pairs : List Pair) (rest : Text) :
    pending? pairs (b :: rest) = pending? pairs rest := by
  simp [pending?, h]

/-- A balanced text leaves the open pairs as they are. -/
theorem Balanced.pending? {t : Text} (h : Balanced t) :
    ∀ pairs rest, Text.pending? pairs (t ++ rest) = Text.pending? pairs rest := by
  induction h with
  | nil =>
      intro pairs rest
      rfl
  | @other b hb =>
      intro pairs rest
      rcases bracket?_cases b with ⟨p, rfl⟩ | ⟨p, rfl⟩ | ⟨hnone, -⟩
      · exact absurd rfl (hb p).1
      · exact absurd rfl (hb p).2
      · exact pending?_other hnone pairs rest
  | append _ _ hs ht =>
      intro pairs rest
      rw [List.append_assoc, hs, ht]
  | enclosed p _ ht =>
      intro pairs rest
      rw [List.cons_append, List.cons_append, List.append_assoc, pending?_opening, ht,
        List.singleton_append, pending?_closing, if_pos rfl]

/-- A text that closes open pairs: balanced texts with the closing brackets between them. -/
def Closing : List Pair → Text → Prop
  | [], t => Balanced t
  | p :: outer, t => ∃ u v, Balanced u ∧ Closing outer v ∧ t = u ++ p.closing :: v

theorem Balanced.closing {s t : Text} (hs : Balanced s) {pairs : List Pair}
    (ht : Closing pairs t) : Closing pairs (s ++ t) := by
  cases pairs with
  | nil => exact hs.append ht
  | cons p outer =>
      obtain ⟨u, v, hu, hv, rfl⟩ := ht
      exact ⟨s ++ u, v, hs.append hu, hv, (List.append_assoc ..).symm⟩

/-- A text that leaves no pair open closes those that were open before it. -/
theorem closing_of_pending? {t : Text} :
    ∀ {pairs : List Pair}, pending? pairs t = some [] → Closing pairs t := by
  induction t with
  | nil =>
      intro pairs h
      cases h
      exact .nil
  | cons b rest ih =>
      intro pairs h
      rcases bracket?_cases b with ⟨p, rfl⟩ | ⟨p, rfl⟩ | ⟨hnone, hb⟩
      · rw [pending?_opening] at h
        obtain ⟨u, v, hu, hv, rfl⟩ := ih h
        have hwhole := (hu.enclosed p).closing hv
        rwa [List.cons_append, List.cons_append, List.append_assoc, List.singleton_append] at hwhole
      · cases pairs with
        | nil => simp [pending?] at h
        | cons q outer =>
            rw [pending?_closing] at h
            split at h
            · next hq => exact hq ▸ ⟨[], rest, .nil, ih h, rfl⟩
            · cases h
      · rw [pending?_other hnone] at h
        exact (Balanced.other hb).closing (ih h)

/-- A text is balanced exactly when going through it opens and closes in order. -/
theorem balanced_iff_pending? {t : Text} : Balanced t ↔ pending? [] t = some [] := by
  constructor
  · intro h
    have hall := h.pending? [] []
    rwa [List.append_nil] at hall
  · intro h
    exact closing_of_pending? h

instance (t : Text) : Decidable t.Balanced := decidable_of_iff _ balanced_iff_pending?.symm

example : Balanced (ofString "f(a[1]) \x7b \x7d") ∧ ¬ Balanced (ofString "([)]") := by decide

theorem balanced_of_forall {t : Text} (h : ∀ b ∈ t, bracket? b = none) : Balanced t := by
  induction t with
  | nil => exact .nil
  | cons b rest ih =>
      have hb : ∀ p : Pair, b ≠ p.opening ∧ b ≠ p.closing := by
        intro p
        have hnone := h b (by simp)
        constructor
        · rintro rfl
          simp at hnone
        · rintro rfl
          simp at hnone
      exact (Balanced.other hb).append (ih fun c hc => h c (by simp [hc]))

section UpperCase

/-- Only brackets change what is open. -/
theorem pending?_filter (t : Text) :
    ∀ pairs, pending? pairs (t.filter fun b => (bracket? b).isSome) = pending? pairs t := by
  induction t with
  | nil =>
      intro pairs
      rfl
  | cons b rest ih =>
      intro pairs
      rcases bracket?_cases b with ⟨p, rfl⟩ | ⟨p, rfl⟩ | ⟨hnone, -⟩
      · rw [List.filter_cons_of_pos (by simp), pending?_opening, pending?_opening]
        exact ih (p :: pairs)
      · rw [List.filter_cons_of_pos (by simp)]
        cases pairs with
        | nil => simp [pending?]
        | cons q outer =>
            rw [pending?_closing, pending?_closing, ih outer]
      · rw [List.filter_cons_of_neg (by simp [hnone]), pending?_other hnone]
        exact ih pairs

theorem bracket?_ascii {b : UInt8} (h : (bracket? b).isSome = true) :
    b.toNat < 0x80 ∧ ¬ IsLetter b.toNat := by
  rcases bracket?_cases b with ⟨p, rfl⟩ | ⟨p, rfl⟩ | ⟨hnone, -⟩
  · cases p <;> decide
  · cases p <;> decide
  · rw [hnone] at h
    cases h

theorem Balanced.upper {t : Text} (h : Balanced t) : Balanced t.upper := by
  rw [balanced_iff_pending?] at h ⊢
  rw [← pending?_filter, filter_upper (fun b hb => bracket?_ascii hb), pending?_filter]
  exact h

end UpperCase

end DeclGen.Text
