import DeclGen.Text.Basic
import Mathlib.Data.List.Infix

/-!
# Searching a text for parts

Searching finds the first occurrence of a part. Parts that have to occur one after the other can
therefore be looked for one by one, each behind the end of the one before: an earlier occurrence
leaves more room for the parts that follow.
-/

namespace DeclGen.Text

variable {part t : Text}

theorem find?_cons (b : UInt8) (rest : Text) :
    find? part (b :: rest) =
      if part <+: b :: rest then some 0 else (find? part rest).map (· + 1) := by
  simp [find?]

/-- A part is found where it occurs. -/
theorem eq_append_of_find? {i : Nat} (h : find? part t = some i) :
    t = t.take i ++ part ++ t.drop (i + part.length) := by
  induction t generalizing i with
  | nil =>
      rw [find?] at h
      split at h
      · next hempty =>
          cases h
          simp [List.isEmpty_iff.mp hempty]
      · cases h
  | cons b rest ih =>
      rw [find?_cons] at h
      split at h
      · next hprefix =>
          cases h
          obtain ⟨after, hafter⟩ := hprefix
          rw [← hafter]
          simp
      · obtain ⟨j, hj, rfl⟩ := Option.map_eq_some_iff.mp h
        have hrest := ih hj
        rw [Nat.add_right_comm, List.take_succ_cons, List.drop_succ_cons, List.cons_append,
          List.cons_append, ← hrest]

/-- No occurrence stands before the one that is found. -/
theorem find?_append (before after : Text) :
    ∃ i, find? part (before ++ part ++ after) = some i ∧ i ≤ before.length := by
  induction before with
  | nil =>
      refine ⟨0, ?_, Nat.le_refl 0⟩
      cases part with
      | nil => cases after <;> simp [find?]
      | cons b rest => simp [find?_cons]
  | cons b rest ih =>
      obtain ⟨i, hi, hle⟩ := ih
      rw [List.cons_append, List.cons_append, find?_cons]
      split
      · exact ⟨0, rfl, Nat.zero_le _⟩
      · exact ⟨i + 1, by rw [hi, Option.map_some], Nat.succ_le_succ hle⟩

theorem hasPart_iff : t.hasPart part = true ↔ part <:+: t := by
  rw [hasPart, Option.isSome_iff_exists]
  constructor
  · rintro ⟨i, hi⟩
    exact ⟨_, _, (eq_append_of_find? hi).symm⟩
  · rintro ⟨before, after, rfl⟩
    obtain ⟨i, hi, -⟩ := find?_append before after
    exact ⟨i, hi⟩

theorem find?_eq_none_iff : find? part t = none ↔ ¬ part <:+: t := by
  rw [← hasPart_iff, hasPart, Bool.not_eq_true, Option.isSome_eq_false_iff,
    Option.isNone_iff_eq_none]

/-- Parts that occur one after the other, without sharing bytes. -/
def InOrder : List Text → Text → Prop
  | [], _ => True
  | part :: more, t => ∃ before after, t = before ++ part ++ after ∧ InOrder more after

/-- What occurs in order at the end of a text occurs in order in the whole text. -/
theorem InOrder.of_suffix {parts : List Text} {s t : Text} (h : InOrder parts s) (hs : s <:+ t) :
    InOrder parts t := by
  cases parts with
  | nil => trivial
  | cons part more =>
      obtain ⟨before, after, rfl, hmore⟩ := h
      obtain ⟨front, rfl⟩ := hs
      exact ⟨front ++ before, after, by simp only [List.append_assoc], hmore⟩

/-- The first part may be taken where it is found. -/
theorem inOrder_cons_iff {more : List Text} :
    InOrder (part :: more) t ↔
      ∃ i, find? part t = some i ∧ InOrder more (t.drop (i + part.length)) := by
  constructor
  · rintro ⟨before, after, rfl, hmore⟩
    obtain ⟨i, hi, hle⟩ := find?_append before after
    refine ⟨i, hi, hmore.of_suffix ?_⟩
    have hafter : (before ++ part ++ after).drop (before.length + part.length) = after := by
      rw [← List.length_append, List.drop_left]
    have hsuffix := List.drop_suffix_drop_left (before ++ part ++ after)
      (Nat.add_le_add_right hle part.length)
    rwa [hafter] at hsuffix
  · rintro ⟨i, hi, hmore⟩
    exact ⟨_, _, eq_append_of_find? hi, hmore⟩

end DeclGen.Text
