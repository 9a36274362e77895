import DeclGen.Proofs.Text.Encoding

/-!
# The order of texts

Texts are ordered as lists of bytes, so any two of them can be compared and only equal ones stand
both ways. Strings with the same bytes are equal, so this is also an order of strings.
-/

namespace DeclGen.Text

theorem le_iff (s t : Text) : le s t = true ↔ List.le s t := by
  induction s generalizing t with
  | nil => exact ⟨fun _ => List.nil_le t, fun _ => rfl⟩
  | cons a s ih =>
      cases t with
      | nil => exact ⟨nofun, fun h => absurd (List.nil_lt_cons a s) h⟩
      | cons b t =>
          have hcons : List.le (a :: s) (b :: t) ↔ a < b ∨ a = b ∧ List.le s t :=
            List.cons_le_cons_iff
          rw [hcons, ← ih]
          simp [le]

theorem le_trans {s t u : Text} (hst : le s t = true) (htu : le t u = true) : le s u = true := by
  rw [le_iff] at hst htu ⊢
  exact List.le_trans hst htu

theorem le_total (s t : Text) : (le s t || le t s) = true := by
  rw [Bool.or_eq_true, le_iff, le_iff]
  exact List.le_total s t

theorem le_antisymm {s t : Text} (hst : le s t = true) (hts : le t s = true) : s = t := by
  rw [le_iff] at hst hts
  exact List.le_antisymm hst hts

theorem ofString_injective : Function.Injective ofString := by
  intro s t h
  rw [← toString_ofString s, h, toString_ofString]

end DeclGen.Text
