import DeclGen.Proofs.Text.Encoding
import DeclGen.Text.Upper

/-!
# Upper case and single bytes

Upper case works on characters, and much of what is said about a text is said about its bytes below
128: line ends, brackets, separators. Of these bytes, upper case adds letters only, and all but the
letters stay where they are.
-/

namespace DeclGen.Text

/-- A letter of the upper case, by its code. -/
def IsCapital (n : Nat) : Prop := 65 ≤ n ∧ n ≤ 90

instance (n : Nat) : Decidable (IsCapital n) := inferInstanceAs (Decidable (_ ∧ _))

/-- A code that upper case may give for a character from 128 on. -/
def IsUpperCode (n : Nat) : Prop := n.isValidChar ∧ (0x80 ≤ n ∨ IsCapital n)

instance (n : Nat) : Decidable (IsUpperCode n) := inferInstanceAs (Decidable (_ ∧ _))

theorem isCapital_of_isUpperCode {n : Nat} (h : IsUpperCode n) (hu : (Char.ofNat n).toNat < 0x80) :
    IsCapital (Char.ofNat n).toNat := by
  have hn : (Char.ofNat n).toNat = n := by
    rw [Char.ofNat, dif_pos h.1]
    rfl
  rw [hn] at hu ⊢
  rcases h.2 with hhigh | hcap
  · omega
  · exact hcap

theorem isUpperCode_of_mem_upperExpansions :
    ∀ p ∈ upperExpansions, ∀ u ∈ p.2, IsUpperCode u := by
  decide +kernel

/-- No run crosses a border between the codes that are allowed and those that are not. -/
theorem upperRuns_bounds :
    ∀ p ∈ upperRuns, 65 ≤ p.1 + p.2.2.2 ∧
      (p.2.1 + p.2.2.2 ≤ 90 ∨ 0x80 ≤ p.1 + p.2.2.2 ∧ p.2.1 + p.2.2.2 < 0xD800 ∨
        0xDFFF < p.1 + p.2.2.2 ∧ p.2.1 + p.2.2.2 < 0x110000) := by
  decide +kernel

theorem toUpper_ascii (n : Fin 0x80) :
    IsCapital (Char.ofNat n).toUpper.toNat ∨ (Char.ofNat n).toUpper = Char.ofNat n := by
  revert n
  decide +kernel

/-- What the upper case of a character has below 128 is a letter, or the character itself. -/
theorem upperChar_cases {c u : Char} (h : u ∈ upperChar c) (hu : u.toNat < 0x80) :
    IsCapital u.toNat ∨ u = c := by
  simp only [upperChar] at h
  split at h
  · next hc =>
      have hupper := toUpper_ascii ⟨c.toNat, hc⟩
      rwa [Char.ofNat_toNat, ← List.mem_singleton.mp h] at hupper
  · split at h
    · next us hf =>
        obtain ⟨n, hn, rfl⟩ := List.mem_map.mp h
        exact .inl (isCapital_of_isUpperCode
          (isUpperCode_of_mem_upperExpansions _ (List.mem_of_find?_eq_some hf) n hn) hu)
    · split at h
      · next first last step offset hf =>
          have hbounds := upperRuns_bounds _ (List.mem_of_find?_eq_some hf)
          have hin := List.find?_some hf
          simp only [Bool.and_eq_true, decide_eq_true_eq] at hin hbounds
          rw [List.mem_singleton.mp h] at hu ⊢
          refine .inl (isCapital_of_isUpperCode ?_ hu)
          constructor
          · rw [Nat.isValidChar]
            omega
          · rw [IsCapital]
            omega
      · exact .inr (List.mem_singleton.mp h)

/-- Of the bytes below 128, upper case adds letters only. -/
theorem mem_of_mem_upper {b : UInt8} {t : Text} (h : b ∈ t.upper) (hb : b.toNat < 0x80)
    (hl : ¬ IsCapital b.toNat) : b ∈ t := by
  obtain ⟨g, hg, hmem⟩ := List.mem_flatMap.mp h
  refine mem_of_mem_glyphsFrom ?_ 0 t hg
  cases g with
  | stray a =>
      rw [List.mem_singleton.mp hmem]
      rfl
  | char c =>
      obtain ⟨u, hu, hbu⟩ := List.mem_flatMap.mp hmem
      have heq := toNat_eq_of_mem_ofChar hbu hb
      rcases upperChar_cases hu (by omega) with hcap | rfl
      · exact absurd (heq ▸ hcap) hl
      · rw [Glyph.byte?, if_pos (by omega), ← heq, UInt8.ofNat_toNat]

section Kept

/-- A letter of either case, by its code. -/
def IsLetter (n : Nat) : Prop := IsCapital n ∨ 97 ≤ n ∧ n ≤ 122

instance (n : Nat) : Decidable (IsLetter n) := inferInstanceAs (Decidable (_ ∨ _))

theorem toUpper_letter (n : Fin 0x80) :
    (Char.ofNat n).toUpper = Char.ofNat n ∨
      IsLetter n ∧ (Char.ofNat n).toUpper.toNat < 0x80 ∧
        IsLetter (Char.ofNat n).toUpper.toNat := by
  revert n
  decide +kernel

variable {p : UInt8 → Bool} (hp : ∀ b, p b = true → b.toNat < 0x80 ∧ ¬ IsLetter b.toNat)
include hp

/-- A character of which no byte is asked for. -/
theorem filter_ofChar_eq_nil {c : Char} (h : c.toNat < 0x80 → IsLetter c.toNat) :
    (ofChar c).filter p = [] := by
  rw [List.filter_eq_nil_iff]
  intro b hb hpb
  obtain ⟨hlow, hletter⟩ := hp b hpb
  have heq := toNat_eq_of_mem_ofChar hb hlow
  exact hletter (heq ▸ h (by omega))

theorem filter_upperChar (c : Char) :
    (ofChars (upperChar c)).filter p = (ofChar c).filter p := by
  by_cases hc : c.toNat < 0x80
  · have hone : upperChar c = [c.toUpper] := by
      simp [upperChar, hc]
    have hchars : ofChars [c.toUpper] = ofChar c.toUpper := by
      simp [ofChars]
    have hupper := toUpper_letter ⟨c.toNat, hc⟩
    rw [Char.ofNat_toNat] at hupper
    rw [hone, hchars]
    rcases hupper with hsame | ⟨hletter, -, hupper⟩
    · rw [hsame]
    · rw [filter_ofChar_eq_nil hp fun _ => hletter, filter_ofChar_eq_nil hp fun _ => hupper]
  · rw [filter_ofChar_eq_nil hp fun h => absurd h hc, ofChars, List.filter_flatMap,
      List.flatMap_eq_nil_iff]
    intro u hu
    apply filter_ofChar_eq_nil hp
    intro hlow
    rcases upperChar_cases hu hlow with hcap | rfl
    · exact .inl hcap
    · exact absurd hlow hc

/-- Bytes below 128 that are no letters are the same in upper case, and in the same order. -/
theorem filter_upper (t : Text) : t.upper.filter p = t.filter p := by
  have hbytes := congrArg (List.filter p) (flatMap_bytes_glyphs t)
  rw [← hbytes, upper, List.filter_flatMap, List.filter_flatMap]
  congr 1
  funext g
  cases g with
  | char c => exact filter_upperChar hp c
  | stray b => rfl

end Kept

end DeclGen.Text
