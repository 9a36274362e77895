import DeclGen.Decimal.Binary64
import Mathlib.Tactic.Ring

/-!
# The range of binary numbers

The greatest 64-bit binary number is `(2 ^ 53 - 1) · 2 ^ 971`. A decimal less than half a step above
it is rounded to a number: the exponent that rounding chooses never passes the last one.
-/

namespace DeclGen

/-- The least number that is too great to be rounded: half a step above the greatest binary
number. -/
def Binary64.bound : Nat := (2 ^ 54 - 1) * 2 ^ 970

/-- The decimal number is within the range of the binary numbers, whatever its sign. -/
def Decimal.Fits (d : Decimal) : Prop :=
  d.digits * 10 ^ d.exponent.toNat < Binary64.bound * 10 ^ (-d.exponent).toNat

instance (d : Decimal) : Decidable d.Fits := inferInstanceAs (Decidable (_ < _))

namespace Binary64

section Rounding

variable {num den : Nat}

/-- A quotient that is more than a half below a whole number is rounded to less. -/
theorem roundDiv_lt {m : Nat} (h : 2 * num < (2 * m - 1) * den) : roundDiv num den < m := by
  have hnum : den * (num / den) + num % den = num := Nat.div_add_mod num den
  have hlt : num / den < m := by
    apply Nat.div_lt_of_lt_mul
    have : (2 * m - 1) * den ≤ 2 * (den * m) := by
      rw [← Nat.mul_assoc, Nat.mul_comm _ den, Nat.mul_comm 2 den, Nat.mul_assoc]
      exact Nat.mul_le_mul_left den (Nat.sub_le _ _)
    omega
  rcases Nat.lt_or_ge (num / den + 1) m with hq | hq
  · simp only [roundDiv]
    split
    · exact hlt
    · split <;> omega
  · -- The quotient is the last one below `m`, so the remainder is less than a half.
    have hm : m = num / den + 1 := by omega
    have hhalf : 2 * (num % den) < den := by
      have hbound : (2 * m - 1) * den = 2 * (den * (num / den)) + den := by
        rw [hm, show 2 * (num / den + 1) - 1 = 2 * (num / den) + 1 by omega]
        ring
      omega
    simp only [roundDiv, if_pos hhalf]
    exact hlt

theorem scale_neg (num den k : Nat) : scale num den (-(k : Int)) = (num, den * 2 ^ k) := by
  cases k with
  | zero => simp [scale]
  | succ k =>
      have hneg : ¬ (0 : Int) ≤ -((k + 1 : Nat) : Int) := by omega
      rw [scale, if_neg hneg, Int.neg_neg, Int.toNat_natCast]
      rfl

/-- A fraction below `2 ^ (k + 53)` has an exponent of at most `k`. -/
theorem fullExponent_le {k : Nat} (h : num < den * 2 ^ (k + 53)) :
    fullExponent num den ≤ k := by
  have hlog : (num.log2 : Int) - den.log2 - 52 ≤ (k + 1 : Nat) := by
    by_contra hgt
    have hnum : num ≠ 0 := by
      rintro rfl
      simp only [Nat.log2_zero] at hgt
      omega
    have hpow : den * 2 ^ (k + 53) < num := by
      calc
        den * 2 ^ (k + 53) < 2 ^ (den.log2 + 1) * 2 ^ (k + 53) :=
          Nat.mul_lt_mul_of_pos_right Nat.lt_log2_self (Nat.two_pow_pos _)
        _ = 2 ^ (den.log2 + 1 + (k + 53)) := (Nat.pow_add ..).symm
        _ ≤ 2 ^ num.log2 := Nat.pow_le_pow_right (by decide) (by omega)
        _ ≤ num := Nat.log2_self_le hnum
    omega
  rcases Int.lt_or_le ((num.log2 : Int) - den.log2 - 52) (k + 1 : Nat) with hlt | hge
  · simp only [fullExponent]
    split <;> omega
  · have heq : (num.log2 : Int) - den.log2 - 52 = (k + 1 : Nat) := by omega
    have hlow : num < den * 2 ^ (k + 1) * Nat.pow 2 52 := by
      rw [Nat.mul_assoc, Nat.pow_eq, ← Nat.pow_add, show k + 1 + 52 = k + 53 by omega]
      exact h
    simp only [fullExponent, heq, scale_neg, if_pos hlow]
    omega

theorem bound_le : bound ≤ 2 ^ (971 + 53) := by
  have hpow : (2 : Nat) ^ (971 + 53) = 2 ^ 54 * 2 ^ 970 := by rw [← Nat.pow_add]
  rw [bound, hpow]
  exact Nat.mul_le_mul_right _ (Nat.sub_le _ _)

/-- A fraction below the bound is rounded to a number. -/
theorem isSome_roundFraction? (h : num < den * bound) :
    (roundFraction? num den).isSome = true := by
  have hpow : num < den * 2 ^ (971 + 53) :=
    Nat.lt_of_lt_of_le h (Nat.mul_le_mul_left den bound_le)
  have hexp := fullExponent_le hpow
  have hmax : max (fullExponent num den) (-1074) ≤ 971 := by omega
  suffices hlast : (carried (roundDiv (scale num den (-max (fullExponent num den) (-1074))).1
      (scale num den (-max (fullExponent num den) (-1074))).2)
      (max (fullExponent num den) (-1074))).2 ≤ 971 by
    simp only [roundFraction?, if_neg (Int.not_lt.mpr hlast), Option.isSome_some]
  generalize max (fullExponent num den) (-1074) = exponent at hmax ⊢
  rcases Int.lt_or_le exponent 971 with hlt | hge
  · unfold carried
    split
    · exact hlt
    · exact hmax
  · -- At the last exponent the mantissa must not be rounded up to 54 bits.
    obtain rfl : exponent = 971 := by omega
    have hround : roundDiv num (den * 2 ^ 971) < Nat.pow 2 53 := by
      apply roundDiv_lt
      have hbound : (2 * Nat.pow 2 53 - 1) * (den * 2 ^ 971) = 2 * (den * bound) := by
        have hpow : (2 : Nat) ^ 971 = 2 * 2 ^ 970 := by rw [← Nat.pow_succ']
        rw [bound, hpow, show 2 * Nat.pow 2 53 - 1 = 2 ^ 54 - 1 from rfl]
        generalize (2 : Nat) ^ 970 = p
        ring
      omega
    have hscale : scale num den (-971) = (num, den * 2 ^ 971) := scale_neg num den 971
    rw [hscale, carried, if_neg (Nat.ne_of_lt hround)]

end Rounding

/-- A decimal with more than `k` places before the point is at least `10 ^ k`. -/
theorem pow_le_of_places {d : Decimal} {k : Nat} (hne : d.digits ≠ 0)
    (h : (k : Int) < (Nat.toDigits 10 d.digits).length + d.exponent) :
    10 ^ k * 10 ^ (-d.exponent).toNat ≤ d.digits * 10 ^ d.exponent.toNat := by
  have hpos : 0 < (Nat.toDigits 10 d.digits).length := Nat.length_toDigits_pos
  have hdigits : 10 ^ ((Nat.toDigits 10 d.digits).length - 1) ≤ d.digits := by
    rcases Nat.eq_zero_or_pos ((Nat.toDigits 10 d.digits).length - 1) with h0 | hmore
    · rw [h0]
      exact Nat.pos_of_ne_zero hne
    · rw [← Nat.not_lt, ← Nat.length_toDigits_le_iff (by decide) hmore]
      omega
  calc
    10 ^ k * 10 ^ (-d.exponent).toNat = 10 ^ (k + (-d.exponent).toNat) := (Nat.pow_add ..).symm
    _ ≤ 10 ^ ((Nat.toDigits 10 d.digits).length - 1 + d.exponent.toNat) :=
      Nat.pow_le_pow_right (by decide) (by omega)
    _ = 10 ^ ((Nat.toDigits 10 d.digits).length - 1) * 10 ^ d.exponent.toNat := Nat.pow_add ..
    _ ≤ d.digits * 10 ^ d.exponent.toNat := Nat.mul_le_mul_right _ hdigits

/-- A decimal within the range is rounded to a number. -/
theorem isSome_ofDecimal? {d : Decimal} (h : d.Fits) : (ofDecimal? d).isSome = true := by
  have hplaces (hne : d.digits ≠ 0) :
      ¬ ((Nat.toDigits 10 d.digits).length : Int) + d.exponent > 310 := by
    intro hgt
    have hlarge := pow_le_of_places (k := 310) hne (by omega)
    have hbound : bound ≤ 10 ^ 310 := by decide +kernel
    have hscaled := Nat.mul_le_mul_right (10 ^ (-d.exponent).toNat) hbound
    exact absurd h (Nat.not_lt.mpr (Nat.le_trans hscaled hlarge))
  have hmap {r : Option (Nat × Int)} (hr : r.isSome = true) :
      (r.map fun x => finite d.negative x.1 x.2).isSome = true := by
    rwa [Option.isSome_map]
  rw [Decimal.Fits] at h
  simp only [ofDecimal?]
  by_cases hsmall : (decide (d.digits = 0) ||
      decide (((Nat.toDigits 10 d.digits).length : Int) + d.exponent < -330)) = true
  · rw [if_pos hsmall]
    rfl
  · have hne : d.digits ≠ 0 := by
      intro h0
      simp [h0] at hsmall
    rw [if_neg hsmall, if_neg (hplaces hne)]
    apply hmap
    rcases Int.lt_or_le d.exponent 0 with hneg | hnonneg
    · rw [if_neg (Int.not_le.mpr hneg)]
      apply isSome_roundFraction?
      have hzero : d.exponent.toNat = 0 := by omega
      simp only [hzero, Nat.pow_zero, Nat.mul_one] at h
      rwa [Nat.pow_eq, Nat.mul_comm]
    · rw [if_pos hnonneg]
      apply isSome_roundFraction?
      have hzero : (-d.exponent).toNat = 0 := by omega
      simp only [hzero, Nat.pow_zero, Nat.mul_one] at h
      rwa [Nat.pow_eq, Nat.one_mul]

end Binary64

end DeclGen
