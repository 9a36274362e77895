import DeclGen.Proofs.Json.Sourced

/-!
# The digits of a natural number

A natural number is written in digits only, it is read back from them, and in front of a character
that is no digit its last digit can be seen. So a text in which numbers stand between such
characters can be taken apart again.
-/

namespace DeclGen.Decimal

open Json (IsDigits)

theorem isDigits_toString (n : Nat) : IsDigits (toString n).toList := by
  have hdigits : (toString n).toList = Nat.toDigits 10 n := Nat.toList_repr
  rw [hdigits]
  exact ⟨Nat.toDigits_ne_nil, fun d hd => Nat.isDigit_of_mem_toDigits (by decide) (by decide) hd⟩

/-- A number and what follows it can be told from the text, if what follows begins with a character
that is no digit. -/
theorem toString_append_inj {m n : Nat} {stop : Char} (hstop : stop.isDigit = false)
    {s t : List Char} :
    (toString m).toList ++ stop :: s = (toString n).toList ++ stop :: t ↔ m = n ∧ s = t := by
  have hcut (k : Nat) (rest : List Char) :
      ((toString k).toList ++ stop :: rest).takeWhile Char.isDigit = (toString k).toList :=
    ((isDigits_toString k).span (by simpa using hstop)).1
  constructor
  · intro h
    have hdigits : (toString m).toList = (toString n).toList := by
      rw [← hcut m s, h, hcut n t]
    have hread := congrArg (fun ds => Nat.ofDigitChars 10 ds 0) hdigits
    rw [hdigits] at h
    exact ⟨by simpa [Nat.toString_eq_ofList_toDigits] using hread,
      (List.cons.inj (List.append_cancel_left h)).2⟩
  · rintro ⟨rfl, rfl⟩
    rfl

theorem digit?_of_isDigit {c : Char} (h : c.isDigit = true) :
    digit? c = some (c.toNat - '0'.toNat) := by
  rw [Char.isDigit_iff_toNat] at h
  rw [digit?, if_pos]
  exact ⟨h.1, h.2⟩

/-- Digits are read as the number that they spell. -/
theorem ofDigits_eq_ofDigitChars {cs : List Char} (h : ∀ c ∈ cs, c.isDigit = true) :
    ofDigits cs = Nat.ofDigitChars 10 cs 0 := by
  suffices hfrom : ∀ n, cs.foldl (fun n c => n * 10 + (digit? c).getD 0) n =
      Nat.ofDigitChars 10 cs n from hfrom 0
  induction cs with
  | nil =>
      intro n
      rfl
  | cons c cs ih =>
      intro n
      rw [List.forall_mem_cons] at h
      rw [List.foldl_cons, digit?_of_isDigit h.1, ih h.2, Nat.ofDigitChars_cons, Nat.mul_comm]
      rfl

theorem ofDigits_toString (n : Nat) : ofDigits (toString n).toList = n := by
  rw [ofDigits_eq_ofDigitChars (isDigits_toString n).2]
  simp

end DeclGen.Decimal
