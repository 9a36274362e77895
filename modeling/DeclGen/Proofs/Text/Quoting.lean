import DeclGen.Proofs.Json.ReadBack
import Mathlib.Algebra.Group.Nat.Defs

/-!
# Reading quoted texts

What stands between quotation marks is read back glyph by glyph, and no glyph is written with a bare
quotation mark in front. So a quoted text ends where it was meant to end, and different texts,
well-formed or not, are quoted differently.

## Implementation notes

`Decipherable` says that the first of two things written in a row can be told from what follows it.
It passes from one thing to a sequence of them with a mark at the end.
-/

namespace DeclGen

section Decipherable

variable {α : Type} {P : α → Prop} {write : α → List Char}

/-- The first thing written can be told from all that follows. -/
def Decipherable (P : α → Prop) (write : α → List Char) : Prop :=
  ∀ ⦃a b : α⦄, P a → P b → ∀ ⦃r s : List Char⦄, write a ++ r = write b ++ s → a = b ∧ r = s

/-- What is read back, with the rest, is decipherable. -/
theorem Decipherable.of_read {read? : List Char → Option (α × List Char)}
    (h : ∀ a, P a → ∀ r, read? (write a ++ r) = some (a, r)) : Decipherable P write := by
  intro a b ha hb r s heq
  have hread := h a ha r
  rw [heq, h b hb s] at hread
  cases hread
  exact ⟨rfl, rfl⟩

/-- A sequence is decipherable when a mark ends it that starts none of its elements. -/
theorem Decipherable.list (h : Decipherable P write) {mark : Char}
    (hmark : ∀ a, P a → ∃ c cs, write a = c :: cs ∧ c ≠ mark) :
    Decipherable (fun as : List α => ∀ a ∈ as, P a) (fun as => as.flatMap write ++ [mark]) := by
  -- Of two sequences the shorter one would show its mark where the other shows an element.
  have hclash (a : α) (ha : P a) (r s : List Char) : write a ++ r ≠ mark :: s := by
    obtain ⟨c, cs, hw, hne⟩ := hmark a ha
    rw [hw]
    intro heq
    exact hne (List.cons.inj heq).1
  intro as
  induction as with
  | nil =>
      intro bs _ hbs r s heq
      cases bs with
      | nil => exact ⟨rfl, (List.cons.inj heq).2⟩
      | cons b rest =>
          simp only [List.flatMap_cons, List.append_assoc] at heq
          exact absurd heq.symm (hclash b (hbs b (by simp)) _ _)
  | cons a more ih =>
      intro bs has hbs r s heq
      cases bs with
      | nil =>
          simp only [List.flatMap_cons, List.append_assoc] at heq
          exact absurd heq (hclash a (has a (by simp)) _ _)
      | cons b rest =>
          simp only [List.flatMap_cons, List.append_assoc] at heq
          obtain ⟨hab, hrest⟩ := h (has a (by simp)) (hbs b (by simp)) heq
          have hmores : ∀ x ∈ more, P x := fun x hx => has x (by simp [hx])
          have hrests : ∀ x ∈ rest, P x := fun x hx => hbs x (by simp [hx])
          obtain ⟨hmore, hrs⟩ := ih hmores hrests (by simpa using hrest)
          exact ⟨by rw [hab, hmore], hrs⟩

/-- Sequences that are written alike are the same, even without a mark at the end. -/
theorem Decipherable.eq_of_flatMap_eq (h : Decipherable P write) (hne : ∀ a, P a → write a ≠ [])
    {as bs : List α} (has : ∀ a ∈ as, P a) (hbs : ∀ b ∈ bs, P b)
    (heq : as.flatMap write = bs.flatMap write) : as = bs := by
  induction as generalizing bs with
  | nil =>
      cases bs with
      | nil => rfl
      | cons b rest =>
          rw [List.flatMap_nil, List.flatMap_cons] at heq
          exact absurd (List.append_eq_nil_iff.mp heq.symm).1 (hne b (hbs b (by simp)))
  | cons a more ih =>
      cases bs with
      | nil =>
          rw [List.flatMap_nil, List.flatMap_cons] at heq
          exact absurd (List.append_eq_nil_iff.mp heq).1 (hne a (has a (by simp)))
      | cons b rest =>
          rw [List.flatMap_cons, List.flatMap_cons] at heq
          obtain ⟨hab, hrest⟩ := h (has a (by simp)) (hbs b (by simp)) heq
          rw [hab, ih (fun x hx => has x (by simp [hx])) (fun x hx => hbs x (by simp [hx])) hrest]

end Decipherable

namespace Text

section Codes

/-- The number that hexadecimal digits spell. -/
def ofHexDigits (cs : List Char) : Nat :=
  cs.foldl (fun n c => n * 16 + (Json.hexValue? c).getD 0) 0

@[simp]
theorem length_hexDigits (width n : Nat) : (hexDigits width n).length = width := by
  induction width generalizing n with
  | zero => rfl
  | succ width ih => rw [hexDigits, List.length_append, ih, List.length_singleton]

theorem ofHexDigits_hexDigits (width n : Nat) :
    ofHexDigits (hexDigits width n) = n % 16 ^ width := by
  induction width generalizing n with
  | zero =>
      rw [Nat.pow_zero, Nat.mod_one]
      rfl
  | succ width ih =>
      have hlast : ofHexDigits (hexDigits (width + 1) n) =
          ofHexDigits (hexDigits width (n / 16)) * 16 + n % 16 := by
        rw [ofHexDigits, hexDigits, List.foldl_append, List.foldl_cons, List.foldl_nil,
          Json.hexValue?_hexDigit]
        rfl
      rw [hlast, ih, Nat.pow_succ, Nat.mul_comm (16 ^ width), Nat.mod_mul]
      omega

/-- The glyph of a code by its number of digits: two digits from 128 on are a stray byte. -/
def codeGlyph (width v : Nat) : Glyph :=
  if width = 2 ∧ 0x80 ≤ v then .stray (UInt8.ofNat v) else .char (Char.ofNat v)

/-- The glyph of a code and the characters after it. -/
def readCode (width : Nat) (cs : List Char) : Glyph × List Char :=
  (codeGlyph width (ofHexDigits (cs.take width)), cs.drop width)

theorem readCode_hexDigits {width v : Nat} (h : v < 16 ^ width) (rest : List Char) :
    readCode width (hexDigits width v ++ rest) = (codeGlyph width v, rest) := by
  have hlength := length_hexDigits width v
  rw [readCode, List.take_left' hlength, List.drop_left' hlength, ofHexDigits_hexDigits,
    Nat.mod_eq_of_lt h]

end Codes

section Glyphs

/-- The character that a letter after a backslash stands for. -/
def letterChar? : Char → Option Char
  | '"' => some '"'
  | '\\' => some '\\'
  | 'a' => some '\x07'
  | 'b' => some '\x08'
  | 'f' => some '\x0c'
  | 'n' => some '\n'
  | 'r' => some '\r'
  | 't' => some '\t'
  | 'v' => some '\x0b'
  | _ => none

/-- The first glyph between quotation marks and the characters after it. -/
def readGlyph? : List Char → Option (Glyph × List Char)
  | '\\' :: 'x' :: rest => some (readCode 2 rest)
  | '\\' :: 'u' :: rest => some (readCode 4 rest)
  | '\\' :: 'U' :: rest => some (readCode 8 rest)
  | '\\' :: e :: rest => (letterChar? e).map fun c => (.char c, rest)
  | '"' :: _ => none
  | c :: rest => some (.char c, rest)
  | [] => none

theorem readGlyph?_letter {e c : Char} (h : letterChar? e = some c) (rest : List Char) :
    readGlyph? ('\\' :: e :: rest) = some (.char c, rest) := by
  rw [readGlyph?, h]
  · rfl
  · rintro rfl
    cases h
  · rintro rfl
    cases h
  · rintro rfl
    cases h

theorem readGlyph?_plain {c : Char} (hb : c ≠ '\\') (hq : c ≠ '"') (rest : List Char) :
    readGlyph? (c :: rest) = some (.char c, rest) := by
  rw [readGlyph?] <;> simp [hb, hq]

theorem letterChar?_of_controlLetter? {c letter : Char} (h : controlLetter? c = some letter) :
    letterChar? letter = some c := by
  unfold controlLetter? at h
  split at h <;> cases h <;> rfl

theorem codeGlyph_toNat {width : Nat} {c : Char} (h : width = 2 → c.toNat < 0x80) :
    codeGlyph width c.toNat = .char c := by
  rw [codeGlyph, if_neg, Char.ofNat_toNat]
  rintro ⟨hw, hc⟩
  have hlow := h hw
  omega

theorem readGlyph?_quotedChar (c : Char) (rest : List Char) :
    readGlyph? (quotedChar '"' c ++ rest) = some (.char c, rest) := by
  have hmax : c.toNat < 16 ^ 8 := by
    have hc : c.val.toNat = c.toNat := rfl
    rcases c.valid with h | h <;> omega
  unfold quotedChar
  split
  · next h =>
      apply readGlyph?_letter
      simp only [Bool.or_eq_true, beq_iff_eq] at h
      rcases h with rfl | rfl <;> rfl
  · next h =>
      simp only [Bool.or_eq_true, beq_iff_eq, not_or] at h
      split
      · exact readGlyph?_plain h.2 h.1 rest
      · split
        · next letter hletter =>
            exact readGlyph?_letter (letterChar?_of_controlLetter? hletter) rest
        · -- What is left is written by its code.
          split
          · next hlow =>
              simp only [Bool.or_eq_true, decide_eq_true_eq, beq_iff_eq] at hlow
              rw [List.cons_append, List.cons_append, readGlyph?,
                readCode_hexDigits (by omega), codeGlyph_toNat (by omega)]
          · split
            · next hmiddle =>
                rw [List.cons_append, List.cons_append, readGlyph?, readCode_hexDigits hmiddle,
                  codeGlyph_toNat (by omega)]
            · rw [List.cons_append, List.cons_append, readGlyph?, readCode_hexDigits hmax,
                codeGlyph_toNat (by omega)]

/-- A glyph that a text can hold: a stray byte is not below 128. -/
def Glyph.Possible : Glyph → Prop
  | .char _ => True
  | .stray b => 0x80 ≤ b.toNat

theorem readGlyph?_quotedGlyph (g : Glyph) (h : g.Possible) (rest : List Char) :
    readGlyph? (quotedGlyph '"' g ++ rest) = some (g, rest) := by
  cases g with
  | char c => exact readGlyph?_quotedChar c rest
  | stray b =>
      have hb : b.toNat < 16 ^ 2 := b.toNat_lt
      have hcode : codeGlyph 2 b.toNat = .stray b := by
        rw [codeGlyph, if_pos ⟨rfl, h⟩, UInt8.ofNat_toNat]
      rw [quotedGlyph, List.cons_append, List.cons_append, readGlyph?, readCode_hexDigits hb, hcode]

/-- A glyph never begins with a bare quotation mark. -/
theorem quotedGlyph_eq_cons (g : Glyph) (h : g.Possible) :
    ∃ c cs, quotedGlyph '"' g = c :: cs ∧ c ≠ '"' := by
  have hread := readGlyph?_quotedGlyph g h []
  rw [List.append_nil] at hread
  cases hg : quotedGlyph '"' g with
  | nil =>
      rw [hg] at hread
      cases hread
  | cons c cs =>
      refine ⟨c, cs, rfl, ?_⟩
      rintro rfl
      rw [hg] at hread
      cases hread

end Glyphs

/-- A quoted text can be told from all that follows it. -/
theorem decipherable_quotedChars : Decipherable (fun _ => True) quotedChars := by
  have hglyph : Decipherable Glyph.Possible (quotedGlyph '"') := .of_read readGlyph?_quotedGlyph
  have hglyphs := hglyph.list quotedGlyph_eq_cons
  have hpossible (t : Text) : ∀ g ∈ t.glyphs, g.Possible := by
    intro g hg
    cases g with
    | char c => trivial
    | stray b => exact le_toNat_of_stray hg
  intro s t _ _ r r' heq
  obtain ⟨hst, hrest⟩ := hglyphs (hpossible s) (hpossible t) (List.cons.inj heq).2
  exact ⟨glyphs_injective hst, hrest⟩

end Text

end DeclGen
