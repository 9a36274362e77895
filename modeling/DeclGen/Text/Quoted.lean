import DeclGen.Text.Basic
import DeclGen.Text.Printable

/-!
# Quoted texts

A quoted text is shown on one line between quotation marks. Printable characters stand for
themselves, the quotation mark and the backslash are escaped, and all else is written with an
escape that names its code: a stray byte by its two hexadecimal digits, a character by four or
eight.
-/

namespace DeclGen.Text

/-- The hexadecimal digit of a number below sixteen. -/
def hexDigit (n : Nat) : Char := Nat.digitChar (n % 16)

/-- The last `width` hexadecimal digits of a number. -/
def hexDigits : (width : Nat) → Nat → List Char
  | 0, _ => []
  | width + 1, n => hexDigits width (n / 16) ++ [hexDigit n]

/-- The letter that stands for a control character in an escape. -/
def controlLetter? : Char → Option Char
  | '\x07' => some 'a'
  | '\x08' => some 'b'
  | '\x0c' => some 'f'
  | '\n' => some 'n'
  | '\r' => some 'r'
  | '\t' => some 't'
  | '\x0b' => some 'v'
  | _ => none

/-- A character inside quotation marks `mark`. -/
def quotedChar (mark c : Char) : List Char :=
  if c == mark || c == '\\' then ['\\', c]
  else if isPrintable c then [c]
  else match controlLetter? c with
    | some letter => ['\\', letter]
    | none =>
      if c.toNat < 0x20 || c.toNat == 0x7F then '\\' :: 'x' :: hexDigits 2 c.toNat
      else if c.toNat < 0x10000 then '\\' :: 'u' :: hexDigits 4 c.toNat
      else '\\' :: 'U' :: hexDigits 8 c.toNat

/-- A glyph inside quotation marks `mark`. -/
def quotedGlyph (mark : Char) : Glyph → List Char
  | .char c => quotedChar mark c
  | .stray b => '\\' :: 'x' :: hexDigits 2 b.toNat

/-- A text between double quotation marks, as characters. -/
def quotedChars (t : Text) : List Char :=
  '"' :: t.glyphs.flatMap (quotedGlyph '"') ++ ['"']

/-- A text between double quotation marks. -/
def quoted (t : Text) : String := String.ofList t.quotedChars

end DeclGen.Text

/-- A string between double quotation marks. -/
def DeclGen.quote (s : String) : String := (DeclGen.Text.ofString s).quoted
