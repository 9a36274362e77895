/-!
# Texts as byte sequences

A text is the sequence of its bytes. It is normally UTF-8, but attribute values, option values and
file contents may hold any bytes, and rendering passes them through unchanged.

## Implementation notes

`Text` is reducible to `List UInt8`, so that the library of lists applies to it. `Text.glyphs` reads
a text as UTF-8: a well-formed sequence is a character, and any byte that starts none is a stray
byte on its own.
-/

namespace DeclGen

/-- A text is the sequence of its bytes; it need not be well-formed UTF-8. -/
abbrev Text := List UInt8

namespace Text

/-- The UTF-8 bytes of a character. -/
def ofChar (c : Char) : Text := String.utf8EncodeChar c

/-- The UTF-8 bytes of a sequence of characters. -/
def ofChars (cs : List Char) : Text := cs.flatMap ofChar

/-- The UTF-8 bytes of a string. -/
def ofString (s : String) : Text := ofChars s.toList

/-- What a text holds when it is read as UTF-8. -/
inductive Glyph where
  | char (c : Char)
  | stray (b : UInt8)
  deriving DecidableEq, Repr, Inhabited

/-- The payload of a continuation byte, if the byte is one. -/
def tail? (b : UInt8) : Option Nat :=
  if 0x80 ≤ b && b ≤ 0xBF then some (b.toNat - 0x80) else none

/-- The character of code `v`, if `v` needs at least as much room as `low` and is no surrogate. -/
def charFrom? (low v : Nat) : Option Char :=
  if h : v.isValidChar then if low ≤ v then some (Char.ofNatAux v h) else none else none

/-- The character at the start of a text and the number of bytes after its first one. -/
def lead? : Text → Option (Char × Nat)
  | [] => none
  | a :: rest =>
    let v := a.toNat
    if v < 0x80 then some (Char.ofNat v, 0)
    else if v < 0xC0 then none
    else match rest with
      | [] => none
      | b :: rest => do
        let b ← tail? b
        if v < 0xE0 then
          let c ← charFrom? 0x80 ((v - 0xC0) * 64 + b)
          return (c, 1)
        else match rest with
          | [] => none
          | c :: rest => do
            let c ← tail? c
            if v < 0xF0 then
              let r ← charFrom? 0x800 ((v - 0xE0) * 4096 + b * 64 + c)
              return (r, 2)
            else match rest with
              | [] => none
              | d :: _ => do
                let d ← tail? d
                if v < 0xF8 then
                  let r ← charFrom? 0x10000 ((v - 0xF0) * 262144 + b * 4096 + c * 64 + d)
                  return (r, 3)
                else none

/-- The glyphs of a text after its first `skip` bytes. -/
def glyphsFrom : (skip : Nat) → Text → List Glyph
  | _, [] => []
  | skip + 1, _ :: rest => glyphsFrom skip rest
  | 0, a :: rest =>
    match lead? (a :: rest) with
    | some (c, n) => .char c :: glyphsFrom n rest
    | none => .stray a :: glyphsFrom 0 rest

/-- A text read as UTF-8. -/
def glyphs (t : Text) : List Glyph := glyphsFrom 0 t

/-- The characters of a text, with the replacement character for each stray byte. -/
def chars (t : Text) : List Char :=
  t.glyphs.map fun
    | .char c => c
    | .stray _ => '\uFFFD'

/-- The characters of a text that is well-formed UTF-8. -/
def chars? (t : Text) : Option (List Char) :=
  t.glyphs.mapM fun
    | .char c => some c
    | .stray _ => none

/-- The string with the characters of a text. -/
def toString (t : Text) : String := String.ofList t.chars

/-- The texts of a list, one after the other, with a separator between neighbours. -/
def join (sep : Text) : List Text → Text
  | [] => []
  | [t] => t
  | t :: rest => t ++ sep ++ join sep rest

/-- `count` copies of a text. -/
def copies (count : Nat) (t : Text) : Text := (List.replicate count t).flatten

/-- The first position at which `part` occurs in a text. -/
def find? (part : Text) : Text → Option Nat
  | [] => if part.isEmpty then some 0 else none
  | b :: rest =>
    if part.isPrefixOf (b :: rest) then some 0 else (find? part rest).map (· + 1)

/-- Whether `part` occurs in a text. -/
def hasPart (t part : Text) : Bool := (find? part t).isSome

/-- The bytewise order of texts. -/
def le : Text → Text → Bool
  | [], _ => true
  | _ :: _, [] => false
  | a :: s, b :: t => a < b || (a == b && le s t)

end Text

end DeclGen
