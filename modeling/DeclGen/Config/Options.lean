import DeclGen.Config.Dict
import DeclGen.Text.Quoted

/-!
# Configurations and formatting options

A configuration belongs to one target language. It holds a dictionary of type names, a dictionary of
identifiers, and a bag of global options, of which two are understood: the width of one level of
indentation and the character that fills it.
-/

namespace DeclGen

/-- The configuration of one target language. -/
structure Config where
  types : Dict := .empty
  names : Dict := .empty
  options : Dict := .empty
  deriving Inhabited

/-- The formatting options. -/
structure Format where
  width : UInt8 := 4
  fill : Char := ' '
  deriving DecidableEq, Repr, Inhabited

/-- The options that formatting understands. -/
inductive OptionKey where
  | indentWidth
  | indentChar
  deriving DecidableEq, Repr, Inhabited

namespace OptionKey

/-- The spelling of an option. -/
def spelling : OptionKey → String
  | indentWidth => "num_tabs"
  | indentChar => "tab_char"

end OptionKey

/-- Why an option value is refused. -/
inductive OptionFault where
  | notByte
  | empty
  | malformed
  deriving DecidableEq, Repr, Inhabited

namespace OptionFault

/-- The wording of a fault. -/
def reason : OptionFault → String
  | notByte => "must be an integer between 0 and 255"
  | empty => "must not be empty"
  | malformed => "must be valid UTF-8"

end OptionFault

/-- A refused option value. -/
structure InvalidOption where
  key : OptionKey
  value : Text
  fault : OptionFault
  deriving DecidableEq, Repr, Inhabited

/-- The message of a refused option value. -/
def InvalidOption.message (e : InvalidOption) : String :=
  "invalid config: " ++ e.key.spelling ++ "=" ++ e.value.quoted ++ ": " ++ e.fault.reason

namespace Format

/-- The value of a digit. -/
def digit? (b : UInt8) : Option Nat :=
  if 48 ≤ b && b ≤ 57 then some (b.toNat - 48) else none

/-- The number that a text of digits spells, with `acc` for the digits read so far. -/
def decimalFrom? (acc : Nat) : Text → Option Nat
  | [] => some acc
  | b :: rest => do
    let d ← digit? b
    decimalFrom? (acc * 10 + d) rest

/-- The number below 256 that a non-empty text of digits spells. -/
def byte? (t : Text) : Option UInt8 := do
  if t.isEmpty then none
  let n ← decimalFrom? 0 t
  if n < 256 then some (UInt8.ofNat n) else none

/-- The indentation width that an option value gives. -/
def parseWidth (value : Text) : Except InvalidOption UInt8 :=
  match byte? value with
  | some n => .ok n
  | none => .error ⟨.indentWidth, value, .notByte⟩

/-- The indentation character that an option value gives: its first character. The replacement
character is taken for damage. -/
def parseFill (value : Text) : Except InvalidOption Char :=
  if value.isEmpty then .error ⟨.indentChar, value, .empty⟩
  else match value.lead? with
    | some (c, _) => if c == '\uFFFD' then .error ⟨.indentChar, value, .malformed⟩ else .ok c
    | none => .error ⟨.indentChar, value, .malformed⟩

/-- The format that a bag of options asks for; options that are not understood have no effect. -/
def ofOptions (options : Dict) : Except InvalidOption Format := do
  let width ← match options.get? (.ofString OptionKey.indentWidth.spelling) with
    | some v => parseWidth v
    | none => pure 4
  let fill ← match options.get? (.ofString OptionKey.indentChar.spelling) with
    | some v => parseFill v
    | none => pure ' '
  return { width, fill }

/-- One level of indentation. -/
def unit (f : Format) : Text := Text.copies f.width.toNat (Text.ofChar f.fill)

/-- The indentation of a line at a given depth. -/
def indent (f : Format) (depth : Nat) : Text := Text.copies depth f.unit

end Format

/-- The format that a configuration asks for; without one the format is the default. -/
def Config.format (config : Option Config) : Except InvalidOption Format :=
  match config with
  | some c => Format.ofOptions c.options
  | none => .ok {}

end DeclGen
