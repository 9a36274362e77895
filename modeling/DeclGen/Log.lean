import DeclGen.Text.Quoted
import DeclGen.Text.Blank

/-!
# Log records

A record has a level, a message and named values. On a line of text, a value is quoted when it is
empty or holds a space, an equals sign, a quotation mark or something not printable.
-/

namespace DeclGen

/-- How important a record is. -/
inductive Level where
  | debug
  | info
  | warn
  | error
  deriving DecidableEq, Repr, Inhabited

namespace Level

/-- The name of a level. -/
def label : Level → String
  | debug => "DEBUG"
  | info => "INFO"
  | warn => "WARN"
  | error => "ERROR"

/-- The rank of a level. -/
def rank : Level → Nat
  | debug => 0
  | info => 1
  | warn => 2
  | error => 3

end Level

/-- One event that was logged. -/
structure Record where
  level : Level
  message : String
  fields : List (String × String) := []
  deriving DecidableEq, Repr, Inhabited

namespace Record

/-- Whether a character forces a value to be quoted. -/
def needsQuotes (c : Char) : Bool :=
  let v := c.toNat
  if v < 0x80 then v ≤ 0x20 || c == '=' || c == '"'
  else c == '\uFFFD' || Text.isBlank c || !Text.isPrintable c

/-- A value on a line of text. -/
def valueText (s : String) : String :=
  if s.isEmpty || s.toList.any needsQuotes then quote s else s

/-- A record on a line of text. -/
def line (r : Record) : String :=
  let pairs := ("level", r.level.label) :: ("msg", r.message) :: r.fields
  " ".intercalate (pairs.map fun (k, v) => k ++ "=" ++ valueText v) ++ "\n"

end Record

end DeclGen
