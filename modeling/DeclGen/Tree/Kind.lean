import DeclGen.Text.Blank

/-!
# Kinds of declarations

A node of a tree describes one construct, and its kind says which. Documents spell kinds by tags;
a tag that names no kind gives the unknown kind, which renders as nothing.
-/

namespace DeclGen

/-- What construct a node describes. -/
inductive Kind where
  | unknown
  | var
  | function
  | functionPointer
  | enumeration
  | struct
  | flagSet
  | decoration
  deriving DecidableEq, Repr, Inhabited

namespace Kind

/-- The canonical tag of a kind. -/
def tag : Kind → String
  | unknown => "unknown"
  | var => "var"
  | function => "func"
  | functionPointer => "fptr"
  | enumeration => "enum"
  | struct => "struct"
  | flagSet => "bitflags"
  | decoration => "attribute"

/-- The name of a kind in messages. -/
def label : Kind → String
  | unknown => "Unknown"
  | var => "Variable"
  | function => "Function"
  | functionPointer => "FunctionPointer"
  | enumeration => "Enum"
  | struct => "Struct"
  | flagSet => "BitFlagSet"
  | decoration => "Attribute"

/-- The accepted spellings of the known kinds. -/
def spellings : List (String × Kind) :=
  [("var", var), ("variable", var), ("func", function), ("function", function),
    ("fptr", functionPointer), ("function_pointer", functionPointer), ("enum", enumeration),
    ("struct", struct), ("bitflags", flagSet), ("attribute", decoration),
    ("attr", decoration)]

/-- The kind that a tag names; white space around the tag and letter case do not matter. -/
def parse? (tag : String) : Option Kind := spellings.lookup (Text.tagKey tag)

/-- The kind that a tag names, or else the unknown kind. -/
def ofTag (tag : String) : Kind := (parse? tag).getD unknown

/-- Whether a kind is one of the seven that render. -/
def isKnown (k : Kind) : Bool := k != unknown

/-- Whether a kind describes a function or a pointer to one. -/
def isCallable (k : Kind) : Bool := k == function || k == functionPointer

/-- The number that stands for a kind in one byte. -/
def code : Kind → Nat
  | unknown => 0
  | var => 1
  | function => 2
  | functionPointer => 3
  | enumeration => 4
  | struct => 5
  | flagSet => 6
  | decoration => 7

/-- The kind that a number stands for. -/
def ofCode? : Nat → Option Kind
  | 0 => some unknown
  | 1 => some var
  | 2 => some function
  | 3 => some functionPointer
  | 4 => some enumeration
  | 5 => some struct
  | 6 => some flagSet
  | 7 => some decoration
  | _ => none

/-- The name in messages of the kind with a given number, also when there is none. -/
def labelOfCode (n : Nat) : String :=
  match ofCode? n with
  | some k => k.label
  | none => "Kind(" ++ toString n ++ ")"

@[simp]
theorem ofCode?_code (k : Kind) : ofCode? k.code = some k := by cases k <;> rfl

end Kind

end DeclGen
