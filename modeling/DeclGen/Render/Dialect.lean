import DeclGen.Lang
import DeclGen.Text.Basic

/-!
# Dialects

A dialect supplies the spellings of one target language: fragments without indentation, separators
or line ends, which are the renderer's own.
-/

namespace DeclGen

/-- The parts of a function signature, already rendered. -/
structure Signature where
  /-- Empty for a type description without a name. -/
  name : Text := []
  qualifier : Text := []
  params : Text := []
  result : Text := []
  isPointer : Bool := false
  deriving DecidableEq, Repr, Inhabited

/-- The two kinds of blocks with a plain header. -/
inductive Block where
  | enumeration
  | struct
  deriving DecidableEq, Repr, Inhabited

/-- The lines around a flag set. -/
structure Wrapper where
  opening : Text
  closing : Text
  deriving DecidableEq, Repr, Inhabited

/-- The spellings of one target language. -/
structure Dialect where
  /-- File name extension, with its dot. -/
  extension : Text
  lineComment : Text
  /-- Stands before declarations at the top level. -/
  visibility : Text
  genericOpen : Text
  genericClose : Text
  /-- Ends a member of a struct. -/
  fieldSeparator : Text
  /-- Ends a declaration at the top level. -/
  terminator : Text
  blockHeader : Block → (name : Text) → Text
  blockClose : Block → Text
  /-- Joins a name and a type; without a name it is the bare type. -/
  bind : (name type : Text) → Text
  /-- An entry value with an explicit underlying type. -/
  cast : (value type : Text) → Text
  funcType : Signature → Text
  /-- The qualifier of a function pointer that has none. -/
  pointerQualifier : (standalone : Bool) → Text
  /-- The lines around a flag set, where the language needs them. -/
  flagsWrapper : Option Wrapper
  flagsHeader : (name type : Text) → Text
  flagsClose : Text
  flagsEntryStart : Text

namespace Dialect

open Text (ofString)

/-- `head` followed by a separator and `part`, where `part` is not empty. -/
def withPart (head sep part : Text) : Text :=
  if part.isEmpty then head else head ++ sep ++ part

/-- `name: type`, or the bare type. -/
def bindAfter (name type : Text) : Text :=
  if name.isEmpty then type else name ++ ofString ": " ++ type

/-- `type name`, or the bare type. -/
def bindBefore (name type : Text) : Text :=
  if name.isEmpty then type else type ++ ofString " " ++ name

/-- A text after a qualifier, where there is one. -/
def qualified (qualifier t : Text) : Text :=
  if qualifier.isEmpty then t else qualifier ++ ofString " " ++ t

/-- A Rust function type, bound to its name. -/
def rustFuncType (sig : Signature) : Text :=
  bindAfter sig.name <|
    withPart (qualified sig.qualifier (ofString "fn(" ++ sig.params ++ ofString ")"))
      (ofString " -> ") sig.result

/-- The spellings of Rust. Flag sets use a macro. -/
def rust : Dialect where
  extension := ofString ".rs"
  lineComment := ofString "//"
  visibility := ofString "pub "
  genericOpen := ofString "<"
  genericClose := ofString ">"
  fieldSeparator := ofString ","
  terminator := ofString ";"
  blockHeader
    | .enumeration, name => withPart (ofString "pub enum") (ofString " ") name ++ ofString " \x7b"
    | .struct, name => withPart (ofString "pub struct") (ofString " ") name ++ ofString " \x7b"
  blockClose _ := ofString "\x7d"
  bind := bindAfter
  cast value type := value ++ ofString " as " ++ type
  funcType := rustFuncType
  pointerQualifier _ := ofString "extern"
  flagsWrapper := some ⟨ofString "bitflags! \x7b", ofString "\x7d"⟩
  flagsHeader name type :=
    withPart (withPart (ofString "flags") (ofString " ") name) (ofString ": ") type
      ++ ofString " \x7b"
  flagsClose := ofString "\x7d"
  flagsEntryStart := ofString "const "

/-- The declarator of a C or C++ function: a pointer is starred also without a name. -/
def declarator (sig : Signature) : Text :=
  if sig.isPointer then ofString "(*" ++ sig.name ++ ofString ")" else sig.name

/-- A C or C++ function type in the trailing return form. -/
def cppFuncType (sig : Signature) : Text :=
  let result := if sig.result.isEmpty then ofString "void" else sig.result
  qualified sig.qualifier <|
    withPart (ofString "auto") (ofString " ") (declarator sig) ++ ofString "(" ++ sig.params
      ++ ofString ") -> " ++ result

/-- The spellings of C and C++. Flag sets are enumerations with an underlying type. -/
def cpp : Dialect where
  extension := ofString ".cpp"
  lineComment := ofString "//"
  visibility := []
  genericOpen := ofString "<"
  genericClose := ofString ">"
  fieldSeparator := ofString ";"
  terminator := ofString ";"
  blockHeader
    | .enumeration, name => withPart (ofString "enum") (ofString " ") name ++ ofString " \x7b"
    | .struct, name => withPart (ofString "struct") (ofString " ") name ++ ofString " \x7b"
  blockClose _ := ofString "\x7d;"
  bind := bindBefore
  cast value type :=
    ofString "static_cast<" ++ type ++ ofString ">(" ++ value ++ ofString ")"
  funcType := cppFuncType
  pointerQualifier standalone := if standalone then ofString "extern" else []
  flagsWrapper := none
  flagsHeader name type :=
    withPart (withPart (ofString "enum") (ofString " ") name) (ofString " : ") type
      ++ ofString " \x7b"
  flagsClose := ofString "\x7d;"
  flagsEntryStart := []

end Dialect

/-- The dialect of a language. -/
def Lang.dialect : Lang → Dialect
  | cpp => .cpp
  | rust => .rust

end DeclGen
