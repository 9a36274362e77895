import DeclGen.Text.Blank

/-!
# Target languages

Declarations are rendered for two target languages. Documents and the command line name them by
tags with several spellings; inside, the canonical tag is used.
-/

namespace DeclGen

/-- A target language. -/
inductive Lang where
  | cpp
  | rust
  deriving DecidableEq, Repr, Inhabited

namespace Lang

/-- All target languages, in the order in which they are reported. -/
def all : List Lang := [cpp, rust]

/-- The canonical tag of a language. -/
def tag : Lang → String
  | cpp => "cpp"
  | rust => "rust"

/-- The name of a language in messages. -/
def displayName : Lang → String
  | cpp => "C/C++"
  | rust => "Rust"

/-- The language with exactly this canonical tag. -/
def ofTag? : String → Option Lang
  | "cpp" => some cpp
  | "rust" => some rust
  | _ => none

/-- The accepted spellings of languages. -/
def spellings : List (String × Lang) :=
  [("rust", rust), ("rs", rust), ("cpp", cpp), ("c++", cpp), ("c", cpp)]

/-- The language that a tag names; white space around the tag and letter case do not matter. -/
def parse? (tag : String) : Option Lang := spellings.lookup (Text.tagKey tag)

/-- The name in messages for a tag; a tag of no language is its own name. -/
def displayNameOfTag (tag : String) : String :=
  match ofTag? tag with
  | some l => l.displayName
  | none => tag

@[simp]
theorem ofTag?_tag (l : Lang) : ofTag? l.tag = some l := by cases l <;> rfl

end Lang

end DeclGen
