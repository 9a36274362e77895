import DeclGen.Text.Basic

/-!
# White space and letter case of tags

Tags in documents and on the command line are read without regard to surrounding white space and
to letter case.
-/

namespace DeclGen.Text

/-- White space in the sense of the character database. -/
def isBlank (c : Char) : Bool :=
  let v := c.toNat
  (0x09 ≤ v && v ≤ 0x0D) || v == 0x20 || v == 0x85 || v == 0xA0 || v == 0x1680 ||
    (0x2000 ≤ v && v ≤ 0x200A) || v == 0x2028 || v == 0x2029 || v == 0x202F || v == 0x205F ||
    v == 0x3000

/-- The lower case of a character as far as it is an ASCII letter. Two characters outside the ASCII
range have one: the capital I with a dot and the Kelvin sign. -/
def lowerChar (c : Char) : Char :=
  if c == '\u0130' then 'i' else if c == '\u212A' then 'k' else c.toLower

/-- The characters of a list without white space at both ends. -/
def trimBlank (cs : List Char) : List Char :=
  ((cs.dropWhile isBlank).reverse.dropWhile isBlank).reverse

/-- The spelling under which a tag is looked up: trimmed and in lower case. -/
def tagKey (s : String) : String := String.ofList ((trimBlank s.toList).map lowerChar)

end DeclGen.Text
