/-!
# Comparison without letter case

Two characters that differ only in case have the same folded character. Outside the ASCII range only
the characters that fold to an ASCII letter matter here: the long s and the Kelvin sign.
-/

namespace DeclGen.Text

/-- The character under which a character is compared without regard to case. -/
def foldChar (c : Char) : Char :=
  if c == '\u017F' then 's' else if c == '\u212A' then 'k' else c.toLower

/-- The spelling under which a string is compared without regard to case. -/
def fold (s : String) : String := String.ofList (s.toList.map foldChar)

end DeclGen.Text
