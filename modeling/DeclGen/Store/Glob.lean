/-!
# Name patterns

A pattern for file names: a star stands for any characters but slashes, a question mark for one such
character, and brackets for one character out of some ranges. A backslash takes the meaning off the
character behind it.
-/

namespace DeclGen

/-- A piece of a name pattern. -/
inductive GlobPiece where
  | star
  | one
  | char (c : Char)
  | range (negated : Bool) (bounds : List (Char × Char))
  deriving DecidableEq, Repr, Inhabited

/-- A name pattern. -/
abbrev Glob := List GlobPiece

namespace Glob

/-- A bound of a range, and the characters after it, of which there has to be one. -/
def bound? (cs : List Char) : Option (Char × List Char) :=
  let found := match cs with
    | '-' :: _ | ']' :: _ => none
    | '\\' :: c :: rest => some (c, rest)
    | '\\' :: [] | [] => none
    | c :: rest => some (c, rest)
  found.bind fun (c, rest) => if rest.isEmpty then none else some (c, rest)

/-- The ranges up to a closing bracket, at most `fuel` of them. There is at least one. -/
def bounds? : (fuel : Nat) → (read : List (Char × Char)) → List Char →
    Option (List (Char × Char) × List Char)
  | 0, _, _ => none
  | fuel + 1, read, cs =>
    match cs, read with
    | ']' :: rest, _ :: _ => some (read.reverse, rest)
    | cs, read => do
      let (low, rest) ← bound? cs
      match rest with
      | '-' :: rest =>
        let (high, rest) ← bound? rest
        bounds? fuel ((low, high) :: read) rest
      | rest => bounds? fuel ((low, low) :: read) rest

/-- The pieces that characters spell, at most `fuel` of them. -/
def piecesFrom? : (fuel : Nat) → List Char → Option Glob
  | 0, _ => none
  | _ + 1, [] => some []
  | fuel + 1, '*' :: rest => (piecesFrom? fuel rest).map (.star :: ·)
  | fuel + 1, '?' :: rest => (piecesFrom? fuel rest).map (.one :: ·)
  | _ + 1, '\\' :: [] => none
  | fuel + 1, '\\' :: c :: rest => (piecesFrom? fuel rest).map (.char c :: ·)
  | fuel + 1, '[' :: rest => do
    let (negated, rest) := match rest with
      | '^' :: rest => (true, rest)
      | rest => (false, rest)
    let (bounds, rest) ← bounds? (rest.length + 1) [] rest
    return .range negated bounds :: (← piecesFrom? fuel rest)
  | fuel + 1, c :: rest => (piecesFrom? fuel rest).map (.char c :: ·)

/-- The pattern that a string spells. -/
def parse? (s : String) : Option Glob := piecesFrom? (s.length + 1) s.toList

/-- Whether a predicate holds of what is left after some characters without a slash. -/
def skip (p : List Char → Bool) : List Char → Bool
  | [] => p []
  | c :: cs => p (c :: cs) || (c != '/' && skip p cs)

/-- Whether a character stands in one of some ranges. -/
def inBounds (c : Char) (bounds : List (Char × Char)) : Bool :=
  bounds.any fun (low, high) => low ≤ c && c ≤ high

/-- Whether a name fits a pattern. -/
def holds : Glob → List Char → Bool
  | [], cs => cs.isEmpty
  | .star :: rest, cs => skip (holds rest) cs
  | _ :: _, [] => false
  | .one :: rest, c :: cs => c != '/' && holds rest cs
  | .char d :: rest, c :: cs => c == d && holds rest cs
  | .range negated bounds :: rest, c :: cs => inBounds c bounds != negated && holds rest cs

end Glob

end DeclGen
