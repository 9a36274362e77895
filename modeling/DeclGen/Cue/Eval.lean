import DeclGen.Cue.Value

/-!
# Evaluation and export

An expression has a value in the scopes around it. A text is evaluated as one struct, which is then
written as JSON: hidden fields and definitions are left out, and every other field needs a single
datum, a list or a struct.

## Implementation notes

Names may refer to each other in any order, so evaluation is bounded by a number that goes down with
every call. What is left when it is used up counts as not decided.

A definition is a struct that is closed where it is used. It constrains other values only by types,
by single data and by the fields it allows, since nothing else that could be written in it is read
(`Expr`).
-/

namespace DeclGen.Cue

namespace Number

/-- Two numbers brought to the same exponent. -/
def aligned (m n : Number) : Int × Int × Int :=
  let e := min m.exponent n.exponent
  (m.scaledTo e, n.scaledTo e, e)

/-- The sum of two numbers. -/
def add (m n : Number) : Number :=
  let (a, b, e) := aligned m n
  { coefficient := a + b, exponent := e, isWhole := m.isWhole && n.isWhole }

/-- The product of two numbers. -/
def multiply (m n : Number) : Number where
  coefficient := m.coefficient * n.coefficient
  exponent := m.exponent + n.exponent
  isWhole := m.isWhole && n.isWhole

/-- A number with the other sign. -/
def negate (n : Number) : Number := { n with coefficient := -n.coefficient }

/-- The order of two numbers. -/
def order (m n : Number) : Ordering :=
  let (a, b, _) := aligned m n
  compare a b

/-- The text of a number with all its digits: a point where it stands at most six places before
them, and an exponent otherwise. -/
def text (n : Number) : String :=
  let sign := if n.coefficient < 0 then "-" else ""
  let digits := (toString n.coefficient.natAbs).toList
  let adjusted : Int := n.exponent + digits.length - 1
  if n.exponent = 0 then sign ++ String.ofList digits
  else if n.exponent < 0 && -6 ≤ adjusted then
    let places := (-n.exponent).toNat
    let padded := List.replicate (places + 1 - digits.length) '0' ++ digits
    let whole := padded.length - places
    sign ++ String.ofList (padded.take whole) ++ "." ++ String.ofList (padded.drop whole)
  else
    let fraction := if digits.length = 1 then [] else '.' :: digits.drop 1
    sign ++ String.ofList (digits.take 1 ++ fraction) ++ "E" ++ (if adjusted < 0 then "-" else "+")
      ++ toString adjusted.natAbs

end Number

namespace Value

/-- The text of a single datum inside a string. -/
def interpolated? : Value → Option String
  | string _ s => some s
  | number _ n => some n.text
  | bool _ b => some (if b then "true" else "false")
  | _ => none

/-- What comes of a value that an operation cannot use. -/
def refused (line : Nat) : Value → Value
  | bottom l => bottom l
  | stuck l => stuck l
  | type l _ => stuck l
  | _ => bottom line

/-- The order of two data of one type. -/
def order? : Value → Value → Option Ordering
  | number _ m, number _ n => some (m.order n)
  | string _ a, string _ b => some (compare a b)
  | bool _ a, bool _ b => if a == b then some .eq else none
  | null _, null _ => some .eq
  | _, _ => none

/-- The value of an operator other than meet and join. -/
def operate (line : Nat) (op : Operator) (a b : Value) : Value :=
  let failed := if a.isBottom then a else (match a.type?, a with
    | none, null _ => b.refused line
    | none, _ => a.refused line
    | some _, _ => b.refused line)
  let compared (f : Ordering → Bool) : Value :=
    match order? a b with
    | some o => bool line (f o)
    | none => failed
  match op, a, b with
  | .add, number _ m, number _ n => number line (m.add n)
  | .add, string _ s, string _ t => string line (s ++ t)
  | .subtract, number _ m, number _ n => number line (m.add n.negate)
  | .multiply, number _ m, number _ n => number line (m.multiply n)
  | .both, bool _ x, bool _ y => bool line (x && y)
  | .either, bool _ x, bool _ y => bool line (x || y)
  | .equal, _, _ => compared (· == .eq)
  | .notEqual, _, _ => compared (· != .eq)
  | .less, _, _ => compared (· == .lt)
  | .lessEqual, _, _ => compared (· != .gt)
  | .greater, _, _ => compared (· == .gt)
  | .greaterEqual, _, _ => compared (· != .lt)
  | _, _, _ => failed

/-- A struct with a value put into it. A single datum can only stand alone in a struct. -/
def embed (fuel : Nat) (v : Value) (own : Value) : Value :=
  match v, own with
  | struct _ gs, struct l hs =>
    if gs.any Group.isClosed then struct l [.mk true ((hs ++ gs).flatMap Group.literals)]
    else struct l (hs ++ gs)
  | v, struct l hs => if (Group.labels hs).any (·.isRegular) then bottom (min l v.line) else v
  | v, w => meet fuel v w

end Value

mutual

/-- The value of an expression. -/
def eval : (fuel : Nat) → List Scope → Expr → Value
  | 0, _, _ => .stuck 1
  | fuel + 1, scopes, e =>
    match e with
    | .null l => .null l
    | .bool l b => .bool l b
    | .number l n => .number l n
    | .string l parts =>
      parts.foldl (fun acc p =>
        let v : Value := match p with
          | .text s => .string l s
          | .code e => (eval fuel scopes e).settled
        match acc, v.interpolated? with
        | .string l s, some t => .string l (s ++ t)
        | .string l _, none => v.refused l
        | acc, _ => acc) (.string l "")
    | .name l s => lookup fuel scopes l s
    | .bottom l => .bottom l
    | .list l elems =>
      let isOpen := elems.any fun
        | .rest => true
        | _ => false
      .list l isOpen (elems.flatMap fun
        | .value e => [eval fuel scopes e]
        | .rest => []
        | .each cs body =>
          match expand fuel scopes cs with
          | .ok inner => inner.map fun s => eval fuel s (.struct l body)
          | .error v => [v])
    | .struct l decls =>
      let own := [Group.mk false [.mk scopes decls]]
      let inner := Scope.literal decls own :: scopes
      decls.foldl (fun acc d =>
        match d with
        | .embed e => Value.embed fuel (eval fuel inner e) acc
        | .each cs body =>
          match expand fuel inner cs with
          | .ok more => more.foldl (fun acc s =>
              Value.embed fuel (eval fuel s (.struct l body)) acc) acc
          | .error v => v
        | _ => acc) (.struct l own)
    | .marked e => eval fuel scopes e
    | .negative l e =>
      match (eval fuel scopes e).settled with
      | .number _ n => .number l n.negate
      | v => v.refused l
    | .not l e =>
      match (eval fuel scopes e).settled with
      | .bool _ b => .bool l (!b)
      | v => v.refused l
    | .binary _ .meet a b => Value.meet fuel (eval fuel scopes a) (eval fuel scopes b)
    | .binary l .join a b => Value.ofOptions l (joined fuel scopes a ++ joined fuel scopes b)
    | .binary l op a b =>
      Value.operate l op (eval fuel scopes a).settled (eval fuel scopes b).settled
    | .select l e name =>
      match (eval fuel scopes e).settled with
      | .struct _ gs => (member fuel gs (.ofName name)).getD (.stuck l)
      | v => v.refused l
    | .index l e i =>
      match (eval fuel scopes e).settled, (eval fuel scopes i).settled with
      | .list _ _ es, .number _ n =>
        if n.coefficient < 0 then .bottom l else (es[n.coefficient.toNat]?).getD (.bottom l)
      | .struct _ gs, .string _ s => (member fuel gs { name := s }).getD (.stuck l)
      | v, _ => v.refused l

/-- The options of an expression. -/
def joined : (fuel : Nat) → List Scope → Expr → List (Bool × Value)
  | 0, _, _ => []
  | fuel + 1, scopes, e =>
    match e with
    | .marked e => [(true, eval fuel scopes e)]
    | .binary _ .join a b => joined fuel scopes a ++ joined fuel scopes b
    | e =>
      match eval fuel scopes e with
      | .choice _ os => os
      | v => [(false, v)]

/-- The value of a name: that of the innermost scope that has it, or else the type of that name. -/
def lookup : (fuel : Nat) → List Scope → (line : Nat) → String → Value
  | 0, _, line, _ => .stuck line
  | _ + 1, [], line, name =>
    match BasicType.ofName? name with
    | some t => .type line t
    | none => .bottom line
  | fuel + 1, .binding n v :: outer, line, name =>
    if n == name then v else lookup fuel outer line name
  | fuel + 1, .literal decls whole :: outer, line, name =>
    let local? := decls.findSome? fun
      | .binding n e => if n == name then some e else none
      | _ => none
    match local? with
    | some e => eval fuel (.literal decls whole :: outer) e
    | none =>
      if decls.any fun d => d.label? == some (.ofName name) then
        (member fuel whole (.ofName name)).getD (.stuck line)
      else lookup fuel outer line name

/-- The value of a field of a struct. -/
def member : (fuel : Nat) → List Group → Label → Option Value
  | 0, _, _ => none
  | fuel + 1, whole, label =>
    let isThere := (Group.labels whole).contains label
    let ofLiteral (l : Literal) : List Value := l.decls.filterMap fun
      | .field _ k _ e => if k == label then some (eval fuel (l.inner whole) e) else none
      | _ => none
    let ofGroup (g : Group) : List Value :=
      (g.literals.flatMap ofLiteral).map fun v =>
        if g.isClosed || Label.isDefinitionName label.name then v.close else v
    if !isThere then none
    else match whole.flatMap ofGroup with
      | [] => none
      | v :: vs =>
        if whole.all (·.allows label) then some (vs.foldl (Value.meet fuel) v)
        else some (.bottom (vs.foldl (fun l w => min l w.line) v.line))

/-- The scopes that the clauses of a comprehension lead to, or the value that stands in the way. -/
def expand : (fuel : Nat) → List Scope → List Clause → Except Value (List (List Scope))
  | 0, _, _ => .error (.stuck 1)
  | _ + 1, scopes, [] => .ok [scopes]
  | fuel + 1, scopes, .given c :: rest =>
    match (eval fuel scopes c).settled with
    | .bool _ true => expand fuel scopes rest
    | .bool _ false => .ok []
    | v => .error (v.refused v.line)
  | fuel + 1, scopes, .over key value source :: rest => do
    let keyed (k : Value) : List Scope :=
      match key with
      | some n => [.binding n k]
      | none => []
    let pairs : List (Value × Value) ← match (eval fuel scopes source).settled with
      | .list l _ es =>
        let keys := (List.range es.length).map fun i =>
          Value.number l { coefficient := Int.ofNat i }
        pure (keys.zip es)
      | .struct l gs =>
        pure (((Group.labels gs).filter (·.isRegular)).filterMap fun k =>
          (member fuel gs k).map (Value.string l k.name, ·))
      | v => throw (v.refused v.line)
    let inner ← pairs.mapM fun (k, v) =>
      expand fuel (.binding value v :: keyed k ++ scopes) rest
    return inner.flatten

end

/-- The line of the first error in a value, hidden fields and definitions included. -/
def conflict? : (fuel : Nat) → Value → Option Nat
  | 0, _ => none
  | fuel + 1, v =>
    match v.settled with
    | .bottom l => some l
    | .list _ _ es => es.findSome? (conflict? fuel)
    | .struct _ gs =>
      (Group.labels gs).findSome? fun k => (member fuel gs k).bind (conflict? fuel)
    | _ => none

/-- The JSON value of a value, or the line of the first part of it that is not decided. -/
def toJson : (fuel : Nat) → Value → Except Nat Json
  | 0, v => .error v.line
  | fuel + 1, v =>
    match v.settled with
    | .null _ => .ok .null
    | .bool _ b => .ok (.bool b)
    | .number _ n => .ok (.number n.text)
    | .string _ s => .ok (.ofString s)
    | .list _ _ es => do return .array (← es.mapM (toJson fuel))
    | .struct _ gs => do
      let fields ← ((Group.labels gs).filter (·.isRegular)).mapM fun k => do
        match member fuel gs k with
        | some v => return (k.name, ← toJson fuel v)
        | none => .error v.line
      return .object fields
    | v => .error v.line

/-- The line of the first stray byte of a text. -/
def strayLine (t : Text) : Nat :=
  let before := t.glyphs.takeWhile fun
    | .char _ => true
    | .stray _ => false
  1 + (before.filter (· == .char '\n')).length

/-- The JSON value of a text, or the line of what is wrong in it. -/
def readJson (t : Text) : Except Nat Json := do
  let some cs := t.chars? | .error (strayLine t)
  let ts := tokens 1 cs
  let decls ← Expr.ofTokens ts
  let fuel := ts.length + 64
  let v := eval fuel [] (.struct 1 decls)
  match conflict? fuel v with
  | some l => .error l
  | none => toJson fuel v

end DeclGen.Cue
