import DeclGen.Cue.Expr

/-!
# Values

A value is what an expression stands for: a type, a single datum, a list, a struct, or a choice
between values of which some may be marked as defaults. Two values have a meet, which is what fits
both.

## Implementation notes

The fields of a struct are not evaluated when the struct is made. A struct is a list of groups of
literals, each literal with the scopes it stands in, so that the meet of two structs puts their
groups side by side and a field that refers to another field sees the whole struct. A group that is
closed allows no other fields than its own.
-/

namespace DeclGen.Cue

/-- A type of data. -/
inductive BasicType where
  | any
  | bool
  | int
  | float
  | number
  | string
  deriving DecidableEq, Repr, Inhabited

namespace BasicType

/-- The type that a name stands for where nothing else has that name. -/
def ofName? : String → Option BasicType
  | "_" => some any
  | "bool" => some bool
  | "int" => some int
  | "float" => some float
  | "number" => some number
  | "string" => some string
  | _ => none

/-- The values that two types have in common. -/
def meet? : BasicType → BasicType → Option BasicType
  | any, t | t, any => some t
  | number, int | int, number => some int
  | number, float | float, number => some float
  | s, t => if s = t then some s else none

end BasicType

mutual

/-- A value, with the line it comes from. -/
inductive Value where
  /-- A conflict or another error. -/
  | bottom (line : Nat)
  /-- An expression that has no value yet, because a part of it is only a type. -/
  | stuck (line : Nat)
  | type (line : Nat) (t : BasicType)
  | null (line : Nat)
  | bool (line : Nat) (b : Bool)
  | number (line : Nat) (n : Number)
  | string (line : Nat) (s : String)
  | list (line : Nat) (isOpen : Bool) (elems : List Value)
  | struct (line : Nat) (groups : List Group)
  | choice (line : Nat) (options : List (Bool × Value))

/-- Literals that are open or closed together. -/
inductive Group where
  | mk (isClosed : Bool) (literals : List Literal)

/-- A struct literal with the scopes around it. -/
inductive Literal where
  | mk (scopes : List Scope) (decls : List Decl)

/-- A place where names are looked up: a variable, or a literal that is part of a struct. -/
inductive Scope where
  | binding (name : String) (value : Value)
  | literal (decls : List Decl) (whole : List Group)

end

instance : Inhabited Value := ⟨.null 0⟩

/-- The coefficient of a number written with exponent `e`, for `e` not above its own. -/
def Number.scaledTo (n : Number) (e : Int) : Int :=
  n.coefficient * Int.ofNat (Nat.pow 10 (n.exponent - e).toNat)

/-- Whether two numbers are the same. -/
def Number.same (m n : Number) : Bool :=
  let e := min m.exponent n.exponent
  m.isWhole == n.isWhole
    && m.scaledTo e == n.scaledTo e

namespace Literal

/-- The declarations of a literal. -/
def decls : Literal → List Decl
  | mk _ ds => ds

/-- The scopes around the fields of a literal that is part of a struct. -/
def inner (whole : List Group) : Literal → List Scope
  | mk scopes ds => .literal ds whole :: scopes

end Literal

/-- The label of a field declaration. -/
def Decl.label? : Decl → Option Label
  | .field _ l _ _ => some l
  | _ => none

namespace Group

/-- The literals of a group. -/
def literals : Group → List Literal
  | mk _ ls => ls

/-- Whether only the fields of a group are allowed. -/
def isClosed : Group → Bool
  | mk c _ => c

/-- The declarations of a group. -/
def decls (g : Group) : List Decl := g.literals.flatMap Literal.decls

/-- Whether a group allows a field. Hidden fields and definitions are always allowed. -/
def allows (g : Group) (label : Label) : Bool :=
  !g.isClosed || !label.isRegular
    || g.decls.any fun
      | .ellipsis => true
      | d => d.label? == some label

/-- The labels of fields that are there, without repetition. -/
def labels (gs : List Group) : List Label :=
  let present (d : Decl) : Option Label :=
    match d with
    | .field _ l false _ => some l
    | _ => none
  (gs.flatMap fun g => g.decls.filterMap present).eraseDups

end Group

namespace Value

/-- The line a value comes from. -/
def line : Value → Nat
  | bottom l | stuck l | type l _ | null l | bool l _ | number l _ | string l _ | list l _ _
  | struct l _ | choice l _ => l

/-- Whether a value is an error. -/
def isBottom : Value → Bool
  | bottom _ => true
  | _ => false

/-- The type of a single datum. -/
def type? : Value → Option BasicType
  | bool _ _ => some .bool
  | number _ n => some (if n.isWhole then .int else .float)
  | string _ _ => some .string
  | _ => none

/-- Whether two values are the same single datum. -/
def same : Value → Value → Bool
  | null _, null _ => true
  | bool _ a, bool _ b => a == b
  | number _ m, number _ n => m.same n
  | string _ a, string _ b => a == b
  | _, _ => false

/-- A choice between options, of which errors are dropped. -/
def ofOptions (line : Nat) (options : List (Bool × Value)) : Value :=
  match options.filter fun o => !o.2.isBottom with
  | [] => bottom line
  | [o] => o.2
  | os => choice line os

/-- The options of a value, where a choice without defaults has all its options as defaults. -/
def options : Value → List (Bool × Value)
  | choice _ os => if os.any (·.1) then os else os.map fun o => (true, o.2)
  | v => [(true, v)]

/-- The value that a choice stands for when nothing else decides it. -/
def settled : Value → Value
  | choice l os =>
    match (if os.any (·.1) then os.filter (·.1) else os).map (·.2) with
    | [] => bottom l
    | v :: vs => if vs.all (same v) then v else stuck l
  | v => v

/-- The elements of two lists paired by an operation; beyond the shorter one those of the longer. -/
def zipLong (f : Value → Value → Value) : List Value → List Value → List Value
  | [], bs => bs
  | as, [] => as
  | a :: as, b :: bs => f a b :: zipLong f as bs

/-- What fits both of two values, for values nested at most `fuel` deep. -/
def meet : (fuel : Nat) → Value → Value → Value
  | 0, a, _ => bottom a.line
  | fuel + 1, a, b =>
    let conflict := bottom (min a.line b.line)
    match a, b with
    | bottom l, _ | _, bottom l => bottom l
    | type _ .any, v | v, type _ .any => v
    | stuck l, _ | _, stuck l => stuck l
    | choice l os, v | v, choice l os =>
      ofOptions l ((choice l os).options.flatMap fun (d, x) =>
        v.options.map fun (e, y) => (d && e, meet fuel x y))
    | type l s, type _ t =>
      match s.meet? t with
      | some u => type l u
      | none => conflict
    | type _ t, v | v, type _ t =>
      match v.type? with
      | some s => if t.meet? s = some s then v else conflict
      | none => conflict
    | list l isOpen as, list _ isOpen' bs =>
      if (as.length < bs.length && !isOpen) || (bs.length < as.length && !isOpen') then conflict
      else list l (isOpen && isOpen') (zipLong (meet fuel) as bs)
    | struct l gs, struct _ hs => struct l (gs ++ hs)
    | a, b => if a.same b then a else conflict

mutual

/-- The value with all its structs closed. -/
def close : Value → Value
  | list l isOpen es => list l isOpen (closeList es)
  | struct l gs => struct l [.mk true (gs.flatMap Group.literals)]
  | choice l os => choice l (closeOptions os)
  | v => v

/-- The elements of a list closed. -/
def closeList : List Value → List Value
  | [] => []
  | v :: vs => close v :: closeList vs

/-- The options of a choice closed. -/
def closeOptions : List (Bool × Value) → List (Bool × Value)
  | [] => []
  | (d, v) :: os => (d, close v) :: closeOptions os

end

end Value

end DeclGen.Cue
