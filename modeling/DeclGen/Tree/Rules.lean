import DeclGen.Tree.Node
import DeclGen.Text.Quoted

/-!
# The rules of nesting

Enumerations and flag sets hold variables and decorations. Functions and function pointers hold
variables and function pointers. All other kinds hold anything. Below a variable that is a parameter
of a function, at any depth, a function is not allowed either, and a function pointer found there
follows its own rules again.

`Forest.validate` finds the first node that breaks a rule, parents before children.

## Implementation notes

A violation carries the address of the offending child relative to the node that was checked; each
level of the recursion puts its own position in front. The address becomes text only in messages.
-/

namespace DeclGen

/-- A child kind that its parent kind does not allow. -/
structure Mismatch where
  parent : Kind
  child : Kind
  /-- The kind that was probably meant. -/
  suggestion : Option Kind := none
  deriving DecidableEq, Repr, Inhabited

namespace Mismatch

/-- The advice that goes with a mismatch. -/
def hint (m : Mismatch) : String :=
  match m.suggestion with
  | some k => "did you mean " ++ quote k.tag ++ "?"
  | none => ""

/-- The message of a mismatch found at a place; the empty place is not shown. -/
def messageAt (place : String) (m : Mismatch) : String :=
  "invalid IR: " ++ m.parent.label ++ " cannot contain " ++ m.child.label
    ++ (if place.isEmpty then "" else " (at " ++ place ++ ")")
    ++ (if m.hint.isEmpty then "" else ": " ++ m.hint)

end Mismatch

/-- A mismatch and the address of the offending child below the node that was checked. -/
structure Violation where
  mismatch : Mismatch
  address : List Nat := []
  deriving DecidableEq, Repr, Inhabited

namespace Violation

/-- The violation seen from a parent whose child at position `i` was checked. -/
def under (i : Nat) (v : Violation) : Violation := { v with address := i :: v.address }

/-- The text of a place below a place. -/
def placeBelow (place : String) (address : List Nat) : String :=
  address.foldl (fun p i => p ++ ".children[" ++ toString i ++ "]") place

/-- The text of an address in a forest. -/
def placeOf : List Nat → String
  | [] => ""
  | i :: rest => placeBelow ("items[" ++ toString i ++ "]") rest

/-- The place of a violation found in a forest. -/
def place (v : Violation) : String := placeOf v.address

/-- The message of a violation found in a forest. -/
def message (v : Violation) : String := v.mismatch.messageAt v.place

end Violation

namespace Kind

/-- Whether a child of kind `child` may stand under a parent of kind `parent`. -/
def checkChild (parent child : Kind) : Option Mismatch :=
  match parent with
  | enumeration | flagSet =>
    match child with
    | var | decoration => none
    | _ => some { parent, child }
  | function | functionPointer =>
    match child with
    | var | functionPointer => none
    | function => some { parent, child, suggestion := some functionPointer }
    | _ => some { parent, child }
  | _ => none

/-- Whether a node of kind `nested` may stand below a parameter of a function of kind `fn`. -/
def checkParam (fn nested : Kind) : Option Mismatch :=
  match nested with
  | function => some { parent := fn, child := nested, suggestion := some functionPointer }
  | _ => none

end Kind

mutual

/-- The first violation below a node, its children in order. -/
def Node.check : Node → Option Violation
  | .hole => none
  | .node k _ cs => checkChildren k 0 cs

/-- The first violation among the children of a node of kind `parent`, the first of which stands at
position `i`. -/
def checkChildren (parent : Kind) (i : Nat) : List Node → Option Violation
  | [] => none
  | .hole :: rest => checkChildren parent (i + 1) rest
  | .node k as cs :: rest =>
    match parent.checkChild k with
    | some m => some { mismatch := m, address := [i] }
    | none =>
      let below :=
        if parent.isCallable && k == .var then checkParamsFrom parent 0 cs
        else Node.check (.node k as cs)
      match below with
      | some v => some (v.under i)
      | none => checkChildren parent (i + 1) rest

/-- The first violation among nodes below a parameter of a function of kind `fn`, the first of which
stands at position `i`. -/
def checkParamsFrom (fn : Kind) (i : Nat) : List Node → Option Violation
  | [] => none
  | .hole :: rest => checkParamsFrom fn (i + 1) rest
  | .node k as cs :: rest =>
    match fn.checkParam k with
    | some m => some { mismatch := m, address := [i] }
    | none =>
      let below :=
        if k == .functionPointer then Node.check (.node k as cs)
        else checkParamsFrom fn 0 cs
      match below with
      | some v => some (v.under i)
      | none => checkParamsFrom fn (i + 1) rest

end

/-- The first violation below a parameter of a function of kind `fn`. -/
def Node.checkParams (fn : Kind) (param : Node) : Option Violation :=
  checkParamsFrom fn 0 param.children

namespace Forest

/-- The first violation in the trees of a list, the first of which stands at position `i`. -/
def validateFrom (i : Nat) : Forest → Option Violation
  | [] => none
  | n :: rest =>
    match n.check with
    | some v => some (v.under i)
    | none => validateFrom (i + 1) rest

/-- The first violation in a forest. -/
def validate (f : Forest) : Option Violation := validateFrom 0 f

end Forest

end DeclGen
