import DeclGen.Tree.Rules

/-!
# One step of a check

The checks of nesting read a list of children from left to right, and each child twice: its kind
against its parent, then what stands below it. This module says once what one child adds to the
outcome, for each of the checks, as a chain of alternatives of which the first counts.

## Implementation notes

Every check is a recursion on lists of trees, so statements about them are proved by
`Forest.induction`: a list begins with a hole or with a declaration, whose children and whose later
siblings are smaller lists.
-/

namespace DeclGen

/-- A property of forests follows from what it says of the children of the first declaration and of
the trees after it. -/
@[elab_as_elim]
theorem Forest.induction {motive : Forest → Prop} (nil : motive [])
    (hole : ∀ rest, motive rest → motive (.hole :: rest))
    (node : ∀ k as cs rest, motive cs → motive rest → motive (.node k as cs :: rest)) :
    ∀ f, motive f
  | [] => nil
  | .hole :: rest => hole rest (Forest.induction nil hole node rest)
  | .node k as cs :: rest =>
      node k as cs rest (Forest.induction nil hole node cs) (Forest.induction nil hole node rest)

namespace Kind

/-- Only functions and function pointers are callable. -/
theorem isCallable_iff (k : Kind) : k.isCallable = true ↔ k = function ∨ k = functionPointer := by
  cases k <;> decide

/-- Below a callable kind only variables and function pointers are allowed. -/
theorem checkChild_eq_none_of_isCallable {parent child : Kind} (h : parent.isCallable = true)
    (hc : parent.checkChild child = none) : child = var ∨ child = functionPointer := by
  rcases (isCallable_iff parent).mp h with rfl | rfl
  · cases child <;> simp [checkChild] at hc ⊢
  · cases child <;> simp [checkChild] at hc ⊢

/-- A parameter may hold every kind but a function. -/
theorem checkParam_eq_none_iff (fn nested : Kind) :
    fn.checkParam nested = none ↔ nested ≠ function := by
  cases nested <;> simp [checkParam]

end Kind

/-- A mismatch of the child at position `i`. -/
def Mismatch.atChild (i : Nat) (m : Mismatch) : Violation := { mismatch := m, address := [i] }

@[simp]
theorem check_node (k : Kind) (as : List Attr) (cs : List Node) :
    (Node.node k as cs).check = checkChildren k 0 cs := by
  rw [Node.check]

/-- The first violation below a child of kind `k` of a node of kind `parent`: a variable of a
callable parent is a parameter. -/
def checkBelow (parent k : Kind) (cs : List Node) : Option Violation :=
  if parent.isCallable && k == .var then checkParamsFrom parent 0 cs else checkChildren k 0 cs

/-- The first violation below a node of kind `k` inside a parameter of a function of kind `fn`. -/
def checkInside (fn k : Kind) (cs : List Node) : Option Violation :=
  if k == .functionPointer then checkChildren k 0 cs else checkParamsFrom fn 0 cs

/-- A child is refused for its own kind, or else for what is below it, or else the later children
decide. -/
theorem checkChildren_node (parent : Kind) (i : Nat) (k : Kind) (as : List Attr)
    (cs rest : List Node) :
    checkChildren parent i (.node k as cs :: rest) =
      ((parent.checkChild k).map (Mismatch.atChild i)).or
        (((checkBelow parent k cs).map (Violation.under i)).or
          (checkChildren parent (i + 1) rest)) := by
  rw [checkChildren]
  cases parent.checkChild k with
  | some m => rfl
  | none =>
      cases hb : checkBelow parent k cs with
      | some v =>
          rw [checkBelow] at hb
          simp only [check_node, hb]
          rfl
      | none =>
          rw [checkBelow] at hb
          simp only [check_node, hb]
          rfl

/-- The same chain of alternatives for a node inside a parameter. -/
theorem checkParamsFrom_node (fn : Kind) (i : Nat) (k : Kind) (as : List Attr)
    (cs rest : List Node) :
    checkParamsFrom fn i (.node k as cs :: rest) =
      ((fn.checkParam k).map (Mismatch.atChild i)).or
        (((checkInside fn k cs).map (Violation.under i)).or
          (checkParamsFrom fn (i + 1) rest)) := by
  rw [checkParamsFrom]
  cases fn.checkParam k with
  | some m => rfl
  | none =>
      cases hb : checkInside fn k cs with
      | some v =>
          rw [checkInside] at hb
          simp only [check_node, hb]
          rfl
      | none =>
          rw [checkInside] at hb
          simp only [check_node, hb]
          rfl

theorem validateFrom_hole (i : Nat) (rest : Forest) :
    Forest.validateFrom i (.hole :: rest) = Forest.validateFrom (i + 1) rest := by
  rw [Forest.validateFrom, Node.check]

/-- A tree of a forest has no parent, so only what is below it can be refused. -/
theorem validateFrom_node (i : Nat) (k : Kind) (as : List Attr) (cs : List Node) (rest : Forest) :
    Forest.validateFrom i (.node k as cs :: rest) =
      ((checkChildren k 0 cs).map (Violation.under i)).or (Forest.validateFrom (i + 1) rest) := by
  rw [Forest.validateFrom, check_node]
  cases checkChildren k 0 cs with
  | some v => rfl
  | none => rfl

end DeclGen
