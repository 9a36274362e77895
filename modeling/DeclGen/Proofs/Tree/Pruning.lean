import DeclGen.Proofs.Tree.Checking

/-!
# Forests without their unread parts

Rendering does not look below a decoration, a node of unknown kind or a variable, unless the
variable is a parameter of a function. Pruning takes these parts away. What is left is checked as
before below functions, and a forest that passed the check still passes it.
-/

namespace DeclGen

/-- Whether a kind is rendered without its children, where it is not a parameter. -/
def Kind.isUnread (k : Kind) : Bool := k == decoration || k == unknown || k == var

mutual

/-- A tree without its unread parts; `ofCallable` says whether it is a child of a function or
function pointer, where a variable is kept as it is. -/
def Node.pruneIn (ofCallable : Bool) : Node → Node
  | .hole => .hole
  | .node k as cs =>
    if ofCallable && k == .var then .node k as cs
    else .node k as (if k.isUnread then [] else Forest.pruneIn k.isCallable cs)

/-- Trees without their unread parts. -/
def Forest.pruneIn (ofCallable : Bool) : List Node → List Node
  | [] => []
  | n :: rest => n.pruneIn ofCallable :: Forest.pruneIn ofCallable rest

end

namespace Forest

/-- A forest without its unread parts. -/
def prune (f : Forest) : Forest := pruneIn false f

@[simp]
theorem pruneIn_nil (b : Bool) : pruneIn b [] = [] := rfl

@[simp]
theorem pruneIn_hole (b : Bool) (rest : Forest) :
    pruneIn b (.hole :: rest) = .hole :: pruneIn b rest := rfl

/-- A parameter is kept as it is. -/
@[simp]
theorem pruneIn_param (as : List Attr) (cs : List Node) (rest : Forest) :
    pruneIn true (.node .var as cs :: rest) = .node .var as cs :: pruneIn true rest := rfl

/-- Every other declaration loses its children or has them pruned in turn. -/
theorem pruneIn_node {b : Bool} {k : Kind} (as : List Attr) (cs : List Node) (rest : Forest)
    (h : (b && k == .var) = false) :
    pruneIn b (.node k as cs :: rest) =
      .node k as (if k.isUnread then [] else pruneIn k.isCallable cs) :: pruneIn b rest := by
  rw [pruneIn, Node.pruneIn, h]
  rfl

theorem prune_hole (rest : Forest) : prune (.hole :: rest) = .hole :: rest.prune := rfl

end Forest

open Forest

/-- The first violation below a declaration of kind `k` after pruning. -/
def checkPruned (k : Kind) (cs : List Node) : Option Violation :=
  if k.isUnread then none else checkChildren k 0 (pruneIn k.isCallable cs)

theorem checkChildren_kept (k : Kind) (cs : List Node) :
    checkChildren k 0 (if k.isUnread then [] else pruneIn k.isCallable cs) = checkPruned k cs := by
  unfold checkPruned
  split
  · rw [checkChildren]
  · rfl

theorem checkPruned_eq_none {k : Kind} {cs : List Node}
    (h : checkChildren k 0 (pruneIn k.isCallable cs) = none) : checkPruned k cs = none := by
  unfold checkPruned
  split
  · rfl
  · exact h

/-- Outside functions, a pruned child is checked like any other. -/
theorem checkChildren_pruneIn_node {parent : Kind} (hp : parent.isCallable = false) (i : Nat)
    (k : Kind) (as : List Attr) (cs rest : List Node) :
    checkChildren parent i (pruneIn false (.node k as cs :: rest)) =
      ((parent.checkChild k).map (Mismatch.atChild i)).or
        (((checkPruned k cs).map (Violation.under i)).or
          (checkChildren parent (i + 1) (pruneIn false rest))) := by
  rw [pruneIn_node as cs rest (Bool.false_and _), checkChildren_node]
  simp only [checkBelow, hp, Bool.false_and, Bool.false_eq_true, if_false, checkChildren_kept]

theorem validateFrom_prune_node (i : Nat) (k : Kind) (as : List Attr) (cs : List Node)
    (rest : Forest) :
    validateFrom i (prune (.node k as cs :: rest)) =
      ((checkPruned k cs).map (Violation.under i)).or (validateFrom (i + 1) rest.prune) := by
  rw [prune, pruneIn_node as cs rest (Bool.false_and _), validateFrom_node, checkChildren_kept,
    prune]

/-- Below a function pruning changes nothing that the check reads: parameters are kept, and other
kinds but function pointers are refused at once. -/
theorem checkChildren_pruneIn_of_isCallable (cs : List Node) :
    ∀ fn i, fn.isCallable = true →
      checkChildren fn i (pruneIn true cs) = checkChildren fn i cs := by
  induction cs using Forest.induction with
  | nil =>
      intro fn i _
      rw [pruneIn_nil]
  | hole rest ih =>
      intro fn i h
      rw [pruneIn_hole, checkChildren, checkChildren, ih fn (i + 1) h]
  | node k as cs rest ihc ihr =>
      intro fn i h
      cases hk : fn.checkChild k with
      | some m =>
          by_cases hv : k = .var
          · subst hv
            rw [pruneIn_param, checkChildren_node, checkChildren_node, hk]
            rfl
          · rw [pruneIn_node as cs rest (by simpa using hv), checkChildren_node,
              checkChildren_node, hk]
            rfl
      | none =>
          rcases Kind.checkChild_eq_none_of_isCallable h hk with rfl | rfl
          · rw [pruneIn_param, checkChildren_node, checkChildren_node, ihr fn (i + 1) h]
          · have hb : checkBelow fn .functionPointer (pruneIn true cs) =
                checkBelow fn .functionPointer cs := by
              simp only [checkBelow, reduceCtorEq, beq_iff_eq, Bool.and_eq_true, and_false,
                if_false]
              exact ihc .functionPointer 0 rfl
            rw [pruneIn_node as cs rest rfl, checkChildren_node, checkChildren_node,
              ihr fn (i + 1) h]
            exact congrArg (fun o => Option.or _ (Option.or (Option.map _ o) _)) hb

/-- Pruning takes violations away and adds none. -/
theorem checkChildren_pruneIn_eq_none (cs : List Node) :
    ∀ parent i, checkChildren parent i cs = none →
      checkChildren parent i (pruneIn parent.isCallable cs) = none := by
  induction cs using Forest.induction with
  | nil =>
      intro parent i h
      rwa [pruneIn_nil]
  | hole rest ih =>
      intro parent i h
      rw [checkChildren] at h
      rw [pruneIn_hole, checkChildren]
      exact ih parent (i + 1) h
  | node k as cs rest ihc ihr =>
      intro parent i h
      cases hp : parent.isCallable with
      | true => rwa [checkChildren_pruneIn_of_isCallable _ parent i hp]
      | false =>
          simp only [checkChildren_node, Option.or_eq_none_iff, Option.map_eq_none_iff,
            checkBelow, hp, Bool.false_and, Bool.false_eq_true, if_false] at h
          obtain ⟨hk, hbelow, hrest⟩ := h
          simp only [checkChildren_pruneIn_node hp, Option.or_eq_none_iff,
            Option.map_eq_none_iff]
          exact ⟨hk, checkPruned_eq_none (ihc k 0 hbelow), hp ▸ ihr parent (i + 1) hrest⟩

/-- A forest that passes the check still passes it after pruning. -/
theorem validate_prune_eq_none (f : Forest) (h : f.validate = none) : f.prune.validate = none := by
  suffices hi : ∀ i, validateFrom i f = none → validateFrom i f.prune = none from hi 0 h
  clear h
  induction f using Forest.induction with
  | nil =>
      intro i _
      rfl
  | hole rest ih =>
      intro i h
      rw [validateFrom_hole] at h
      rw [prune_hole, validateFrom_hole]
      exact ih (i + 1) h
  | node k as cs rest _ ihr =>
      intro i h
      simp only [validateFrom_node, Option.or_eq_none_iff, Option.map_eq_none_iff] at h
      obtain ⟨hbelow, hrest⟩ := h
      simp only [validateFrom_prune_node, Option.or_eq_none_iff, Option.map_eq_none_iff]
      have hpruned := checkChildren_pruneIn_eq_none cs k 0 hbelow
      exact ⟨checkPruned_eq_none hpruned, ihr (i + 1) hrest⟩

end DeclGen
