import DeclGen.Proofs.Render.Reading

/-!
# When rendering is refused

Rendering checks the rules of nesting on its way, in an order of its own: the children of an
enumeration before any of them is rendered, a parameter as a whole before the function pointers
inside it, which are then checked once more. Nevertheless it is refused exactly where the check of
the pruned forest finds a violation, and with that violation, whatever the style.

## Implementation notes

`Style.fault?` keeps of an outcome only the violation. The faults of a sequence of steps are then a
chain of alternatives, the same shape in which one step of the check is stated.
-/

namespace DeclGen

open Forest

namespace Style

/-- The violation that stopped a rendering. -/
def fault? {α : Type} : Except Violation α → Option Violation
  | .ok _ => none
  | .error v => some v

theorem fault?_eq_some_iff {α : Type} (r : Except Violation α) (v : Violation) :
    fault? r = some v ↔ r = .error v := by
  cases r <;> simp [fault?]

theorem fault?_eq_none_iff {α : Type} (r : Except Violation α) :
    fault? r = none ↔ ∃ a, r = .ok a := by
  cases r <;> simp [fault?]

@[simp]
theorem fault?_ok {α : Type} (a : α) : fault? (.ok a) = none := rfl

@[simp]
theorem fault?_atChild {α : Type} (i : Nat) (r : Except Violation α) :
    fault? (atChild i r) = (fault? r).map (Violation.under i) := by
  cases r <;> rfl

/-- One step is at fault when what it needs is. -/
theorem fault?_map {α β : Type} (r : Except Violation α) (g : α → β) :
    fault? (do let a ← r; return g a) = fault? r := by
  cases r <;> rfl

/-- Of two steps the first one at fault counts. -/
theorem fault?_map₂ {α β γ : Type} (r : Except Violation α) (q : Except Violation β)
    (g : α → β → γ) :
    fault? (do let a ← r; let b ← q; return g a b) = (fault? r).or (fault? q) := by
  cases r <;> cases q <;> rfl

theorem fault?_checked (parent : Kind) (cs : List Node) (t : Text) :
    fault? (checked parent cs t) = firstMismatch parent 0 cs := by
  rw [checked]
  cases firstMismatch parent 0 cs <;> rfl

end Style

open Style

/-- Where only unread kinds are allowed, looking at the kinds of the children is the whole check of
the pruned children. -/
theorem firstMismatch_eq_checkChildren_pruneIn {parent : Kind} (hp : parent.isCallable = false)
    (hu : ∀ k, parent.checkChild k = none → k.isUnread = true) (cs : List Node) :
    ∀ i, firstMismatch parent i cs = checkChildren parent i (pruneIn false cs) := by
  induction cs using Forest.induction with
  | nil =>
      intro i
      rw [pruneIn_nil, firstMismatch, checkChildren]
  | hole rest ih =>
      intro i
      rw [pruneIn_hole, firstMismatch, checkChildren, ih]
  | node k as cs rest _ ih =>
      intro i
      rw [firstMismatch, checkChildren_pruneIn_node hp, ih (i + 1)]
      cases hk : parent.checkChild k with
      | some m => rfl
      | none =>
          rw [checkPruned, if_pos (hu k hk)]
          rfl

variable (style : Style)

/-- Rendering a parameter list is refused as its check is; the function pointers inside a parameter
that was checked are not refused a second time. -/
theorem fault?_parameters (cs : List Node) :
    (∀ depth fn i, fn.isCallable = true →
      fault? (style.params depth fn i cs) = checkChildren fn i cs) ∧
    (∀ depth fn i, checkParamsFrom fn i cs = none → fault? (style.nested depth i cs) = none) := by
  induction cs using Forest.induction with
  | nil =>
      constructor
      · intro depth fn i _
        rw [params, checkChildren, fault?_ok]
      · intro depth fn i _
        rw [nested, fault?_ok]
  | hole rest ih =>
      constructor
      · intro depth fn i hfn
        rw [params, checkChildren, ih.1 depth fn (i + 1) hfn]
      · intro depth fn i h
        rw [checkParamsFrom] at h
        rw [nested_other _ (by simp [Node.kind?])]
        exact ih.2 depth fn (i + 1) h
  | node k as cs rest ihc ihr =>
      have hpointer (depth : Nat) :
          fault? (style.signature .parameter depth (.node .functionPointer as cs)) =
            checkChildren .functionPointer 0 cs := by
        rw [signature_node, fault?_map, ihc.1 depth .functionPointer 0 rfl]
      constructor
      · intro depth fn i hfn
        rw [checkChildren_node]
        cases hk : fn.checkChild k with
        | some m =>
            rw [params_refused _ hk]
            rfl
        | none =>
            rw [Option.map_none, Option.none_or, ← ihr.1 depth fn (i + 1) hfn]
            rcases Kind.checkChild_eq_none_of_isCallable hfn hk with rfl | rfl
            · have hb : checkBelow fn .var cs = checkParamsFrom fn 0 cs := by
                simp [checkBelow, hfn]
              rw [params_var _ hfn, hb]
              cases hc : checkParamsFrom fn 0 cs with
              | some v => rfl
              | none =>
                  simp only [fault?_map₂, fault?_atChild, ihc.2 depth fn 0 hc]
            · have hb : checkBelow fn .functionPointer cs =
                  checkChildren .functionPointer 0 cs := by
                simp [checkBelow]
              rw [params_pointer _ hfn, hb, fault?_map₂, fault?_atChild, hpointer]
      · intro depth fn i h
        simp only [checkParamsFrom_node, Option.or_eq_none_iff, Option.map_eq_none_iff] at h
        obtain ⟨-, hinside, hrest⟩ := h
        by_cases hk : k = .functionPointer
        · subst hk
          have hb : checkChildren .functionPointer 0 cs = none := hinside
          rw [nested_pointer, fault?_map₂, fault?_atChild, hpointer, hb,
            ihr.2 depth fn (i + 1) hrest]
          rfl
        · rw [nested_other _ (by simpa [Node.kind?] using hk)]
          exact ihr.2 depth fn (i + 1) hrest

theorem fault?_node_callable {k : Kind} (hk : k.isCallable = true) (isMember : Bool) (depth : Nat)
    (as : List Attr) (cs : List Node) :
    fault? (style.node isMember depth (.node k as cs)) =
      checkChildren k 0 (pruneIn true cs) := by
  rw [node_callable _ hk, signature_node, fault?_map, (fault?_parameters style cs).1 depth k 0 hk,
    checkChildren_pruneIn_of_isCallable cs k 0 hk]

/-- One declaration is refused as its pruned children are, if this holds of the members of a
struct. -/
theorem fault?_node_of_members {k : Kind} {cs : List Node}
    (hm : k = .struct → ∀ depth,
      fault? (style.members depth 0 cs) = checkChildren .struct 0 (pruneIn false cs))
    (isMember : Bool) (depth : Nat) (as : List Attr) :
    fault? (style.node isMember depth (.node k as cs)) = checkPruned k cs := by
  cases k with
  | unknown => rw [Style.node]; rfl
  | decoration => rw [Style.node]; rfl
  | var => rw [Style.node]; rfl
  | function => exact fault?_node_callable style rfl isMember depth as cs
  | functionPointer => exact fault?_node_callable style rfl isMember depth as cs
  | enumeration =>
      have hentries (k : Kind) : Kind.enumeration.checkChild k = none → k.isUnread = true := by
        cases k <;> simp [Kind.checkChild, Kind.isUnread]
      rw [Style.node, Style.enumeration, fault?_checked]
      exact firstMismatch_eq_checkChildren_pruneIn rfl hentries cs 0
  | flagSet =>
      have hentries (k : Kind) : Kind.flagSet.checkChild k = none → k.isUnread = true := by
        cases k <;> simp [Kind.checkChild, Kind.isUnread]
      rw [Style.node, Style.flagSet, fault?_checked]
      exact firstMismatch_eq_checkChildren_pruneIn rfl hentries cs 0
  | struct =>
      rw [node_struct, fault?_map]
      exact hm rfl (depth + 1)

theorem fault?_members (cs : List Node) :
    ∀ depth i, fault? (style.members depth i cs) =
      checkChildren .struct i (pruneIn false cs) := by
  induction cs using Forest.induction with
  | nil =>
      intro depth i
      rw [members, pruneIn_nil, checkChildren, fault?_ok]
  | hole rest ih =>
      intro depth i
      rw [members_hole, pruneIn_hole, checkChildren, ih]
  | node k as cs rest ihc ihr =>
      intro depth i
      have hs : Kind.struct.checkChild k = none := by
        cases k <;> rfl
      rw [checkChildren_pruneIn_node rfl, hs, Option.map_none, Option.none_or,
        ← ihr depth (i + 1)]
      by_cases hk : k = .decoration
      · subst hk
        rw [members_decoration]
        rfl
      · rw [members_node _ hk, fault?_map₂, fault?_atChild,
          fault?_node_of_members style (by rintro rfl depth; exact ihc depth 0)]

/-- Rendering the trees of a forest is refused as the check of the pruned forest is. -/
theorem fault?_items (f : Forest) :
    ∀ i, fault? (style.items i f) = validateFrom i f.prune := by
  induction f using Forest.induction with
  | nil =>
      intro i
      rfl
  | hole rest ih =>
      intro i
      rw [items_cons, fault?_map₂, fault?_atChild, ih, Style.node, prune_hole, validateFrom_hole]
      rfl
  | node k as cs rest _ ih =>
      intro i
      rw [items_cons, fault?_map₂, fault?_atChild, ih, validateFrom_prune_node,
        fault?_node_of_members style (by rintro rfl depth; exact fault?_members style cs depth 0)]

/-- Rendering is refused exactly where the check of the pruned forest finds a violation. -/
theorem fault?_render (f : Forest) : fault? (style.render f) = f.prune.validate := by
  rw [render, fault?_map]
  exact fault?_items style f 0

/-- Pruning takes away nothing that is read. -/
theorem alike_pruneIn (s : Substitution) (f : Forest) :
    Alike s s .free f (pruneIn false f) ∧ Alike s s .callable f (pruneIn true f) := by
  induction f using Forest.induction with
  | nil => exact ⟨.nil, .nil⟩
  | hole rest ih => exact ⟨.hole ih.1, .hole ih.2⟩
  | node k as cs rest ihc ihr =>
      constructor
      · rw [pruneIn_node as cs rest (Bool.false_and _)]
        refine .node (fun _ _ _ => rfl) (fun _ => rfl) ?_ ihr.1
        intro hs
        have hu : k.isUnread = false := hs
        rw [hu]
        cases hk : k.isCallable with
        | true => simpa [Setting.below, hk] using ihc.2
        | false => simpa [Setting.below, hk] using ihc.1
      · by_cases hv : k = .var
        · subst hv
          rw [pruneIn_param]
          exact .node (fun _ _ _ => rfl) (fun _ => rfl) (fun _ => .refl s cs _) ihr.2
        · rw [pruneIn_node as cs rest (by simpa using hv)]
          refine .node (fun _ _ _ => rfl) (fun _ => rfl) ?_ ihr.2
          intro hs
          have hk : k = .functionPointer := by simpa [Setting.skips, hv] using hs
          subst hk
          exact ihc.2

/-- Rendering a forest is rendering the pruned forest. It is refused exactly where the check of the
pruned forest finds a violation, and with that violation, so that the violation does not depend on
the style. -/
theorem render_refused_iff_validate_prune (f : Forest) :
    style.render f = style.render f.prune ∧
      (∀ v, style.render f = .error v ↔ f.prune.validate = some v) ∧
      ∀ (other : Style) (v : Violation), style.render f = .error v ↔ other.render f = .error v := by
  have herror (any : Style) (v : Violation) :
      any.render f = .error v ↔ f.prune.validate = some v := by
    rw [← fault?_eq_some_iff, fault?_render]
  refine ⟨?_, herror style, fun other v => ?_⟩
  · exact (alike_pruneIn style.substitution f).1.render style
  · rw [herror style, herror other]

end DeclGen
