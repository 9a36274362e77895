import DeclGen.Proofs.Render.Stepping
import DeclGen.Proofs.Tree.Pruning

/-!
# What rendering reads

Rendering reads a forest only in part. Of a decoration it reads the replaced values in their order,
of every other declaration the replaced values of five attributes. It does not look below a
declaration that renders without its children, nor below one that is refused. `Alike` relates two
forests that agree in all that is read, each through its own substitution, and `Alike.render` says
that they are rendered the same.

## Implementation notes

How far rendering looks down depends on where a list of trees stands, its `Setting`. Inside a
parameter all kinds count, because the check of the parameter reads them all.
-/

namespace DeclGen

/-- Whether rendering reads an attribute by its name. -/
def AttrKey.isRead : AttrKey → Bool
  | other _ => false
  | _ => true

/-- The style that reads attribute values through another substitution. -/
def Style.through (style : Style) (s : Substitution) : Style := { style with substitution := s }

/-- Where a list of trees stands. -/
inductive Setting where
  /-- At the top, or below declarations that are no functions. -/
  | free
  /-- Directly below a function or function pointer. -/
  | callable
  /-- Inside a parameter. -/
  | parameter
  deriving DecidableEq

namespace Setting

/-- Whether nothing is read below a declaration of a kind, also because it is refused. -/
def skips : Setting → Kind → Bool
  | free, k => k.isUnread
  | callable, k => k != .var && k != .functionPointer
  | parameter, _ => false

/-- The setting of the children of a declaration of a kind. -/
def below (m : Setting) (k : Kind) : Setting :=
  if k.isCallable then callable else if m = free then free else parameter

end Setting

/-- Two attribute lists give the same replaced values by name. -/
def SameValues (s t : Substitution) (as bs : List Attr) : Prop :=
  ∀ key : AttrKey, key.isRead = true →
    (Attr.lookup? key as).map s.resolve = (Attr.lookup? key bs).map t.resolve

/-- Two attribute lists give the same replaced values in their order. -/
def SameLines (s t : Substitution) (as bs : List Attr) : Prop :=
  (as.map fun a => s.resolve a.value) = bs.map fun a => t.resolve a.value

/-- Two forests agree in all that is read of them, through one substitution each. -/
inductive Alike (s t : Substitution) : Setting → Forest → Forest → Prop
  | nil {m} : Alike s t m [] []
  | hole {m f g} (rest : Alike s t m f g) : Alike s t m (.hole :: f) (.hole :: g)
  | node {m k as bs cs ds f g}
      (values : k ≠ .decoration → SameValues s t as bs)
      (lines : k = .decoration → SameLines s t as bs)
      (below : m.skips k = false → Alike s t (m.below k) cs ds)
      (rest : Alike s t m f g) : Alike s t m (.node k as cs :: f) (.node k bs ds :: g)

/-- A forest is like itself, read through the same substitution. -/
theorem Alike.refl (s : Substitution) (f : Forest) : ∀ m, Alike s s m f f := by
  induction f using Forest.induction with
  | nil =>
      intro m
      exact .nil
  | hole rest ih =>
      intro m
      exact .hole (ih m)
  | node k as cs rest ihc ihr =>
      intro m
      exact .node (fun _ _ _ => rfl) (fun _ => rfl) (fun _ => ihc _) (ihr m)

section Attributes

variable (style : Style) {s t : Substitution} {as bs : List Attr}

theorem lookup?_through (s : Substitution) (as : List Attr) (key : AttrKey) :
    (style.through s).lookup? as key = (Attr.lookup? key as).map s.resolve := rfl

theorem SameValues.get (h : SameValues s t as bs) (key : AttrKey) (hk : key.isRead = true) :
    (style.through s).get as key = (style.through t).get bs key := by
  rw [Style.get, Style.get, lookup?_through, lookup?_through, h key hk]

theorem SameLines.decoration (h : SameLines s t as bs) (depth : Nat) :
    (style.through s).decoration depth as = (style.through t).decoration depth bs := by
  have hl := congrArg (fun ls : List Text => ls.flatMap (style.lineIfAny depth)) h
  simp only [List.flatMap_map] at hl
  exact hl

theorem SameValues.headerDecoration (h : SameValues s t as bs) (depth : Nat) :
    (style.through s).headerDecoration depth as =
      (style.through t).headerDecoration depth bs := by
  rw [Style.headerDecoration, Style.headerDecoration, h.get style .decoration rfl]
  rfl

theorem SameValues.entry (h : SameValues s t as bs) (name : Text) :
    (style.through s).entry name as = (style.through t).entry name bs := by
  simp only [Style.entry, h.get style .value rfl, h.get style .type rfl]
  rfl

theorem SameValues.initializer (h : SameValues s t as bs) :
    (style.through s).initializer as = (style.through t).initializer bs := by
  simp only [Style.initializer, h.get style .value rfl]

theorem SameValues.memberVar (h : SameValues s t as bs) (depth : Nat) :
    (style.through s).memberVar depth as = (style.through t).memberVar depth bs := by
  simp only [Style.memberVar, h.get style .type rfl, h.get style .name rfl,
    h.initializer style]
  rfl

theorem SameValues.topVar (h : SameValues s t as bs) (depth : Nat) :
    (style.through s).topVar depth as = (style.through t).topVar depth bs := by
  have hq : (style.through s).varQualifier as = (style.through t).varQualifier bs := by
    rw [Style.varQualifier, Style.varQualifier, lookup?_through, lookup?_through,
      h .qualifier rfl]
  simp only [Style.topVar, h.get style .type rfl, h.get style .name rfl,
    h.initializer style, hq]
  rfl

theorem SameValues.declaration (h : SameValues s t as bs) (place : Place) (k : Kind)
    (params : Text) :
    (style.through s).declaration place k as params =
      (style.through t).declaration place k bs params := by
  simp only [Style.declaration, Style.funcQualifier, h.get style .type rfl,
    h.get style .name rfl, h.get style .qualifier rfl]
  rfl

theorem SameValues.ownParam (h : SameValues s t as bs) :
    (style.through s).ownParam as = (style.through t).ownParam bs := by
  simp only [Style.ownParam, h.get style .type rfl, h.get style .name rfl]
  rfl

end Attributes

namespace Alike

variable {s t : Substitution} {m : Setting} {f g : Forest}

theorem length_eq (h : Alike s t m f g) : f.length = g.length := by
  induction h with
  | nil => rfl
  | hole _ ih => rw [List.length_cons, List.length_cons, ih]
  | node _ _ _ _ _ ih => rw [List.length_cons, List.length_cons, ih]

/-- Forests that are alike have the same kinds at the same places of a list. -/
theorem firstMismatch (h : Alike s t m f g) (parent : Kind) :
    ∀ i, Style.firstMismatch parent i f = Style.firstMismatch parent i g := by
  induction h with
  | nil =>
      intro i
      rfl
  | hole _ ih =>
      intro i
      rw [Style.firstMismatch, Style.firstMismatch, ih]
  | node _ _ _ _ _ ih =>
      intro i
      rw [Style.firstMismatch, Style.firstMismatch, ih]

/-- The check of parameters, and of the functions inside them, sees no difference. -/
theorem checks (h : Alike s t m f g) :
    (m = .callable → ∀ fn i, fn.isCallable = true →
      checkChildren fn i f = checkChildren fn i g) ∧
    (m = .parameter → ∀ fn i, checkParamsFrom fn i f = checkParamsFrom fn i g) := by
  induction h with
  | nil => exact ⟨fun _ _ _ _ => rfl, fun _ _ _ => rfl⟩
  | hole _ ih =>
      constructor
      · intro hm fn i hfn
        rw [checkChildren, checkChildren, ih.1 hm fn (i + 1) hfn]
      · intro hm fn i
        rw [checkParamsFrom, checkParamsFrom, ih.2 hm fn (i + 1)]
  | @node m k as bs cs ds f g _ _ _ _ ihc ihr =>
      constructor
      · rintro rfl fn i hfn
        rw [checkChildren_node, checkChildren_node, ihr.1 rfl fn (i + 1) hfn]
        cases hk : fn.checkChild k with
        | some w => rfl
        | none =>
            have hb : checkBelow fn k cs = checkBelow fn k ds := by
              rcases Kind.checkChild_eq_none_of_isCallable hfn hk with rfl | rfl
              · simp only [checkBelow, hfn, beq_self_eq_true, Bool.and_self, if_true]
                exact (ihc rfl).2 rfl fn 0
              · simp only [checkBelow, Bool.and_eq_true, beq_iff_eq, reduceCtorEq, and_false,
                  if_false]
                exact (ihc rfl).1 rfl .functionPointer 0 rfl
            rw [hb]
      · rintro rfl fn i
        rw [checkParamsFrom_node, checkParamsFrom_node, ihr.2 rfl fn (i + 1)]
        cases hk : fn.checkParam k with
        | some w => rfl
        | none =>
            have hf : k ≠ .function := (Kind.checkParam_eq_none_iff fn k).mp hk
            have hb : checkInside fn k cs = checkInside fn k ds := by
              by_cases hp : k = .functionPointer
              · subst hp
                exact (ihc rfl).1 rfl .functionPointer 0 rfl
              · have hc : k.isCallable = false := by simp [Kind.isCallable, hf, hp]
                simp only [checkInside, beq_iff_eq, hp, if_false]
                exact (ihc rfl).2 (by simp [Setting.below, hc]) fn 0
            rw [hb]

variable (style : Style)

theorem decorations (h : Alike s t m f g) (depth : Nat) :
    (style.through s).decorations depth f = (style.through t).decorations depth g := by
  induction h with
  | nil => rfl
  | hole _ ih => exact ih
  | @node m k as bs cs ds f g _ lines _ _ _ ih =>
      rw [decorations_node, decorations_node, ih]
      split
      · next hk => rw [(lines hk).decoration style depth]
      · rfl

theorem enumEntries (h : Alike s t m f g) (depth : Nat) :
    (style.through s).enumEntries depth f = (style.through t).enumEntries depth g := by
  induction h with
  | nil => rfl
  | hole _ ih => exact ih
  | @node m k as bs cs ds f g values _ _ _ _ ih =>
      rw [enumEntries_node, enumEntries_node, ih]
      split
      · next hk =>
          have hv := values (by simp [hk])
          rw [hv.get style .name rfl, hv.entry style]
          rfl
      · rfl

theorem flagEntries (h : Alike s t m f g) (depth : Nat) :
    (style.through s).flagEntries depth f = (style.through t).flagEntries depth g := by
  induction h with
  | nil => rfl
  | hole _ ih => exact ih
  | @node m k as bs cs ds f g values _ _ _ _ ih =>
      rw [flagEntries_node, flagEntries_node, ih]
      split
      · next hk =>
          have hv := values (by simp [hk])
          rw [hv.get style .name rfl, hv.entry style]
          rfl
      · rfl

/-- A signature depends on its own attributes, the number of its children and their parameters. -/
theorem signature_of_params {k : Kind} {as bs : List Attr} {cs ds : List Node}
    (hv : SameValues s t as bs) (hlen : cs.length = ds.length) (place : Place) (depth : Nat)
    (hp : (style.through s).params depth k 0 cs = (style.through t).params depth k 0 ds) :
    (style.through s).signature place depth (.node k as cs) =
      (style.through t).signature place depth (.node k bs ds) := by
  rw [signature_node, signature_node, hp, hlen]
  simp only [hv.declaration style]
  rfl

/-- Parameter lists are the same, directly below a function and inside a parameter. -/
theorem parameters (h : Alike s t m f g) :
    (m = .callable → ∀ depth fn i, fn.isCallable = true →
      (style.through s).params depth fn i f = (style.through t).params depth fn i g) ∧
    (m = .parameter → ∀ depth i,
      (style.through s).nested depth i f = (style.through t).nested depth i g) := by
  induction h with
  | nil => exact ⟨fun _ _ _ _ _ => rfl, fun _ _ _ => rfl⟩
  | hole _ ih =>
      constructor
      · intro hm depth fn i hfn
        rw [Style.params, Style.params, ih.1 hm depth fn (i + 1) hfn]
      · intro hm depth i
        rw [nested_other _ (by simp [Node.kind?]), nested_other _ (by simp [Node.kind?]),
          ih.2 hm depth (i + 1)]
  | @node m k as bs cs ds f g values _ below _ ihc ihr =>
      have hpointer (hk : k = .functionPointer) (hs : m.skips k = false) (depth : Nat) :
          (style.through s).signature .parameter depth (.node k as cs) =
            (style.through t).signature .parameter depth (.node k bs ds) := by
        subst hk
        exact signature_of_params style (values (by simp)) (below hs).length_eq .parameter depth
          ((ihc hs).1 rfl depth .functionPointer 0 rfl)
      constructor
      · rintro rfl depth fn i hfn
        cases hk : fn.checkChild k with
        | some w => rw [params_refused _ hk, params_refused _ hk]
        | none =>
            rcases Kind.checkChild_eq_none_of_isCallable hfn hk with rfl | rfl
            · rw [params_var _ hfn, params_var _ hfn, (below rfl).checks.2 rfl fn 0,
                (ihc rfl).2 rfl depth 0, ihr.1 rfl depth fn (i + 1) hfn,
                (values (by simp)).ownParam style]
            · rw [params_pointer _ hfn, params_pointer _ hfn, hpointer rfl rfl depth,
                ihr.1 rfl depth fn (i + 1) hfn]
      · rintro rfl depth i
        by_cases hk : k = .functionPointer
        · subst hk
          rw [nested_pointer, nested_pointer, hpointer rfl rfl depth, ihr.2 rfl depth (i + 1)]
        · rw [nested_other _ (by simpa [Node.kind?] using hk),
            nested_other _ (by simpa [Node.kind?] using hk), ihr.2 rfl depth (i + 1)]

/-- One declaration is the same, if the members are where it is a struct. -/
theorem node_of_members {k : Kind} {as bs : List Attr} {cs ds : List Node}
    (values : k ≠ .decoration → SameValues s t as bs)
    (lines : k = .decoration → SameLines s t as bs)
    (below : Setting.free.skips k = false → Alike s t (Setting.free.below k) cs ds)
    (hm : k = .struct → ∀ depth,
      (style.through s).members depth 0 cs = (style.through t).members depth 0 ds)
    (isMember : Bool) (depth : Nat) :
    (style.through s).node isMember depth (.node k as cs) =
      (style.through t).node isMember depth (.node k bs ds) := by
  have hcall (hk : k.isCallable = true) (hs : Setting.free.skips k = false) (hd : k ≠ .decoration)
      (hb : Setting.free.below k = .callable) :
      (style.through s).node isMember depth (.node k as cs) =
        (style.through t).node isMember depth (.node k bs ds) := by
    rw [node_callable _ hk, node_callable _ hk]
    exact signature_of_params style (values hd) (below hs).length_eq _ depth
      (((below hs).parameters style).1 hb depth k 0 hk)
  cases k with
  | unknown => rw [Style.node, Style.node]
  | decoration => rw [Style.node, Style.node, (lines rfl).decoration style depth]
  | var =>
      have hv := values (by simp)
      rw [Style.node, Style.node, hv.memberVar style depth, hv.topVar style depth]
  | function => exact hcall rfl rfl (by simp) rfl
  | functionPointer => exact hcall rfl rfl (by simp) rfl
  | enumeration =>
      have hv := values (by simp)
      have hb := below rfl
      rw [Style.node, Style.node, Style.enumeration, Style.enumeration, Style.checked,
        Style.checked, hb.firstMismatch, Style.block, Style.block, hb.decorations style,
        hv.headerDecoration style, hv.get style .name rfl, hb.enumEntries style]
      rfl
  | struct =>
      have hv := values (by simp)
      have hb := below rfl
      rw [node_struct, node_struct, hm rfl]
      simp only [Style.block, hb.decorations style, hv.headerDecoration style,
        hv.get style .name rfl]
      rfl
  | flagSet =>
      have hv := values (by simp)
      have hb := below rfl
      rw [Style.node, Style.node, Style.flagSet, Style.flagSet, Style.checked, Style.checked,
        hb.firstMismatch]
      simp only [Style.flagBody, hb.decorations style, hv.headerDecoration style,
        hv.get style .name rfl, hv.get style .type rfl, hb.flagEntries style]
      rfl

theorem members (h : Alike s t m f g) :
    m = .free → ∀ depth i,
      (style.through s).members depth i f = (style.through t).members depth i g := by
  induction h with
  | nil =>
      intro _ depth i
      rw [Style.members, Style.members]
  | hole _ ih =>
      intro hm depth i
      rw [members_hole, members_hole, ih hm depth (i + 1)]
  | @node m k as bs cs ds f g values lines below _ ihc ihr =>
      rintro rfl depth i
      by_cases hk : k = .decoration
      · subst hk
        rw [members_decoration, members_decoration, ihr rfl depth (i + 1)]
      · have hn := node_of_members style values lines below
          (by rintro rfl depth; exact ihc rfl rfl depth 0) true depth
        rw [members_node _ hk, members_node _ hk, hn, ihr rfl depth (i + 1)]

theorem items (h : Alike s t m f g) :
    m = .free → ∀ i, (style.through s).items i f = (style.through t).items i g := by
  induction h with
  | nil =>
      intro _ i
      rfl
  | hole _ ih =>
      intro hm i
      rw [items_cons, items_cons, ih hm (i + 1), Style.node, Style.node]
  | @node m k as bs cs ds f g values lines below _ _ ihr =>
      rintro rfl i
      have hn := node_of_members style values lines below
        (by rintro rfl depth; exact (below rfl).members style rfl depth 0) false 0
      rw [items_cons, items_cons, hn, ihr rfl (i + 1)]

/-- Forests that agree in all that is read are rendered the same, text or violation. -/
theorem render (h : Alike s t .free f g) :
    (style.through s).render f = (style.through t).render g := by
  rw [Style.render, Style.render, h.items style rfl]
  rfl

end Alike

end DeclGen
