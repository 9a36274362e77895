import DeclGen.Proofs.Tree.Checking
import DeclGen.Render.Layout

/-!
# One step of rendering

Rendering goes through lists of trees from left to right. This module says, for each of the lists
that are rendered, what one declaration adds to the outcome, so that later statements about whole
forests follow the shape of the list and not the text of the renderer.
-/

namespace DeclGen

variable (style : Style)

theorem decorations_node (depth : Nat) (k : Kind) (as : List Attr) (cs rest : List Node) :
    style.decorations depth (.node k as cs :: rest) =
      (if k = .decoration then style.decoration depth as else []) ++
        style.decorations depth rest := by
  cases k <;> rfl

theorem enumEntries_node (depth : Nat) (k : Kind) (as : List Attr) (cs rest : List Node) :
    style.enumEntries depth (.node k as cs :: rest) =
      (if k = .var then
        style.line depth (style.entry (style.get as .name) as ++ Text.ofString ",") else []) ++
        style.enumEntries depth rest := by
  cases k <;> rfl

theorem flagEntries_node (depth : Nat) (k : Kind) (as : List Attr) (cs rest : List Node) :
    style.flagEntries depth (.node k as cs :: rest) =
      (if k = .var then
        style.line depth (style.dialect.flagsEntryStart
          ++ style.entry (style.get as .name).upper as ++ Text.ofString ",") else []) ++
        style.flagEntries depth rest := by
  cases k <;> rfl

theorem members_hole (depth i : Nat) (rest : List Node) :
    style.members depth i (.hole :: rest) = style.members depth (i + 1) rest := by
  rw [Style.members, Style.node]
  · cases style.members depth (i + 1) rest <;> rfl
  · simp

theorem members_decoration (depth i : Nat) (as : List Attr) (cs rest : List Node) :
    style.members depth i (.node .decoration as cs :: rest) =
      style.members depth (i + 1) rest := by
  rw [Style.members]

theorem members_node {k : Kind} (hk : k ≠ .decoration) (depth i : Nat) (as : List Attr)
    (cs rest : List Node) :
    style.members depth i (.node k as cs :: rest) = (do
      let own ← Style.atChild i (style.node true depth (.node k as cs))
      let others ← style.members depth (i + 1) rest
      return own ++ others) := by
  rw [Style.members]
  simp [hk]

theorem params_refused {fn k : Kind} {m : Mismatch} (hk : fn.checkChild k = some m)
    (depth i : Nat) (as : List Attr) (cs rest : List Node) :
    style.params depth fn i (.node k as cs :: rest) = .error (m.atChild i) := by
  unfold Style.params
  simp only [hk]
  rfl

theorem params_var {fn : Kind} (h : fn.isCallable = true) (depth i : Nat) (as : List Attr)
    (cs rest : List Node) :
    style.params depth fn i (.node .var as cs :: rest) =
      match checkParamsFrom fn 0 cs with
      | some v => .error (v.under i)
      | none => do
        let inner ← Style.atChild i (style.nested depth 0 cs)
        let others ← style.params depth fn (i + 1) rest
        return inner ++ style.ownParam as ++ others := by
  rcases (Kind.isCallable_iff fn).mp h with rfl | rfl
  · rw [Style.params]
    rfl
  · rw [Style.params]
    rfl

theorem params_pointer {fn : Kind} (h : fn.isCallable = true) (depth i : Nat) (as : List Attr)
    (cs rest : List Node) :
    style.params depth fn i (.node .functionPointer as cs :: rest) = (do
      let own ← Style.atChild i (style.signature .parameter depth (.node .functionPointer as cs))
      let others ← style.params depth fn (i + 1) rest
      return own :: others) := by
  rcases (Kind.isCallable_iff fn).mp h with rfl | rfl
  · rw [Style.params]
    rfl
  · rw [Style.params]
    rfl

theorem nested_pointer (depth i : Nat) (as : List Attr) (cs rest : List Node) :
    style.nested depth i (.node .functionPointer as cs :: rest) = (do
      let own ← Style.atChild i (style.signature .parameter depth (.node .functionPointer as cs))
      let others ← style.nested depth (i + 1) rest
      return own :: others) := by
  rw [Style.nested]

theorem nested_other {n : Node} (hn : n.kind? ≠ some .functionPointer) (depth i : Nat)
    (rest : List Node) :
    style.nested depth i (n :: rest) = style.nested depth (i + 1) rest := by
  rw [Style.nested]
  rintro as cs rfl
  exact hn rfl

/-- A signature is its rendered parameters, finished in its place. -/
theorem signature_node (place : Place) (depth : Nat) (k : Kind) (as : List Attr)
    (cs : List Node) :
    style.signature place depth (.node k as cs) = (do
      let params ← style.params depth k 0 cs
      return style.finish place depth
        (style.declaration place k as (Style.joinParams cs.length params))) := by
  rw [Style.signature]

theorem node_callable {k : Kind} (h : k.isCallable = true) (isMember : Bool) (depth : Nat)
    (as : List Attr) (cs : List Node) :
    style.node isMember depth (.node k as cs) =
      style.signature (if isMember then .member else .statement) depth (.node k as cs) := by
  rcases (Kind.isCallable_iff k).mp h with rfl | rfl
  · rw [Style.node]
  · rw [Style.node]

theorem node_struct (isMember : Bool) (depth : Nat) (as : List Attr) (cs : List Node) :
    style.node isMember depth (.node .struct as cs) = (do
      let body ← style.members (depth + 1) 0 cs
      return style.block .struct depth as cs body) := by
  rw [Style.node]

theorem items_cons (i : Nat) (n : Node) (rest : Forest) :
    style.items i (n :: rest) = (do
      let own ← Style.atChild i (style.node false 0 n)
      let others ← style.items (i + 1) rest
      return own ++ others) := by
  rw [Style.items]

end DeclGen
