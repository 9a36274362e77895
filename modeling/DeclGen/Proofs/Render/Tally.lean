import DeclGen.Proofs.Render.Arrangement
import DeclGen.Proofs.Render.Marks

/-!
# The marks of a forest

The marks of rendered text can be counted on the forest, without rendering it. Each node that is
rendered on its own has the marks of its kind, its place, its type and its qualifier, and all of
them together have those of the text.

## Implementation notes

Nodes that are rendered on their own are of three sorts: the trees of the forest, the members of
structs (`Forest.structMembers`), and the function pointers that are written inside a parameter list
(`Forest.inlinePointers`). The marks of the last sort are part of those of the function.
-/

namespace DeclGen

open Text

section Reached

mutual

/-- The function pointers that a child of a function puts into its parameter list: a pointer, with
those inside its own parameter list, or the pointers among the children of a variable. -/
def Node.inlinePointers : Node → List Node
  | .node .functionPointer as cs => .node .functionPointer as cs :: Forest.inlinePointers cs
  | .node .var _ cs => Forest.pointersInside cs
  | _ => []

/-- The function pointers inside the parameter list of a function with the given children. -/
def Forest.inlinePointers : List Node → List Node
  | [] => []
  | n :: rest => n.inlinePointers ++ Forest.inlinePointers rest

/-- The function pointers that the children of a variable put into a parameter list. -/
def Forest.pointersInside : List Node → List Node
  | [] => []
  | .node .functionPointer as cs :: rest =>
    Node.inlinePointers (.node .functionPointer as cs) ++ Forest.pointersInside rest
  | _ :: rest => Forest.pointersInside rest

end

mutual

/-- The members of a struct, and those of the structs among them, at any depth. -/
def Node.structMembers : Node → List Node
  | .node .struct _ cs => cs ++ Forest.structMembers cs
  | _ => []

/-- The members of the structs of a forest, and those of the structs among them, at any depth. -/
def Forest.structMembers : Forest → List Node
  | [] => []
  | n :: rest => n.structMembers ++ Forest.structMembers rest

end

theorem Node.structMembers_of_ne {k : Kind} (hk : k ≠ .struct) (as : List Attr) (cs : List Node) :
    (Node.node k as cs).structMembers = [] := by
  rw [structMembers]
  simpa using hk

theorem Forest.pointersInside_of_ne {n : Node} (hn : n.kind? ≠ some .functionPointer)
    (rest : List Node) : pointersInside (n :: rest) = pointersInside rest := by
  rw [pointersInside]
  rintro as cs rfl
  exact hn rfl

/-- Whether a node has a type, as it is replaced. -/
def Substitution.isTyped (s : Substitution) (n : Node) : Bool := !(s.read n.attrs .type).isEmpty

end Reached

section Weights

/-- The place of a declaration that is rendered on its own. -/
def Place.ofMember (isMember : Bool) : Place := if isMember then .member else .statement

@[simp]
theorem Place.ofMember_true : ofMember true = .member := rfl

@[simp]
theorem Place.ofMember_false : ofMember false = .statement := rfl

namespace Style

variable (style : Style) (b : UInt8)

/-- What ends a declaration in its place. -/
def ending : Place → Text
  | .parameter => []
  | .member => style.dialect.fieldSeparator
  | .statement => style.dialect.terminator

/-- The marks behind a generic type. -/
def genericMarks (qualifier : Text) : Nat :=
  if style.isGeneric qualifier then style.dialect.genericClose.count b else 0

/-- The marks of a function type itself, without those of its parameters. -/
def signatureMarks (place : Place) (k : Kind) (as : List Attr) : Nat :=
  style.genericMarks b (style.funcQualifier place k as) +
    if (style.get as .type).isEmpty then 0 else (ofString " -> ").count b

/-- The marks of a function pointer inside a parameter list, without those of its parameters. -/
def pointerMarks (n : Node) : Nat := style.signatureMarks b .parameter .functionPointer n.attrs

/-- The marks of a node that is rendered on its own, without those of the members of a struct. -/
def nodeMarks (place : Place) : Node → Nat
  | .hole => 0
  | .node k as cs =>
    match k with
    | .var =>
      if (style.get as .type).isEmpty then 0
      else (if place = .statement then style.genericMarks b (style.varQualifier as) else 0) +
        (style.ending place).count b
    | .function | .functionPointer =>
      style.signatureMarks b place k as +
        ((Forest.inlinePointers cs).map (style.pointerMarks b)).sum + (style.ending place).count b
    | .enumeration => (style.dialect.blockClose .enumeration).count b
    | .struct => (style.dialect.blockClose .struct).count b
    | .flagSet => style.dialect.flagsClose.count b
    | .decoration | .unknown => 0

end Style

end Weights

section Counting

variable {style : Style} {b : UInt8} (hs : style.Marks b) {depth : Nat} {as : List Attr}
  {cs : List Node}
include hs

section Declarations

variable (has : style.substitution.GivesAttrs (b ∉ ·) as)
include has

theorem count_declaration (place : Place) (k : Kind) (params : Text) :
    (style.declaration place k as params).count b =
      params.count b + style.signatureMarks b place k as := by
  have hq := count_funcQualifier hs has place k
  rw [Style.declaration, Style.signatureMarks, Style.genericMarks]
  split
  · simp only [hs.adds.bind, List.count_append, hs.adds.funcType, count_get has, hq,
      List.count_nil]
    omega
  · simp only [hs.adds.funcType, count_get has, hq]
    omega

theorem count_topVar (depth : Nat) :
    (style.topVar depth as).count b =
      if (style.get as .type).isEmpty then 0
      else style.genericMarks b (style.varQualifier as) + style.dialect.terminator.count b := by
  have hq := count_varQualifier hs has
  have hbinding : (if style.isGeneric (style.varQualifier as) then
        style.dialect.bind (style.get as .name)
          (style.varQualifier as ++ style.get as .type ++ style.dialect.genericClose)
      else Dialect.qualified (style.varQualifier as)
        (style.dialect.bind (style.get as .name) (style.get as .type))).count b =
      style.genericMarks b (style.varQualifier as) := by
    rw [Style.genericMarks]
    split
    · simp only [hs.adds.bind, List.count_append, count_get has, hq, Nat.zero_add]
    · rw [Dialect.count_qualified hs.mark, hs.adds.bind, hq, count_get has, count_get has]
  rw [Style.topVar]
  split
  · rfl
  · rw [count_line hs, List.count_append, List.count_append, List.count_append, hs.adds.visibility,
      hbinding, count_initializer hs has]
    omega

theorem count_memberVar (depth : Nat) :
    (style.memberVar depth as).count b =
      if (style.get as .type).isEmpty then 0 else style.dialect.fieldSeparator.count b := by
  rw [Style.memberVar]
  split
  · rfl
  · rw [count_line hs, List.count_append, List.count_append, hs.adds.bind,
      count_initializer hs has, count_get has, count_get has]
    omega

theorem count_ownParam : ((style.ownParam as).map (·.count b)).sum = 0 := by
  rw [Style.ownParam]
  split
  · rfl
  · simp [hs.adds.bind, count_get has]

end Declarations

theorem count_finish (place : Place) (depth : Nat) (decl : Text) :
    (style.finish place depth decl).count b =
      decl.count b + (style.ending place).count b := by
  cases place with
  | parameter => rfl
  | member => rw [Style.finish, count_line hs, List.count_append, Style.ending]
  | statement =>
      rw [Style.finish, count_line hs, List.count_append, List.count_append, hs.adds.visibility,
        Style.ending]
      omega

theorem count_joinParams (n : Nat) (ps : List Text) :
    (Style.joinParams n ps).count b = (ps.map (·.count b)).sum := by
  apply count_join
  split
  · exact hs.mark.count_eq_zero (by decide)
  · rfl

/-- A rendered function has its own marks, those of its parameters, and those of its ending. -/
theorem count_signature {k : Kind} (has : style.substitution.GivesAttrs (b ∉ ·) as)
    {place : Place} {t : Text} (ht : style.signature place depth (.node k as cs) = .ok t) :
    ∃ ps, style.params depth k 0 cs = .ok ps ∧
      t.count b = style.signatureMarks b place k as + (ps.map (·.count b)).sum +
        (style.ending place).count b := by
  obtain ⟨ps, hps, rfl⟩ := signature_eq_ok_iff.mp ht
  refine ⟨ps, hps, ?_⟩
  rw [count_finish hs, count_declaration hs has, count_joinParams hs]
  omega

/-- The parameters of a function have the marks of the function pointers among them. Directly below
a function and inside a parameter this is one induction, because each goes on in the other. -/
theorem count_parameters (hcs : style.substitution.Gives (b ∉ ·) cs) :
    (∀ {depth fn i ps}, fn.isCallable = true → style.params depth fn i cs = .ok ps →
      (ps.map (·.count b)).sum =
        ((Forest.inlinePointers cs).map (style.pointerMarks b)).sum) ∧
    (∀ {depth i ps}, style.nested depth i cs = .ok ps →
      (ps.map (·.count b)).sum =
        ((Forest.pointersInside cs).map (style.pointerMarks b)).sum) := by
  induction cs using Forest.induction with
  | nil =>
      constructor
      · intro depth fn i ps _ h
        rw [Style.params] at h
        cases h
        rfl
      · intro depth i ps h
        rw [Style.nested] at h
        cases h
        rfl
  | hole rest ih =>
      have hrest := ih (Substitution.gives_hole.mp hcs)
      constructor
      · intro depth fn i ps hfn h
        rw [params_hole] at h
        rw [hrest.1 hfn h, Forest.inlinePointers, Node.inlinePointers]
        · rfl
        · simp
        · simp
      · intro depth i ps h
        rw [nested_other style (by simp [Node.kind?])] at h
        rw [hrest.2 h, Forest.pointersInside_of_ne (by simp [Node.kind?])]
  | node k as cs rest ihc ihr =>
      obtain ⟨has, hbelow, hrest⟩ := Substitution.gives_node.mp hcs
      have hpointer {depth : Nat} {own : Text}
          (h : style.signature .parameter depth (.node .functionPointer as cs) = .ok own) :
          own.count b =
            ((Node.node .functionPointer as cs).inlinePointers.map (style.pointerMarks b)).sum := by
        obtain ⟨ps, hps, hcount⟩ := count_signature hs has h
        rw [hcount, (ihc hbelow).1 rfl hps, Node.inlinePointers]
        rfl
      constructor
      · intro depth fn i ps hfn h
        rw [Forest.inlinePointers, List.map_append, List.sum_append]
        rcases kind_of_params_eq_ok hfn h with rfl | rfl
        · obtain ⟨-, inner, others, hinner, hothers, rfl⟩ := (params_var_eq_ok_iff hfn).mp h
          simp only [List.map_append, List.sum_append, count_ownParam hs has, Nat.add_zero,
            (ihc hbelow).2 hinner, (ihr hrest).1 hfn hothers, Node.inlinePointers]
        · obtain ⟨own, others, hown, hothers, rfl⟩ := (params_pointer_eq_ok_iff hfn).mp h
          rw [List.map_cons, List.sum_cons, hpointer hown, (ihr hrest).1 hfn hothers]
      · intro depth i ps h
        by_cases hk : k = .functionPointer
        · subst hk
          obtain ⟨own, others, hown, hothers, rfl⟩ := nested_pointer_eq_ok_iff.mp h
          rw [List.map_cons, List.sum_cons, hpointer hown, (ihr hrest).2 hothers,
            Forest.pointersInside, List.map_append, List.sum_append]
        · have hother : (Node.node k as cs).kind? ≠ some .functionPointer := by
            simpa [Node.kind?] using hk
          rw [nested_other style hother] at h
          rw [(ihr hrest).2 h, Forest.pointersInside_of_ne hother]

/-- A rendered declaration has its own marks, and those of the members of structs, if the members of
a struct have theirs. -/
theorem count_node_of_members {k : Kind} (has : style.substitution.GivesAttrs (b ∉ ·) as)
    (hcs : style.substitution.Gives (b ∉ ·) cs)
    (hm : ∀ {depth body}, style.members depth 0 cs = .ok body →
      body.count b = ((cs ++ Forest.structMembers cs).map (style.nodeMarks b .member)).sum)
    {isMember : Bool} {t : Text} (ht : style.node isMember depth (.node k as cs) = .ok t) :
    t.count b = style.nodeMarks b (Place.ofMember isMember) (.node k as cs) +
      ((Node.node k as cs).structMembers.map (style.nodeMarks b .member)).sum := by
  by_cases hstruct : k = .struct
  · subst hstruct
    rw [node_struct, Style.map_eq_ok_iff] at ht
    obtain ⟨body, hbody, rfl⟩ := ht
    rw [count_block hs has hcs, hm hbody, Nat.add_comm, Node.structMembers]
    rfl
  rw [Node.structMembers_of_ne hstruct, List.map_nil, List.sum_nil, Nat.add_zero]
  have hcall (hk : k.isCallable = true) : t.count b =
      style.signatureMarks b (Place.ofMember isMember) k as +
        ((Forest.inlinePointers cs).map (style.pointerMarks b)).sum +
        (style.ending (Place.ofMember isMember)).count b := by
    rw [node_callable style hk] at ht
    obtain ⟨ps, hps, hcount⟩ := count_signature hs has ht
    rw [hcount, (count_parameters hs hcs).1 hk hps]
    rfl
  cases k with
  | unknown =>
      rw [Style.node] at ht
      cases ht
      rfl
  | decoration =>
      rw [Style.node] at ht
      cases ht
      exact count_decoration hs has depth
  | var =>
      rw [Style.node] at ht
      cases ht
      cases isMember with
      | true =>
          refine (count_memberVar hs has depth).trans ?_
          simp [Style.nodeMarks, Style.ending]
      | false => exact count_topVar hs has depth
  | function => exact hcall rfl
  | functionPointer => exact hcall rfl
  | enumeration =>
      rw [Style.node] at ht
      obtain ⟨-, rfl⟩ := Style.checked_eq_ok_iff.mp ht
      rw [count_block hs has hcs, count_enumEntries hs hcs, Nat.zero_add]
      rfl
  | struct => exact absurd rfl hstruct
  | flagSet =>
      rw [Style.node] at ht
      exact count_flagSet hs has hcs ht

/-- The rendered members of a struct have the marks of the members and of all structs below. -/
theorem count_members (hcs : style.substitution.Gives (b ∉ ·) cs) :
    ∀ {depth i body}, style.members depth i cs = .ok body →
      body.count b = ((cs ++ Forest.structMembers cs).map (style.nodeMarks b .member)).sum := by
  induction cs using Forest.induction with
  | nil =>
      intro depth i body h
      rw [Style.members] at h
      cases h
      rfl
  | hole rest ih =>
      intro depth i body h
      rw [members_hole] at h
      rw [ih (Substitution.gives_hole.mp hcs) h]
      simp [Style.nodeMarks, Forest.structMembers, Node.structMembers]
  | node k as cs rest ihc ihr =>
      intro depth i body h
      obtain ⟨has, hbelow, hrest⟩ := Substitution.gives_node.mp hcs
      have hsum : ((.node k as cs :: rest ++ Forest.structMembers (.node k as cs :: rest)).map
          (style.nodeMarks b .member)).sum = style.nodeMarks b .member (.node k as cs) +
            ((Node.node k as cs).structMembers.map (style.nodeMarks b .member)).sum +
            ((rest ++ Forest.structMembers rest).map (style.nodeMarks b .member)).sum := by
        simp only [Forest.structMembers, List.cons_append, List.map_cons, List.sum_cons,
          List.map_append, List.sum_append]
        omega
      rw [hsum]
      by_cases hk : k = .decoration
      · subst hk
        rw [members_decoration] at h
        rw [ihr hrest h, Node.structMembers_of_ne (by simp)]
        simp [Style.nodeMarks]
      · rw [members_node style hk, Style.map₂_eq_ok_iff] at h
        obtain ⟨own, others, hown, hothers, rfl⟩ := h
        rw [List.count_append, ihr hrest hothers,
          count_node_of_members hs has hbelow (ihc hbelow) (Style.atChild_eq_ok_iff.mp hown)]
        rfl

theorem count_items {f : Forest} (hf : style.substitution.Gives (b ∉ ·) f) :
    ∀ {i body}, style.items i f = .ok body →
      body.count b = (f.map (style.nodeMarks b .statement)).sum +
        (f.structMembers.map (style.nodeMarks b .member)).sum := by
  induction f with
  | nil =>
      intro i body h
      cases h
      rfl
  | cons n rest ih =>
      intro i body h
      rw [items_cons, Style.map₂_eq_ok_iff] at h
      obtain ⟨own, others, hown, hothers, rfl⟩ := h
      rw [Style.atChild_eq_ok_iff] at hown
      have hnode : own.count b = style.nodeMarks b .statement n +
          (n.structMembers.map (style.nodeMarks b .member)).sum ∧
          style.substitution.Gives (b ∉ ·) rest := by
        cases n with
        | hole =>
            rw [Style.node] at hown
            cases hown
            exact ⟨by simp [Style.nodeMarks, Node.structMembers], Substitution.gives_hole.mp hf⟩
        | node k as cs =>
            obtain ⟨has, hbelow, hrest⟩ := Substitution.gives_node.mp hf
            exact ⟨count_node_of_members hs has hbelow (count_members hs hbelow) hown, hrest⟩
      rw [List.count_append, hnode.1, ih hnode.2 hothers, Forest.structMembers]
      simp only [List.map_cons, List.sum_cons, List.map_append, List.sum_append]
      omega

theorem count_comment {t : Text} (ht : t.count semicolon = 0 ∧ t.count closer = 0) :
    (style.comment t).count b = 0 := by
  have hblank := hs.mark.count_eq_zero (t := ofString " ") (by decide)
  have hend : newline.count b = 0 := hs.mark.count_eq_zero (by decide)
  simp only [Style.comment, List.count_append, hs.adds.lineComment, hblank, hend,
    hs.mark.count_eq_zero ht]

/-- Rendered text has the marks of the trees of the forest and of the members of structs. -/
theorem count_render {f : Forest} (hf : style.substitution.Gives (b ∉ ·) f) {t : Text}
    (ht : style.render f = .ok t) :
    t.count b = (f.map (style.nodeMarks b .statement)).sum +
      (f.structMembers.map (style.nodeMarks b .member)).sum := by
  rw [Style.render, Style.map_eq_ok_iff] at ht
  obtain ⟨body, hbody, rfl⟩ := ht
  rw [List.count_append, List.count_append, count_comment hs (by decide),
    count_comment hs (by decide), count_items hs hf hbody, Nat.zero_add, Nat.add_zero]

end Counting

/-- Each element of a list counts once for each of two properties that it has. -/
theorem sum_map_eq_countP_add {α : Type} {w : α → Nat} {p q : α → Bool} {l : List α}
    (h : ∀ a ∈ l, w a = (if p a then 1 else 0) + if q a then 1 else 0) :
    (l.map w).sum = l.countP p + l.countP q := by
  induction l with
  | nil => rfl
  | cons a rest ih =>
      obtain ⟨ha, hrest⟩ := List.forall_mem_cons.mp h
      rw [List.map_cons, List.sum_cons, ha, ih hrest, List.countP_cons, List.countP_cons]
      omega

end DeclGen
