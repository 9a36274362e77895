import DeclGen.Proofs.Render.Tally

/-!
# Where statements end

In Rust only declarations at the top level end in a semicolon: the members of a struct, however
deep, are separated like fields. In C and C++ the members end like statements, and so do blocks. So
the semicolons of rendered text can be told from the forest, and there are no others.
-/

namespace DeclGen

open Text

/-- Whether a node is a function, a function pointer, or a variable with a type. -/
def Substitution.declares (s : Substitution) (n : Node) : Bool :=
  n.kind?.any Kind.isCallable || (n.kind? == some .var && s.isTyped n)

/-- Whether a node is rendered as a block. -/
def Node.isBlock (n : Node) : Bool :=
  n.kind? == some .enumeration || n.kind? == some .struct || n.kind? == some .flagSet

section Semicolons

variable {style : Style} {l : Lang} (hl : style.dialect = l.dialect)
include hl

theorem marks_semicolon (hfill : style.format.fill ≠ ';') : style.Marks semicolon where
  mark := .inl rfl
  adds := by
    rw [hl]
    cases l with
    | cpp => exact Dialect.adds_cpp
    | rust => exact Dialect.adds_rust (.inl rfl)
  fill := hfill

/-- Neither a generic type nor a result has semicolons. -/
theorem signatureMarks_semicolon (place : Place) (k : Kind) (as : List Attr) :
    style.signatureMarks semicolon place k as = 0 := by
  have harrow : (ofString " -> ").count semicolon = 0 := by decide
  have hclose : style.dialect.genericClose.count semicolon = 0 := by
    rw [hl]
    cases l <;> decide
  rw [Style.signatureMarks, Style.genericMarks, harrow, hclose, ite_self, ite_self]

/-- Declarations have the semicolons of their ending, and blocks those of their closer. -/
theorem nodeMarks_semicolon (place : Place) (n : Node) :
    style.nodeMarks semicolon place n =
      (if style.substitution.declares n then (style.ending place).count semicolon else 0) +
        if n.isBlock then l.dialect.flagsClose.count semicolon else 0 := by
  have hclose : style.dialect.genericClose.count semicolon = 0 := by
    rw [hl]
    cases l <;> decide
  have hpointers (ns : List Node) : (ns.map (style.pointerMarks semicolon)).sum = 0 := by
    rw [List.sum_eq_zero_iff_forall_eq_nat]
    simp [Style.pointerMarks, signatureMarks_semicolon hl]
  have hblock (kind : Block) : (style.dialect.blockClose kind).count semicolon =
      l.dialect.flagsClose.count semicolon := by
    rw [hl]
    cases l <;> rfl
  cases n with
  | hole => rfl
  | node k as cs =>
      cases k with
      | unknown => rfl
      | decoration => rfl
      | var =>
          have hget : style.substitution.read as .type = style.get as .type := rfl
          rw [Style.nodeMarks, Style.genericMarks, hclose, ite_self, ite_self, Nat.zero_add]
          simp [Substitution.declares, Substitution.isTyped, Node.isBlock, Node.kind?, Node.attrs,
            Kind.isCallable, hget]
      | function =>
          rw [Style.nodeMarks, signatureMarks_semicolon hl, hpointers]
          simp [Substitution.declares, Node.isBlock, Node.kind?, Kind.isCallable]
      | functionPointer =>
          rw [Style.nodeMarks, signatureMarks_semicolon hl, hpointers]
          simp [Substitution.declares, Node.isBlock, Node.kind?, Kind.isCallable]
      | enumeration => exact (hblock .enumeration).trans (Nat.zero_add _).symm
      | struct => exact (hblock .struct).trans (Nat.zero_add _).symm
      | flagSet =>
          rw [Style.nodeMarks, hl]
          exact (Nat.zero_add _).symm

end Semicolons

section Languages

variable {style : Style}

/-- In Rust fields are separated and blocks closed without semicolons. -/
theorem nodeMarks_rust (hl : style.dialect = Lang.rust.dialect) (n : Node) :
    style.nodeMarks semicolon .statement n = (if style.substitution.declares n then 1 else 0) ∧
      style.nodeMarks semicolon .member n = 0 := by
  have hclose : Lang.rust.dialect.flagsClose.count semicolon = 0 := by decide
  have hstatement : (style.ending .statement).count semicolon = 1 := by
    rw [Style.ending, hl]
    decide
  have hmember : (style.ending .member).count semicolon = 0 := by
    rw [Style.ending, hl]
    decide
  rw [nodeMarks_semicolon hl, nodeMarks_semicolon hl, hclose, hstatement, hmember, ite_self,
    ite_self]
  exact ⟨rfl, rfl⟩

/-- In C and C++ members end like statements, and blocks end in a semicolon too. -/
theorem nodeMarks_cpp (hl : style.dialect = Lang.cpp.dialect) (isMember : Bool) (n : Node) :
    style.nodeMarks semicolon (Place.ofMember isMember) n =
      (if style.substitution.declares n then 1 else 0) + if n.isBlock then 1 else 0 := by
  have hclose : Lang.cpp.dialect.flagsClose.count semicolon = 1 := by decide
  have hending : (style.ending (Place.ofMember isMember)).count semicolon = 1 := by
    cases isMember with
    | false =>
        rw [Place.ofMember_false, Style.ending, hl]
        decide
    | true =>
        rw [Place.ofMember_true, Style.ending, hl]
        decide
  rw [nodeMarks_semicolon hl, hclose, hending]

end Languages

section Structs

variable {s : Substitution} {good : Text → Prop} {f : Forest}

theorem Substitution.gives_append {g : Forest} :
    s.Gives good (f ++ g) ↔ s.Gives good f ∧ s.Gives good g := by
  induction f with
  | nil => simp [Gives, values, Node.preorderList]
  | cons n rest ih =>
      cases n with
      | hole => rw [List.cons_append, gives_hole, gives_hole, ih]
      | node k as cs => rw [List.cons_append, gives_node, gives_node, ih, and_assoc, and_assoc]

/-- The values of members of structs are values of the forest. -/
theorem Substitution.Gives.structMembers (hf : s.Gives good f) :
    s.Gives good f.structMembers := by
  refine hf.induction (motive := fun f => s.Gives good f.structMembers) ?_ ?_ ?_
  · simp [Gives, values, Forest.structMembers, Node.preorderList]
  · intro rest ih
    simpa [Forest.structMembers, Node.structMembers] using ih
  · intro k as cs rest _ hcs ihc ihr
    rw [Forest.structMembers, gives_append]
    refine ⟨?_, ihr⟩
    by_cases hk : k = .struct
    · subst hk
      rw [Node.structMembers, gives_append]
      exact ⟨hcs, ihc⟩
    · rw [Node.structMembers_of_ne hk]
      simp [Gives, values, Node.preorderList]

theorem Substitution.Gives.node_of_mem (hf : s.Gives good f) {k : Kind} {as : List Attr}
    {cs : List Node} (hn : .node k as cs ∈ f) : s.GivesAttrs good as ∧ s.Gives good cs := by
  obtain ⟨before, after, rfl⟩ := List.append_of_mem hn
  obtain ⟨has, hcs, -⟩ := gives_node.mp (gives_append.mp hf).2
  exact ⟨has, hcs⟩

/-- A struct has the marks of its end, and those of its members and of all structs below. -/
theorem count_struct {style : Style} {b : UInt8} (hs : style.Marks b)
    (hf : style.substitution.Gives (b ∉ ·) f) {as : List Attr} {cs : List Node}
    (hn : .node .struct as cs ∈ f ++ f.structMembers) {isMember : Bool} {depth : Nat} {t : Text}
    (ht : style.node isMember depth (.node .struct as cs) = .ok t) :
    t.count b = style.nodeMarks b (Place.ofMember isMember) (.node .struct as cs) +
      ((cs ++ Forest.structMembers cs).map (style.nodeMarks b .member)).sum := by
  obtain ⟨has, hcs⟩ := (Substitution.gives_append.mpr ⟨hf, hf.structMembers⟩).node_of_mem hn
  rw [count_node_of_members hs has hcs (count_members hs hcs) ht, Node.structMembers]

end Structs

section Rendering

/-- No member of a struct has a semicolon in Rust. -/
theorem sum_nodeMarks_member {style : Style} (hl : style.dialect = Lang.rust.dialect)
    (ns : List Node) : (ns.map (style.nodeMarks semicolon .member)).sum = 0 := by
  rw [List.sum_eq_zero_iff_forall_eq_nat]
  intro x hx
  obtain ⟨n, -, rfl⟩ := List.mem_map.mp hx
  exact (nodeMarks_rust hl n).2

variable (style : Style) (hfill : style.format.fill ≠ ';') {f : Forest}
  (hf : style.substitution.Gives (semicolon ∉ ·) f) {t : Text}
include hfill hf

theorem count_semicolon_rust (hl : style.dialect = Lang.rust.dialect)
    (ht : style.render f = .ok t) : t.count semicolon = f.countP style.substitution.declares := by
  have hstatements : (f.map (style.nodeMarks semicolon .statement)).sum =
      f.countP style.substitution.declares + f.countP fun _ => false :=
    sum_map_eq_countP_add fun n _ => (nodeMarks_rust hl n).1
  rw [count_render (marks_semicolon hl hfill) hf ht, hstatements, sum_nodeMarks_member hl]
  simp

theorem not_mem_struct_rust (hl : style.dialect = Lang.rust.dialect) {as : List Attr}
    {cs : List Node} (hn : .node .struct as cs ∈ f ++ f.structMembers) {isMember : Bool}
    {depth : Nat} (ht : style.node isMember depth (.node .struct as cs) = .ok t) :
    semicolon ∉ t := by
  rw [← List.count_eq_zero, count_struct (marks_semicolon hl hfill) hf hn ht,
    sum_nodeMarks_member hl, Style.nodeMarks, hl]
  decide

theorem count_semicolon_cpp (hl : style.dialect = Lang.cpp.dialect) (ht : style.render f = .ok t) :
    t.count semicolon = (f ++ f.structMembers).countP style.substitution.declares +
      (f ++ f.structMembers).countP Node.isBlock := by
  have hstatements := sum_map_eq_countP_add (l := f) fun n _ => nodeMarks_cpp hl false n
  have hmembers := sum_map_eq_countP_add (l := f.structMembers) fun n _ => nodeMarks_cpp hl true n
  rw [count_render (marks_semicolon hl hfill) hf ht, List.countP_append, List.countP_append]
  rw [Place.ofMember_false] at hstatements
  rw [Place.ofMember_true] at hmembers
  omega

end Rendering

/-- The semicolons of rendered text, where no value has any. In Rust there is one for each function,
function pointer and typed variable at the top level, and none in a struct. In C and C++ there is
one for each of these at the top level and among the members of structs, and one for each block. -/
theorem count_terminators (format : Format) (hfill : format.fill ≠ ';') (s : Substitution)
    (f : Forest) (hf : ∀ v ∈ s.values f, semicolon ∉ v) :
    (∀ t, ({ dialect := Lang.rust.dialect, format, substitution := s } : Style).render f = .ok t →
      t.count semicolon = f.countP s.declares) ∧
    (∀ isMember depth as cs t, .node .struct as cs ∈ f ++ f.structMembers →
      ({ dialect := Lang.rust.dialect, format, substitution := s } : Style).node isMember depth
        (.node .struct as cs) = .ok t → semicolon ∉ t) ∧
    ∀ t, ({ dialect := Lang.cpp.dialect, format, substitution := s } : Style).render f = .ok t →
      t.count semicolon =
        (f ++ f.structMembers).countP s.declares + (f ++ f.structMembers).countP Node.isBlock := by
  refine ⟨fun t ht => ?_, fun isMember depth as cs t hn ht => ?_, fun t ht => ?_⟩
  · exact count_semicolon_rust { dialect := Lang.rust.dialect, format, substitution := s } hfill hf
      rfl ht
  · exact not_mem_struct_rust { dialect := Lang.rust.dialect, format, substitution := s } hfill hf
      rfl hn ht
  · exact count_semicolon_cpp { dialect := Lang.cpp.dialect, format, substitution := s } hfill hf
      rfl ht

/-- A struct with a function, an untyped variable, and a struct with an enumeration inside; then two
declarations at the top level, one with a function pointer as a parameter. -/
def deepMembers : Forest :=
  [.node .struct [⟨.name, ofString "S"⟩]
      [.node .function [⟨.name, ofString "f"⟩] [], .node .var [⟨.name, ofString "skipped"⟩] [],
        .node .struct [] [.node .var [⟨.name, ofString "a"⟩, ⟨.type, ofString "T"⟩] [],
          .node .enumeration [] [.node .var [⟨.name, ofString "A"⟩] []]]],
    .node .var [⟨.name, ofString "b"⟩, ⟨.type, ofString "Vec<T>"⟩] [],
    .node .functionPointer [⟨.name, ofString "g"⟩] [.node .functionPointer [] []]]

theorem deepMembers_terminators :
    ∃ t u, ({ dialect := Lang.rust.dialect } : Style).render deepMembers = .ok t ∧
      ({ dialect := Lang.cpp.dialect } : Style).render deepMembers = .ok u ∧
      t.count semicolon = 2 ∧ u.count semicolon = 7 := by
  obtain ⟨hrust, -, hcpp⟩ := count_terminators {} (by decide) {} deepMembers (by decide +kernel)
  obtain ⟨t, ht⟩ : ∃ t, ({ dialect := Lang.rust.dialect } : Style).render deepMembers = .ok t :=
    ⟨_, rfl⟩
  obtain ⟨u, hu⟩ : ∃ u, ({ dialect := Lang.cpp.dialect } : Style).render deepMembers = .ok u :=
    ⟨_, rfl⟩
  exact ⟨t, u, ht, hu, (hrust t ht).trans (by decide), (hcpp u hu).trans (by decide)⟩

end DeclGen
