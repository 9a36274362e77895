import DeclGen.Proofs.Render.Tally
import DeclGen.Proofs.Text.Search

/-!
# Generic types are closed once

A qualifier that opens a generic type is closed by the renderer, around a variable at the top level
and around a function wherever it stands, also deep inside a parameter list. Members of structs and
parameters leave the qualifiers of variables out. In Rust the only other closing markers are those
of the arrows before results, so each closing marker can be told from the forest.
-/

namespace DeclGen

open Text

/-- The byte that opens a generic type. -/
def Text.opener : UInt8 := 60

namespace Substitution

variable (s : Substitution)

/-- The qualifier of a node as it is replaced, with the defaults where there is none. -/
def qualifier : Node → Text
  | .node .var as _ => ((Attr.lookup? .qualifier as).map s.resolve).getD (ofString "const")
  | .node .functionPointer as _ =>
    if (s.read as .qualifier).isEmpty then ofString "extern" else s.read as .qualifier
  | n => s.read n.attrs .qualifier

/-- Whether the qualifier of a node opens a generic type. -/
def isGeneric (n : Node) : Bool := (s.qualifier n).contains opener

end Substitution

/-- The functions that are rendered for a node: itself, if it is one, and the function pointers
inside its parameter list. -/
def Node.functions : Node → List Node
  | .hole => []
  | .node k as cs => if k.isCallable then .node k as cs :: Forest.inlinePointers cs else []

/-- The functions that are rendered for a forest. -/
def Forest.functions (f : Forest) : List Node := (f ++ f.structMembers).flatMap Node.functions

/-- Only function pointers are written inside a parameter list. -/
theorem Forest.kind?_of_mem_inlinePointers (cs : List Node) :
    (∀ n ∈ inlinePointers cs, n.kind? = some .functionPointer) ∧
      ∀ n ∈ pointersInside cs, n.kind? = some .functionPointer := by
  induction cs using Forest.induction with
  | nil => exact ⟨by simp [inlinePointers], by simp [pointersInside]⟩
  | hole rest ih =>
      rw [inlinePointers, pointersInside_of_ne (by simp [Node.kind?]), Node.inlinePointers]
      · exact ih
      · simp
      · simp
  | node k as cs rest ihc ihr =>
      have hpointer : ∀ n ∈ (Node.node .functionPointer as cs).inlinePointers,
          n.kind? = some .functionPointer := by
        rw [Node.inlinePointers, List.forall_mem_cons]
        exact ⟨rfl, ihc.1⟩
      rw [inlinePointers, List.forall_mem_append]
      by_cases hk : k = .functionPointer
      · subst hk
        rw [pointersInside, List.forall_mem_append]
        exact ⟨⟨hpointer, ihr.1⟩, hpointer, ihr.2⟩
      · rw [pointersInside_of_ne (by simpa [Node.kind?] using hk)]
        refine ⟨⟨?_, ihr.1⟩, ihr.2⟩
        by_cases hv : k = .var
        · subst hv
          rw [Node.inlinePointers]
          exact ihc.2
        · rw [Node.inlinePointers]
          · simp
          · simpa using hk
          · simpa using hv

section Rust

variable {style : Style} (hl : style.dialect = Dialect.rust)
include hl

theorem marks_closer (hfill : style.format.fill ≠ '>') : style.Marks closer where
  mark := .inr rfl
  adds := hl ▸ Dialect.adds_rust (.inr rfl)
  fill := hfill

theorem genericMarks_closer (q : Text) :
    style.genericMarks closer q = if q.contains opener then 1 else 0 := by
  have hopens : style.isGeneric q = q.contains opener := by
    have hopen : ofString "<" = [opener] := by decide
    rw [Bool.eq_iff_iff, Style.isGeneric, hl, Dialect.rust, hasPart_iff, hopen,
      List.singleton_infix_iff, List.contains_iff_mem]
  have hclose : style.dialect.genericClose.count closer = 1 := by
    rw [hl]
    decide
  rw [Style.genericMarks, hopens, hclose]

/-- A function type has an arrow if it has a result, and it is closed if it is generic. -/
theorem signatureMarks_closer (place : Place) {k : Kind} (hk : k.isCallable = true)
    (as : List Attr) (cs : List Node) :
    style.signatureMarks closer place k as =
      (if style.substitution.isTyped (.node k as cs) then 1 else 0) +
        if style.substitution.isGeneric (.node k as cs) then 1 else 0 := by
  have harrow : (ofString " -> ").count closer = 1 := by decide
  have hqualifier : style.funcQualifier place k as =
      style.substitution.qualifier (.node k as cs) := by
    rcases (Kind.isCallable_iff k).mp hk with rfl | rfl
    · rfl
    · rw [Style.funcQualifier, hl]
      rfl
  have htyped : style.substitution.isTyped (.node k as cs) = !(style.get as .type).isEmpty := rfl
  rw [Style.signatureMarks, genericMarks_closer hl, hqualifier, harrow, htyped,
    Substitution.isGeneric, Nat.add_comm]
  cases (style.get as .type).isEmpty <;> rfl

/-- A function has the closing markers of all functions that are rendered for it. -/
theorem sum_functions_closer (place : Place) {k : Kind} (hk : k.isCallable = true) (as : List Attr)
    (cs : List Node) :
    style.signatureMarks closer place k as +
        ((Forest.inlinePointers cs).map (style.pointerMarks closer)).sum =
      (Node.node k as cs).functions.countP style.substitution.isTyped +
        (Node.node k as cs).functions.countP style.substitution.isGeneric := by
  have hpointer : ∀ n ∈ Forest.inlinePointers cs, style.pointerMarks closer n =
      (if style.substitution.isTyped n then 1 else 0) +
        if style.substitution.isGeneric n then 1 else 0 := by
    intro n hn
    have hkind := (Forest.kind?_of_mem_inlinePointers cs).1 n hn
    rcases n with _ | ⟨k, as, ds⟩
    · cases hkind
    · cases hkind
      exact signatureMarks_closer hl .parameter rfl as ds
  rw [Node.functions, if_pos hk, List.countP_cons, List.countP_cons,
    sum_map_eq_countP_add hpointer, signatureMarks_closer hl place hk as cs]
  omega

/-- The closing markers of a node: those of its functions, and that of a generic variable at the top
level. -/
theorem nodeMarks_closer (isMember : Bool) (n : Node) :
    style.nodeMarks closer (Place.ofMember isMember) n =
      n.functions.countP style.substitution.isTyped +
        n.functions.countP style.substitution.isGeneric +
        if !isMember && (n.kind? == some .var && style.substitution.isTyped n &&
          style.substitution.isGeneric n) then 1 else 0 := by
  have hending : (style.ending (Place.ofMember isMember)).count closer = 0 := by
    cases isMember with
    | false =>
        rw [Place.ofMember_false, Style.ending, hl]
        decide
    | true =>
        rw [Place.ofMember_true, Style.ending, hl]
        decide
  have hblock (kind : Block) : (style.dialect.blockClose kind).count closer = 0 := by
    rw [hl]
    cases kind <;> decide
  have hflags : style.dialect.flagsClose.count closer = 0 := by
    rw [hl]
    decide
  cases n with
  | hole => simp [Style.nodeMarks, Node.functions, Node.kind?]
  | node k as cs =>
      have hcall (hk : k.isCallable = true) :
          style.signatureMarks closer (Place.ofMember isMember) k as +
              ((Forest.inlinePointers cs).map (style.pointerMarks closer)).sum +
              (style.ending (Place.ofMember isMember)).count closer =
            (Node.node k as cs).functions.countP style.substitution.isTyped +
              (Node.node k as cs).functions.countP style.substitution.isGeneric +
              if !isMember && ((Node.node k as cs).kind? == some .var &&
                style.substitution.isTyped (.node k as cs) &&
                style.substitution.isGeneric (.node k as cs)) then 1 else 0 := by
        have hvar : ((Node.node k as cs).kind? == some .var) = false := by
          rcases (Kind.isCallable_iff k).mp hk with rfl | rfl <;> rfl
        rw [hending, sum_functions_closer hl _ hk, hvar]
        simp
      cases k with
      | unknown => simp [Style.nodeMarks, Node.functions, Node.kind?, Kind.isCallable]
      | decoration => simp [Style.nodeMarks, Node.functions, Node.kind?, Kind.isCallable]
      | var =>
          have htyped : style.substitution.isTyped (.node .var as cs) =
              !(style.get as .type).isEmpty := rfl
          have hgeneric : (style.varQualifier as).contains opener =
            style.substitution.isGeneric (.node .var as cs) := rfl
          rw [Style.nodeMarks, hending, genericMarks_closer hl, htyped, hgeneric]
          cases (style.get as .type).isEmpty <;> cases isMember <;>
            simp [Node.functions, Node.kind?, Kind.isCallable]
      | function => exact hcall rfl
      | functionPointer => exact hcall rfl
      | enumeration => simp [Style.nodeMarks, hblock, Node.functions, Node.kind?, Kind.isCallable]
      | struct => simp [Style.nodeMarks, hblock, Node.functions, Node.kind?, Kind.isCallable]
      | flagSet => simp [Style.nodeMarks, hflags, Node.functions, Node.kind?, Kind.isCallable]

/-- The closing markers of several nodes, at the top level or among the members of structs. -/
theorem sum_nodeMarks_closer (isMember : Bool) (ns : List Node) :
    (ns.map (style.nodeMarks closer (Place.ofMember isMember))).sum =
      (ns.flatMap Node.functions).countP style.substitution.isTyped +
        (ns.flatMap Node.functions).countP style.substitution.isGeneric +
        if isMember then 0 else ns.countP fun n => n.kind? == some .var &&
          style.substitution.isTyped n && style.substitution.isGeneric n := by
  induction ns with
  | nil => cases isMember <;> rfl
  | cons n rest ih =>
      rw [List.map_cons, List.sum_cons, nodeMarks_closer hl, ih, List.flatMap_cons,
        List.countP_append, List.countP_append, List.countP_cons]
      cases isMember with
      | false =>
          simp only [Bool.not_false, Bool.true_and, Bool.false_eq_true, if_false]
          omega
      | true =>
          simp only [Bool.not_true, Bool.false_and, Bool.false_eq_true, if_false, if_true]
          omega

theorem count_closer_rust (hfill : style.format.fill ≠ '>') {f : Forest}
    (hf : style.substitution.Gives (closer ∉ ·) f) {t : Text} (ht : style.render f = .ok t) :
    t.count closer = f.functions.countP style.substitution.isTyped +
      (f.functions.countP style.substitution.isGeneric +
        f.countP fun n => n.kind? == some .var && style.substitution.isTyped n &&
          style.substitution.isGeneric n) := by
  have hstatements := sum_nodeMarks_closer hl false f
  have hmembers := sum_nodeMarks_closer hl true f.structMembers
  rw [Place.ofMember_false, if_neg (by decide)] at hstatements
  rw [Place.ofMember_true, if_pos rfl] at hmembers
  rw [count_render (marks_closer hl hfill) hf ht, hstatements, hmembers, Forest.functions,
    List.flatMap_append, List.countP_append, List.countP_append]
  omega

end Rust

/-- The closing markers of text rendered in Rust, where no value has any: an arrow for each rendered
function with a result, and one marker for each rendered function and each typed variable at the top
level whose qualifier opens a generic type. -/
theorem count_closers (format : Format) (hfill : format.fill ≠ '>') (s : Substitution) (f : Forest)
    (hf : ∀ v ∈ s.values f, closer ∉ v) {t : Text}
    (ht : ({ dialect := .rust, format, substitution := s } : Style).render f = .ok t) :
    t.count closer = f.functions.countP s.isTyped + (f.functions.countP s.isGeneric +
      f.countP fun n => n.kind? == some .var && s.isTyped n && s.isGeneric n) := by
  have hl : ({ dialect := .rust, format, substitution := s } : Style).dialect = .rust := rfl
  exact count_closer_rust hl hfill hf ht

/-- A generic variable, and a struct whose member has a generic function pointer inside a parameter,
with a result; the generic variable among the members and the one that is a parameter do not
count. -/
def genericPointers : Forest :=
  [.node .var [⟨.name, ofString "v"⟩, ⟨.type, ofString "T"⟩, ⟨.qualifier, ofString "Box<"⟩] [],
    .node .struct []
      [.node .var [⟨.type, ofString "T"⟩, ⟨.qualifier, ofString "Rc<"⟩] [],
        .node .function [⟨.name, ofString "f"⟩]
          [.node .var [⟨.type, ofString "T"⟩, ⟨.qualifier, ofString "Rc<"⟩]
            [.node .functionPointer [⟨.type, ofString "T"⟩, ⟨.qualifier, ofString "Option<Box<"⟩]
              []]]]]

theorem genericPointers_closed :
    ∃ t, ({ dialect := .rust } : Style).render genericPointers = .ok t ∧
      t.lines[5]? = some (ofString "    f: fn(Option<Box<fn() -> T>T),") ∧ t.count closer = 3 := by
  have hline : (({ dialect := .rust } : Style).render genericPointers).toOption.bind
      (·.lines[5]?) = some (ofString "    f: fn(Option<Box<fn() -> T>T),") := by
    decide +kernel
  obtain ⟨t, ht⟩ : ∃ t, ({ dialect := .rust } : Style).render genericPointers = .ok t := ⟨_, rfl⟩
  have hcount := count_closers {} (by decide) {} genericPointers (by decide +kernel) ht
  rw [ht] at hline
  exact ⟨t, ht, hline, hcount.trans (by decide)⟩

end DeclGen
