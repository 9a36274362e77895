import DeclGen.Proofs.Render.Fragments
import DeclGen.Proofs.Render.Success
import Mathlib.Algebra.Ring.Nat

/-!
# Marks in rendered text

A mark is a byte that ends something: the semicolon behind a declaration, or the closing marker of a
generic type, which the arrow before a result has as well. Where no value holds a mark, all marks in
rendered text come from the dialect, and it has few places for them. Most fragments of lines hold
none.

## Implementation notes

`Dialect.Adds` says of a byte that a dialect puts it nowhere but at the ends of declarations and
blocks, behind generic types, and before results. All counting is done for any such byte, so that
both marks, and both languages, are counted once.
-/

namespace DeclGen

open Text (ofString)

namespace Text

/-- The byte that ends a statement. -/
def semicolon : UInt8 := 59

/-- The byte that closes a generic type. -/
def closer : UInt8 := 62

/-- A byte that ends something. -/
def IsMark (b : UInt8) : Prop := b = semicolon ∨ b = closer

variable {b : UInt8}

theorem IsMark.count_eq_zero (hb : IsMark b) {t : Text}
    (ht : t.count semicolon = 0 ∧ t.count closer = 0) : t.count b = 0 := by
  rcases hb with rfl | rfl
  · exact ht.1
  · exact ht.2

theorem IsMark.low (hb : IsMark b) : b.toNat < 0x80 := by
  rcases hb with rfl | rfl <;> decide

/-- Upper case keeps marks. -/
theorem IsMark.count_upper (hb : IsMark b) (t : Text) : t.upper.count b = t.count b := by
  have hkept : ∀ c, (c == b) = true → c.toNat < 0x80 ∧ ¬ IsLetter c.toNat := by
    intro c hc
    rw [eq_of_beq hc]
    rcases hb with rfl | rfl <;> decide
  have hlength := congrArg List.length (filter_upper hkept t)
  rwa [← List.countP_eq_length_filter, ← List.countP_eq_length_filter] at hlength

/-- The bytes of joined texts are those of the texts, and of the separators. -/
theorem count_join {sep : Text} (hsep : sep.count b = 0) (ts : List Text) :
    (join sep ts).count b = (ts.map (·.count b)).sum := by
  induction ts with
  | nil => rfl
  | cons t rest ih =>
      cases rest with
      | nil => simp [join]
      | cons u more =>
          rw [join, List.count_append, List.count_append, hsep, Nat.add_zero, ih]
          · rfl
          · simp

end Text

open Text

section Dialects

/-- A dialect that puts a byte nowhere but at the ends of declarations and blocks, behind generic
types, and before results. -/
structure Dialect.Adds (d : Dialect) (b : UInt8) : Prop where
  lineComment : d.lineComment.count b = 0
  visibility : d.visibility.count b = 0
  bind : ∀ name type, (d.bind name type).count b = name.count b + type.count b
  cast : ∀ value type, (d.cast value type).count b = value.count b + type.count b
  funcType : ∀ sig : Signature, (d.funcType sig).count b =
    sig.name.count b + sig.qualifier.count b + sig.params.count b + sig.result.count b +
      if sig.result.isEmpty then 0 else (ofString " -> ").count b
  pointerQualifier : ∀ standalone, (d.pointerQualifier standalone).count b = 0
  flagsEntryStart : d.flagsEntryStart.count b = 0
  blockHeader : ∀ kind name, (d.blockHeader kind name).count b = name.count b
  flagsHeader : ∀ name type, (d.flagsHeader name type).count b = name.count b + type.count b
  flagsWrapper : ∀ w ∈ d.flagsWrapper, w.opening.count b = 0 ∧ w.closing.count b = 0

namespace Dialect

variable {b : UInt8}

theorem count_withPart (head sep part : Text) :
    (withPart head sep part).count b =
      head.count b + part.count b + if part.isEmpty then 0 else sep.count b := by
  rw [withPart]
  split
  · next hempty => simp [List.isEmpty_iff.mp hempty]
  · simp only [List.count_append]
    omega

theorem count_bindAfter (hb : IsMark b) (name type : Text) :
    (bindAfter name type).count b = name.count b + type.count b := by
  have hcolon := hb.count_eq_zero (t := ofString ": ") (by decide)
  rw [bindAfter]
  split
  · next hempty => simp [List.isEmpty_iff.mp hempty]
  · simp only [List.count_append, hcolon, Nat.add_zero]

theorem count_bindBefore (hb : IsMark b) (name type : Text) :
    (bindBefore name type).count b = name.count b + type.count b := by
  have hblank := hb.count_eq_zero (t := ofString " ") (by decide)
  rw [bindBefore]
  split
  · next hempty => simp [List.isEmpty_iff.mp hempty]
  · simp only [List.count_append, hblank, Nat.add_zero, Nat.add_comm]

theorem count_qualified (hb : IsMark b) (qualifier t : Text) :
    (qualified qualifier t).count b = qualifier.count b + t.count b := by
  have hblank := hb.count_eq_zero (t := ofString " ") (by decide)
  rw [qualified]
  split
  · next hempty => simp [List.isEmpty_iff.mp hempty]
  · simp only [List.count_append, hblank, Nat.add_zero]

/-- The header of a block: a keyword and a name. -/
theorem count_named (hb : IsMark b) {keyword : Text}
    (hk : keyword.count semicolon = 0 ∧ keyword.count closer = 0) (name : Text) :
    (withPart keyword (ofString " ") name ++ ofString " \x7b").count b = name.count b := by
  have hblank := hb.count_eq_zero (t := ofString " ") (by decide)
  have hbrace := hb.count_eq_zero (t := ofString " \x7b") (by decide)
  rw [List.count_append, count_withPart, hb.count_eq_zero hk, hblank, hbrace, ite_self]
  omega

/-- The header of a flag set: a keyword, a name and a type. -/
theorem count_typed (hb : IsMark b) {keyword colon : Text}
    (hk : keyword.count semicolon = 0 ∧ keyword.count closer = 0)
    (hc : colon.count semicolon = 0 ∧ colon.count closer = 0) (name type : Text) :
    (withPart (withPart keyword (ofString " ") name) colon type ++ ofString " \x7b").count b =
      name.count b + type.count b := by
  have hblank := hb.count_eq_zero (t := ofString " ") (by decide)
  have hbrace := hb.count_eq_zero (t := ofString " \x7b") (by decide)
  rw [List.count_append, count_withPart, count_withPart, hb.count_eq_zero hk, hb.count_eq_zero hc,
    hblank, hbrace, ite_self, ite_self]
  omega

theorem adds_rust (hb : IsMark b) : rust.Adds b where
  lineComment := hb.count_eq_zero (by decide)
  visibility := hb.count_eq_zero (by decide)
  bind := count_bindAfter hb
  cast value type := by
    have has := hb.count_eq_zero (t := ofString " as ") (by decide)
    simp only [rust, List.count_append, has, Nat.add_zero]
  funcType sig := by
    have hopen := hb.count_eq_zero (t := ofString "fn(") (by decide)
    have hclose := hb.count_eq_zero (t := ofString ")") (by decide)
    simp only [rust, rustFuncType, count_bindAfter hb, count_withPart, count_qualified hb,
      List.count_append, hopen, hclose]
    omega
  pointerQualifier _ := hb.count_eq_zero (t := ofString "extern") (by decide)
  flagsEntryStart := hb.count_eq_zero (by decide)
  blockHeader kind name := by
    cases kind with
    | enumeration => exact count_named hb (by decide) name
    | struct => exact count_named hb (by decide) name
  flagsHeader name type := count_typed hb (by decide) (by decide) name type
  flagsWrapper w hw := by
    cases hw
    exact ⟨hb.count_eq_zero (by decide), hb.count_eq_zero (by decide)⟩

theorem count_declarator (sig : Signature) :
    (declarator sig).count semicolon = sig.name.count semicolon := by
  have hopen : (ofString "(*").count semicolon = 0 := by decide
  have hclose : (ofString ")").count semicolon = 0 := by decide
  rw [declarator]
  split
  · simp only [List.count_append, hopen, hclose, Nat.zero_add, Nat.add_zero]
  · rfl

theorem count_cppFuncType (sig : Signature) :
    (cppFuncType sig).count semicolon =
      sig.name.count semicolon + sig.qualifier.count semicolon + sig.params.count semicolon +
        sig.result.count semicolon := by
  have hauto : (ofString "auto").count semicolon = 0 := by decide
  have hblank : (ofString " ").count semicolon = 0 := by decide
  have hopen : (ofString "(").count semicolon = 0 := by decide
  have hclose : (ofString ") -> ").count semicolon = 0 := by decide
  have hresult : (if sig.result.isEmpty then ofString "void" else sig.result).count semicolon =
      sig.result.count semicolon := by
    split
    · next hempty =>
        rw [List.isEmpty_iff.mp hempty]
        decide
    · rfl
  simp only [cppFuncType, count_qualified (.inl rfl), count_withPart, count_declarator,
    List.count_append, hauto, hblank, hopen, hclose, hresult, ite_self]
  omega

/-- In C and C++ closing markers stand elsewhere too, but semicolons do not. -/
theorem adds_cpp : cpp.Adds semicolon where
  lineComment := by decide
  visibility := rfl
  bind := count_bindBefore (.inl rfl)
  cast value type := by
    have hopen : (ofString "static_cast<").count semicolon = 0 := by decide
    have hmid : (ofString ">(").count semicolon = 0 := by decide
    have hclose : (ofString ")").count semicolon = 0 := by decide
    simp only [cpp, List.count_append, hopen, hmid, hclose]
    omega
  funcType sig := by
    have harrow : (ofString " -> ").count semicolon = 0 := by decide
    rw [harrow, ite_self]
    exact count_cppFuncType sig
  pointerQualifier standalone := by
    cases standalone <;> decide
  flagsEntryStart := rfl
  blockHeader kind name := by
    cases kind with
    | enumeration => exact count_named (.inl rfl) (by decide) name
    | struct => exact count_named (.inl rfl) (by decide) name
  flagsHeader name type := count_typed (.inl rfl) (by decide) (by decide) name type
  flagsWrapper w hw := by cases hw

end Dialect

end Dialects

/-- Induction on a forest whose values have a property: so have those of its parts. -/
theorem Substitution.Gives.induction {s : Substitution} {good : Text → Prop}
    {motive : Forest → Prop} (nil : motive [])
    (hole : ∀ rest, motive rest → motive (.hole :: rest))
    (node : ∀ k as cs rest, s.GivesAttrs good as → s.Gives good cs → motive cs → motive rest →
      motive (.node k as cs :: rest)) {f : Forest} (hf : s.Gives good f) : motive f := by
  induction f using Forest.induction with
  | nil => exact nil
  | hole rest ih => exact hole rest (ih (gives_hole.mp hf))
  | node k as cs rest ihc ihr =>
      obtain ⟨has, hcs, hrest⟩ := gives_node.mp hf
      exact node k as cs rest has hcs (ihc hcs) (ihr hrest)

/-- A style that puts a mark nowhere but at the ends of declarations and blocks, behind generic
types, and before results. -/
structure Style.Marks (style : Style) (b : UInt8) : Prop where
  mark : IsMark b
  adds : style.dialect.Adds b
  fill : style.format.fill ≠ Char.ofNat b.toNat

section Fragments

variable {style : Style} {b : UInt8} (hs : style.Marks b) {depth : Nat} {as : List Attr}
  {cs : List Node}

include hs in
theorem count_line (depth : Nat) (t : Text) : (style.line depth t).count b = t.count b := by
  have hindent : (style.format.indent depth).count b = 0 := by
    rw [List.count_eq_zero]
    intro hmem
    exact hs.fill (style.format.fill_eq_of_mem_indent hmem hs.mark.low)
  have hend : newline.count b = 0 := hs.mark.count_eq_zero (by decide)
  rw [Style.line, List.count_append, List.count_append, hindent, hend, Nat.zero_add, Nat.add_zero]

include hs in
theorem count_lineIfAny (depth : Nat) (t : Text) :
    (style.lineIfAny depth t).count b = t.count b := by
  rw [Style.lineIfAny]
  split
  · next hempty => rw [List.isEmpty_iff.mp hempty]
  · exact count_line hs depth t

variable (has : style.substitution.GivesAttrs (b ∉ ·) as)

section Attributes

include has

theorem count_get (key : AttrKey) : (style.get as key).count b = 0 := by
  rw [Style.get]
  cases hv : style.lookup? as key with
  | none => rfl
  | some v => exact List.count_eq_zero.mpr (has.lookup? hv)

include hs

theorem count_varQualifier : (style.varQualifier as).count b = 0 := by
  rw [Style.varQualifier]
  cases hv : style.lookup? as .qualifier with
  | none => exact hs.mark.count_eq_zero (by decide)
  | some v => exact List.count_eq_zero.mpr (has.lookup? hv)

theorem count_funcQualifier (place : Place) (k : Kind) :
    (style.funcQualifier place k as).count b = 0 := by
  rw [Style.funcQualifier]
  split
  · exact hs.adds.pointerQualifier _
  · exact count_get has .qualifier

theorem count_initializer : (style.initializer as).count b = 0 := by
  have hequals := hs.mark.count_eq_zero (t := ofString " = ") (by decide)
  rw [Style.initializer]
  split
  · rfl
  · rw [List.count_append, hequals, count_get has]

theorem count_entry (name : Text) : (style.entry name as).count b = name.count b := by
  have hequals := hs.mark.count_eq_zero (t := ofString " = ") (by decide)
  rw [Style.entry]
  split
  · rfl
  · split
    · simp only [List.count_append, hequals, count_get has, Nat.add_zero]
    · simp only [List.count_append, hequals, hs.adds.cast, count_get has, Nat.add_zero]

theorem count_decoration (depth : Nat) : (style.decoration depth as).count b = 0 := by
  rw [List.count_eq_zero, Style.decoration, List.mem_flatMap]
  rintro ⟨a, ha, hmem⟩
  rw [← List.count_pos_iff, count_lineIfAny hs, List.count_pos_iff] at hmem
  exact has a ha hmem

theorem count_headerDecoration (depth : Nat) :
    (style.headerDecoration depth as).count b = 0 := by
  rw [Style.headerDecoration, count_lineIfAny hs, count_get has]

end Attributes

section Children

variable (hcs : style.substitution.Gives (b ∉ ·) cs)
include hs hcs

theorem count_decorations (depth : Nat) : (style.decorations depth cs).count b = 0 := by
  refine hcs.induction (motive := fun cs => (style.decorations depth cs).count b = 0) rfl
    (fun _ ih => ih) fun k as cs rest has _ _ ih => ?_
  rw [decorations_node, List.count_append, ih]
  split
  · rw [count_decoration hs has]
  · rfl

theorem count_enumEntries (depth : Nat) : (style.enumEntries depth cs).count b = 0 := by
  have hcomma := hs.mark.count_eq_zero (t := ofString ",") (by decide)
  refine hcs.induction (motive := fun cs => (style.enumEntries depth cs).count b = 0) rfl
    (fun _ ih => ih) fun k as cs rest has _ _ ih => ?_
  rw [enumEntries_node, List.count_append, ih]
  split
  · rw [count_line hs, List.count_append, count_entry hs has, count_get has, hcomma]
  · rfl

theorem count_flagEntries (depth : Nat) : (style.flagEntries depth cs).count b = 0 := by
  have hcomma := hs.mark.count_eq_zero (t := ofString ",") (by decide)
  refine hcs.induction (motive := fun cs => (style.flagEntries depth cs).count b = 0) rfl
    (fun _ ih => ih) fun k as cs rest has _ _ ih => ?_
  rw [flagEntries_node, List.count_append, ih]
  split
  · rw [count_line hs, List.count_append, List.count_append, hs.adds.flagsEntryStart,
      count_entry hs has, hs.mark.count_upper, count_get has, hcomma]
  · rfl

end Children

include hs has

section Blocks

variable (hcs : style.substitution.Gives (b ∉ ·) cs)
include hcs

/-- A block has the marks of what it holds, and those of its end. -/
theorem count_block (kind : Block) (depth : Nat) (body : Text) :
    (style.block kind depth as cs body).count b =
      body.count b + (style.dialect.blockClose kind).count b := by
  have hend : newline.count b = 0 := hs.mark.count_eq_zero (by decide)
  simp only [Style.block, List.count_append, hend, count_decorations hs hcs,
    count_headerDecoration hs has, count_line hs, hs.adds.blockHeader, count_get has]
  omega

theorem count_flagBody (depth : Nat) :
    (style.flagBody depth as cs).count b = style.dialect.flagsClose.count b := by
  simp only [Style.flagBody, List.count_append, count_decorations hs hcs,
    count_headerDecoration hs has, count_line hs, hs.adds.flagsHeader, count_get has,
    count_flagEntries hs hcs]
  omega

theorem count_flagSet {t : Text} (ht : style.flagSet depth as cs = .ok t) :
    t.count b = style.dialect.flagsClose.count b := by
  have hend : newline.count b = 0 := hs.mark.count_eq_zero (by decide)
  obtain ⟨-, rfl⟩ := Style.checked_eq_ok_iff.mp ht
  cases hw : style.dialect.flagsWrapper with
  | none => simp only [List.count_append, count_flagBody hs has hcs, hend, Nat.add_zero]
  | some w =>
      obtain ⟨hopening, hclosing⟩ := hs.adds.flagsWrapper w hw
      simp only [List.count_append, count_line hs, hopening, hclosing, count_flagBody hs has hcs,
        hend, Nat.zero_add, Nat.add_zero]

end Blocks

end Fragments

end DeclGen
