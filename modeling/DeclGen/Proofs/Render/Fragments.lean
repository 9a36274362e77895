import DeclGen.Proofs.Render.Lines
import DeclGen.Proofs.Text.Casing
import Mathlib.Data.Bool.AllAny

/-!
# Fragments of lines

The body of a line is put together from attribute values and from the fragments of a dialect. Much
that can be said of a body holds for one reason: the values have a property of texts, and the
fragments keep it. Lines without line ends, without braces, and with paired brackets are such
properties.

## Implementation notes

`Text.Wording` says what a property needs so that putting fragments together keeps it, and
`Dialect.Keeps` says so for each spelling of a dialect. All statements about bodies are proved for
any such property. A dialect that keeps a property may still open a block at the end of a line and
close it at the start of one.
-/

namespace DeclGen

open Text

section Values

/-- All attribute values of a forest, as they are replaced. -/
def Substitution.values (s : Substitution) (f : Forest) : List Text :=
  (Node.preorderList (fun _ => false) f).flatMap fun p => p.2.map fun a => s.resolve a.value

/-- The replaced values of some attributes have a property. -/
def Substitution.GivesAttrs (s : Substitution) (good : Text → Prop) (as : List Attr) : Prop :=
  ∀ a ∈ as, good (s.resolve a.value)

/-- The replaced values of a forest have a property. -/
def Substitution.Gives (s : Substitution) (good : Text → Prop) (f : Forest) : Prop :=
  ∀ t ∈ s.values f, good t

namespace Substitution

variable {s : Substitution} {good : Text → Prop}

theorem gives_hole {rest : Forest} : s.Gives good (.hole :: rest) ↔ s.Gives good rest := by
  simp [Gives, values, Node.preorderList, Node.preorder]

theorem gives_node {k : Kind} {as : List Attr} {cs : List Node} {rest : Forest} :
    s.Gives good (.node k as cs :: rest) ↔
      s.GivesAttrs good as ∧ s.Gives good cs ∧ s.Gives good rest := by
  simp only [Gives, GivesAttrs, values, Node.preorderList, Node.preorder, Bool.false_eq_true,
    if_false, List.flatMap_append, List.flatMap_cons, List.forall_mem_append, List.forall_mem_map,
    and_assoc]

/-- The attributes of a node of a forest whose values have a property. -/
theorem Gives.attrs {f : Forest} (h : s.Gives good f) {k : Kind} {as : List Attr}
    {cs : List Node} (hn : .node k as cs ∈ f) : s.GivesAttrs good as := by
  induction f with
  | nil => cases hn
  | cons n rest ih =>
      cases n with
      | hole => exact ih (gives_hole.mp h) (by simpa using hn)
      | node k' as' cs' =>
          obtain ⟨has, -, hrest⟩ := gives_node.mp h
          rcases List.mem_cons.mp hn with heq | hn
          · cases heq
            exact has
          · exact ih hrest hn

variable {style : Style} {as : List Attr}

theorem GivesAttrs.lookup? (h : style.substitution.GivesAttrs good as) {key : AttrKey} {v : Text}
    (hv : style.lookup? as key = some v) : good v := by
  rw [Style.lookup?, Attr.lookup?, Option.map_map] at hv
  obtain ⟨a, ha, rfl⟩ := Option.map_eq_some_iff.mp hv
  exact h a (List.mem_reverse.mp (List.mem_of_find?_eq_some ha))

end Substitution

end Values

namespace Text

/-- A text without line ends and brackets of any kind. -/
def Wordlike (t : Text) : Prop := ∀ b ∈ t, b ∉ ofString "\n()[]\x7b\x7d"

instance (t : Text) : Decidable t.Wordlike := List.decidableBAll _ t

/-- A property of texts that putting fragments together keeps. -/
structure Wording (good : Text → Prop) : Prop where
  words : ∀ {t}, Wordlike t → good t
  append : ∀ {s t}, good s → good t → good (s ++ t)
  parens : ∀ {t}, good t → good (ofString "(" ++ t ++ ofString ")")
  upper : ∀ {t}, good t → good t.upper

/-- A text that opens a block at its end and has a property before. -/
def OpensBlock (good : Text → Prop) (t : Text) : Prop := ∃ head, good head ∧ t = head ++ [openBrace]

/-- A text that closes a block at its start and has a property behind. -/
def ClosesBlock (good : Text → Prop) (t : Text) : Prop := ∃ rest, good rest ∧ t = closeBrace :: rest

theorem OpensBlock.ne_nil {good : Text → Prop} {t : Text} (h : OpensBlock good t) : t ≠ [] := by
  obtain ⟨head, -, rfl⟩ := h
  simp

theorem ClosesBlock.ne_nil {good : Text → Prop} {t : Text} (h : ClosesBlock good t) : t ≠ [] := by
  obtain ⟨rest, -, rfl⟩ := h
  simp

namespace Wording

variable {good : Text → Prop} (hw : Wording good)
include hw

theorem nil : good [] := hw.words (by decide)

theorem join {sep : Text} (hs : good sep) {ts : List Text} (h : ∀ t ∈ ts, good t) :
    good (Text.join sep ts) := by
  induction ts with
  | nil => exact hw.nil
  | cons t rest ih =>
      have ht : good t := h t (by simp)
      have hrest : good (Text.join sep rest) := ih fun u hu => h u (by simp [hu])
      cases rest with
      | nil => exact ht
      | cons u more =>
          rw [Text.join]
          · exact hw.append (hw.append ht hs) hrest
          · simp

end Wording

/-- Texts without certain bytes, which are line ends, square or curly brackets. -/
theorem wording_avoiding (bytes : Text) (h : ∀ b ∈ bytes, b ∈ ofString "\n[]\x7b\x7d") :
    Wording fun t => ∀ b ∈ bytes, b ∉ t where
  words {t} ht b hb hmem := by
    have hall : ∀ b ∈ ofString "\n[]\x7b\x7d", b ∈ ofString "\n()[]\x7b\x7d" :=
      List.all_iff_forall_prop.mp (by decide)
    exact ht b hmem (hall b (h b hb))
  append hs ht b hb := by
    rw [List.mem_append, not_or]
    exact ⟨hs b hb, ht b hb⟩
  parens ht b hb := by
    have hround : ∀ b ∈ ofString "\n[]\x7b\x7d", b ∉ ofString "(" ∧ b ∉ ofString ")" :=
      List.all_iff_forall_prop.mp (by decide)
    rw [List.mem_append, List.mem_append, not_or, not_or]
    exact ⟨⟨(hround b (h b hb)).1, ht b hb⟩, (hround b (h b hb)).2⟩
  upper ht b hb hmem := by
    have hlow : ∀ b ∈ ofString "\n[]\x7b\x7d", b.toNat < 0x80 ∧ ¬ IsCapital b.toNat :=
      List.all_iff_forall_prop.mp (by decide)
    exact ht b hb (mem_of_mem_upper hmem (hlow b (h b hb)).1 (hlow b (h b hb)).2)

/-- A text without line ends. -/
def SingleLine (t : Text) : Prop := lineEnd ∉ t

instance (t : Text) : Decidable t.SingleLine := inferInstanceAs (Decidable (¬ _))

theorem wording_singleLine : Wording SingleLine := by
  have havoid := wording_avoiding [lineEnd] (List.all_iff_forall_prop.mp (by decide))
  have heq : SingleLine = fun t => ∀ b ∈ [lineEnd], b ∉ t := by
    funext t
    simp [SingleLine]
  rwa [heq]

theorem wording_plain : Wording Plain := by
  have havoid := wording_avoiding [lineEnd, openBrace, closeBrace]
    (List.all_iff_forall_prop.mp (by decide))
  have heq : Plain = fun t => ∀ b ∈ [lineEnd, openBrace, closeBrace], b ∉ t := by
    funext t
    simp only [Plain, List.mem_cons, List.not_mem_nil, or_false, forall_eq_or_imp, forall_eq,
      eq_iff_iff]
    constructor
    · intro h
      exact ⟨fun hb => (h _ hb).1 rfl, fun hb => (h _ hb).2.1 rfl, fun hb => (h _ hb).2.2 rfl⟩
    · rintro ⟨hend, hopen, hclose⟩ b hb
      exact ⟨fun h => hend (h ▸ hb), fun h => hopen (h ▸ hb), fun h => hclose (h ▸ hb)⟩
  rwa [heq]

end Text

section Dialects

/-- A dialect whose fragments keep a property of texts, but for the braces that open and close its
blocks. -/
structure Dialect.Keeps (d : Dialect) (good : Text → Prop) : Prop where
  lineComment : good d.lineComment
  visibility : good d.visibility
  genericClose : good d.genericClose
  fieldSeparator : good d.fieldSeparator ∧ d.fieldSeparator ≠ []
  terminator : good d.terminator ∧ d.terminator ≠ []
  bind : ∀ {name type}, good name → good type → good (d.bind name type)
  cast : ∀ {value type}, good value → good type → good (d.cast value type)
  funcType : ∀ {sig : Signature}, good sig.name → good sig.qualifier → good sig.params →
    good sig.result → good (d.funcType sig)
  pointerQualifier : ∀ standalone, good (d.pointerQualifier standalone)
  flagsEntryStart : good d.flagsEntryStart
  blockHeader : ∀ kind {name}, good name → OpensBlock good (d.blockHeader kind name)
  blockClose : ∀ kind, ClosesBlock good (d.blockClose kind)
  flagsHeader : ∀ {name type}, good name → good type → OpensBlock good (d.flagsHeader name type)
  flagsClose : ClosesBlock good d.flagsClose
  flagsWrapper : ∀ w ∈ d.flagsWrapper, OpensBlock good w.opening ∧ ClosesBlock good w.closing

namespace Dialect

variable {good : Text → Prop} (hw : Wording good) {head sep part name type qualifier t : Text}
include hw

theorem good_withPart (hh : good head) (hs : good sep) (hp : good part) :
    good (withPart head sep part) := by
  rw [withPart]
  split
  · exact hh
  · exact hw.append (hw.append hh hs) hp

theorem good_bindAfter (hn : good name) (ht : good type) : good (bindAfter name type) := by
  rw [bindAfter]
  split
  · exact ht
  · exact hw.append (hw.append hn (hw.words (by decide))) ht

theorem good_bindBefore (hn : good name) (ht : good type) : good (bindBefore name type) := by
  rw [bindBefore]
  split
  · exact ht
  · exact hw.append (hw.append ht (hw.words (by decide))) hn

theorem good_qualified (hq : good qualifier) (ht : good t) : good (qualified qualifier t) := by
  rw [qualified]
  split
  · exact ht
  · exact hw.append (hw.append hq (hw.words (by decide))) ht

theorem opensBlock_append (h : good head) : OpensBlock good (head ++ ofString " \x7b") := by
  refine ⟨head ++ ofString " ", hw.append h (hw.words (by decide)), ?_⟩
  rw [List.append_assoc]
  rfl

/-- The header of a block: a keyword and a name. -/
theorem opensBlock_named {keyword : Text} (hk : Wordlike keyword) (hn : good name) :
    OpensBlock good (withPart keyword (ofString " ") name ++ ofString " \x7b") :=
  opensBlock_append hw (good_withPart hw (hw.words hk) (hw.words (by decide)) hn)

/-- The header of a flag set: a keyword, a name and a type. -/
theorem opensBlock_typed {keyword mark : Text} (hk : Wordlike keyword) (hm : Wordlike mark)
    (hn : good name) (ht : good type) :
    OpensBlock good (withPart (withPart keyword (ofString " ") name) mark type ++
      ofString " \x7b") := by
  have hnamed := good_withPart hw (hw.words hk) (hw.words (t := ofString " ") (by decide)) hn
  exact opensBlock_append hw (good_withPart hw hnamed (hw.words hm) ht)

/-- A word before parentheses. -/
theorem good_call {word : Text} (hword : good word) (ht : good t) :
    good (word ++ ofString "(" ++ t ++ ofString ")") := by
  have hwhole := hw.append hword (hw.parens ht)
  simp only [List.append_assoc] at hwhole ⊢
  exact hwhole

theorem keeps_rust : rust.Keeps good where
  lineComment := hw.words (by decide)
  visibility := hw.words (by decide)
  genericClose := hw.words (by decide)
  fieldSeparator := ⟨hw.words (by decide), by decide⟩
  terminator := ⟨hw.words (by decide), by decide⟩
  bind := good_bindAfter hw
  cast hv ht := hw.append (hw.append hv (hw.words (by decide))) ht
  funcType hn hq hp hr := by
    have hcall := good_call hw (hw.words (t := ofString "fn") (by decide)) hp
    exact good_bindAfter hw hn
      (good_withPart hw (good_qualified hw hq hcall) (hw.words (by decide)) hr)
  pointerQualifier _ := hw.words (t := ofString "extern") (by decide)
  flagsEntryStart := hw.words (by decide)
  blockHeader kind _ hn := by
    cases kind with
    | enumeration => exact opensBlock_named hw (by decide) hn
    | struct => exact opensBlock_named hw (by decide) hn
  blockClose _ := ⟨[], hw.nil, rfl⟩
  flagsHeader hn ht := opensBlock_typed hw (by decide) (by decide) hn ht
  flagsClose := ⟨[], hw.nil, rfl⟩
  flagsWrapper w hmem := by
    cases hmem
    have hopens := opensBlock_append hw (hw.words (t := ofString "bitflags!") (by decide))
    exact ⟨hopens, [], hw.nil, rfl⟩

theorem good_declarator {sig : Signature} (hn : good sig.name) : good (declarator sig) := by
  rw [declarator]
  split
  · have hstar := hw.parens (hw.append (hw.words (t := ofString "*") (by decide)) hn)
    exact hstar
  · exact hn

theorem keeps_cpp : cpp.Keeps good where
  lineComment := hw.words (by decide)
  visibility := hw.nil
  genericClose := hw.words (by decide)
  fieldSeparator := ⟨hw.words (by decide), by decide⟩
  terminator := ⟨hw.words (by decide), by decide⟩
  bind := good_bindBefore hw
  cast hv ht := by
    have htarget := hw.append (hw.append (hw.words (t := ofString "static_cast<") (by decide)) ht)
      (hw.words (t := ofString ">") (by decide))
    have hcall := good_call hw htarget hv
    simp only [List.append_assoc] at hcall
    simp only [cpp, List.append_assoc]
    exact hcall
  funcType {sig} hn hq hp hr := by
    have hresult : good (if sig.result.isEmpty then ofString "void" else sig.result) := by
      split
      · exact hw.words (by decide)
      · exact hr
    have hauto := good_withPart hw (hw.words (t := ofString "auto") (by decide))
      (hw.words (t := ofString " ") (by decide)) (good_declarator hw hn)
    have harrow := hw.append (hw.append (good_call hw hauto hp)
      (hw.words (t := ofString " -> ") (by decide))) hresult
    refine good_qualified hw hq ?_
    simp only [List.append_assoc] at harrow ⊢
    exact harrow
  pointerQualifier standalone := by
    cases standalone with
    | false => exact hw.nil
    | true => exact hw.words (by decide)
  flagsEntryStart := hw.nil
  blockHeader kind _ hn := by
    cases kind with
    | enumeration => exact opensBlock_named hw (by decide) hn
    | struct => exact opensBlock_named hw (by decide) hn
  blockClose _ := ⟨ofString ";", hw.words (by decide), rfl⟩
  flagsHeader hn ht := opensBlock_typed hw (by decide) (by decide) hn ht
  flagsClose := ⟨ofString ";", hw.words (by decide), rfl⟩
  flagsWrapper w hmem := by cases hmem

end Dialect

/-- The dialects of all languages keep whatever putting fragments together keeps. -/
theorem keeps_dialect {good : Text → Prop} (hw : Wording good) (l : Lang) :
    l.dialect.Keeps good := by
  cases l with
  | cpp => exact Dialect.keeps_cpp hw
  | rust => exact Dialect.keeps_rust hw

end Dialects

section Bodies

variable {good : Text → Prop} (hw : Wording good) {style : Style} {as : List Attr}
  (has : style.substitution.GivesAttrs good as)

include hw

theorem good_joinParams (childCount : Nat) {ps : List Text} (hps : ∀ p ∈ ps, good p) :
    good (Style.joinParams childCount ps) := by
  refine hw.join ?_ hps
  split
  · exact hw.words (by decide)
  · exact hw.nil

include has

theorem good_get (key : AttrKey) : good (style.get as key) := by
  rw [Style.get]
  cases hv : style.lookup? as key with
  | none => exact hw.nil
  | some v => exact has.lookup? hv

theorem good_initializer : good (style.initializer as) := by
  rw [Style.initializer]
  split
  · exact hw.nil
  · exact hw.append (hw.words (by decide)) (good_get hw has .value)

theorem good_varQualifier : good (style.varQualifier as) := by
  rw [Style.varQualifier]
  cases hv : style.lookup? as .qualifier with
  | none => exact hw.words (by decide)
  | some v => exact has.lookup? hv

variable (hk : style.dialect.Keeps good)
include hk

theorem good_entry {name : Text} (hn : good name) : good (style.entry name as) := by
  rw [Style.entry]
  split
  · exact hn
  · have hequals := hw.append hn (hw.words (t := ofString " = ") (by decide))
    split
    · exact hw.append hequals (good_get hw has .value)
    · exact hw.append hequals (hk.cast (good_get hw has .value) (good_get hw has .type))

/-- What stands before the initial value of a variable at the top level. -/
theorem good_topBinding :
    good (if style.isGeneric (style.varQualifier as) then
        style.dialect.bind (style.get as .name)
          (style.varQualifier as ++ style.get as .type ++ style.dialect.genericClose)
      else Dialect.qualified (style.varQualifier as)
        (style.dialect.bind (style.get as .name) (style.get as .type))) := by
  have hq := good_varQualifier hw has
  split
  · exact hk.bind (good_get hw has .name)
      (hw.append (hw.append hq (good_get hw has .type)) hk.genericClose)
  · exact Dialect.good_qualified hw hq (hk.bind (good_get hw has .name) (good_get hw has .type))

theorem good_declaration (place : Place) (k : Kind) {params : Text} (hp : good params) :
    good (style.declaration place k as params) := by
  have hq : good (style.funcQualifier place k as) := by
    rw [Style.funcQualifier]
    split
    · exact hk.pointerQualifier _
    · exact good_get hw has .qualifier
  rw [Style.declaration]
  split
  · have htype : good (style.dialect.funcType { params, result := style.get as .type }) :=
      hk.funcType hw.nil hw.nil hp (good_get hw has .type)
    exact hk.bind (good_get hw has .name) (hw.append (hw.append hq htype) hk.genericClose)
  · exact hk.funcType (good_get hw has .name) hq hp (good_get hw has .type)

theorem good_ownParam : ∀ p ∈ style.ownParam as, good p := by
  rw [Style.ownParam]
  split
  · simp
  · simpa using hk.bind (good_get hw has .name) (good_get hw has .type)

end Bodies

end DeclGen
