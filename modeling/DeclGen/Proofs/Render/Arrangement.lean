import DeclGen.Proofs.Render.Fragments
import DeclGen.Proofs.Render.Stepping

/-!
# How a forest is arranged in lines

Rendering arranges a forest in lines, in the same way for every format: empty lines, lines with a
body, and blocks, which hold other lines one level deeper. Which lines are empty and how deep the
others stand is read off the forest alone; a language only has a say in the flag sets, which it may
wrap.

## Implementation notes

`Line.Arranged` is how the lines of a forest can be put together, for any property of their bodies
that the dialect keeps. What holds of rendered text as a whole follows from it by induction, and the
renderer need not be looked at again. `Uniform` says of an outcome that it is a violation for every
format, or for none; the steps of rendering compose along it.
-/

namespace DeclGen

open Text

namespace Line

/-- How deep a line stands, if it is not empty. -/
def level? (l : Line) : Option Nat := if l.body = [] then none else some l.depth

/-- Lines as they are arranged at a depth: one after the other, or in blocks. -/
inductive Arranged (good : Text → Prop) : Nat → List Line → Prop
  | nil {depth} : Arranged good depth []
  | append {depth ks ls} :
      Arranged good depth ks → Arranged good depth ls → Arranged good depth (ks ++ ls)
  | blank {depth} : Arranged good depth [⟨depth, []⟩]
  | line {depth t} : good t → t ≠ [] → Arranged good depth [⟨depth, t⟩]
  | block {depth header closer ls} : OpensBlock good header → ClosesBlock good closer →
      Arranged good (depth + 1) ls →
      Arranged good depth (⟨depth, header⟩ :: ls ++ [⟨depth, closer⟩])

end Line

open Line

section Levels

/-! ## The levels of a forest -/

namespace Substitution

variable (s : Substitution) (wrapped : Bool)

/-- The level of a line that is there only if it says something. -/
def lineLevels (depth : Nat) (t : Text) : List (Option Nat) :=
  if t.isEmpty then [] else [some depth]

/-- The replaced value of an attribute, or else the empty text. -/
def read (as : List Attr) (key : AttrKey) : Text := ((Attr.lookup? key as).map s.resolve).getD []

/-- The levels of a decoration. -/
def decorationLevels (depth : Nat) (as : List Attr) : List (Option Nat) :=
  as.flatMap fun a => lineLevels depth (s.resolve a.value)

/-- The levels of the decorations above a block. -/
def headLevels (depth : Nat) (as : List Attr) (cs : List Node) : List (Option Nat) :=
  (cs.flatMap fun
    | .node .decoration as _ => s.decorationLevels depth as
    | _ => []) ++ lineLevels depth (s.read as .decoration)

/-- The levels of the entries of an enumeration or a flag set. -/
def entryLevels (depth : Nat) (cs : List Node) : List (Option Nat) :=
  cs.flatMap fun
    | .node .var _ _ => [some depth]
    | _ => []

/-- The levels of a block between empty lines. -/
def blockLevels (depth : Nat) (as : List Attr) (cs : List Node) (body : List (Option Nat)) :
    List (Option Nat) :=
  none :: s.headLevels depth as cs ++ (some depth :: body ++ [some depth]) ++ [none]

/-- The levels of a flag set without its wrapper. -/
def flagBodyLevels (depth : Nat) (as : List Attr) (cs : List Node) : List (Option Nat) :=
  s.headLevels depth as cs ++ (some depth :: entryLevels (depth + 1) cs ++ [some depth])

/-- The levels of a flag set, which may be wrapped. -/
def flagLevels (depth : Nat) (as : List Attr) (cs : List Node) : List (Option Nat) :=
  (if wrapped then some depth :: s.flagBodyLevels (depth + 1) as cs ++ [some depth]
    else s.flagBodyLevels depth as cs) ++ [none]

mutual

/-- The levels of a declaration. -/
def nodeLevels (depth : Nat) : Node → List (Option Nat)
  | .hole => []
  | .node k as cs =>
    match k with
    | .var => lineLevels depth (s.read as .type)
    | .function | .functionPointer => [some depth]
    | .enumeration => s.blockLevels depth as cs (entryLevels (depth + 1) cs)
    | .struct => s.blockLevels depth as cs (memberLevels (depth + 1) cs)
    | .flagSet => s.flagLevels wrapped depth as cs
    | .decoration => s.decorationLevels depth as
    | .unknown => []

/-- The levels of the members of a struct. -/
def memberLevels (depth : Nat) : List Node → List (Option Nat)
  | [] => []
  | .node .decoration _ _ :: rest => memberLevels depth rest
  | n :: rest => nodeLevels depth n ++ memberLevels depth rest

end

/-- The levels of a forest between its two banner lines. -/
def levels (f : Forest) : List (Option Nat) :=
  some 0 :: f.flatMap (s.nodeLevels wrapped 0) ++ [some 0]

theorem memberLevels_node {k : Kind} (hk : k ≠ .decoration) (depth : Nat) (as : List Attr)
    (cs rest : List Node) :
    s.memberLevels wrapped depth (.node k as cs :: rest) =
      s.nodeLevels wrapped depth (.node k as cs) ++ s.memberLevels wrapped depth rest := by
  rw [memberLevels]
  simpa using hk

theorem memberLevels_hole (depth : Nat) (rest : List Node) :
    s.memberLevels wrapped depth (.hole :: rest) = s.memberLevels wrapped depth rest := by
  rw [memberLevels, nodeLevels, List.nil_append]
  simp

end Substitution

end Levels

/-- A style with another format. -/
def Style.formatted (style : Style) (format : Format) : Style := { style with format }

/-- A text of which the format only indents the lines; these are arranged, and they have given
levels. -/
def Laid (good : Text → Prop) (depth : Nat) (levels : List (Option Nat)) (g : Format → Text) :
    Prop :=
  ∃ ls, Arranged good depth ls ∧ ls.map level? = levels ∧ ∀ format, g format = write format ls

section Laying

variable {good : Text → Prop} {depth : Nat} {xs ys : List (Option Nat)} {g h : Format → Text}

theorem laid_nil : Laid good depth [] fun _ => [] := ⟨[], .nil, rfl, fun _ => rfl⟩

theorem Laid.append (hg : Laid good depth xs g) (hh : Laid good depth ys h) :
    Laid good depth (xs ++ ys) fun format => g format ++ h format := by
  obtain ⟨ks, hks, rfl, hg⟩ := hg
  obtain ⟨ls, hls, rfl, hh⟩ := hh
  refine ⟨ks ++ ls, hks.append hls, List.map_append, fun format => ?_⟩
  dsimp only
  rw [hg, hh, write_append]

theorem laid_newline : Laid good depth [none] fun _ => newline :=
  ⟨[⟨depth, []⟩], .blank, rfl, fun format => (write_blank format depth).symm⟩

theorem laid_flatMap {α : Type} {as : List α} {lay : α → List (Option Nat)} {g : Format → α → Text}
    (h : ∀ a ∈ as, Laid good depth (lay a) (g · a)) :
    Laid good depth (as.flatMap lay) fun format => as.flatMap (g format) := by
  induction as with
  | nil => exact laid_nil
  | cons a rest ih =>
      simp only [List.flatMap_cons]
      exact (h a (by simp)).append (ih fun b hb => h b (by simp [hb]))

variable (style : Style)

theorem laid_line {t : Text} (ht : good t) (hne : t ≠ []) :
    Laid good depth [some depth] fun format => (style.formatted format).line depth t := by
  refine ⟨[⟨depth, t⟩], .line ht hne, ?_, fun format => (write_singleton format hne depth).symm⟩
  simp [level?, hne]

theorem laid_lineIfAny {t : Text} (ht : good t) :
    Laid good depth (Substitution.lineLevels depth t)
      fun format => (style.formatted format).lineIfAny depth t := by
  cases t with
  | nil => exact laid_nil
  | cons b rest => exact laid_line style ht (by simp)

/-- The line of a variable, which is there only if the variable has a type. -/
theorem laid_ofType {t : Text} (ht : good t) (hne : t ≠ []) (type : Text) :
    Laid good depth (Substitution.lineLevels depth type) fun format =>
      if type.isEmpty then [] else (style.formatted format).line depth t := by
  rw [Substitution.lineLevels]
  split
  · exact laid_nil
  · exact laid_line style ht hne

/-- The lines of a block around those that stand inside it. -/
theorem laid_braces (depth : Nat) {header closer : Text} (ho : OpensBlock good header)
    (hc : ClosesBlock good closer) (hg : Laid good (depth + 1) xs g) :
    Laid good depth (some depth :: xs ++ [some depth]) fun format =>
      (style.formatted format).line depth header ++ g format ++
        (style.formatted format).line depth closer := by
  obtain ⟨ls, hls, rfl, hg⟩ := hg
  refine ⟨⟨depth, header⟩ :: ls ++ [⟨depth, closer⟩], .block ho hc hls, ?_, fun format => ?_⟩
  · simp [level?, ho.ne_nil, hc.ne_nil]
  · dsimp only
    have hcons : ⟨depth, header⟩ :: ls ++ [⟨depth, closer⟩] =
        [⟨depth, header⟩] ++ ls ++ [(⟨depth, closer⟩ : Line)] := rfl
    rw [hcons, write_append, write_append, write_singleton format ho.ne_nil,
      write_singleton format hc.ne_nil, hg]
    rfl

end Laying

section Parts

variable {good : Text → Prop} (hw : Wording good) {style : Style} {depth : Nat} {as : List Attr}
  {cs : List Node}

theorem laid_decoration (has : style.substitution.GivesAttrs good as) :
    Laid good depth (style.substitution.decorationLevels depth as)
      fun format => (style.formatted format).decoration depth as :=
  laid_flatMap fun a ha => laid_lineIfAny style (has a ha)

include hw

/-- The decorations above a block: those of its children, then its own. -/
theorem laid_head (has : style.substitution.GivesAttrs good as)
    (hcs : style.substitution.Gives good cs) :
    Laid good depth (style.substitution.headLevels depth as cs) fun format =>
      (style.formatted format).decorations depth cs ++
        (style.formatted format).headerDecoration depth as := by
  refine Laid.append (laid_flatMap fun n hn => ?_) (laid_lineIfAny style (good_get hw has _))
  rcases n with _ | ⟨k, as, ds⟩
  · exact laid_nil
  · cases k with
    | decoration => exact laid_decoration (hcs.attrs hn)
    | _ => exact laid_nil

variable (hk : style.dialect.Keeps good)
include hk

theorem laid_enumEntries (hcs : style.substitution.Gives good cs) :
    Laid good depth (Substitution.entryLevels depth cs)
      fun format => (style.formatted format).enumEntries depth cs := by
  refine laid_flatMap fun n hn => ?_
  rcases n with _ | ⟨k, as, ds⟩
  · exact laid_nil
  · cases k with
    | var =>
        have has := hcs.attrs hn
        have hentry := good_entry hw has hk (good_get hw has .name)
        exact laid_line style (hw.append hentry (hw.words (by decide)))
          (List.append_ne_nil_of_right_ne_nil _ (by decide))
    | _ => exact laid_nil

theorem laid_flagEntries (hcs : style.substitution.Gives good cs) :
    Laid good depth (Substitution.entryLevels depth cs)
      fun format => (style.formatted format).flagEntries depth cs := by
  refine laid_flatMap fun n hn => ?_
  rcases n with _ | ⟨k, as, ds⟩
  · exact laid_nil
  · cases k with
    | var =>
        have has := hcs.attrs hn
        have hentry := good_entry hw has hk (hw.upper (good_get hw has .name))
        exact laid_line style
          (hw.append (hw.append hk.flagsEntryStart hentry) (hw.words (by decide)))
          (List.append_ne_nil_of_right_ne_nil _ (by decide))
    | _ => exact laid_nil

theorem laid_block (kind : Block) (has : style.substitution.GivesAttrs good as)
    (hcs : style.substitution.Gives good cs) {xs : List (Option Nat)} {body : Format → Text}
    (hb : Laid good (depth + 1) xs body) :
    Laid good depth (style.substitution.blockLevels depth as cs xs)
      fun format => (style.formatted format).block kind depth as cs (body format) := by
  have hbraces := laid_braces style depth (hk.blockHeader kind (good_get hw has .name))
    (hk.blockClose kind) hb
  have hwhole := ((laid_newline.append (laid_head hw has hcs)).append hbraces).append laid_newline
  simp only [List.append_assoc, List.singleton_append] at hwhole
  simp only [Style.block, Substitution.blockLevels, List.append_assoc, List.cons_append] at hwhole ⊢
  exact hwhole

theorem laid_flagBody (has : style.substitution.GivesAttrs good as)
    (hcs : style.substitution.Gives good cs) :
    Laid good depth (style.substitution.flagBodyLevels depth as cs)
      fun format => (style.formatted format).flagBody depth as cs := by
  have hbraces := laid_braces style depth
    (hk.flagsHeader (good_get hw has .name) (good_get hw has .type)) hk.flagsClose
    (laid_flagEntries hw hk hcs)
  have hwhole := (laid_head hw has hcs).append hbraces
  simp only [List.append_assoc] at hwhole
  simp only [Style.flagBody, Substitution.flagBodyLevels, List.append_assoc]
  exact hwhole

/-- The lines of a flag set; those inside a wrapper stand one level deeper. -/
theorem laid_flagSet (has : style.substitution.GivesAttrs good as)
    (hcs : style.substitution.Gives good cs) :
    Laid good depth
      (style.substitution.flagLevels style.dialect.flagsWrapper.isSome depth as cs) fun format =>
      match style.dialect.flagsWrapper with
      | some w =>
        (style.formatted format).line depth w.opening ++
          (style.formatted format).flagBody (depth + 1) as cs ++
          (style.formatted format).line depth w.closing ++ newline
      | none => (style.formatted format).flagBody depth as cs ++ newline := by
  cases hwrap : style.dialect.flagsWrapper with
  | none => exact (laid_flagBody hw hk has hcs).append laid_newline
  | some w =>
      obtain ⟨ho, hc⟩ := hk.flagsWrapper w hwrap
      exact (laid_braces style depth ho hc (laid_flagBody hw hk has hcs)).append laid_newline

theorem laid_memberVar (has : style.substitution.GivesAttrs good as) :
    Laid good depth (Substitution.lineLevels depth (style.substitution.read as .type))
      fun format => (style.formatted format).memberVar depth as := by
  have hbound := hk.bind (good_get hw has .name) (good_get hw has .type)
  have hbody := hw.append hbound (good_initializer hw has)
  exact laid_ofType style (hw.append hbody hk.fieldSeparator.1)
    (List.append_ne_nil_of_right_ne_nil _ hk.fieldSeparator.2) (style.get as .type)

theorem laid_topVar (has : style.substitution.GivesAttrs good as) :
    Laid good depth (Substitution.lineLevels depth (style.substitution.read as .type))
      fun format => (style.formatted format).topVar depth as := by
  have hbound := hw.append hk.visibility (good_topBinding hw has hk)
  have hbody := hw.append hbound (good_initializer hw has)
  exact laid_ofType style (hw.append hbody hk.terminator.1)
    (List.append_ne_nil_of_right_ne_nil _ hk.terminator.2) (style.get as .type)

/-- A declaration of a function on a line of its own. -/
theorem laid_finish {t : Text} (ht : good t) (isMember : Bool) :
    Laid good depth [some depth] fun format =>
      (style.formatted format).finish (if isMember then .member else .statement) depth t := by
  cases isMember with
  | true =>
      exact laid_line style (hw.append ht hk.fieldSeparator.1)
        (List.append_ne_nil_of_right_ne_nil _ hk.fieldSeparator.2)
  | false =>
      exact laid_line style (hw.append (hw.append hk.visibility ht) hk.terminator.1)
        (List.append_ne_nil_of_right_ne_nil _ hk.terminator.2)

end Parts

/-- An outcome that is a violation for every format, or for none and then has a good value. -/
def Uniform {α : Type} (good : (Format → α) → Prop) (r : Format → Except Violation α) : Prop :=
  (∃ g, good g ∧ ∀ format, r format = .ok (g format)) ∨ ∀ format, ∃ v, r format = .error v

/-- A value with a property that does not depend on the format. -/
def Constant {α : Type} (good : α → Prop) (g : Format → α) : Prop :=
  ∃ a, good a ∧ g = fun _ => a

namespace Uniform

variable {α β : Type} {A : (Format → α) → Prop} {B : (Format → β) → Prop}
  {r : Format → Except Violation α}

theorem ok {g : Format → α} (hg : A g) : Uniform A fun format => .ok (g format) :=
  .inl ⟨g, hg, fun _ => rfl⟩

theorem error (v : Violation) : Uniform A fun _ => .error v := .inr fun _ => ⟨v, rfl⟩

theorem atChild (hr : Uniform A r) (i : Nat) :
    Uniform A fun format => Style.atChild i (r format) := by
  rcases hr with ⟨g, hg, hok⟩ | herr
  · refine .inl ⟨g, hg, fun format => ?_⟩
    dsimp only
    rw [hok]
    rfl
  · refine .inr fun format => ?_
    obtain ⟨v, hv⟩ := herr format
    exact ⟨v.under i, by simp only [hv]; rfl⟩

/-- One step after another. -/
theorem bind {k : Format → α → Except Violation β} (hr : Uniform A r)
    (hk : ∀ g, A g → Uniform B fun format => k format (g format)) :
    Uniform B fun format => r format >>= k format := by
  rcases hr with ⟨g, hg, hok⟩ | herr
  · simp only [hok]
    exact hk g hg
  · refine .inr fun format => ?_
    obtain ⟨v, hv⟩ := herr format
    exact ⟨v, by simp only [hv]; rfl⟩

/-- A text, unless a child has a kind that is not allowed. -/
theorem checked {B : (Format → Text) → Prop} {g : Format → Text} (hg : B g) (parent : Kind)
    (cs : List Node) : Uniform B fun format => Style.checked parent cs (g format) := by
  simp only [Style.checked]
  cases Style.firstMismatch parent 0 cs with
  | some v => exact .error v
  | none => exact .ok hg

end Uniform

section Forests

/-- All texts of a list have a property. -/
def AllGood (good : Text → Prop) (ts : List Text) : Prop := ∀ t ∈ ts, good t

theorem constant_cons {good : Text → Prop} {g : Format → Text} {h : Format → List Text}
    (hg : Constant good g) (hh : Constant (AllGood good) h) :
    Constant (AllGood good) fun format => g format :: h format := by
  obtain ⟨p, hp, rfl⟩ := hg
  obtain ⟨ps, hps, rfl⟩ := hh
  exact ⟨p :: ps, List.forall_mem_cons.mpr ⟨hp, hps⟩, rfl⟩

variable {good : Text → Prop} (hw : Wording good) {style : Style} (hd : style.dialect.Keeps good)
include hw hd

/-- A function where it is a parameter itself. -/
theorem uniform_signature {k : Kind} {as : List Attr} {cs : List Node}
    (has : style.substitution.GivesAttrs good as) {depth : Nat}
    (hp : Uniform (Constant (AllGood good))
      fun format => (style.formatted format).params depth k 0 cs) :
    Uniform (Constant good)
      fun format => (style.formatted format).signature .parameter depth (.node k as cs) := by
  simp only [signature_node]
  refine hp.bind fun g hg => .ok ?_
  obtain ⟨ps, hps, rfl⟩ := hg
  refine ⟨style.declaration .parameter k as (Style.joinParams cs.length ps), ?_, rfl⟩
  exact good_declaration hw has hd .parameter k (good_joinParams hw cs.length hps)

/-- The parameters of a function, and those inside a parameter, do not depend on the format. -/
theorem uniform_parameters (cs : List Node) (hcs : style.substitution.Gives good cs) :
    (∀ depth fn i, fn.isCallable = true → Uniform (Constant (AllGood good))
      fun format => (style.formatted format).params depth fn i cs) ∧
    (∀ depth i, Uniform (Constant (AllGood good))
      fun format => (style.formatted format).nested depth i cs) := by
  induction cs using Forest.induction with
  | nil =>
      constructor
      · intro depth fn i _
        simp only [Style.params]
        exact .ok ⟨[], by simp [AllGood], rfl⟩
      · intro depth i
        simp only [Style.nested]
        exact .ok ⟨[], by simp [AllGood], rfl⟩
  | hole rest ih =>
      have hrest := Substitution.gives_hole.mp hcs
      constructor
      · intro depth fn i hfn
        simp only [Style.params]
        exact (ih hrest).1 depth fn (i + 1) hfn
      · intro depth i
        simp only [nested_other _ (n := .hole) (by simp [Node.kind?])]
        exact (ih hrest).2 depth (i + 1)
  | node k as cs rest ihc ihr =>
      obtain ⟨has, hbelow, hrest⟩ := Substitution.gives_node.mp hcs
      have hpointer (depth : Nat) : Uniform (Constant good) fun format =>
          (style.formatted format).signature .parameter depth (.node .functionPointer as cs) :=
        uniform_signature hw hd has ((ihc hbelow).1 depth .functionPointer 0 rfl)
      constructor
      · intro depth fn i hfn
        have hothers := (ihr hrest).1 depth fn (i + 1) hfn
        cases hk : fn.checkChild k with
        | some w =>
            simp only [params_refused _ hk]
            exact .error _
        | none =>
            rcases Kind.checkChild_eq_none_of_isCallable hfn hk with rfl | rfl
            · simp only [params_var _ hfn]
              cases checkParamsFrom fn 0 cs with
              | some v => exact .error _
              | none =>
                  refine (((ihc hbelow).2 depth 0).atChild i).bind fun g hg => ?_
                  refine hothers.bind fun h hh => .ok ?_
                  obtain ⟨ps, hps, rfl⟩ := hg
                  obtain ⟨qs, hqs, rfl⟩ := hh
                  refine ⟨ps ++ style.ownParam as ++ qs, ?_, rfl⟩
                  rw [AllGood, List.forall_mem_append, List.forall_mem_append]
                  exact ⟨⟨hps, good_ownParam hw has hd⟩, hqs⟩
            · simp only [params_pointer _ hfn]
              exact ((hpointer depth).atChild i).bind fun g hg =>
                hothers.bind fun h hh => .ok (constant_cons hg hh)
      · intro depth i
        have hothers := (ihr hrest).2 depth (i + 1)
        by_cases hk : k = .functionPointer
        · subst hk
          simp only [nested_pointer]
          exact ((hpointer depth).atChild i).bind fun g hg =>
            hothers.bind fun h hh => .ok (constant_cons hg hh)
        · simp only [nested_other _ (n := .node k as cs) (by simpa [Node.kind?] using hk)]
          exact hothers

/-- The levels of what a style makes of a declaration. -/
abbrev Style.nodeLevels (style : Style) (depth : Nat) (n : Node) : List (Option Nat) :=
  style.substitution.nodeLevels style.dialect.flagsWrapper.isSome depth n

/-- The levels of what a style makes of the members of a struct. -/
abbrev Style.memberLevels (style : Style) (depth : Nat) (cs : List Node) : List (Option Nat) :=
  style.substitution.memberLevels style.dialect.flagsWrapper.isSome depth cs

/-- A declaration, if the members are uniform where it is a struct. -/
theorem uniform_node_of_members (k : Kind) {as : List Attr} {cs : List Node}
    (has : style.substitution.GivesAttrs good as) (hcs : style.substitution.Gives good cs)
    (hm : ∀ depth, Uniform (Laid good depth (style.memberLevels depth cs))
      fun format => (style.formatted format).members depth 0 cs)
    (isMember : Bool) (depth : Nat) :
    Uniform (Laid good depth (style.nodeLevels depth (.node k as cs)))
      fun format => (style.formatted format).node isMember depth (.node k as cs) := by
  have hcall (hk : k.isCallable = true) : Uniform (Laid good depth [some depth])
      fun format => (style.formatted format).node isMember depth (.node k as cs) := by
    simp only [node_callable _ hk, signature_node]
    refine ((uniform_parameters hw hd cs hcs).1 depth k 0 hk).bind fun g hg => .ok ?_
    obtain ⟨ps, hps, rfl⟩ := hg
    exact laid_finish hw hd
      (good_declaration hw has hd _ k (good_joinParams hw cs.length hps)) isMember
  cases k with
  | unknown =>
      simp only [Style.node, Style.nodeLevels, Substitution.nodeLevels]
      exact .ok laid_nil
  | decoration =>
      simp only [Style.node, Style.nodeLevels, Substitution.nodeLevels]
      exact .ok (laid_decoration has)
  | var =>
      simp only [Style.node, Style.nodeLevels, Substitution.nodeLevels]
      cases isMember with
      | true => exact .ok (laid_memberVar hw hd has)
      | false => exact .ok (laid_topVar hw hd has)
  | function =>
      simp only [Style.nodeLevels, Substitution.nodeLevels]
      exact hcall rfl
  | functionPointer =>
      simp only [Style.nodeLevels, Substitution.nodeLevels]
      exact hcall rfl
  | enumeration =>
      simp only [Style.node, Style.nodeLevels, Substitution.nodeLevels]
      exact .checked (laid_block hw hd .enumeration has hcs (laid_enumEntries hw hd hcs)) _ _
  | struct =>
      simp only [node_struct, Style.nodeLevels, Substitution.nodeLevels]
      exact (hm (depth + 1)).bind fun g hg => .ok (laid_block hw hd .struct has hcs hg)
  | flagSet =>
      simp only [Style.node, Style.nodeLevels, Substitution.nodeLevels]
      exact .checked (laid_flagSet hw hd has hcs) _ _

theorem uniform_members (cs : List Node) (hcs : style.substitution.Gives good cs) :
    ∀ depth i, Uniform (Laid good depth (style.memberLevels depth cs))
      fun format => (style.formatted format).members depth i cs := by
  induction cs using Forest.induction with
  | nil =>
      intro depth i
      simp only [Style.members]
      exact .ok laid_nil
  | hole rest ih =>
      intro depth i
      simp only [members_hole, Style.memberLevels, Substitution.memberLevels_hole]
      exact ih (Substitution.gives_hole.mp hcs) depth (i + 1)
  | node k as cs rest ihc ihr =>
      intro depth i
      obtain ⟨has, hbelow, hrest⟩ := Substitution.gives_node.mp hcs
      have hothers := ihr hrest depth (i + 1)
      by_cases hk : k = .decoration
      · subst hk
        simp only [members_decoration]
        exact hothers
      · simp only [members_node _ hk, Style.memberLevels, Substitution.memberLevels_node _ _ hk]
        have hown := uniform_node_of_members hw hd k has hbelow (fun d => ihc hbelow d 0) true depth
        exact (hown.atChild i).bind fun g hg => hothers.bind fun h hh => .ok (hg.append hh)

theorem uniform_items (f : Forest) (hf : style.substitution.Gives good f) :
    ∀ i, Uniform (Laid good 0 (f.flatMap (style.nodeLevels 0)))
      fun format => (style.formatted format).items i f := by
  induction f with
  | nil =>
      intro i
      simp only [Style.items]
      exact .ok laid_nil
  | cons n rest ih =>
      intro i
      simp only [items_cons, List.flatMap_cons]
      cases n with
      | hole =>
          simp only [Style.node]
          have hothers := ih (Substitution.gives_hole.mp hf) (i + 1)
          exact ((Uniform.ok laid_nil).atChild i).bind fun g hg =>
            hothers.bind fun h hh => .ok (hg.append hh)
      | node k as cs =>
          obtain ⟨has, hbelow, hrest⟩ := Substitution.gives_node.mp hf
          have hown := uniform_node_of_members hw hd k has hbelow
            (fun d => uniform_members hw hd cs hbelow d 0) false 0
          exact (hown.atChild i).bind fun g hg =>
            (ih hrest (i + 1)).bind fun h hh => .ok (hg.append hh)

theorem laid_comment {t : Text} (ht : good t) :
    Laid good 0 [some 0] fun format => (style.formatted format).comment t := by
  have hline : good (style.dialect.lineComment ++ ofString " " ++ t) :=
    hw.append (hw.append hd.lineComment (hw.words (by decide))) ht
  have hne : style.dialect.lineComment ++ ofString " " ++ t ≠ [] := by
    rw [List.append_assoc]
    exact List.append_ne_nil_of_right_ne_nil _ (List.append_ne_nil_of_left_ne_nil (by decide) _)
  exact laid_line style hline hne

/-- A forest is refused in every format, or its lines are arranged in the same way in all of them,
with the levels of the forest. -/
theorem uniform_laid (f : Forest) (hf : style.substitution.Gives good f) :
    Uniform (Laid good 0 (style.substitution.levels style.dialect.flagsWrapper.isSome f))
      fun format => (style.formatted format).render f := by
  simp only [Style.render]
  refine (uniform_items hw hd f hf 0).bind fun g hg => .ok ?_
  exact ((laid_comment hw hd (hw.words (by decide))).append hg).append
    (laid_comment hw hd (hw.words (by decide)))

end Forests

end DeclGen
