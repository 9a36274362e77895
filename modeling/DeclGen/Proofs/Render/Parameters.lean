import DeclGen.Proofs.Render.Success
import Mathlib.Algebra.Ring.Nat

/-!
# Parameters that are skipped

A variable without a type and without children stands for no parameter, wherever it is put among the
children of a function. It shows in one way only. Separators are written where a function has
several children, and a skipped one counts; so it shows beside a single child that gives several
parameters, which without it stand together unseparated.

## Implementation notes

The text of a declaration is a frame around its parameters: what stands before and behind them does
not depend on them. So two declarations that differ in their parameters only are the same exactly if
the parameters are.
-/

namespace DeclGen

open Text (ofString)

section Frames

/-- A function of texts that puts its argument between two others. -/
def Text.Framed (g : Text → Text) : Prop := ∃ before after, ∀ t, g t = before ++ t ++ after

namespace Text.Framed

variable {g h : Text → Text}

theorem self : Framed fun t => t := ⟨[], [], by simp⟩

theorem append_left (hg : Framed g) (s : Text) : Framed fun t => s ++ g t := by
  obtain ⟨before, after, hg⟩ := hg
  exact ⟨s ++ before, after, fun t => by simp [hg]⟩

theorem append_right (hg : Framed g) (s : Text) : Framed fun t => g t ++ s := by
  obtain ⟨before, after, hg⟩ := hg
  exact ⟨before, after ++ s, fun t => by simp [hg]⟩

theorem comp (hg : Framed g) (hh : Framed h) : Framed fun t => g (h t) := by
  obtain ⟨before, after, hg⟩ := hg
  obtain ⟨before', after', hh⟩ := hh
  exact ⟨before ++ before', after' ++ after, fun t => by simp [hg, hh]⟩

theorem ite {c : Prop} [Decidable c] (hg : Framed g) (hh : Framed h) :
    Framed fun t => if c then g t else h t := by
  by_cases hc : c
  · simpa only [hc, if_true] using hg
  · simpa only [hc, if_false] using hh

theorem eq_iff (hg : Framed g) {s t : Text} : g s = g t ↔ s = t := by
  obtain ⟨before, after, hg⟩ := hg
  simp [hg]

end Text.Framed

/-- A dialect that puts types and parameters into a frame. -/
structure Dialect.Frames (d : Dialect) : Prop where
  bind : ∀ name, Text.Framed (d.bind name)
  funcType : ∀ sig : Signature, Text.Framed fun params => d.funcType { sig with params }

namespace Dialect

open Text (Framed)

theorem framed_withPart {g : Text → Text} (hg : Framed g) (sep part : Text) :
    Framed fun t => withPart (g t) sep part :=
  hg.ite ((hg.append_right sep).append_right part)

theorem framed_qualified {g : Text → Text} (hg : Framed g) (qualifier : Text) :
    Framed fun t => qualified qualifier (g t) :=
  hg.ite (hg.append_left _)

theorem framed_bindAfter (name : Text) : Framed (bindAfter name) :=
  Framed.self.ite (Framed.self.append_left _)

theorem framed_bindBefore (name : Text) : Framed (bindBefore name) :=
  Framed.self.ite ((Framed.self.append_right _).append_right name)

theorem frames_rust : rust.Frames where
  bind := framed_bindAfter
  funcType sig := by
    have hcall : Framed fun params => ofString "fn(" ++ params ++ ofString ")" :=
      (Framed.self.append_left _).append_right _
    exact (framed_bindAfter sig.name).comp
      (framed_withPart (framed_qualified hcall sig.qualifier) (ofString " -> ") sig.result)

theorem frames_cpp : cpp.Frames where
  bind := framed_bindBefore
  funcType sig := by
    have hcall : Framed fun params => withPart (ofString "auto") (ofString " ") (declarator sig) ++
        ofString "(" ++ params ++ ofString ") -> " ++
        (if sig.result.isEmpty then ofString "void" else sig.result) :=
      ((Framed.self.append_left _).append_right _).append_right _
    exact framed_qualified hcall sig.qualifier

theorem frames_dialect (l : Lang) : l.dialect.Frames := by
  cases l with
  | cpp => exact frames_cpp
  | rust => exact frames_rust

end Dialect

variable {style : Style} (hd : style.dialect.Frames)
include hd

theorem framed_declaration (place : Place) (k : Kind) (as : List Attr) :
    Text.Framed (style.declaration place k as) := by
  have hinner := hd.funcType { result := style.get as .type }
  have hplain := hd.funcType
    { name := style.get as .name, qualifier := style.funcQualifier place k as,
      result := style.get as .type, isPointer := k == .functionPointer }
  have hgeneric := (hd.bind (style.get as .name)).comp
    ((hinner.append_left (style.funcQualifier place k as)).append_right style.dialect.genericClose)
  exact hgeneric.ite hplain

omit hd in
theorem framed_finish (place : Place) (depth : Nat) : Text.Framed (style.finish place depth) := by
  have hline : Text.Framed (style.line depth) := (Text.Framed.self.append_left _).append_right _
  cases place with
  | parameter => exact .self
  | member => exact hline.comp (Text.Framed.self.append_right _)
  | statement => exact hline.comp ((Text.Framed.self.append_left _).append_right _)

end Frames

section Counting

/-- How many parameters a child of a function gives: a variable gives the function pointers among
its own children, and itself if it has a type. -/
def Style.paramCount (style : Style) : Node → Nat
  | .node .functionPointer _ _ => 1
  | .node .var as cs =>
    cs.countP (·.kind? == some .functionPointer) + if (style.get as .type).isEmpty then 0 else 1
  | _ => 0

variable {style : Style} {depth i : Nat} {cs : List Node} {ps : List Text}

theorem length_ownParam (as : List Attr) :
    (style.ownParam as).length = if (style.get as .type).isEmpty then 0 else 1 := by
  rw [Style.ownParam]
  split <;> rfl

theorem length_nested (h : style.nested depth i cs = .ok ps) :
    ps.length = cs.countP (·.kind? == some .functionPointer) := by
  induction cs generalizing i ps with
  | nil =>
      rw [Style.nested] at h
      cases h
      rfl
  | cons n rest ih =>
      by_cases hn : n.kind? = some .functionPointer
      · rcases n with _ | ⟨k, as, cs⟩
        · cases hn
        · cases hn
          obtain ⟨own, others, -, hothers, rfl⟩ := nested_pointer_eq_ok_iff.mp h
          rw [List.length_cons, ih hothers, List.countP_cons_of_pos (by simp [Node.kind?])]
      · rw [nested_other style hn] at h
        rw [ih h, List.countP_cons_of_neg (by simpa using hn)]

/-- The children of a function give its parameters one after the other. -/
theorem length_params {fn : Kind} (hfn : fn.isCallable = true)
    (h : style.params depth fn i cs = .ok ps) : ps.length = (cs.map style.paramCount).sum := by
  induction cs generalizing i ps with
  | nil =>
      rw [Style.params] at h
      cases h
      rfl
  | cons n rest ih =>
      rw [List.map_cons, List.sum_cons]
      cases n with
      | hole =>
          rw [params_hole] at h
          rw [ih h, Style.paramCount, Nat.zero_add]
          all_goals simp
      | node k as cs =>
          rcases kind_of_params_eq_ok hfn h with rfl | rfl
          · obtain ⟨-, inner, others, hinner, hothers, rfl⟩ := (params_var_eq_ok_iff hfn).mp h
            rw [List.length_append, List.length_append, length_nested hinner, length_ownParam,
              ih hothers, Style.paramCount]
          · obtain ⟨own, others, -, hothers, rfl⟩ := (params_pointer_eq_ok_iff hfn).mp h
            rw [List.length_cons, ih hothers, Style.paramCount, Nat.add_comm]

/-- A separator shows where there are two texts or more. -/
theorem join_eq_join_nil_iff {sep : Text} (hsep : sep ≠ []) :
    Text.join sep ps = Text.join [] ps ↔ ps.length ≤ 1 := by
  have hlength (s : Text) (ts : List Text) :
      (Text.join s ts).length = (ts.map List.length).sum + (ts.length - 1) * s.length := by
    induction ts with
    | nil => simp [Text.join]
    | cons t rest ih =>
        cases rest with
        | nil => simp [Text.join]
        | cons u more =>
            rw [Text.join]
            · rw [List.length_append, List.length_append, ih]
              simp [Nat.succ_mul]
              omega
            · simp
  constructor
  · intro h
    have heq := congrArg List.length h
    rw [hlength, hlength, List.length_nil, Nat.mul_zero, Nat.add_zero, Nat.add_eq_left,
      Nat.mul_eq_zero, List.length_eq_zero_iff] at heq
    rcases heq with hone | hnil
    · omega
    · exact absurd hnil hsep
  · intro h
    match ps, h with
    | [], _ => rfl
    | [_], _ => rfl

end Counting

section Skipping

variable {style : Style} {depth i : Nat} {fn : Kind} {bs : List Attr} {ps : List Text}

/-- A childless variable without a type changes nothing about the parameters of a function, wherever
it stands among the children. -/
theorem params_skipped_eq_ok_iff (hfn : fn.isCallable = true) (hbs : style.get bs .type = [])
    (before after : List Node) :
    style.params depth fn i (before ++ .node .var bs [] :: after) = .ok ps ↔
      style.params depth fn i (before ++ after) = .ok ps := by
  induction before generalizing i ps with
  | nil =>
      have hown : style.ownParam bs = [] := by
        rw [Style.ownParam, hbs]
        rfl
      have hnested : style.nested depth 0 [] = .ok [] := by rw [Style.nested]
      rw [List.nil_append, List.nil_append, params_var_eq_ok_iff hfn, hown, hnested,
        params_eq_ok_congr hfn (i + 1), checkParamsFrom]
      simp
  | cons n before ih =>
      rw [List.cons_append, List.cons_append]
      cases n with
      | hole => rw [params_hole, params_hole, ih]
      | node k as cs =>
          cases hk : fn.checkChild k with
          | some m =>
              rw [params_refused style hk, params_refused style hk]
          | none =>
              rcases Kind.checkChild_eq_none_of_isCallable hfn hk with rfl | rfl
              · simp only [params_var_eq_ok_iff hfn, ih]
              · simp only [params_pointer_eq_ok_iff hfn, ih]

/-- Beside a skipped child, separators are written as before, unless there was a single child with
several parameters. -/
theorem joinParams_skipped_eq_iff (hfn : fn.isCallable = true) {cs : List Node}
    (h : style.params depth fn i cs = .ok ps) :
    Style.joinParams (cs.length + 1) ps = Style.joinParams cs.length ps ↔
      ∀ c, cs = [c] → style.paramCount c ≤ 1 := by
  have hlength := length_params hfn h
  match cs, hlength with
  | [], hlength =>
      have hnil : ps = [] := List.length_eq_zero_iff.mp hlength
      simp [hnil, Style.joinParams, Text.join]
  | [c], hlength =>
      have hone : ps.length = style.paramCount c := by simpa using hlength
      have hsep : ofString ", " ≠ [] := by decide
      have hshows : Text.join (ofString ", ") ps = Text.join [] ps ↔ ps.length ≤ 1 :=
        join_eq_join_nil_iff hsep
      simpa [Style.joinParams, hone] using hshows
  | c :: d :: rest, _ => simp [Style.joinParams]

/-- Two renderings of a function with different numbers of children are the same exactly if their
parameters are written the same. -/
theorem finish_declaration_eq_iff (hd : style.dialect.Frames) (place : Place) (depth : Nat)
    (k : Kind) (as : List Attr) {p q : Text} :
    style.finish place depth (style.declaration place k as p) =
        style.finish place depth (style.declaration place k as q) ↔ p = q :=
  ((framed_finish place depth).comp (framed_declaration hd place k as)).eq_iff

/-- A childless variable without a type, put among the children of a function, does not decide
whether the function is rendered. It leaves no trace in the text either, except beside a single
child that gives several parameters: these are separated with it and not without it. -/
theorem skipped_param_traceless (l : Lang) (style : Style) (hl : style.dialect = l.dialect)
    (place : Place) (depth : Nat) (k : Kind) (hk : k.isCallable = true) (as bs : List Attr)
    (hbs : style.get bs .type = []) (before after : List Node) :
    ((∃ t, style.signature place depth (.node k as (before ++ .node .var bs [] :: after)) = .ok t) ↔
      ∃ u, style.signature place depth (.node k as (before ++ after)) = .ok u) ∧
    ∀ t u, style.signature place depth (.node k as (before ++ .node .var bs [] :: after)) = .ok t →
      style.signature place depth (.node k as (before ++ after)) = .ok u →
      (t = u ↔ ∀ c, before ++ after = [c] → style.paramCount c ≤ 1) := by
  have hd : style.dialect.Frames := hl ▸ Dialect.frames_dialect l
  have hparams (ps : List Text) :
      style.params depth k 0 (before ++ .node .var bs [] :: after) = .ok ps ↔
        style.params depth k 0 (before ++ after) = .ok ps :=
    params_skipped_eq_ok_iff hk hbs before after
  have hlength : (before ++ .node .var bs [] :: after).length = (before ++ after).length + 1 := by
    simp [Nat.add_assoc]
  constructor
  · simp only [signature_eq_ok_iff, hparams]
    exact ⟨fun ⟨_, ps, hps, _⟩ => ⟨_, ps, hps, rfl⟩, fun ⟨_, ps, hps, _⟩ => ⟨_, ps, hps, rfl⟩⟩
  · intro t u ht hu
    obtain ⟨ps, hps, rfl⟩ := signature_eq_ok_iff.mp ht
    obtain ⟨qs, hqs, rfl⟩ := signature_eq_ok_iff.mp hu
    have hsame : ps = qs := Except.ok.inj (((hparams ps).mp hps).symm.trans hqs)
    subst hsame
    rw [finish_declaration_eq_iff hd, hlength, joinParams_skipped_eq_iff hk hqs]

/-- A variable that gives two parameters: the function pointer inside it, and itself. -/
def twofoldParam : Node :=
  .node .var [⟨.name, ofString "x"⟩, ⟨.type, ofString "T"⟩] [.node .functionPointer [] []]

/-- The exception is needed: beside a single child with two parameters, a skipped one puts a
separator between them. -/
theorem not_every_skipped_param_traceless :
    ¬ ∀ (l : Lang) (style : Style), style.dialect = l.dialect → ∀ (place : Place) (depth : Nat)
      (k : Kind), k.isCallable = true → ∀ (as bs : List Attr), style.get bs .type = [] →
      ∀ (before after : List Node) (u : Text),
        style.signature place depth (.node k as (before ++ after)) = .ok u →
        style.signature place depth (.node k as (before ++ .node .var bs [] :: after)) = .ok u := by
  intro h
  have halone : ({ dialect := Lang.rust.dialect } : Style).signature .statement 0
      (.node .function [⟨.name, ofString "f"⟩] [twofoldParam]) =
        .ok (ofString "pub f: fn(extern fn()x: T);\n") := by
    rfl
  have hbeside : ({ dialect := Lang.rust.dialect } : Style).signature .statement 0
      (.node .function [⟨.name, ofString "f"⟩] [twofoldParam, .node .var [] []]) =
        .ok (ofString "pub f: fn(extern fn(), x: T);\n") := by
    rfl
  have hsame := h .rust { dialect := Lang.rust.dialect } rfl .statement 0 .function rfl
    [⟨.name, ofString "f"⟩] [] rfl [twofoldParam] [] _ halone
  rw [List.singleton_append, hbeside] at hsame
  exact absurd (Except.ok.inj hsame) (by decide)

/-- A style that takes one type away. -/
def withdrawingStyle : Style where
  dialect := Lang.cpp.dialect
  substitution := { types := .ofList [(ofString "gone", [])] }

theorem withdrawnParam_traceless :
    withdrawingStyle.get [⟨.type, ofString "gone"⟩] .type = [] ∧
      withdrawingStyle.signature .member 1 (.node .functionPointer [⟨.name, ofString "f"⟩]
          [twofoldParam, .node .var [⟨.type, ofString "gone"⟩] [], .hole]) =
        .ok (ofString "    auto (*f)(auto (*)() -> void, T x) -> void;\n") := by
  have hgone : withdrawingStyle.get [⟨.type, ofString "gone"⟩] .type = [] := by decide
  have hwithout : withdrawingStyle.signature .member 1
      (.node .functionPointer [⟨.name, ofString "f"⟩] [twofoldParam, .hole]) =
        .ok (ofString "    auto (*f)(auto (*)() -> void, T x) -> void;\n") := by
    rfl
  obtain ⟨hrendered, htext⟩ := skipped_param_traceless .cpp withdrawingStyle rfl .member 1
    .functionPointer rfl [⟨.name, ofString "f"⟩] [⟨.type, ofString "gone"⟩] hgone [twofoldParam]
    [.hole]
  obtain ⟨t, ht⟩ := hrendered.mpr ⟨_, hwithout⟩
  refine ⟨hgone, ht.trans (congrArg Except.ok ?_)⟩
  exact (htext t _ ht hwithout).mpr (by simp)

end Skipping

end DeclGen
