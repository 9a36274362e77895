import DeclGen.Proofs.Render.Stepping

/-!
# Renderings that succeed

What is rendered without a violation was rendered piece by piece, and the position of a piece among
its siblings counts for violations only. This module takes successful renderings apart: what each
piece gave, and how the pieces stand together in the outcome.
-/

namespace DeclGen

open Style

namespace Style

/-- One step succeeds when what it needs does. -/
theorem map_eq_ok_iff {α β : Type} {r : Except Violation α} {g : α → β} {b : β} :
    (do let a ← r; return g a) = .ok b ↔ ∃ a, r = .ok a ∧ b = g a := by
  cases r <;> simp [bind, Except.bind, pure, Except.pure, eq_comm]

/-- Two steps succeed when both do. -/
theorem map₂_eq_ok_iff {α β γ : Type} {r : Except Violation α} {q : Except Violation β}
    {g : α → β → γ} {c : γ} :
    (do let a ← r; let b ← q; return g a b) = .ok c ↔
      ∃ a b, r = .ok a ∧ q = .ok b ∧ c = g a b := by
  cases r <;> cases q <;> simp [bind, Except.bind, pure, Except.pure, eq_comm]

@[simp]
theorem atChild_eq_ok_iff {α : Type} {i : Nat} {r : Except Violation α} {a : α} :
    atChild i r = .ok a ↔ r = .ok a := by
  cases r with
  | ok b => exact Iff.rfl
  | error v => exact ⟨nofun, nofun⟩

theorem checked_eq_ok_iff {parent : Kind} {cs : List Node} {t u : Text} :
    checked parent cs t = .ok u ↔ firstMismatch parent 0 cs = none ∧ u = t := by
  rw [checked]
  cases firstMismatch parent 0 cs <;> simp [eq_comm]

end Style

variable {style : Style} {depth i : Nat} {fn : Kind} {as : List Attr} {cs rest : List Node}
  {ps : List Text} {t : Text}

section Parameters

theorem params_hole :
    style.params depth fn i (.hole :: rest) = style.params depth fn (i + 1) rest := by
  rw [Style.params]

/-- A child of a function whose parameters were rendered is a variable or a function pointer. -/
theorem kind_of_params_eq_ok (hfn : fn.isCallable = true) {k : Kind}
    (h : style.params depth fn i (.node k as cs :: rest) = .ok ps) :
    k = .var ∨ k = .functionPointer := by
  cases hk : fn.checkChild k with
  | none => exact Kind.checkChild_eq_none_of_isCallable hfn hk
  | some m =>
      rw [params_refused style hk] at h
      cases h

theorem params_var_eq_ok_iff (hfn : fn.isCallable = true) :
    style.params depth fn i (.node .var as cs :: rest) = .ok ps ↔
      checkParamsFrom fn 0 cs = none ∧ ∃ inner others, style.nested depth 0 cs = .ok inner ∧
        style.params depth fn (i + 1) rest = .ok others ∧
        ps = inner ++ style.ownParam as ++ others := by
  rw [params_var style hfn]
  cases checkParamsFrom fn 0 cs with
  | some v => simp
  | none => simp only [map₂_eq_ok_iff, atChild_eq_ok_iff, true_and]

theorem params_pointer_eq_ok_iff (hfn : fn.isCallable = true) :
    style.params depth fn i (.node .functionPointer as cs :: rest) = .ok ps ↔
      ∃ own others,
        style.signature .parameter depth (.node .functionPointer as cs) = .ok own ∧
        style.params depth fn (i + 1) rest = .ok others ∧ ps = own :: others := by
  simp only [params_pointer style hfn, map₂_eq_ok_iff, atChild_eq_ok_iff]

theorem nested_pointer_eq_ok_iff :
    style.nested depth i (.node .functionPointer as cs :: rest) = .ok ps ↔
      ∃ own others,
        style.signature .parameter depth (.node .functionPointer as cs) = .ok own ∧
        style.nested depth (i + 1) rest = .ok others ∧ ps = own :: others := by
  simp only [nested_pointer, map₂_eq_ok_iff, atChild_eq_ok_iff]

/-- Parameters that were rendered do not depend on the position of the first child. -/
theorem params_eq_ok_congr (hfn : fn.isCallable = true) (j : Nat) :
    style.params depth fn i cs = .ok ps ↔ style.params depth fn j cs = .ok ps := by
  induction cs generalizing i j ps with
  | nil => rw [Style.params, Style.params]
  | cons n rest ih =>
      cases n with
      | hole => rw [params_hole, params_hole, ih (j + 1)]
      | node k as cs =>
          cases hk : fn.checkChild k with
          | some m =>
              rw [params_refused style hk, params_refused style hk]
              simp
          | none =>
              rcases Kind.checkChild_eq_none_of_isCallable hfn hk with rfl | rfl
              · simp only [params_var_eq_ok_iff hfn, ih (j + 1)]
              · simp only [params_pointer_eq_ok_iff hfn, ih (j + 1)]

theorem signature_eq_ok_iff {place : Place} {k : Kind} :
    style.signature place depth (.node k as cs) = .ok t ↔
      ∃ ps, style.params depth k 0 cs = .ok ps ∧
        t = style.finish place depth (style.declaration place k as (joinParams cs.length ps)) := by
  rw [signature_node, map_eq_ok_iff]

end Parameters

end DeclGen
