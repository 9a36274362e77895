import DeclGen.Proofs.Render.Reading

/-!
# Substitution while rendering and before it

Reading every attribute value through a substitution gives what rendering the replaced forest gives:
a replaced list of attributes answers each look-up with the replaced value, an attribute that is
missing stays missing, and an empty value may be replaced like any other.
-/

namespace DeclGen

namespace Substitution

theorem apply_hole (s : Substitution) (rest : Forest) :
    s.apply (.hole :: rest) = .hole :: s.apply rest := rfl

theorem apply_node (s : Substitution) (k : Kind) (as : List Attr) (cs : List Node)
    (rest : Forest) :
    s.apply (.node k as cs :: rest) =
      .node k (as.map s.applyAttr) (s.apply cs) :: s.apply rest := rfl

/-- Replacing values commutes with looking up the last occurrence of a name. -/
theorem lookup?_map_applyAttr (s : Substitution) (key : AttrKey) (as : List Attr) :
    Attr.lookup? key (as.map s.applyAttr) = (Attr.lookup? key as).map s.resolve := by
  have hkey : ((fun a : Attr => a.key == key) ∘ s.applyAttr) = fun a => a.key == key := rfl
  rw [Attr.lookup?, Attr.lookup?, ← List.map_reverse, List.find?_map, hkey, Option.map_map,
    Option.map_map]
  rfl

theorem sameValues_applyAttr (s : Substitution) (as : List Attr) :
    SameValues s {} as (as.map s.applyAttr) := by
  intro key _
  rw [lookup?_map_applyAttr, Option.map_map]
  rfl

theorem sameLines_applyAttr (s : Substitution) (as : List Attr) :
    SameLines s {} as (as.map s.applyAttr) := by
  rw [SameLines, List.map_map]
  rfl

/-- A forest read through a substitution is like the replaced forest read as it is. -/
theorem alike_apply (s : Substitution) (f : Forest) : ∀ m, Alike s {} m f (s.apply f) := by
  induction f using Forest.induction with
  | nil =>
      intro m
      exact .nil
  | hole rest ih =>
      intro m
      rw [apply_hole]
      exact .hole (ih m)
  | node k as cs rest ihc ihr =>
      intro m
      rw [apply_node]
      exact .node (fun _ => s.sameValues_applyAttr as) (fun _ => s.sameLines_applyAttr as)
        (fun _ => ihc _) (ihr m)

end Substitution

/-- Rendering through a substitution is rendering the replaced forest without one, text and
violation alike. -/
theorem render_overlay_eq_render_apply (dialect : Dialect) (format : Format) (s : Substitution)
    (f : Forest) :
    Style.render { dialect, format, substitution := s } f =
      Style.render { dialect, format, substitution := {} } (s.apply f) :=
  (s.alike_apply f .free).render { dialect, format }

end DeclGen
