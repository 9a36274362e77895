import DeclGen.Proofs.Render.Reading

/-!
# Attributes that count

Of the attributes of a declaration only the last one of each name counts, and only five names do.
Rendering does not change when all other attributes are dropped and the rest are put in another
order. Decorations are kept as they are: they render every attribute in its place.

## Implementation notes

An attribute that is dropped may hide an empty one or be hidden by it, and it makes a difference
whether an attribute is missing or empty. So the lemmas compare look-ups and not values.
-/

namespace DeclGen

open Text (ofString)

namespace Attr

/-- The attributes that count: of each name that is read the last one. -/
def effective : List Attr → List Attr
  | [] => []
  | a :: rest =>
    if a.key.isRead && rest.all (·.key != a.key) then a :: effective rest else effective rest

variable {key : AttrKey} {v : Text} {as bs : List Attr}

/-- A later attribute hides an earlier one with the same name. -/
theorem lookup?_cons (key : AttrKey) (a : Attr) (rest : List Attr) :
    lookup? key (a :: rest) =
      (lookup? key rest).or (if a.key = key then some a.value else none) := by
  rw [lookup?, lookup?, List.reverse_cons, List.find?_append, Option.map_or]
  by_cases h : a.key = key
  · simp [h]
  · simp [h]

theorem lookup?_eq_none_iff : lookup? key as = none ↔ ∀ a ∈ as, a.key ≠ key := by
  simp [lookup?]

/-- Where no name occurs twice, every attribute is the one that is found by its name. -/
theorem lookup?_eq_some_iff_mem (hnodup : (as.map Attr.key).Nodup) :
    lookup? key as = some v ↔ ⟨key, v⟩ ∈ as := by
  induction as with
  | nil => simp [lookup?]
  | cons a rest ih =>
      obtain ⟨k, w⟩ := a
      rw [List.map_cons, List.nodup_cons] at hnodup
      rw [lookup?_cons, List.mem_cons, ← ih hnodup.2]
      by_cases h : k = key
      · subst h
        have hrest : lookup? k rest = none := by
          rw [lookup?_eq_none_iff]
          intro a ha heq
          exact hnodup.1 (List.mem_map.mpr ⟨a, ha, heq⟩)
        simp [hrest, eq_comm]
      · simp [h, Ne.symm h]

/-- Where no name occurs twice, the order of attributes does not matter. -/
theorem lookup?_perm (h : bs.Perm as) (hnodup : (as.map Attr.key).Nodup) (key : AttrKey) :
    lookup? key bs = lookup? key as := by
  have hbs : (bs.map Attr.key).Nodup := (h.map Attr.key).nodup_iff.mpr hnodup
  apply Option.ext
  intro v
  calc lookup? key bs = some v
      ↔ ⟨key, v⟩ ∈ bs := lookup?_eq_some_iff_mem hbs
    _ ↔ ⟨key, v⟩ ∈ as := h.mem_iff
    _ ↔ lookup? key as = some v := (lookup?_eq_some_iff_mem hnodup).symm

theorem effective_sublist (as : List Attr) : (effective as).Sublist as := by
  induction as with
  | nil => exact .slnil
  | cons a rest ih =>
      rw [effective]
      split
      · exact ih.cons_cons a
      · exact ih.cons a

theorem nodup_keys_effective (as : List Attr) : ((effective as).map Attr.key).Nodup := by
  induction as with
  | nil => exact List.nodup_nil
  | cons a rest ih =>
      rw [effective]
      split
      · next hkept =>
          have hlast : ∀ x ∈ rest, x.key ≠ a.key := by simpa using (Bool.and_eq_true_iff.mp hkept).2
          rw [List.map_cons, List.nodup_cons]
          refine ⟨?_, ih⟩
          intro hmem
          obtain ⟨x, hx, heq⟩ := List.mem_map.mp hmem
          exact hlast x ((effective_sublist rest).subset hx) heq
      · exact ih

/-- By names that are read, the attributes that count are found as before. -/
theorem lookup?_effective (hkey : key.isRead = true) (as : List Attr) :
    lookup? key (effective as) = lookup? key as := by
  induction as with
  | nil => rfl
  | cons a rest ih =>
      rw [effective, lookup?_cons]
      split
      · rw [lookup?_cons, ih]
      · next hdropped =>
          rw [ih]
          split
          · next heq =>
              -- the name is read, so the attribute was dropped for a later one
              have hlater : lookup? key rest ≠ none := by
                rw [Ne, lookup?_eq_none_iff]
                intro hall
                exact hdropped (by simpa [heq, hkey] using hall)
              obtain ⟨v, hv⟩ := Option.ne_none_iff_exists'.mp hlater
              rw [hv, Option.some_or]
          · rw [Option.or_none]

end Attr

namespace Forest

/-- The second forest is the first one in which every declaration that is no decoration keeps only
the attributes that count, in any order. -/
inductive Reduced : Forest → Forest → Prop
  | nil : Reduced [] []
  | hole {f g} (rest : Reduced f g) : Reduced (.hole :: f) (.hole :: g)
  | decoration {as cs ds f g} (below : Reduced cs ds) (rest : Reduced f g) :
      Reduced (.node .decoration as cs :: f) (.node .decoration as ds :: g)
  | node {k as bs cs ds f g} (other : k ≠ .decoration) (attrs : bs.Perm (Attr.effective as))
      (below : Reduced cs ds) (rest : Reduced f g) :
      Reduced (.node k as cs :: f) (.node k bs ds :: g)

/-- A reduced forest agrees with the forest in all that is read. -/
theorem Reduced.alike {f g : Forest} (h : Reduced f g) (s : Substitution) :
    ∀ m, Alike s s m f g := by
  induction h with
  | nil =>
      intro m
      exact .nil
  | hole _ ih =>
      intro m
      exact .hole (ih m)
  | decoration _ _ ihc ihr =>
      intro m
      exact .node (fun hk => absurd rfl hk) (fun _ => rfl) (fun _ => ihc _) (ihr m)
  | @node k as bs cs ds f g other attrs _ _ ihc ihr =>
      intro m
      refine .node (fun _ key hkey => ?_) (fun hk => absurd hk other) (fun _ => ihc _) (ihr m)
      rw [Attr.lookup?_perm attrs (Attr.nodup_keys_effective as), Attr.lookup?_effective hkey]

end Forest

/-- Rendering depends only on the attributes that count: dropping all others, in every declaration
that is no decoration, and reordering those that are left changes neither text nor violation. -/
theorem render_reduced (dialect : Dialect) (format : Format) (s : Substitution) {f g : Forest}
    (h : f.Reduced g) :
    Style.render { dialect, format, substitution := s } g =
      Style.render { dialect, format, substitution := s } f :=
  ((h.alike s .free).render { dialect, format }).symm

/-- A decoration with a repeated name, a variable whose qualifier is emptied again, and a function
whose parameter and the pointer inside it have hidden attributes. -/
def hiddenAttrs : Forest :=
  [.node .decoration [⟨.name, ofString "#[a]"⟩, ⟨.name, ofString "#[b]"⟩] [],
    .node .var [⟨.qualifier, ofString "static"⟩, ⟨.other "doc", []⟩, ⟨.name, ofString "u"⟩,
      ⟨.type, ofString "T"⟩, ⟨.qualifier, []⟩, ⟨.name, ofString "v"⟩] [],
    .node .function [⟨.name, []⟩, ⟨.name, ofString "f"⟩]
      [.node .var [⟨.type, []⟩, ⟨.type, ofString "A"⟩]
        [.node .functionPointer [⟨.type, ofString "R"⟩, ⟨.name, ofString "p"⟩, ⟨.type, []⟩] []]]]

/-- The same forest without what is hidden, in another order. -/
def shownAttrs : Forest :=
  [.node .decoration [⟨.name, ofString "#[a]"⟩, ⟨.name, ofString "#[b]"⟩] [],
    .node .var [⟨.name, ofString "v"⟩, ⟨.qualifier, []⟩, ⟨.type, ofString "T"⟩] [],
    .node .function [⟨.name, ofString "f"⟩]
      [.node .var [⟨.type, ofString "A"⟩]
        [.node .functionPointer [⟨.type, []⟩, ⟨.name, ofString "p"⟩] []]]]

theorem hiddenAttrs_reduced :
    hiddenAttrs.Reduced shownAttrs ∧
      ∃ t, ({ dialect := .rust } : Style).render hiddenAttrs = .ok t ∧
        ({ dialect := .rust } : Style).render shownAttrs = .ok t := by
  have hpointer : Forest.Reduced
      [.node .functionPointer [⟨.type, ofString "R"⟩, ⟨.name, ofString "p"⟩, ⟨.type, []⟩] []]
      [.node .functionPointer [⟨.type, []⟩, ⟨.name, ofString "p"⟩] []] :=
    .node (by decide) (by decide) .nil .nil
  have hreduced : hiddenAttrs.Reduced shownAttrs := by
    apply Forest.Reduced.decoration .nil
    apply Forest.Reduced.node (by decide) (by decide) .nil
    apply Forest.Reduced.node (by decide) (by decide) _ .nil
    exact .node (by decide) (by decide) hpointer .nil
  obtain ⟨t, ht⟩ : ∃ t, ({ dialect := .rust } : Style).render hiddenAttrs = .ok t := ⟨_, rfl⟩
  exact ⟨hreduced, t, ht, (render_reduced .rust {} {} hreduced).trans ht⟩

end DeclGen
