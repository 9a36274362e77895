import DeclGen.Proofs.Document.Reading
import DeclGen.Proofs.Tree.FirstViolation

/-!
# Items and the nodes that they describe

The forest of a document has the shape of its items: what stands at an address is the node of the
item at this address, and nothing stands where there is no item. The records about a document are
those of the items whose tags name no kind, in pre-order, each with the tag and the path of the
item.

## Implementation notes

As for violations, pre-order is the lexicographic order of addresses. So the records are described
by a list of items that is sorted by address, has all refused items and has no others.
-/

namespace DeclGen

namespace Item

/-- The item at an address below an item; the empty address leads to the item itself. -/
def below? : Item → List Nat → Option Item
  | i, [] => some i
  | i, n :: rest => i.children[n]?.bind (below? · rest)

/-- The item at an address, which is a position among items and then among children. -/
def at? (items : List Item) : List Nat → Option Item
  | [] => none
  | n :: rest => items[n]?.bind (below? · rest)

/-- The item gives an attribute: a qualifier wherever it is there, all others unless they are
empty. -/
def Gives (i : Item) : AttrKey → String → Prop
  | .name, s => i.name = s ∧ s ≠ ""
  | .type, s => i.type = s ∧ s ≠ ""
  | .value, s => i.value = s ∧ s ≠ ""
  | .qualifier, s => i.qualifier = some s
  | .decoration, s => i.decoration = s ∧ s ≠ ""
  | .other _, _ => False

/-- The attributes are exactly those that the item gives, in the order of their names and each at
most once. -/
structure Lists (i : Item) (as : List Attr) : Prop where
  ordered : (as.map Attr.key).Sublist [.name, .type, .value, .qualifier, .decoration]
  given : ∀ a, a ∈ as ↔ ∃ s, i.Gives a.key s ∧ a.value = .ofString s

/-- The forest has the shape of the items and, where an item stands, a declaration with the kind of
its tag, its attributes and as many children. -/
structure Mirrored (items : List Item) (f : Forest) : Prop where
  length : f.length = items.length
  absent : ∀ a, at? items a = none → f.at? a = none
  present : ∀ a i, at? items a = some i → ∃ as cs,
    f.at? a = some (.node ((Kind.parse? i.tag).getD .unknown) as cs) ∧ i.Lists as ∧
      cs.length = i.children.length

/-- The list has the items with tags that name no kind, as they are found by their addresses, in
pre-order. -/
structure Refused (find : List Nat → Option Item) (rs : List (List Nat × Item)) : Prop where
  sorted : rs.Pairwise fun r s => r.1 < s.1
  complete : ∀ r, r ∈ rs ↔ find r.1 = some r.2 ∧ Kind.parse? r.2.tag = none

/-- A property of lists of items follows from what it says of the children of the first item and of
the items after it. -/
@[elab_as_elim]
theorem list_induction {motive : List Item → Prop} (nil : motive [])
    (cons : ∀ i rest, motive i.children → motive rest → motive (i :: rest)) :
    ∀ items, motive items
  | [] => nil
  | ⟨tag, name, type, value, qualifier, decoration, children⟩ :: rest =>
      cons ⟨tag, name, type, value, qualifier, decoration, children⟩ rest
        (list_induction nil cons children) (list_induction nil cons rest)

section Shape

@[simp]
theorem at?_zero (i : Item) (rest : List Item) (a : List Nat) :
    at? (i :: rest) (0 :: a) = i.below? a := rfl

@[simp]
theorem at?_succ (i : Item) (rest : List Item) (n : Nat) (a : List Nat) :
    at? (i :: rest) ((n + 1) :: a) = at? rest (n :: a) := rfl

theorem below?_cons (i : Item) (n : Nat) (a : List Nat) :
    i.below? (n :: a) = at? i.children (n :: a) := rfl

/-- What stands at an address of the forest is the node of the item at this address. -/
theorem at?_nodes (items : List Item) (a : List Nat) :
    Forest.at? (nodes items) a = (at? items a).map node := by
  induction a generalizing items with
  | nil => rfl
  | cons n rest ih =>
      have hget : (nodes items)[n]? = items[n]?.map node := by
        rw [nodes_eq_map, List.getElem?_map]
      cases rest with
      | nil =>
          rw [Forest.at?, hget, at?]
          cases items[n]? with
          | none => rfl
          | some i => rfl
      | cons m rest =>
          rw [Forest.at?, hget, at?]
          cases items[n]? with
          | none => rfl
          | some i =>
              change Forest.at? i.node.children (m :: rest) = (i.below? (m :: rest)).map node
              rw [node_eq, Node.children, ih, below?_cons]

theorem mem_attrUnlessEmpty_iff {key : AttrKey} {s : String} {a : Attr} :
    a ∈ attrUnlessEmpty key s ↔ a.key = key ∧ s ≠ "" ∧ a.value = .ofString s := by
  obtain ⟨k, v⟩ := a
  rw [attrUnlessEmpty]
  by_cases h : s = ""
  · simp [h]
  · simp [h, String.isEmpty_iff]

theorem keys_attrUnlessEmpty (key : AttrKey) (s : String) :
    ((attrUnlessEmpty key s).map Attr.key).Sublist [key] := by
  rw [attrUnlessEmpty]
  split
  · exact List.nil_sublist _
  · exact List.Sublist.refl _

theorem lists_attrs (i : Item) : i.Lists i.attrs where
  ordered := by
    have hqualifier : ((i.qualifier.toList.map fun q => (⟨.qualifier, .ofString q⟩ : Attr)).map
        Attr.key).Sublist [.qualifier] := by
      cases i.qualifier with
      | none => exact List.nil_sublist _
      | some q => exact List.Sublist.refl _
    simp only [attrs, List.map_append]
    exact ((((keys_attrUnlessEmpty .name i.name).append (keys_attrUnlessEmpty .type i.type)).append
      (keys_attrUnlessEmpty .value i.value)).append hqualifier).append
      (keys_attrUnlessEmpty .decoration i.decoration)
  given a := by
    obtain ⟨k, v⟩ := a
    simp only [attrs, List.mem_append, mem_attrUnlessEmpty_iff, List.mem_map]
    cases k <;> simp [Gives, and_assoc, @eq_comm _ v]

/-- The forest of items has their shape. -/
theorem mirrored_nodes (items : List Item) : Mirrored items (nodes items) where
  length := by rw [nodes_eq_map, List.length_map]
  absent a ha := by rw [at?_nodes, ha, Option.map_none]
  present a i ha := by
    refine ⟨i.attrs, nodes i.children, ?_, lists_attrs i, ?_⟩
    · rw [at?_nodes, ha, Option.map_some, node_eq]
      rfl
    · rw [nodes_eq_map, List.length_map]

end Shape

section Records

mutual

/-- The items from an item on whose tags name no kind, with their addresses below it. -/
def refusals : Item → List (List Nat × Item)
  | ⟨tag, name, type, value, qualifier, decoration, children⟩ =>
    (if (Kind.parse? tag).isNone then
        [([], ⟨tag, name, type, value, qualifier, decoration, children⟩)]
      else []) ++ refusalsFrom 0 children

/-- The items from items on whose tags name no kind, with their addresses; the first item stands at
position `n`. -/
def refusalsFrom (n : Nat) : List Item → List (List Nat × Item)
  | [] => []
  | i :: rest => (refusals i).map (fun r => (n :: r.1, r.2)) ++ refusalsFrom (n + 1) rest

end

theorem refusals_eq (i : Item) :
    refusals i =
      (if (Kind.parse? i.tag).isNone then [([], i)] else []) ++ refusalsFrom 0 i.children := by
  obtain ⟨tag, name, type, value, qualifier, decoration, children⟩ := i
  rw [refusals]

theorem warnings_eq (place : String) (i : Item) :
    warnings place i =
      (if (Kind.parse? i.tag).isNone then [unknownTagRecord i.tag place] else []) ++
        childWarnings place 0 i.children := by
  obtain ⟨tag, name, type, value, qualifier, decoration, children⟩ := i
  rw [warnings]

/-- The refused items of a list are found at their addresses, counted from the first position. -/
def FoundFrom (n : Nat) (items : List Item) : Prop :=
  ∀ a j, (a, j) ∈ refusalsFrom n items ↔
    ∃ m b, a = (n + m) :: b ∧ at? items (m :: b) = some j ∧ Kind.parse? j.tag = none

/-- What is refused from an item on is the item itself or is found below it. -/
theorem mem_refusals_iff {i : Item} (h : FoundFrom 0 i.children) (a : List Nat) (j : Item) :
    (a, j) ∈ refusals i ↔ i.below? a = some j ∧ Kind.parse? j.tag = none := by
  have hown : (a, j) ∈ (if (Kind.parse? i.tag).isNone then [(([] : List Nat), i)] else []) ↔
      a = [] ∧ j = i ∧ Kind.parse? i.tag = none := by
    by_cases hi : Kind.parse? i.tag = none
    · simp [hi]
    · simp [hi, Option.isNone_iff_eq_none]
  rw [refusals_eq, List.mem_append, hown, h]
  cases a with
  | nil =>
      constructor
      · rintro (⟨-, rfl, hi⟩ | ⟨m, b, heq, -⟩)
        · exact ⟨rfl, hi⟩
        · cases heq
      · rintro ⟨hi, hj⟩
        cases hi
        exact .inl ⟨rfl, rfl, hj⟩
  | cons n b =>
      constructor
      · rintro (⟨heq, -⟩ | ⟨m, b', heq, hj⟩)
        · cases heq
        · obtain ⟨rfl, rfl⟩ := List.cons.inj heq
          rw [Nat.zero_add]
          exact hj
      · intro hj
        exact .inr ⟨n, b, by rw [Nat.zero_add], hj⟩

theorem foundFrom (items : List Item) : ∀ n, FoundFrom n items := by
  induction items using list_induction with
  | nil =>
      intro n a j
      simp [refusalsFrom, at?]
  | cons i rest ihc ihr =>
      intro n a j
      have hmap : (a, j) ∈ (refusals i).map (fun r => (n :: r.1, r.2)) ↔
          ∃ b, a = n :: b ∧ i.below? b = some j ∧ Kind.parse? j.tag = none := by
        simp only [List.mem_map, ← mem_refusals_iff (ihc 0)]
        constructor
        · rintro ⟨⟨b, j'⟩, hr, heq⟩
          obtain ⟨rfl, rfl⟩ := Prod.mk.inj heq
          exact ⟨b, rfl, hr⟩
        · rintro ⟨b, rfl, hr⟩
          exact ⟨(b, j), hr, rfl⟩
      rw [refusalsFrom, List.mem_append, hmap, ihr (n + 1)]
      constructor
      · rintro (⟨b, rfl, hb⟩ | ⟨m, b, rfl, hb⟩)
        · exact ⟨0, b, rfl, hb⟩
        · exact ⟨m + 1, b, by rw [Nat.add_right_comm, Nat.add_assoc], hb⟩
      · rintro ⟨m, b, rfl, hb⟩
        cases m with
        | zero => exact .inl ⟨b, rfl, hb⟩
        | succ m => exact .inr ⟨m, b, by rw [Nat.add_right_comm, Nat.add_assoc], hb⟩

/-- An item comes before the items below it. -/
theorem refusals_sorted {i : Item}
    (h : (refusalsFrom 0 i.children).Pairwise fun r s => r.1 < s.1) :
    (refusals i).Pairwise fun r s => r.1 < s.1 := by
  rw [refusals_eq]
  split
  · rw [List.singleton_append, List.pairwise_cons]
    refine ⟨?_, h⟩
    intro r hr
    obtain ⟨m, b, heq, -⟩ := (foundFrom i.children 0 r.1 r.2).mp hr
    rw [heq]
    exact List.nil_lt_cons _ _
  · exact h

/-- Items come before those after them in a list, with all that is below them. -/
theorem refusalsFrom_sorted (items : List Item) :
    ∀ n, (refusalsFrom n items).Pairwise fun r s => r.1 < s.1 := by
  induction items using list_induction with
  | nil =>
      intro n
      exact .nil
  | cons i rest ihc ihr =>
      intro n
      rw [refusalsFrom, List.pairwise_append, List.pairwise_map]
      refine ⟨(refusals_sorted (ihc 0)).imp ?_, ihr (n + 1), ?_⟩
      · intro r s hrs
        exact List.cons_lt_cons_iff.mpr (.inr ⟨rfl, hrs⟩)
      · intro r hr s hs
        obtain ⟨r', -, rfl⟩ := List.mem_map.mp hr
        obtain ⟨m, b, heq, -⟩ := (foundFrom rest (n + 1) s.1 s.2).mp hs
        rw [heq]
        exact List.cons_lt_cons_iff.mpr (.inl (by omega))

theorem refused_refusals (i : Item) : Refused i.below? (refusals i) where
  sorted := refusals_sorted (refusalsFrom_sorted i.children 0)
  complete r := mem_refusals_iff (foundFrom i.children 0) r.1 r.2

theorem refused_refusalsFrom (items : List Item) : Refused (at? items) (refusalsFrom 0 items) where
  sorted := refusalsFrom_sorted items 0
  complete r := by
    obtain ⟨a, j⟩ := r
    rw [foundFrom items 0]
    cases a with
    | nil => simp [at?]
    | cons n b => simp

/-- The records about an item are those of the items that are refused from it on. -/
theorem warnings_eq_map {i : Item}
    (h : ∀ place, childWarnings place 0 i.children = (refusalsFrom 0 i.children).map fun r =>
      unknownTagRecord r.2.tag (Violation.placeBelow place r.1)) (place : String) :
    warnings place i = (refusals i).map fun r =>
      unknownTagRecord r.2.tag (Violation.placeBelow place r.1) := by
  rw [warnings_eq, refusals_eq, List.map_append, h]
  split
  · rfl
  · rfl

theorem childWarnings_eq_map (items : List Item) :
    ∀ place n, childWarnings place n items = (refusalsFrom n items).map fun r =>
      unknownTagRecord r.2.tag (Violation.placeBelow place r.1) := by
  induction items using list_induction with
  | nil =>
      intro place n
      rfl
  | cons i rest ihc ihr =>
      intro place n
      rw [childWarnings, refusalsFrom, List.map_append, List.map_map, ihr,
        warnings_eq_map fun place => ihc place 0]
      rfl

theorem topWarnings_eq_map (items : List Item) (n : Nat) :
    topWarnings n items = (refusalsFrom n items).map fun r =>
      unknownTagRecord r.2.tag (Violation.placeOf r.1) := by
  induction items generalizing n with
  | nil => rfl
  | cons i rest ih =>
      rw [topWarnings, refusalsFrom, List.map_append, List.map_map, ih,
        warnings_eq_map fun place => childWarnings_eq_map i.children place 0]
      rfl

end Records

end Item

/-- The forest of a document mirrors its items, and the records about it are those of the items
whose tags name no kind, in pre-order, with tag and path; the same holds of the records about any
item at any place. -/
theorem Document.items_converted (d : Document) :
    Item.Mirrored d.items (Item.nodes d.items) ∧
    (∀ c, d.content = .ok c → Item.Mirrored d.items c.items) ∧
    (∃ rs, Item.Refused (Item.at? d.items) rs ∧
      d.warnings = rs.map fun r => Item.unknownTagRecord r.2.tag (Forest.indexPath r.1)) ∧
    ∀ (i : Item) (place : String), ∃ rs, Item.Refused i.below? rs ∧
      i.warnings place = rs.map fun r => Item.unknownTagRecord r.2.tag
        (place ++ String.join (r.1.map fun n => ".children[" ++ toString n ++ "]")) := by
  refine ⟨Item.mirrored_nodes d.items, ?_, ⟨_, Item.refused_refusalsFrom d.items, ?_⟩, ?_⟩
  · intro c hc
    obtain ⟨configs, -, rfl⟩ := content_eq_ok_iff.mp hc
    exact Item.mirrored_nodes d.items
  · rw [warnings, Item.topWarnings_eq_map]
    simp only [Forest.placeOf_eq_indexPath]
  · intro i place
    refine ⟨_, Item.refused_refusals i, ?_⟩
    rw [Item.warnings_eq_map fun place => Item.childWarnings_eq_map i.children place 0]
    simp only [Forest.placeBelow_eq]

/-- An item with an unknown tag and, below it, one with a padded tag and an empty qualifier, and
another one with an unknown tag. -/
def Document.nestedItems : Document where
  items :=
    [⟨"enum", "E", "", "", none, "", []⟩,
      ⟨"class", "C", "", "", none, "#[c]",
        [⟨" VAR ", "v", "", "", some "", "", []⟩, ⟨"", "", "T", "", none, "", []⟩]⟩]

theorem Document.nestedItems_converted :
    ∃ c, nestedItems.content = .ok c ∧ Item.Mirrored nestedItems.items c.items ∧
      nestedItems.warnings =
        [Item.unknownTagRecord "class" "items[1]",
          Item.unknownTagRecord "" "items[1].children[1]"] := by
  obtain ⟨c, hc⟩ : ∃ c, nestedItems.content = .ok c :=
    ⟨_, content_eq_ok_iff.mpr ⟨[], by simp [sortedSettings, nestedItems, configsOf], rfl⟩⟩
  exact ⟨c, hc, (items_converted nestedItems).2.1 c hc, by decide +kernel⟩

end DeclGen
