import DeclGen.Document.OfJson
import DeclGen.Proofs.Json.Sourced

/-!
# Reading documents from JSON values

What a JSON value must look like to be read as an item without a fault, and what the content of a
document with proper tags and keys is. An item is proper if its tag and the tags below it name
kinds.

## Implementation notes

All readers of objects take the fields in turn, each over what the earlier ones gave
(`ReadsInTurn`). So it is enough to say what a single field does: what every field keeps is kept,
and what one of them brings about stays.
-/

namespace DeclGen

section Turns

variable {α : Type}

/-- A reader takes fields in turn, each over what the earlier ones gave. -/
structure ReadsInTurn (reader : α → List (String × Json.Sourced) → α × List Fault) : Prop where
  nil : ∀ old, reader old [] = (old, [])
  cons : ∀ old f fs, reader old (f :: fs) =
    ((reader (reader old [f]).1 fs).1, (reader old [f]).2 ++ (reader (reader old [f]).1 fs).2)

namespace ReadsInTurn

variable {reader : α → List (String × Json.Sourced) → α × List Fault} {f : String × Json.Sourced}
  {fs : List (String × Json.Sourced)}

/-- What every single field keeps is kept by all of them. -/
theorem keeps (h : ReadsInTurn reader) (Inv : α → Prop)
    (hkeep : ∀ old, ∀ f ∈ fs, Inv old → Inv (reader old [f]).1) {old : α} (hold : Inv old) :
    Inv (reader old fs).1 := by
  induction fs generalizing old with
  | nil =>
      rw [h.nil]
      exact hold
  | cons f fs ih =>
      rw [h.cons]
      exact ih (fun old g hg => hkeep old g (List.mem_cons_of_mem f hg))
        (hkeep old f List.mem_cons_self hold)

/-- Fields that are read without a fault where the invariant holds, and keep it, are read without a
fault together. -/
theorem faults_eq_nil (h : ReadsInTurn reader) (Inv : α → Prop)
    (hkeep : ∀ old, ∀ f ∈ fs, Inv old → Inv (reader old [f]).1)
    (hfault : ∀ old, ∀ f ∈ fs, Inv old → (reader old [f]).2 = []) {old : α} (hold : Inv old) :
    (reader old fs).2 = [] := by
  induction fs generalizing old with
  | nil => rw [h.nil]
  | cons f fs ih =>
      rw [h.cons, hfault old f List.mem_cons_self hold, List.nil_append]
      exact ih (fun old g hg => hkeep old g (List.mem_cons_of_mem f hg))
        (fun old g hg => hfault old g (List.mem_cons_of_mem f hg))
        (hkeep old f List.mem_cons_self hold)

/-- What one of the fields brings about and all of them keep holds in the end. -/
theorem reaches (h : ReadsInTurn reader) (Inv : α → Prop)
    (hkeep : ∀ old, ∀ g ∈ fs, Inv old → Inv (reader old [g]).1) (hf : f ∈ fs)
    (hreach : ∀ old, Inv (reader old [f]).1) (old : α) : Inv (reader old fs).1 := by
  induction fs generalizing old with
  | nil => cases hf
  | cons g fs ih =>
      have htail : ∀ old, ∀ g ∈ fs, Inv old → Inv (reader old [g]).1 :=
        fun old x hx => hkeep old x (List.mem_cons_of_mem g hx)
      rw [h.cons]
      rcases List.mem_cons.mp hf with rfl | hf
      · exact h.keeps Inv htail (hreach old)
      · exact ih htail hf _

end ReadsInTurn

theorem Item.overFields_readsInTurn : ReadsInTurn Item.overFields where
  nil _ := rfl
  cons old f fs := by
    obtain ⟨k, v⟩ := f
    simp [overFields]

theorem Settings.overFields_readsInTurn : ReadsInTurn Settings.overFields where
  nil _ := rfl
  cons old f fs := by
    obtain ⟨k, v⟩ := f
    simp [overFields]

theorem Settings.overEntries_readsInTurn : ReadsInTurn Settings.overEntries where
  nil _ := rfl
  cons old f fs := by
    obtain ⟨k, v⟩ := f
    simp [overEntries]

theorem Document.overFields_readsInTurn : ReadsInTurn Document.overFields where
  nil _ := rfl
  cons old f fs := by
    obtain ⟨k, v⟩ := f
    simp [overFields]

end Turns

section Items

/-- The names of the attributes of an item. -/
def ItemField.attributeNames : List String := ["name", "type", "value", "qualifier", "attribute"]

namespace Json.Sourced

mutual

/-- The value spells an item: an object with a tag, of which every field spells a part of an
item. -/
inductive SpellsItem : Sourced → Prop
  | object (source : Span) (fs : List (String × Sourced)) (tagged : "kind" ∈ fs.map (·.1))
      (fields : ∀ f ∈ fs, SpellsField f) : SpellsItem (.object source fs)

/-- The field spells a part of an item: a tag that names a kind, an attribute that is a single
value, or a list of children. -/
inductive SpellsField : String × Sourced → Prop
  | tag (s : String) (named : (Kind.parse? s).isSome = true) : SpellsField ("kind", .string s)
  | attr (k : String) (v : Sourced) (known : k ∈ ItemField.attributeNames)
      (single : v.attrText.2 = []) : SpellsField (k, v)
  | children (source : Span) (es : List Sourced) (items : ∀ e ∈ es, SpellsItem e) :
      SpellsField ("children", .array source es)

end

end Json.Sourced

/-- An item and all items below it have tags that name kinds. -/
inductive Item.Named : Item → Prop
  | intro (i : Item) (tag : (Kind.parse? i.tag).isSome = true)
      (children : ∀ c ∈ i.children, Named c) : Named i

theorem ItemField.ofName?_kind : ofName? (Text.fold "kind") = some .tag := by
  decide +kernel

theorem ItemField.ofName?_children : ofName? (Text.fold "children") = some .children := by
  decide +kernel

theorem DocumentField.ofName?_items : ofName? (Text.fold "items") = some .items := by
  decide +kernel

namespace Item

theorem overFields_tag (old : Item) (s : String) :
    overFields old [("kind", .string s)] = ({ old with tag := s }, []) := by
  simp [overFields, ItemField.ofName?_kind, Json.Sourced.stringOver]

theorem overFields_children (old : Item) (v : Json.Sourced) :
    overFields old [("children", v)] =
      ({ old with children := (overList old.children v).1 }, (overList old.children v).2) := by
  simp [overFields, ItemField.ofName?_children]

/-- A field that is an attribute leaves the tag and the children, and its only faults are those of
the text of the attribute. -/
theorem overFields_attribute (old : Item) {k : String} (h : k ∈ ItemField.attributeNames)
    (v : Json.Sourced) :
    (overFields old [(k, v)]).1.tag = old.tag ∧
      (overFields old [(k, v)]).1.children = old.children ∧
      (overFields old [(k, v)]).2 = v.attrText.2 := by
  have hqualifier : v.qualifier.2 = v.attrText.2 := by cases v <;> rfl
  have hnames : ∀ k ∈ ItemField.attributeNames, ItemField.ofName? (Text.fold k) ∈
      [some .name, some .type, some .value, some .qualifier, some .decoration] := by
    decide +kernel
  have hname := hnames k h
  simp only [List.mem_cons, List.not_mem_nil, or_false] at hname
  rcases hname with h | h | h | h | h <;> simp [overFields, h, hqualifier]

/-- After a field that spells a part of an item, the tag names a kind if it did so before or if the
field is the tag. -/
theorem isSome_parse?_tag_of_spellsField {f : String × Json.Sourced}
    (h : Json.Sourced.SpellsField f) {i : Item}
    (hi : f.1 = "kind" ∨ (Kind.parse? i.tag).isSome = true) :
    (Kind.parse? (overFields i [f]).1.tag).isSome = true := by
  cases h with
  | tag s named =>
      rw [overFields_tag]
      exact named
  | attr k v known single =>
      rw [(overFields_attribute i known v).1]
      refine hi.resolve_left ?_
      rintro rfl
      exact absurd known (by decide)
  | children source es items =>
      rw [overFields_children]
      exact hi.resolve_left (by simp)

theorem overElems_named {es : List Json.Sourced}
    (hes : ∀ e ∈ es, ∀ old : Item, (∀ c ∈ old.children, Named c) →
      (overJson old e).2 = [] ∧ Named (overJson old e).1) {old : List Item}
    (hold : ∀ c ∈ old, Named c) :
    (overElems old es).2 = [] ∧ ∀ c ∈ (overElems old es).1, Named c := by
  induction es generalizing old with
  | nil => exact ⟨rfl, nofun⟩
  | cons e es ih =>
      have hhead : ∀ c ∈ (old.headD {}).children, Named c := by
        cases old with
        | nil => exact nofun
        | cons i old =>
            obtain ⟨_, -, hchildren⟩ := hold i List.mem_cons_self
            exact hchildren
      obtain ⟨hfault, hnamed⟩ := hes e List.mem_cons_self _ hhead
      obtain ⟨hfaults, hrest⟩ := ih (fun x hx => hes x (List.mem_cons_of_mem e hx))
        fun c hc => hold c (List.mem_of_mem_tail hc)
      simp only [overElems, hfault, hfaults, List.append_nil, List.forall_mem_cons, true_and]
      exact ⟨hnamed, hrest⟩

mutual

/-- A value that spells an item is read without a fault, over whatever item was there, and gives an
item with names of kinds at every depth. -/
theorem overJson_of_spellsItem {v : Json.Sourced} (h : v.SpellsItem) (old : Item)
    (hold : ∀ c ∈ old.children, Named c) :
    (overJson old v).2 = [] ∧ Named (overJson old v).1 := by
  obtain ⟨source, fs, tagged, fields⟩ := h
  have hkeep (i : Item) (f : String × Json.Sourced) (hf : f ∈ fs) :=
    overFields_of_spellsField (fields f hf) i
  obtain ⟨⟨k, w⟩, hf, rfl⟩ := List.mem_map.mp tagged
  rw [overJson]
  refine ⟨?_, .intro _ ?_ ?_⟩
  · exact overFields_readsInTurn.faults_eq_nil _ (fun i f hf hi => (hkeep i f hf hi).2)
      (fun i f hf hi => (hkeep i f hf hi).1) hold
  · exact overFields_readsInTurn.reaches (fun i => (Kind.parse? i.tag).isSome = true)
      (fun i f hf hi => isSome_parse?_tag_of_spellsField (fields f hf) (.inr hi)) hf
      (fun i => isSome_parse?_tag_of_spellsField (fields _ hf) (.inl rfl)) old
  · exact overFields_readsInTurn.keeps _ (fun i f hf hi => (hkeep i f hf hi).2) hold

/-- A field that spells a part of an item is read without a fault and keeps the children named. -/
theorem overFields_of_spellsField {f : String × Json.Sourced} (h : Json.Sourced.SpellsField f)
    (i : Item) (hi : ∀ c ∈ i.children, Named c) :
    (overFields i [f]).2 = [] ∧ ∀ c ∈ (overFields i [f]).1.children, Named c := by
  cases h with
  | tag s named =>
      rw [overFields_tag]
      exact ⟨rfl, hi⟩
  | attr k v known single =>
      obtain ⟨-, hsame, hfaults⟩ := overFields_attribute i known v
      rw [hsame, hfaults]
      exact ⟨single, hi⟩
  | children source es items =>
      rw [overFields_children, overList]
      exact overElems_named (fun e he => overJson_of_spellsItem (items e he)) hi

end

end Item

end Items

section Settings

theorem Datum.ofJsonList_faults (es : List Json.Sourced) :
    (ofJsonList es).2 = es.flatMap fun e => (ofJson e).2 := by
  induction es with
  | nil => rfl
  | cons e es ih => rw [ofJsonList, List.flatMap_cons, ← ih]

theorem Datum.ofJsonFields_faults (fs : List (String × Json.Sourced)) :
    (ofJsonFields fs).2 = fs.flatMap fun f => (ofJson f.2).2 := by
  induction fs with
  | nil => rfl
  | cons f fs ih => rw [ofJsonFields, List.flatMap_cons, ← ih]

/-- A value whose literals all give numbers is read as a datum without a fault. -/
theorem Datum.ofJson_faults_eq_nil {v : Json.Sourced}
    (h : ∀ l ∈ v.literals, (ofLiteral? l).isSome = true) : (ofJson v).2 = [] := by
  induction v using Json.Sourced.induction with
  | number l =>
      obtain ⟨d, hd⟩ := Option.isSome_iff_exists.mp (h l List.mem_cons_self)
      rw [ofJson, hd]
  | array source es ih =>
      rw [Json.Sourced.literals, Json.elemLiterals_eq_flatMap] at h
      rw [ofJson, ofJsonList_faults, List.flatMap_eq_nil_iff]
      exact fun e he => ih e he fun l hl => h l (List.mem_flatMap.mpr ⟨e, he, hl⟩)
  | object source fs ih =>
      rw [Json.Sourced.literals, Json.fieldLiterals_eq_flatMap] at h
      rw [ofJson, ofJsonFields_faults, List.flatMap_eq_nil_iff]
      exact fun f hf => ih f hf fun l hl => h l (List.mem_flatMap.mpr ⟨f, hf, hl⟩)
  | _ => rw [ofJson]

theorem Json.Sourced.dictEntries_faults (fs : List (String × Json.Sourced)) :
    (dictEntries fs).2 = fs.flatMap fun f => (f.2.stringOver "").2 := by
  induction fs with
  | nil => rfl
  | cons f fs ih => rw [dictEntries, List.flatMap_cons, ← ih]

/-- The keys of settings under which something may be found are old ones and that of the new
settings. -/
theorem Document.key_of_mem_putSettings {key : String} {s : Settings}
    {old : List (String × Settings)} :
    ∀ e ∈ putSettings key s old, e.1 = key ∨ ∃ o ∈ old, o.1 = e.1 := by
  induction old with
  | nil =>
      intro e he
      obtain rfl := List.mem_singleton.mp he
      exact .inl rfl
  | cons o old ih =>
      intro e he
      rw [putSettings] at he
      split at he
      · next heq =>
          rcases List.mem_cons.mp he with rfl | he
          · exact .inl (eq_of_beq heq)
          · exact .inr ⟨e, List.mem_cons_of_mem o he, rfl⟩
      · rcases List.mem_cons.mp he with rfl | he
        · exact .inr ⟨_, List.mem_cons_self, rfl⟩
        · rcases ih e he with h | ⟨o', ho', h⟩
          · exact .inl h
          · exact .inr ⟨o', List.mem_cons_of_mem o ho', h⟩

/-- Every key of the settings names a language. -/
def Document.KeysNamed (settings : List (String × Settings)) : Prop :=
  ∀ e ∈ settings, (Lang.parse? e.1).isSome = true

theorem Document.KeysNamed.putSettings {key : String} {s : Settings}
    {old : List (String × Settings)} (hold : KeysNamed old)
    (hkey : (Lang.parse? key).isSome = true) : KeysNamed (Document.putSettings key s old) := by
  intro e he
  rcases key_of_mem_putSettings e he with h | ⟨o, ho, h⟩
  · rwa [h]
  · rw [← h]
    exact hold o ho

end Settings

section Content

namespace Item

theorem childWarnings_eq_nil {is : List Item} (h : ∀ i ∈ is, ∀ place, warnings place i = [])
    (place : String) (n : Nat) : childWarnings place n is = [] := by
  induction is generalizing n with
  | nil => rfl
  | cons i is ih =>
      rw [childWarnings, h i List.mem_cons_self, List.nil_append]
      exact ih (fun j hj => h j (List.mem_cons_of_mem i hj)) _

/-- Nothing is said about an item with names of kinds at every depth. -/
theorem Named.warnings_eq_nil {i : Item} (h : i.Named) : ∀ place, warnings place i = [] := by
  induction h with
  | intro i tag children ih =>
      intro place
      obtain ⟨tag', name, type, value, qualifier, decoration, children'⟩ := i
      rw [warnings, childWarnings_eq_nil ih, List.append_nil, if_neg]
      rw [Option.isNone_iff_eq_none, ← ne_eq, ← Option.isSome_iff_ne_none]
      exact tag

theorem topWarnings_eq_nil {is : List Item} (h : ∀ i ∈ is, i.Named) (n : Nat) :
    topWarnings n is = [] := by
  induction is generalizing n with
  | nil => rfl
  | cons i is ih =>
      rw [topWarnings, (h i List.mem_cons_self).warnings_eq_nil, List.nil_append]
      exact ih (fun j hj => h j (List.mem_cons_of_mem i hj)) _

theorem nodes_eq_map (is : List Item) : nodes is = is.map node := by
  induction is with
  | nil => rfl
  | cons i is ih => rw [nodes, ih, List.map_cons]

theorem node_eq (i : Item) : i.node = .node (Kind.ofTag i.tag) i.attrs (nodes i.children) := by
  obtain ⟨tag, name, type, value, qualifier, decoration, children⟩ := i
  rw [node]
  rfl

theorem ne_unknown_of_parse? {tag : String} {k : Kind} (h : Kind.parse? tag = some k) :
    k ≠ .unknown := by
  have hall : ∀ e ∈ Kind.spellings, e.2 ≠ .unknown := by decide +kernel
  obtain ⟨before, after, hspellings, -⟩ := List.lookup_eq_some_iff.mp h
  exact hall (Text.tagKey tag, k) (by simp [hspellings])

/-- A node of the forest of named items is the node of a named item. -/
theorem exists_item_of_at? {is : List Item} (h : ∀ i ∈ is, i.Named) {place : List Nat} {n : Node}
    (hn : Forest.at? (nodes is) place = some n) : ∃ i : Item, i.Named ∧ i.node = n := by
  have hget {is : List Item} {j : Nat} {n : Node} (h : ∀ i ∈ is, i.Named)
      (hn : (nodes is)[j]? = some n) : ∃ i : Item, i.Named ∧ i.node = n := by
    rw [nodes_eq_map, List.getElem?_map, Option.map_eq_some_iff] at hn
    obtain ⟨i, hi, rfl⟩ := hn
    exact ⟨i, h i (List.mem_of_getElem? hi), rfl⟩
  induction place generalizing is with
  | nil => cases hn
  | cons j place ih =>
      cases place with
      | nil => exact hget h hn
      | cons j' place =>
          obtain ⟨m, hm, hn⟩ := Option.bind_eq_some_iff.mp hn
          obtain ⟨i, hi, rfl⟩ := hget h hm
          rw [node_eq, Node.children] at hn
          cases hi with
          | intro _ _ children => exact ih children hn

/-- The node of a named item has a known kind. -/
theorem Named.known {i : Item} (h : i.Named) : ∃ k, i.node.kind? = some k ∧ k ≠ .unknown := by
  obtain ⟨_, tag, -⟩ := h
  obtain ⟨k, hk⟩ := Option.isSome_iff_exists.mp tag
  rw [node_eq]
  refine ⟨Kind.ofTag i.tag, rfl, ?_⟩
  rw [Kind.ofTag, hk]
  exact ne_unknown_of_parse? hk

end Item

/-- Settings whose keys all name languages give configurations. -/
theorem Document.exists_configsOf {settings : List (String × Settings)} (h : KeysNamed settings) :
    ∃ configs, configsOf settings = .ok configs := by
  induction settings with
  | nil => exact ⟨[], rfl⟩
  | cons e settings ih =>
      obtain ⟨l, hl⟩ := Option.isSome_iff_exists.mp (h e List.mem_cons_self)
      obtain ⟨configs, hconfigs⟩ := ih fun x hx => h x (List.mem_cons_of_mem e hx)
      exact ⟨(l, e.2.config) :: configs, by simp [configsOf, hl, hconfigs]⟩

theorem Document.content_eq_ok_iff {d : Document} {c : Content} :
    d.content = .ok c ↔ ∃ configs, configsOf d.sortedSettings = .ok configs ∧
      c = { items := Item.nodes d.items, config := lastConfig configs } := by
  rw [content]
  cases configsOf d.sortedSettings with
  | error key => simp [bind, Except.bind]
  | ok configs => simp [bind, Except.bind, pure, Except.pure, eq_comm]

end Content

end DeclGen
