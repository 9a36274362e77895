import DeclGen.Document.Loading
import DeclGen.Proofs.Decimal.Range
import DeclGen.Proofs.Document.Reading
import DeclGen.Proofs.Schema.Allowance

/-!
# The schema is stricter than the reader

A text in JSON in which the schema finds no issue describes a document: it is read without a fault,
every item has a tag that names a kind, and every key of settings names a language.

This needs conditions, because the two sides read some texts differently. Of several fields with one
name the schema sees only the last; outside ASCII the two disagree about tags; and the schema does
not ask how great the numbers among the options are.

## Implementation notes

What the schema accepts as an item spells an item (`Json.Sourced.SpellsItem`), and what spells an
item is read without a fault. A change to the schema concerns the first half, which is here, and a
change to the reader the second.
-/

namespace DeclGen

section Conditions

/-- Whether a string has ASCII characters only. -/
def Text.isAscii (s : String) : Bool := s.toList.all (·.toNat < 128)

namespace Json.Sourced

/-- The fields of an object. -/
def fields : Sourced → List (String × Sourced)
  | object _ fs => fs
  | _ => []

/-- The values of the fields with a given name. -/
def under (name : String) (v : Sourced) : List Sourced :=
  (v.fields.filter (·.1 == name)).map (·.2)

/-- The string that a value is, if it is one. -/
def texts : Sourced → List String
  | string s => [s]
  | _ => []

mutual

/-- The tags of an item and of the items below it. -/
def itemTags : Sourced → List String
  | object _ fs => fieldTags fs
  | _ => []

/-- The tags of the items in a list and of the items below them. -/
def listTags : Sourced → List String
  | array _ es => elemTags es
  | _ => []

/-- The tags among the fields of an item. -/
def fieldTags : List (String × Sourced) → List String
  | [] => []
  | (k, v) :: fs =>
    (if k = "kind" then v.texts else if k = "children" then v.listTags else []) ++ fieldTags fs

/-- The tags of several items. -/
def elemTags : List Sourced → List String
  | [] => []
  | e :: es => e.itemTags ++ elemTags es

end

/-- The tags of all items of a document. -/
def tags (v : Sourced) : List String := (v.under "items").flatMap listTags

/-- The keys under which a document gives settings. -/
def settingsKeys (v : Sourced) : List String :=
  (v.under "configs").flatMap fun settings => settings.fields.map (·.1)

/-- The number literals among the options of a document. -/
def optionLiterals (v : Sourced) : List String :=
  (v.under "configs").flatMap fun settings =>
    settings.fields.flatMap fun f => (f.2.under "global").flatMap literals

/-- The conditions on the value of a text: no object repeats a name, tags and keys of settings are
ASCII, and the numbers among the options are within the range of binary numbers. -/
structure IsPlain (v : Sourced) : Prop where
  names : v.hasDistinctNames = true
  tags : ∀ t ∈ v.tags, Text.isAscii t = true
  keys : ∀ k ∈ v.settingsKeys, Text.isAscii k = true
  numbers : ∀ l ∈ v.optionLiterals, ∀ d ∈ Decimal.parse? l, d.Fits

instance (v : Sourced) : Decidable v.IsPlain :=
  decidable_of_iff (v.hasDistinctNames = true ∧ (∀ t ∈ v.tags, Text.isAscii t = true) ∧
      (∀ k ∈ v.settingsKeys, Text.isAscii k = true) ∧
      ∀ l ∈ v.optionLiterals, ∀ d ∈ Decimal.parse? l, d.Fits)
    ⟨fun ⟨hn, ht, hk, hl⟩ => ⟨hn, ht, hk, hl⟩, fun h => ⟨h.names, h.tags, h.keys, h.numbers⟩⟩

theorem mem_under_iff {name : String} {v w : Sourced} :
    w ∈ v.under name ↔ (name, w) ∈ v.fields := by
  simp [under]

theorem fieldTags_eq_flatMap (fs : List (String × Sourced)) :
    fieldTags fs = fs.flatMap fun f =>
      if f.1 = "kind" then f.2.texts else if f.1 = "children" then f.2.listTags else [] := by
  induction fs with
  | nil => rfl
  | cons f fs ih => rw [fieldTags, ih, List.flatMap_cons]

theorem elemTags_eq_flatMap (es : List Sourced) : elemTags es = es.flatMap itemTags := by
  induction es with
  | nil => rfl
  | cons e es ih => rw [elemTags, ih, List.flatMap_cons]

end Json.Sourced

end Conditions

section Items

theorem Text.longS_not_mem_of_isAscii {s : String} (h : Text.isAscii s = true) :
    Schema.longS ∉ s.toList := by
  intro hm
  have hlt := List.all_eq_true.mp h _ hm
  exact absurd hlt (by decide)

namespace Json.Sourced

/-- What the schema accepts under the tag of an item names a kind, if it is ASCII. -/
theorem exists_tag_of_accepts {v : Sourced} (h : Schema.Part.tag.Accepts v)
    (ha : ∀ t ∈ v.texts, Text.isAscii t = true) :
    ∃ s, v = .string s ∧ (Kind.parse? s).isSome = true := by
  obtain ⟨s, rfl, hallows⟩ := h.eq_string rfl
  have hs := Text.longS_not_mem_of_isAscii (ha s List.mem_cons_self)
  exact ⟨s, rfl, ((Schema.allowsTag_iff s).mp ⟨hallows, hs⟩).1⟩

/-- What the schema accepts as an attribute is a single value. -/
theorem attrText_of_accepts {v : Sourced} (h : Schema.Part.scalar.Accepts v) :
    v.attrText.2 = [] := by
  have hany := h.1.any_hasType
  cases v with
  | array source es => cases hany
  | object source fs => cases hany
  | _ => rfl

/-- A field that the schema accepts in an item spells a part of an item, if that holds of lists of
items. -/
theorem spellsField_of_accepts {source : Json.Span} {fs : List (String × Sourced)}
    {f : String × Sourced} (h : Schema.Part.item.Accepts (.object source fs)) (hf : f ∈ fs)
    (ha : ∀ t ∈ fieldTags fs, Text.isAscii t = true)
    (hlist : Schema.Part.items.Accepts f.2 → (∀ t ∈ f.2.listTags, Text.isAscii t = true) →
      ∃ source es, f.2 = .array source es ∧ ∀ e ∈ es, e.SpellsItem) : SpellsField f := by
  obtain ⟨k, v⟩ := f
  rw [fieldTags_eq_flatMap] at ha
  have hname := h.name_mem rfl hf
  simp only [Schema.Part.rule, List.map_cons, List.map_nil, List.mem_cons, List.not_mem_nil,
    or_false] at hname
  have hattr (hpart : Schema.Part.item.rule.partOf k = some .scalar)
      (hk : k ∈ ItemField.attributeNames) : SpellsField (k, v) :=
    .attr k v hk (attrText_of_accepts (h.field hf hpart))
  rcases hname with rfl | rfl | rfl | rfl | rfl | rfl | rfl
  · obtain ⟨s, rfl, hs⟩ := exists_tag_of_accepts (h.field hf rfl)
      fun t ht => ha t (List.mem_flatMap.mpr ⟨_, hf, ht⟩)
    exact .tag s hs
  · exact hattr rfl (by decide)
  · exact hattr rfl (by decide)
  · exact hattr rfl (by decide)
  · exact hattr rfl (by decide)
  · exact hattr rfl (by decide)
  · obtain ⟨source', es, rfl, hes⟩ := hlist (h.field hf rfl)
      fun t ht => ha t (List.mem_flatMap.mpr ⟨_, hf, ht⟩)
    exact .children source' es hes

/-- A value that the schema accepts as an item spells an item, and one that it accepts as a list of
items is a list of values that spell items. -/
theorem spellsItem_of_accepts (v : Sourced) :
    (Schema.Part.item.Accepts v → (∀ t ∈ v.itemTags, Text.isAscii t = true) → v.SpellsItem) ∧
    (Schema.Part.items.Accepts v → (∀ t ∈ v.listTags, Text.isAscii t = true) →
      ∃ source es, v = .array source es ∧ ∀ e ∈ es, e.SpellsItem) := by
  induction v using Sourced.induction with
  | array source es ih =>
      refine ⟨fun h => ?_, fun h ha => ⟨source, es, rfl, fun e he => ?_⟩⟩
      · obtain ⟨source, fs, hv⟩ := h.eq_object rfl
        cases hv
      · refine (ih e he).1 (h.elem rfl he) fun t ht => ha t ?_
        rw [listTags, elemTags_eq_flatMap]
        exact List.mem_flatMap.mpr ⟨e, he, ht⟩
  | object source fs ih =>
      refine ⟨fun h ha => ?_, fun h => ?_⟩
      · exact .object source fs (h.names.1 "kind" List.mem_cons_self)
          fun f hf => spellsField_of_accepts h hf ha (ih f hf).2
      · obtain ⟨source, es, hv⟩ := h.eq_array rfl
        cases hv
  | _ =>
      refine ⟨fun h => ?_, fun h => ?_⟩
      · obtain ⟨source, fs, hv⟩ := h.eq_object rfl
        cases hv
      · obtain ⟨source, es, hv⟩ := h.eq_array rfl
        cases hv

end Json.Sourced

end Items

section Settings

/-- A literal of a number within the range of binary numbers gives a number. -/
theorem Datum.isSome_ofLiteral? {l : String} (hl : (Decimal.parse? l).isSome = true)
    (hfits : ∀ d ∈ Decimal.parse? l, d.Fits) : (ofLiteral? l).isSome = true := by
  obtain ⟨d, hd⟩ := Option.isSome_iff_exists.mp hl
  obtain ⟨x, hx⟩ := Option.isSome_iff_exists.mp (Binary64.isSome_ofDecimal? (hfits d hd))
  simp [ofLiteral?, hd, hx]

/-- What the schema accepts as a dictionary is read without a fault. -/
theorem Json.Sourced.dictOver_faults_eq_nil {v : Json.Sourced} (h : Schema.Part.dict.Accepts v)
    (old : List (String × String)) : (v.dictOver old).2 = [] := by
  obtain ⟨source, fs, rfl⟩ := h.eq_object rfl
  rw [dictOver, dictEntries_faults, List.flatMap_eq_nil_iff]
  intro f hf
  have hvalue : Schema.Part.dictValue.Accepts f.2 := h.field hf rfl
  obtain ⟨s, hs, -⟩ := hvalue.eq_string rfl
  rw [hs, stringOver]

theorem Json.Sourced.optionsOver_faults_eq_nil {v : Json.Sourced}
    (h : Schema.Part.options.Accepts v)
    (hl : ∀ l ∈ v.literals, (Datum.ofLiteral? l).isSome = true)
    (old : List (String × Datum)) : (v.optionsOver old).2 = [] := by
  obtain ⟨source, fs, rfl⟩ := h.eq_object rfl
  have hobject := Datum.ofJson_faults_eq_nil hl
  rwa [Datum.ofJson] at hobject

/-- What the schema accepts as settings is read without a fault, if the numbers among the options
are within range. -/
theorem Settings.ofJson_faults_eq_nil {v : Json.Sourced} (h : Schema.Part.config.Accepts v)
    (hl : ∀ w ∈ v.under "global", ∀ l ∈ w.literals, (Datum.ofLiteral? l).isSome = true) :
    (ofJson v).2 = [] := by
  obtain ⟨source, fs, rfl⟩ := h.eq_object rfl
  rw [ofJson]
  refine overFields_readsInTurn.faults_eq_nil (fun _ => True) (fun _ _ _ _ => trivial) ?_ trivial
  rintro old ⟨k, w⟩ hf -
  have hname := h.name_mem rfl hf
  simp only [Schema.Part.rule, List.map_cons, List.map_nil, List.mem_cons, List.not_mem_nil,
    or_false] at hname
  rcases hname with rfl | rfl | rfl
  · have hfield : SettingsField.ofName? (Text.fold "types") = some .types := by decide +kernel
    simp [overFields, hfield, Json.Sourced.dictOver_faults_eq_nil (h.field hf rfl)]
  · have hfield : SettingsField.ofName? (Text.fold "names") = some .names := by decide +kernel
    simp [overFields, hfield, Json.Sourced.dictOver_faults_eq_nil (h.field hf rfl)]
  · have hfield : SettingsField.ofName? (Text.fold "global") = some .options := by decide +kernel
    have hw := hl w (Json.Sourced.mem_under_iff.mpr hf)
    simp [overFields, hfield, Json.Sourced.optionsOver_faults_eq_nil (h.field hf rfl) hw]

/-- What the schema accepts as settings per key is read without a fault and names languages, if the
keys are ASCII and the numbers among the options are within range. -/
theorem Settings.overEntries_of_accepts {source : Json.Span} {fs : List (String × Json.Sourced)}
    (h : Schema.Part.settings.Accepts (.object source fs))
    (hkeys : ∀ f ∈ fs, Text.isAscii f.1 = true)
    (hl : ∀ f ∈ fs, ∀ w ∈ f.2.under "global", ∀ l ∈ w.literals,
      (Datum.ofLiteral? l).isSome = true) {old : List (String × Settings)}
    (hold : Document.KeysNamed old) :
    (overEntries old fs).2 = [] ∧ Document.KeysNamed (overEntries old fs).1 := by
  have hkeep (old : List (String × Settings)) (f : String × Json.Sourced) (hf : f ∈ fs)
      (hold : Document.KeysNamed old) : Document.KeysNamed (overEntries old [f]).1 := by
    apply hold.putSettings
    have hallows := h.names.2.2 f.1 (List.mem_map_of_mem hf)
    exact ((Schema.allowsKey_iff f.1).mp
      ⟨hallows, Text.longS_not_mem_of_isAscii (hkeys f hf)⟩).1
  refine ⟨overEntries_readsInTurn.faults_eq_nil _ hkeep ?_ hold,
    overEntries_readsInTurn.keeps _ hkeep hold⟩
  rintro old ⟨k, w⟩ hf -
  simp only [overEntries, List.append_nil]
  exact ofJson_faults_eq_nil (h.field hf rfl) (hl (k, w) hf)

end Settings

section Documents

theorem Json.Sourced.mem_literals_of_field {v w : Json.Sourced} {k l : String}
    (hf : (k, w) ∈ v.fields) (hl : l ∈ w.literals) : l ∈ v.literals := by
  cases v with
  | object source fs =>
      rw [literals, fieldLiterals_eq_flatMap]
      exact List.mem_flatMap.mpr ⟨(k, w), hf, hl⟩
  | _ => cases hf

theorem Item.overList_of_accepts {v : Json.Sourced} (h : Schema.Part.items.Accepts v)
    (ha : ∀ t ∈ v.listTags, Text.isAscii t = true) {old : List Item} (hold : ∀ i ∈ old, Named i) :
    (overList old v).2 = [] ∧ ∀ i ∈ (overList old v).1, Named i := by
  obtain ⟨source, es, rfl, hes⟩ := v.spellsItem_of_accepts.2 h ha
  rw [overList]
  exact overElems_named (fun e he => overJson_of_spellsItem (hes e he)) hold

/-- What the schema accepts as a document is read without a fault; the items have names of kinds and
the settings names of languages. -/
theorem Document.ofJson_of_accepts {v : Json.Sourced} (h : Schema.Part.document.Accepts v)
    (hplain : v.IsPlain) (hspelled : Json.Spelled v.literals) :
    (ofJson v).2 = [] ∧ (∀ i ∈ (ofJson v).1.items, i.Named) ∧ KeysNamed (ofJson v).1.settings := by
  obtain ⟨source, fs, rfl⟩ := h.eq_object rfl
  have hnumber {l : String} (hl : l ∈ (Json.Sourced.object source fs).optionLiterals) :
      (Datum.ofLiteral? l).isSome = true := by
    refine Datum.isSome_ofLiteral? (hspelled l ?_) (hplain.numbers l hl)
    simp only [Json.Sourced.optionLiterals, List.mem_flatMap, Json.Sourced.mem_under_iff] at hl
    obtain ⟨c, hc, f, hf, w, hw, hl⟩ := hl
    exact Json.Sourced.mem_literals_of_field hc (Json.Sourced.mem_literals_of_field hf
      (Json.Sourced.mem_literals_of_field hw hl))
  have hfield (d : Document) (f : String × Json.Sourced) (hf : f ∈ fs)
      (hd : (∀ i ∈ d.items, i.Named) ∧ KeysNamed d.settings) :
      (overFields d [f]).2 = [] ∧ (∀ i ∈ (overFields d [f]).1.items, i.Named) ∧
        KeysNamed (overFields d [f]).1.settings := by
    obtain ⟨k, w⟩ := f
    have hunder : w ∈ (Json.Sourced.object source fs).under k := Json.Sourced.mem_under_iff.mpr hf
    have hname := h.name_mem rfl hf
    simp only [Schema.Part.rule, List.map_cons, List.map_nil, List.mem_cons, List.not_mem_nil,
      or_false] at hname
    rcases hname with rfl | rfl
    · have hitems := Item.overList_of_accepts (h.field hf rfl)
        (fun t ht => hplain.tags t (List.mem_flatMap.mpr ⟨w, hunder, ht⟩)) hd.1
      simpa [overFields, DocumentField.ofName?_items] using ⟨hitems.1, hitems.2, hd.2⟩
    · have hfield : DocumentField.ofName? (Text.fold "configs") = some .settings := by
        decide +kernel
      have hsettings : Schema.Part.settings.Accepts w := h.field hf rfl
      obtain ⟨source', gs, rfl⟩ := hsettings.eq_object rfl
      have hentries := Settings.overEntries_of_accepts hsettings
        (fun g hg => hplain.keys g.1 (List.mem_flatMap.mpr ⟨_, hunder, List.mem_map_of_mem hg⟩))
        (fun g hg x hx l hl => hnumber (List.mem_flatMap.mpr ⟨_, hunder,
          List.mem_flatMap.mpr ⟨g, hg, List.mem_flatMap.mpr ⟨x, hx, hl⟩⟩⟩)) hd.2
      simpa [overFields, hfield] using ⟨hentries.1, hd.1, hentries.2⟩
  have hstart : (∀ i ∈ ({} : Document).items, i.Named) ∧ KeysNamed ({} : Document).settings := by
    constructor
    · intro i hi
      cases hi
    · intro e he
      cases he
  rw [ofJson]
  exact ⟨overFields_readsInTurn.faults_eq_nil _ (fun d f hf hd => (hfield d f hf hd).2)
      (fun d f hf hd => (hfield d f hf hd).1) hstart,
    overFields_readsInTurn.keeps _ (fun d f hf hd => (hfield d f hf hd).2) hstart⟩

end Documents

section Content

/-- A text in JSON in which the schema finds no issue gives a content, if its value is plain:
nothing is reported about it, and every node of the forest, at any depth, has a known kind. -/
theorem Document.decode_of_lint_eq_nil {t : Text} {file : String}
    (hplain : ∀ v, Json.readAll t.chars = .ok v → v.IsPlain)
    (hlint : lint .json t file = .ok []) :
    ∃ c, decode .json t file = ([], .ok c) ∧
      ∀ place n, c.items.at? place = some n → ∃ k, n.kind? = some k ∧ k ≠ .unknown := by
  have hread : ∃ v, Json.readAll t.chars = .ok v ∧ Schema.issues v.value = [] := by
    rw [lint, readValue, readJsonValue] at hlint
    cases hv : Json.readAll t.chars with
    | ok v =>
        rw [hv] at hlint
        exact ⟨v, rfl, Except.ok.inj hlint⟩
    | error e => cases e <;> simp [hv] at hlint
  obtain ⟨v, hv, hissues⟩ := hread
  obtain ⟨rest, hfirst⟩ := Json.exists_readFirst_of_readAll hv
  have haccepts : Schema.Part.document.Accepts v :=
    ⟨⟨[], (Schema.issues_eq_nil_iff _).mp hissues⟩, (hplain v hv).names⟩
  obtain ⟨hfaults, hitems, hkeys⟩ :=
    ofJson_of_accepts haccepts (hplain v hv) (Json.spelled_of_readFirst hfirst)
  have hdocument : read .json t = .ok (ofJson v).1 := by
    simp [read, readJson, hfirst, hfaults, Fault.reported?]
  obtain ⟨configs, hconfigs⟩ : ∃ configs, configsOf (ofJson v).1.sortedSettings = .ok configs :=
    exists_configsOf fun e he => hkeys e (List.mem_mergeSort.mp he)
  refine ⟨{ items := Item.nodes (ofJson v).1.items, config := lastConfig configs }, ?_, ?_⟩
  · simp only [decode, hdocument, warnings, Item.topWarnings_eq_nil hitems, content, hconfigs]
    rfl
  · intro place n hn
    obtain ⟨i, hi, rfl⟩ := Item.exists_item_of_at? hitems hn
    exact hi.known

/-- A document with an item inside an item, tags in any letter case, a null and a great number. -/
def Document.nestedText : Text :=
  .ofString ("\x7b\"items\":[\x7b\"kind\":\" Enum \",\"children\":[\x7b\"kind\":\"VAR\","
    ++ "\"type\":null\x7d]\x7d],\"configs\":\x7b\"RS\":\x7b\"global\":\x7b\"n\":[1e300]\x7d\x7d\x7d\x7d")

theorem Document.nestedText_decoded :
    lint .json nestedText "d.json" = .ok [] ∧
      ∃ c, decode .json nestedText "d.json" = ([], .ok c) ∧
        ∀ place n, c.items.at? place = some n → ∃ k, n.kind? = some k ∧ k ≠ .unknown := by
  have hlint : lint .json nestedText "d.json" = .ok [] := by decide +kernel
  have hplain :
      (Json.readAll nestedText.chars).toOption.all (fun v => decide v.IsPlain) = true := by
    decide +kernel
  refine ⟨hlint, decode_of_lint_eq_nil (fun v hv => ?_) hlint⟩
  rw [hv] at hplain
  exact of_decide_eq_true hplain

end Content

end DeclGen
