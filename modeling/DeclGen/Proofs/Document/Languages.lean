import DeclGen.Document.Loading
import DeclGen.Proofs.Document.Reading
import DeclGen.Proofs.Text.Order
import Mathlib.Data.List.Nodup

/-!
# Which settings a language gets

Settings stand under keys, and several keys may name one language. Whatever the order of the
settings, a document is refused for the smallest key that names no language, and otherwise each
language that is named gets the settings under the greatest key that names it.

## Implementation notes

Every key of a document that was read occurs once (`keysDistinct_of_read`). So the settings have one
sorted order, and a key leads to one entry.
-/

namespace DeclGen.Document

/-- Each key of the settings occurs once. -/
def KeysDistinct (settings : List (String × Settings)) : Prop := (settings.map Prod.fst).Nodup

/-- The bytewise order of keys. -/
def KeyLe (a b : String) : Prop := Text.le (.ofString a) (.ofString b) = true

instance : DecidableRel KeyLe := fun _ _ => instDecidableEqBool _ true

/-- The key is the smallest of those that name no language. -/
structure FirstRefused (settings : List (String × Settings)) (key : String) : Prop where
  mem : key ∈ settings.map Prod.fst
  refused : Lang.parse? key = none
  first : ∀ x ∈ settings, Lang.parse? x.1 = none → KeyLe key x.1

/-- The entry has the greatest key of those that name the language. -/
structure Decides (settings : List (String × Settings)) (l : Lang) (e : String × Settings) :
    Prop where
  mem : e ∈ settings
  named : Lang.parse? e.1 = some l
  last : ∀ x ∈ settings, Lang.parse? x.1 = some l → KeyLe x.1 e.1

section Keys

theorem KeyLe.refl (a : String) : KeyLe a a := by
  simpa [KeyLe] using Text.le_total (.ofString a) (.ofString a)

theorem KeyLe.antisymm {a b : String} (hab : KeyLe a b) (hba : KeyLe b a) : a = b :=
  Text.ofString_injective (Text.le_antisymm hab hba)

variable {es ds : List (String × Settings)} {l : Lang} {e e' : String × Settings}

/-- Where keys are distinct, at most one entry decides. -/
theorem Decides.unique (hes : KeysDistinct es) (h : Decides es l e) (h' : Decides es l e') :
    e = e' := by
  apply List.inj_on_of_nodup_map hes h.mem h'.mem
  exact (h'.last e h.mem h.named).antisymm (h.last e' h'.mem h'.named)

/-- Which entry decides depends only on the entries of the language. -/
theorem Decides.congr (h : Decides es l e)
    (hsame : ∀ x, Lang.parse? x.1 = some l → (x ∈ es ↔ x ∈ ds)) : Decides ds l e where
  mem := (hsame e h.named).mp h.mem
  named := h.named
  last x hx hl := h.last x ((hsame x hl).mpr hx) hl

theorem FirstRefused.congr {key : String} (h : FirstRefused es key) (hsame : ∀ x, x ∈ es ↔ x ∈ ds) :
    FirstRefused ds key where
  mem := by
    obtain ⟨x, hx, rfl⟩ := List.mem_map.mp h.mem
    exact List.mem_map.mpr ⟨x, (hsame x).mp hx, rfl⟩
  refused := h.refused
  first x hx hl := h.first x ((hsame x).mpr hx) hl

end Keys

section Sorting

variable {d d' : Document}

theorem sortedSettings_pairwise (d : Document) :
    d.sortedSettings.Pairwise fun a b => KeyLe a.1 b.1 := by
  apply List.pairwise_mergeSort
  · intro a b c
    exact Text.le_trans
  · intro a b
    exact Text.le_total _ _

theorem mem_sortedSettings (d : Document) (e : String × Settings) :
    e ∈ d.sortedSettings ↔ e ∈ d.settings :=
  List.mem_mergeSort

/-- Settings with distinct keys have one sorted order. -/
theorem sortedSettings_eq_of_perm (hd : KeysDistinct d.settings)
    (h : d'.settings.Perm d.settings) : d'.sortedSettings = d.sortedSettings := by
  apply List.Perm.eq_of_pairwise _ (sortedSettings_pairwise d') (sortedSettings_pairwise d)
  · exact ((List.mergeSort_perm _ _).trans h).trans (List.mergeSort_perm _ _).symm
  · intro a b ha hb hab hba
    apply List.inj_on_of_nodup_map hd
    · exact h.mem_iff.mp ((mem_sortedSettings d' a).mp ha)
    · exact (mem_sortedSettings d b).mp hb
    · exact hab.antisymm hba

end Sorting

section Resolution

variable {es rest : List (String × Settings)} {e : String × Settings} {key : String} {l : Lang}
  {configs : List (Lang × Config)}

theorem configsOf_cons_eq_error_iff :
    configsOf (e :: rest) = .error key ↔
      Lang.parse? e.1 = none ∧ e.1 = key ∨
        (∃ l, Lang.parse? e.1 = some l) ∧ configsOf rest = .error key := by
  obtain ⟨k, s⟩ := e
  rw [configsOf]
  cases Lang.parse? k with
  | none => simp
  | some l =>
      cases configsOf rest with
      | error key' => simp [bind, Except.bind]
      | ok configs => simp [bind, Except.bind, pure, Except.pure]

theorem configsOf_cons_eq_ok_iff :
    configsOf (e :: rest) = .ok configs ↔
      ∃ l configs', Lang.parse? e.1 = some l ∧ configsOf rest = .ok configs' ∧
        configs = (l, e.2.config) :: configs' := by
  obtain ⟨k, s⟩ := e
  rw [configsOf]
  cases Lang.parse? k with
  | none => simp
  | some l =>
      cases configsOf rest with
      | error key' => simp [bind, Except.bind]
      | ok configs' => simp [bind, Except.bind, pure, Except.pure, eq_comm]

/-- A later configuration of a language replaces an earlier one. -/
theorem lastConfig_cons (l : Lang) (c : Config) (configs : List (Lang × Config)) (l' : Lang) :
    lastConfig ((l, c) :: configs) l' =
      (lastConfig configs l').or (if l = l' then some c else none) := by
  have hlast : List.lookup l' [(l, c)] = if l = l' then some c else none := by
    by_cases h : l = l'
    · simp [h]
    · simp [List.lookup_cons, h, beq_eq_false_iff_ne.mpr (Ne.symm h)]
  rw [lastConfig, lastConfig, List.reverse_cons, List.lookup_append, hlast]

/-- Sorted settings are refused for the smallest key that names no language. -/
theorem firstRefused_of_configsOf (hsorted : es.Pairwise fun a b => KeyLe a.1 b.1)
    (h : configsOf es = .error key) : FirstRefused es key := by
  induction es with
  | nil => cases h
  | cons e rest ih =>
      rw [List.pairwise_cons] at hsorted
      rcases configsOf_cons_eq_error_iff.mp h with ⟨hnone, rfl⟩ | ⟨⟨l, hl⟩, hrest⟩
      · refine ⟨List.mem_cons_self, hnone, ?_⟩
        intro x hx _
        rcases List.mem_cons.mp hx with rfl | hx
        · exact KeyLe.refl x.1
        · exact hsorted.1 x hx
      · obtain ⟨hmem, hrefused, hfirst⟩ := ih hsorted.2 hrest
        refine ⟨List.mem_cons_of_mem _ hmem, hrefused, ?_⟩
        intro x hx hnone
        rcases List.mem_cons.mp hx with rfl | hx
        · rw [hl] at hnone
          cases hnone
        · exact hfirst x hx hnone

/-- No key that names no language is passed over. -/
theorem keysNamed_of_configsOf (h : configsOf es = .ok configs) : KeysNamed es := by
  induction es generalizing configs with
  | nil => exact nofun
  | cons e rest ih =>
      obtain ⟨l, configs', hl, hrest, -⟩ := configsOf_cons_eq_ok_iff.mp h
      intro x hx
      rcases List.mem_cons.mp hx with rfl | hx
      · rw [hl]
        rfl
      · exact ih hrest x hx

/-- Sorted settings that are not refused give each language the settings under the greatest key that
names it, and nothing to a language that no key names. -/
theorem lastConfig_of_configsOf (hsorted : es.Pairwise fun a b => KeyLe a.1 b.1)
    (h : configsOf es = .ok configs) (l : Lang) :
    (lastConfig configs l = none ∧ ∀ x ∈ es, Lang.parse? x.1 ≠ some l) ∨
      ∃ e, Decides es l e ∧ lastConfig configs l = some e.2.config := by
  induction es generalizing configs with
  | nil =>
      cases h
      exact .inl ⟨rfl, nofun⟩
  | cons e rest ih =>
      rw [List.pairwise_cons] at hsorted
      obtain ⟨l', configs', hl', hrest, rfl⟩ := configsOf_cons_eq_ok_iff.mp h
      rw [lastConfig_cons]
      rcases ih hsorted.2 hrest with ⟨hnone, hothers⟩ | ⟨e', he', hsome⟩
      · rw [hnone, Option.none_or]
        by_cases heq : l' = l
        · subst heq
          rw [if_pos rfl]
          refine .inr ⟨e, ⟨List.mem_cons_self, hl', ?_⟩, rfl⟩
          intro x hx hx'
          rcases List.mem_cons.mp hx with rfl | hx
          · exact KeyLe.refl x.1
          · exact absurd hx' (hothers x hx)
        · rw [if_neg heq]
          refine .inl ⟨rfl, List.forall_mem_cons.mpr ⟨?_, hothers⟩⟩
          rw [hl']
          exact fun hsome => heq (Option.some.inj hsome)
      · rw [hsome, Option.some_or]
        refine .inr ⟨e', ⟨List.mem_cons_of_mem _ he'.mem, he'.named, ?_⟩, rfl⟩
        intro x hx hx'
        rcases List.mem_cons.mp hx with rfl | hx
        · exact hsorted.1 e' he'.mem
        · exact he'.last x hx hx'

end Resolution

section Read

theorem keysDistinct_nil : KeysDistinct [] := List.nodup_nil

/-- Putting settings under a key keeps the keys distinct. -/
theorem KeysDistinct.putSettings {old : List (String × Settings)} (h : KeysDistinct old)
    (key : String) (s : Settings) : KeysDistinct (Document.putSettings key s old) := by
  induction old with
  | nil => exact List.nodup_singleton key
  | cons e old ih =>
      obtain ⟨k, v⟩ := e
      rw [KeysDistinct, List.map_cons, List.nodup_cons] at h
      rw [Document.putSettings]
      split
      · next heq =>
          obtain rfl := eq_of_beq heq
          rw [KeysDistinct, List.map_cons, List.nodup_cons]
          exact h
      · next hne =>
          rw [KeysDistinct, List.map_cons, List.nodup_cons]
          refine ⟨?_, ih h.2⟩
          intro hmem
          obtain ⟨x, hx, heq⟩ := List.mem_map.mp hmem
          rcases key_of_mem_putSettings x hx with hkey | ⟨o, ho, hkey⟩
          · exact hne (beq_iff_eq.mpr (heq.symm.trans hkey))
          · exact h.1 (List.mem_map.mpr ⟨o, ho, hkey.trans heq⟩)

theorem overEntries_keysDistinct {old : List (String × Settings)} (h : KeysDistinct old)
    (fs : List (String × Json.Sourced)) : KeysDistinct (Settings.overEntries old fs).1 := by
  apply Settings.overEntries_readsInTurn.keeps KeysDistinct _ h
  rintro old ⟨k, v⟩ - hold
  exact hold.putSettings k _

theorem ofYamlEntries_keysDistinct {old : List (String × Settings)} (h : KeysDistinct old)
    (es : List (Nat × Yaml.Tree × Yaml.Tree)) :
    KeysDistinct (Settings.ofYamlEntries old es).1 := by
  induction es generalizing old with
  | nil => exact h
  | cons e es ih =>
      obtain ⟨line, k, v⟩ := e
      simp only [Settings.ofYamlEntries]
      cases k.string.1 with
      | none => exact ih h
      | some name => exact ih (h.putSettings name _)

theorem ofTomlEntries_keysDistinct {old : List (String × Settings)} (h : KeysDistinct old)
    (es : List (String × Toml.Value)) : KeysDistinct (Settings.ofTomlEntries old es).1 := by
  induction es generalizing old with
  | nil => exact h
  | cons e es ih => exact ih (h.putSettings e.1 _)

theorem overFields_keysDistinct {old : Document} (h : KeysDistinct old.settings)
    (fs : List (String × Json.Sourced)) : KeysDistinct (overFields old fs).1.settings := by
  apply overFields_readsInTurn.keeps (fun d => KeysDistinct d.settings) _ h
  rintro old ⟨k, v⟩ - hold
  simp only [overFields]
  cases DocumentField.ofName? (Text.fold k) with
  | none => exact hold
  | some field =>
      cases field with
      | items => exact hold
      | settings =>
          cases v with
          | null => exact keysDistinct_nil
          | object source fs => exact overEntries_keysDistinct hold fs
          | _ => exact hold

theorem ofYamlFields_keysDistinct {d : Document} (h : KeysDistinct d.settings)
    (es : List (Nat × Yaml.Tree × Yaml.Tree)) : KeysDistinct (ofYamlFields d es).1.settings := by
  induction es generalizing d with
  | nil => exact h
  | cons e es ih =>
      obtain ⟨line, k, v⟩ := e
      simp only [ofYamlFields]
      cases k.string.1 with
      | none => exact ih h
      | some name =>
          dsimp only
          cases DocumentField.ofName? name with
          | none => exact ih h
          | some field =>
              cases field with
              | items => exact ih h
              | settings =>
                  cases v with
                  | table line textKeys es after =>
                      exact ih (ofYamlEntries_keysDistinct keysDistinct_nil es)
                  | _ => exact ih keysDistinct_nil

theorem ofTomlFields_keysDistinct (r : Toml.Reading) {d : Document} (h : KeysDistinct d.settings)
    (es : List (String × Toml.Value)) : KeysDistinct (ofTomlFields r d es).1.settings := by
  induction es generalizing d with
  | nil => exact h
  | cons e es ih =>
      obtain ⟨k, v⟩ := e
      unfold ofTomlFields
      dsimp only
      cases DocumentField.ofName? (Text.fold k) with
      | none => exact ih h
      | some field =>
          cases field with
          | items => exact ih h
          | settings =>
              cases v with
              | table isImplicit es => exact ih (ofTomlEntries_keysDistinct h es)
              | _ => exact ih h

theorem keysDistinct_of_readJson {t : Text} {d : Document} (h : readJson t = .ok d) :
    KeysDistinct d.settings := by
  rw [readJson] at h
  split at h
  · cases h
  · next v rest hfirst =>
      dsimp only at h
      split at h
      · cases h
      · cases h
        cases v with
        | object source fs => exact overFields_keysDistinct keysDistinct_nil fs
        | _ => exact keysDistinct_nil

theorem keysDistinct_of_readYaml {t : Text} {d : Document} (h : readYaml t = .ok d) :
    KeysDistinct d.settings := by
  rw [readYaml] at h
  cases htree : Yaml.readTree t with
  | error f =>
      rw [htree] at h
      cases h
  | ok tree =>
      rw [htree] at h
      cases tree with
      | none =>
          cases h
          exact keysDistinct_nil
      | some tree =>
          simp only [bind, Except.bind] at h
          split at h
          · cases h
          · cases h
            cases tree with
            | table line textKeys es after => exact ofYamlFields_keysDistinct keysDistinct_nil es
            | _ => exact keysDistinct_nil

theorem keysDistinct_of_readToml {t : Text} {d : Document} (h : readToml t = .ok d) :
    KeysDistinct d.settings := by
  rw [readToml] at h
  split at h
  · cases h
  · next r hread =>
      dsimp only at h
      split at h
      · cases h
      · split at h
        · cases h
          exact ofTomlFields_keysDistinct r keysDistinct_nil r.table
        · cases h

/-- In a document that was read, each key of the settings occurs once. -/
theorem keysDistinct_of_read {format : DocumentFormat} {t : Text} {d : Document}
    (h : read format t = .ok d) : KeysDistinct d.settings := by
  cases format with
  | json => exact keysDistinct_of_readJson h
  | yaml => exact keysDistinct_of_readYaml h
  | toml => exact keysDistinct_of_readToml h
  | cue =>
      rw [read] at h
      cases hexport : exportCue t with
      | error f =>
          rw [hexport] at h
          cases h
      | ok t' =>
          rw [hexport] at h
          exact keysDistinct_of_readJson h

end Read

section Meaning

variable {d : Document}

theorem content_eq_error_iff_configsOf {key : String} :
    d.content = .error key ↔ configsOf d.sortedSettings = .error key := by
  rw [content]
  cases configsOf d.sortedSettings with
  | error key' => simp [bind, Except.bind]
  | ok configs => simp [bind, Except.bind, pure, Except.pure]

theorem exists_content_error {x : String × Settings} (hx : x ∈ d.settings)
    (hnone : Lang.parse? x.1 = none) : ∃ key, d.content = .error key := by
  cases hc : d.content with
  | error key => exact ⟨key, rfl⟩
  | ok c =>
      obtain ⟨configs, hconfigs, -⟩ := content_eq_ok_iff.mp hc
      have hnamed := keysNamed_of_configsOf hconfigs x ((d.mem_sortedSettings x).mpr hx)
      rw [hnone] at hnamed
      cases hnamed

theorem firstRefused_of_content {key : String} (h : d.content = .error key) :
    FirstRefused d.settings key := by
  rw [content_eq_error_iff_configsOf] at h
  exact (firstRefused_of_configsOf d.sortedSettings_pairwise h).congr d.mem_sortedSettings

theorem exists_content_error_iff :
    (∃ key, d.content = .error key) ↔ ∃ x ∈ d.settings, Lang.parse? x.1 = none := by
  constructor
  · rintro ⟨key, hkey⟩
    have hfirst := firstRefused_of_content hkey
    obtain ⟨x, hx, rfl⟩ := List.mem_map.mp hfirst.mem
    exact ⟨x, hx, hfirst.refused⟩
  · rintro ⟨x, hx, hnone⟩
    exact exists_content_error hx hnone

/-- In the content of a document a language has the settings of the entry that decides, or nothing
where no key names it. -/
theorem config_of_content {c : Content} (hc : d.content = .ok c) (l : Lang) :
    (c.config l = none ∧ ∀ x ∈ d.settings, Lang.parse? x.1 ≠ some l) ∨
      ∃ e, Decides d.settings l e ∧ c.config l = some e.2.config := by
  obtain ⟨configs, hconfigs, rfl⟩ := content_eq_ok_iff.mp hc
  rcases lastConfig_of_configsOf d.sortedSettings_pairwise hconfigs l with
    ⟨hnone, hothers⟩ | ⟨e, he, hsome⟩
  · exact .inl ⟨hnone, fun x hx => hothers x ((d.mem_sortedSettings x).mpr hx)⟩
  · exact .inr ⟨e, he.congr fun x _ => d.mem_sortedSettings x, hsome⟩

theorem config_eq_of_decides {c : Content} {l : Lang} {e : String × Settings}
    (hd : KeysDistinct d.settings) (hc : d.content = .ok c) (he : Decides d.settings l e) :
    c.config l = some e.2.config := by
  rcases config_of_content hc l with ⟨-, hothers⟩ | ⟨e', he', hsome⟩
  · exact absurd he.named (hothers e he.mem)
  · rw [hsome, he.unique hd he']

theorem isSome_config_iff {c : Content} (hc : d.content = .ok c) (l : Lang) :
    (c.config l).isSome = true ↔ ∃ x ∈ d.settings, Lang.parse? x.1 = some l := by
  rcases config_of_content hc l with ⟨hnone, hothers⟩ | ⟨e, he, hsome⟩
  · rw [hnone]
    exact ⟨nofun, fun ⟨x, hx, hl⟩ => absurd hl (hothers x hx)⟩
  · rw [hsome]
    exact ⟨fun _ => ⟨e, he.mem, he.named⟩, fun _ => rfl⟩

/-- The settings of other languages have no influence on the configuration of a language. -/
theorem config_congr {d' : Document} {c c' : Content} {l : Lang} (hd : KeysDistinct d.settings)
    (hc : d.content = .ok c) (hc' : d'.content = .ok c')
    (hsame : ∀ x, Lang.parse? x.1 = some l → (x ∈ d'.settings ↔ x ∈ d.settings)) :
    c'.config l = c.config l := by
  rcases config_of_content hc' l with ⟨hnone, hothers⟩ | ⟨e, he, hsome⟩
  · rcases config_of_content hc l with ⟨hnone', -⟩ | ⟨e, he, -⟩
    · rw [hnone, hnone']
    · exact absurd he.named (hothers e ((hsame e he.named).mpr he.mem))
  · rw [hsome, config_eq_of_decides hd hc (he.congr hsame)]

end Meaning

/-- Each key of a document that was read occurs once. Whatever the order of the settings, such a
document is refused exactly if a key names no language, for the smallest such key; otherwise exactly
the languages that are named get a configuration, each from the entry with the greatest key that
names it, whatever the settings of other languages are. -/
theorem settings_resolve_in_any_order :
    (∀ format t d, read format t = .ok d → KeysDistinct d.settings) ∧
    ∀ d : Document, KeysDistinct d.settings →
      (∀ d' : Document, d'.items = d.items → d'.settings.Perm d.settings →
        d'.content = d.content ∧ d'.warnings = d.warnings) ∧
      ((∃ e, d.content.mapError LoadError.unknownLang = .error e) ↔
        ∃ x ∈ d.settings, Lang.parse? x.1 = none) ∧
      (∀ e, d.content.mapError LoadError.unknownLang = .error e →
        e.code = "E203" ∧ ∃ key, FirstRefused d.settings key ∧ e = .unknownLang key ∧
          e.text = "configs: unknown language " ++ quote key) ∧
      ∀ c, d.content = .ok c → ∀ l,
        ((c.config l).isSome = true ↔ ∃ x ∈ d.settings, Lang.parse? x.1 = some l) ∧
        (∀ e, Decides d.settings l e → c.config l = some e.2.config) ∧
        ∀ (d' : Document) (c' : Content),
          (∀ x, Lang.parse? x.1 = some l → (x ∈ d'.settings ↔ x ∈ d.settings)) →
          d'.content = .ok c' → c'.config l = c.config l := by
  refine ⟨fun format t d h => keysDistinct_of_read h, fun d hd => ⟨?_, ?_, ?_, ?_⟩⟩
  · intro d' hitems hperm
    rw [content, content, sortedSettings_eq_of_perm hd hperm, warnings, warnings, hitems]
    exact ⟨rfl, rfl⟩
  · rw [← exists_content_error_iff]
    constructor
    · rintro ⟨e, he⟩
      cases hc : d.content with
      | ok c =>
          rw [hc] at he
          cases he
      | error key => exact ⟨key, rfl⟩
    · rintro ⟨key, hkey⟩
      exact ⟨.unknownLang key, by rw [hkey]; rfl⟩
  · intro e he
    cases hc : d.content with
    | ok c =>
        rw [hc] at he
        cases he
    | error key =>
        rw [hc] at he
        cases he
        exact ⟨rfl, key, firstRefused_of_content hc, rfl, rfl⟩
  · intro c hc l
    refine ⟨isSome_config_iff hc l, fun e he => config_eq_of_decides hd hc he, ?_⟩
    intro d' c' hsame hc'
    exact config_congr hd hc hc' hsame

/-- Two spellings of one language with different settings, and one of the other language. -/
def spelledTwice : Document where
  settings :=
    [("rs", { types := [("T", "A")] }), ("C++", {}), (" RUST ", { types := [("T", "B")] })]

/-- Two keys that name no language, and one that does. -/
def misspelled : Document where
  settings := [("zig", {}), ("c", {}), ("cobol", {})]

theorem spelledTwice_resolved :
    KeysDistinct spelledTwice.settings ∧ KeysDistinct misspelled.settings ∧
      { spelledTwice with settings := spelledTwice.settings.reverse }.content =
        spelledTwice.content ∧
      (∃ c, spelledTwice.content = .ok c ∧
        c.config .rust = some (Settings.config { types := [("T", "A")] })) ∧
      misspelled.content.mapError LoadError.unknownLang = .error (.unknownLang "cobol") := by
  have htwice : KeysDistinct spelledTwice.settings := by
    rw [KeysDistinct]
    decide
  have hmis : KeysDistinct misspelled.settings := by
    rw [KeysDistinct]
    decide
  obtain ⟨horder, hfails, -, hconfig⟩ := settings_resolve_in_any_order.2 spelledTwice htwice
  obtain ⟨-, hfails', hcode, -⟩ := settings_resolve_in_any_order.2 misspelled hmis
  have hdecides : Decides spelledTwice.settings .rust ("rs", { types := [("T", "A")] }) :=
    ⟨List.mem_cons_self, by decide +kernel, by decide +kernel⟩
  refine ⟨htwice, hmis,
    (horder ⟨[], spelledTwice.settings.reverse⟩ rfl (List.reverse_perm _)).1, ?_, ?_⟩
  · cases hc : spelledTwice.content with
    | ok c => exact ⟨c, rfl, (hconfig c hc .rust).2.1 _ hdecides⟩
    | error key =>
        have hnone := hfails.mp ⟨.unknownLang key, by rw [hc]; rfl⟩
        exact absurd hnone (by decide +kernel)
  · obtain ⟨e, he⟩ := hfails'.mpr (by decide +kernel)
    obtain ⟨-, key, hfirst, rfl, -⟩ := hcode e he
    have hcobol : KeyLe key "cobol" := hfirst.first ("cobol", {}) (by simp [misspelled])
      (by decide +kernel)
    have hkey : ∀ k ∈ misspelled.settings.map Prod.fst,
        Lang.parse? k = none → KeyLe k "cobol" → k = "cobol" := by decide +kernel
    rw [he, hkey key hfirst.mem hfirst.refused hcobol]

end DeclGen.Document
