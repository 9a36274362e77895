import DeclGen.Proofs.Json.Sourced
import DeclGen.Proofs.Schema.Tags
import DeclGen.Proofs.Text.Encoding
import DeclGen.Schema.Issue

/-!
# Values that the schema allows

A part of the schema allows a value if its check finds nothing. The lemmas here say what an allowed
string, list or object is made of: they are the only place where the check itself is opened.

## Implementation notes

The check tells where a value stands, and only the messages depend on it. `Part.Allows` forgets the
place, so that it can be used of a value and of its parts alike. `Part.Accepts` is the same of a
value as it was read, with the condition under which the check sees every field.
-/

namespace DeclGen.Schema

section Leaves

theorem leavesOf_append (fs gs : List Finding) :
    leavesOf (fs ++ gs) = leavesOf fs ++ leavesOf gs := by
  induction fs with
  | nil => rfl
  | cons f fs ih => rw [List.cons_append, leavesOf, leavesOf, ih, List.append_assoc]

theorem leavesOf_append_eq_nil {fs gs : List Finding} :
    leavesOf (fs ++ gs) = [] ↔ leavesOf fs = [] ∧ leavesOf gs = [] := by
  rw [leavesOf_append, List.append_eq_nil_iff]

theorem leavesOf_group_eq_nil {causes fs : List Finding} :
    leavesOf (.group causes :: fs) = [] ↔ leavesOf causes = [] ∧ leavesOf fs = [] := by
  rw [leavesOf, Finding.leaves, List.append_eq_nil_iff]

/-- Problems at given places have leaves unless there are none. -/
theorem leavesOf_map_leaf {α : Type} (loc : α → Pointer) (problem : α → Problem) (as : List α) :
    leavesOf (as.map fun a => .leaf (loc a) (problem a)) = [] ↔ as = [] := by
  cases as <;> simp [leavesOf, Finding.leaves]

theorem leavesOf_leaf_ne_nil (loc : Pointer) (p : Problem) : leavesOf [.leaf loc p] ≠ [] := by
  simp [leavesOf, Finding.leaves]

/-- A document has no issues exactly if its check finds nothing. -/
theorem issues_eq_nil_iff (v : Json) :
    issues v = [] ↔ leavesOf (Part.document.check [] v) = [] := by
  rw [issues, report]
  generalize leavesOf (Part.document.check [] v) = leaves
  constructor
  · intro h
    have hlength := congrArg List.length h
    rw [List.length_mergeSort] at hlength
    cases leaves with
    | nil => rfl
    | cons l leaves => simp [List.eraseDups_cons] at hlength
  · rintro rfl
    simp

/-- Where a value of a wrong type is reported, there are no leaves exactly if the type is right and
nothing else is found. -/
theorem leavesOf_typed_eq_nil {ok : Bool} {loc : Pointer} {p : Problem} {found : List Finding} :
    leavesOf (if !ok then [.leaf loc p] else found) = [] ↔ ok = true ∧ leavesOf found = [] := by
  cases ok <;> simp [leavesOf, Finding.leaves]

end Leaves

/-- The check of a value finds nothing. -/
def Part.Allows (part : Part) (v : Json) : Prop := ∃ loc, leavesOf (part.check loc v) = []

namespace Part.Allows

variable {part p : Part} {v : Json}

/-- An allowed value has one of the types of its part. -/
theorem any_hasType (h : part.Allows v) : part.rule.types.any (hasType v) = true := by
  obtain ⟨loc, h⟩ := h
  cases v <;> (unfold Part.check at h; exact (leavesOf_typed_eq_nil.mp h).1)

/-- An allowed string satisfies the pattern of its part. -/
theorem pattern_holds {t : Text} (h : part.Allows (.string t)) :
    part.rule.pattern.all (·.holds t.chars) = true := by
  obtain ⟨loc, h⟩ := h
  rw [Part.check] at h
  have hfound := (leavesOf_append_eq_nil.mp (leavesOf_typed_eq_nil.mp h).2).1
  cases hp : part.rule.pattern with
  | none => rfl
  | some q =>
      rw [hp] at hfound
      cases hq : q.holds t.chars with
      | true => exact hq
      | false => simp [hq, leavesOf, Finding.leaves] at hfound

theorem of_checkElems {loc : Pointer} {i : Nat} {es : List Json}
    (h : leavesOf (checkElems p loc i es) = []) : ∀ e ∈ es, p.Allows e := by
  induction es generalizing i with
  | nil => exact nofun
  | cons e es ih =>
      rw [checkElems, leavesOf_group_eq_nil] at h
      intro x hx
      rcases List.mem_cons.mp hx with rfl | hx
      · exact ⟨_, h.1⟩
      · exact ih h.2 x hx

/-- The elements of an allowed list are allowed by the part for elements. -/
theorem elems {es : List Json} (h : part.Allows (.array es))
    (hp : part.rule.elements = some p) : ∀ e ∈ es, p.Allows e := by
  obtain ⟨loc, h⟩ := h
  rw [Part.check] at h
  have hfound := (leavesOf_typed_eq_nil.mp h).2
  simp only [hp] at hfound
  exact of_checkElems hfound

theorem of_checkFields {r : Rule} {loc : Pointer} {fs : List (String × Json)}
    (hd : (fs.map (·.1)).Nodup) (h : leavesOf (checkFields r loc fs) = []) :
    ∀ f ∈ fs, r.partOf f.1 = some p → p.Allows f.2 := by
  induction fs with
  | nil => exact nofun
  | cons f fs ih =>
      obtain ⟨k, v⟩ := f
      obtain ⟨hk, hd⟩ := List.nodup_cons.mp hd
      -- No later field has the same name, so this one is not passed over.
      have hlast : fs.any (·.1 == k) = false := by
        rw [List.any_eq_false]
        intro f hf heq
        exact hk (List.mem_map.mpr ⟨f, hf, eq_of_beq heq⟩)
      simp only [checkFields, hlast, Bool.false_eq_true, if_false] at h
      intro x hx hp
      rcases List.mem_cons.mp hx with rfl | hx
      · simp only [hp] at h
        exact ⟨_, (leavesOf_group_eq_nil.mp h).1⟩
      · refine ih hd ?_ x hx hp
        split at h
        · exact (leavesOf_group_eq_nil.mp h).2
        · exact h

/-- The fields of an allowed object without repeated names are allowed by their parts. -/
theorem fields {fs : List (String × Json)} (h : part.Allows (.object fs))
    (hd : (fs.map (·.1)).Nodup) : ∀ f ∈ fs, part.rule.partOf f.1 = some p → p.Allows f.2 := by
  obtain ⟨loc, h⟩ := h
  rw [Part.check] at h
  exact of_checkFields hd (leavesOf_append_eq_nil.mp (leavesOf_typed_eq_nil.mp h).2).2

/-- An allowed object has the names that its part requires, none that it forbids, and only names
that satisfy the pattern of names. -/
theorem names {fs : List (String × Json)} (h : part.Allows (.object fs)) :
    (∀ k ∈ part.rule.required, k ∈ fs.map (·.1)) ∧
      (∀ k ∈ fs.map (·.1), part.rule.forbids k = false) ∧
      ∀ k ∈ fs.map (·.1), part.rule.names.all (·.holds k.toList) = true := by
  obtain ⟨loc, h⟩ := h
  rw [Part.check] at h
  have hfound := (leavesOf_append_eq_nil.mp (leavesOf_typed_eq_nil.mp h).2).1
  generalize fs.map (·.1) = names at hfound ⊢
  rw [checkNames, leavesOf_append_eq_nil, leavesOf_append_eq_nil, leavesOf_map_leaf] at hfound
  obtain ⟨⟨hrequired, hextra⟩, hnames⟩ := hfound
  refine ⟨?_, ?_, ?_⟩
  · intro k hk
    simpa using List.filter_eq_nil_iff.mp hrequired k hk
  · intro k hk
    cases hf : part.rule.forbids k with
    | false => rfl
    | true =>
        have hmem : k ∈ names.eraseDups.filter part.rule.forbids :=
          List.mem_filter.mpr ⟨List.mem_eraseDups.mpr hk, hf⟩
        have hne : (names.eraseDups.filter part.rule.forbids).isEmpty = false :=
          List.isEmpty_eq_false_iff.mpr (List.ne_nil_of_mem hmem)
        simp only [hne, Bool.false_eq_true, if_false] at hextra
        exact absurd hextra (leavesOf_leaf_ne_nil _ _)
  · intro k hk
    cases hp : part.rule.names with
    | none => rfl
    | some q =>
        rw [hp] at hnames
        have hall := (leavesOf_map_leaf _ _ _).mp hnames
        simpa using List.filter_eq_nil_iff.mp hall k hk

end Part.Allows

/-- The value that was read repeats no name in an object and is allowed. -/
def Part.Accepts (part : Part) (v : Json.Sourced) : Prop :=
  part.Allows v.value ∧ v.hasDistinctNames = true

namespace Part.Accepts

variable {part p : Part} {v : Json.Sourced} {source : Json.Span}

/-- A part that allows objects only accepts an object. -/
theorem eq_object (h : part.Accepts v) (ht : part.rule.types = [.object]) :
    ∃ source fs, v = .object source fs := by
  have hany := h.1.any_hasType
  rw [ht] at hany
  cases v with
  | object source fs => exact ⟨source, fs, rfl⟩
  | _ => cases hany

/-- A part that allows lists only accepts a list. -/
theorem eq_array (h : part.Accepts v) (ht : part.rule.types = [.array]) :
    ∃ source es, v = .array source es := by
  have hany := h.1.any_hasType
  rw [ht] at hany
  cases v with
  | array source es => exact ⟨source, es, rfl⟩
  | _ => cases hany

/-- A part that allows strings only accepts a string, which satisfies the pattern of the part. -/
theorem eq_string (h : part.Accepts v) (ht : part.rule.types = [.string]) :
    ∃ s, v = .string s ∧ part.rule.pattern.all (·.holds s.toList) = true := by
  have hany := h.1.any_hasType
  rw [ht] at hany
  cases v with
  | string s =>
      have hpattern := Part.Allows.pattern_holds h.1
      rw [Text.ofString, Text.chars_ofChars] at hpattern
      exact ⟨s, rfl, hpattern⟩
  | _ => cases hany

theorem elem {es : List Json.Sourced} {e : Json.Sourced} (h : part.Accepts (.array source es))
    (hp : part.rule.elements = some p) (he : e ∈ es) : p.Accepts e := by
  obtain ⟨hallows, hnames⟩ := h
  rw [Json.Sourced.value, Json.valueList_eq_map] at hallows
  exact ⟨hallows.elems hp e.value (List.mem_map_of_mem he),
    (Json.hasDistinctNames_array_iff source es).mp hnames e he⟩

variable {fs : List (String × Json.Sourced)}

theorem field {f : String × Json.Sourced} (h : part.Accepts (.object source fs)) (hf : f ∈ fs)
    (hp : part.rule.partOf f.1 = some p) : p.Accepts f.2 := by
  obtain ⟨hallows, hnames⟩ := h
  obtain ⟨hd, hfields⟩ := (Json.hasDistinctNames_object_iff source fs).mp hnames
  rw [Json.Sourced.value] at hallows
  rw [← Json.names_valueFields] at hd
  refine ⟨hallows.fields hd (f.1, f.2.value) ?_ hp, hfields f hf⟩
  rw [Json.valueFields_eq_map]
  exact List.mem_map.mpr ⟨f, hf, rfl⟩

/-- The names of an accepted object: those that its part requires are there, and all are allowed. -/
theorem names (h : part.Accepts (.object source fs)) :
    (∀ k ∈ part.rule.required, k ∈ fs.map (·.1)) ∧
      (∀ k ∈ fs.map (·.1), part.rule.forbids k = false) ∧
      ∀ k ∈ fs.map (·.1), part.rule.names.all (·.holds k.toList) = true := by
  have hnames := Part.Allows.names h.1
  rwa [Json.names_valueFields] at hnames

/-- Where other fields are forbidden, an accepted object has listed fields only. -/
theorem name_mem (h : part.Accepts (.object source fs)) (hothers : part.rule.others = .forbidden)
    {f : String × Json.Sourced} (hf : f ∈ fs) : f.1 ∈ part.rule.fields.map (·.1) := by
  have hallowed := h.names.2.1 f.1 (List.mem_map_of_mem hf)
  rw [Rule.forbids, hothers] at hallowed
  rw [← isSome_lookup_iff]
  simpa using hallowed

end Part.Accepts

end DeclGen.Schema
