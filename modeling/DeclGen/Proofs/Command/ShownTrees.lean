import DeclGen.Command.Inspect
import DeclGen.Proofs.Command.OutputFiles
import DeclGen.Proofs.Command.Responses
import DeclGen.Proofs.Document.Nested
import DeclGen.Proofs.Document.Spelling
import DeclGen.Proofs.Tree.Checking
import DeclGen.Tree.OfJson

/-!
# Trees that are shown as JSON

The trees that the inspect command shows as JSON can be read back from what it prints. What is read
is the forest itself, provided that its attribute values are well-formed UTF-8 and its attribute
names are the ones that their spellings stand for. The forests of documents are of this kind. An
answer that has too many levels is not printed.

## Implementation notes

Writing and reading use different tables: a kind is written by its canonical tag and read by any of
its spellings, and the tag of the unknown kind is no spelling at all. Every forest can be read back;
`Forest.reread` says what comes back in general.
-/

namespace DeclGen

section Reading

theorem Kind.ofTag_tag (k : Kind) : ofTag k.tag = k := by
  cases k <;> decide +kernel

/-- The attributes of a list that was written are read back. -/
theorem Attr.overElems_repaired (as : List Attr) :
    Attr.overElems [] (Json.repairedList (as.map Attr.json)) = some (as.map Attr.reread) := by
  have hkey : AttrField.ofName? (Text.fold "key") = some .key := by decide +kernel
  have hvalue : AttrField.ofName? (Text.fold "value") = some .value := by decide +kernel
  have hattr (old a : Attr) : Attr.overJson old a.json.repaired = some a.reread := by
    simp [Attr.json, Json.repaired, Json.repairedFields, Json.ofString, Attr.overJson,
      Attr.overFields, Text.overJson, Attr.reread, hkey, hvalue]
  induction as with
  | nil => rfl
  | cons a rest ih => simp [Json.repairedList, Attr.overElems, hattr, ih]

namespace Node

theorem readable_of_mem_jsonList {f : Forest} {j : Json} (h : j ∈ jsonList f) : j.Readable := by
  induction f using Forest.induction generalizing j with
  | nil => simp [jsonList] at h
  | hole rest ih =>
      rw [jsonList, json] at h
      rcases List.mem_cons.mp h with rfl | h
      · exact .null
      · exact ih h
  | node k as cs rest ihc ihr =>
      rw [jsonList, json] at h
      rcases List.mem_cons.mp h with rfl | h
      · have hattr (a : Attr) : a.json.Readable := by
          simp [Attr.json, Json.readable_object_iff, Json.readable_ofString, Json.Readable.string]
        have hattrs : (Json.array (as.map Attr.json)).Readable := by
          simpa [Json.readable_array_iff] using fun a _ => hattr a
        have hchildren : (Json.array (jsonList cs)).Readable := .array fun j hj => ihc hj
        refine Json.readable_object_iff.mpr fun field hfield => ?_
        rw [List.cons_append, List.mem_cons, List.mem_append] at hfield
        rcases hfield with rfl | hfield | hfield
        · exact .string _
        · split at hfield
          · cases hfield
          · rwa [List.mem_singleton.mp hfield]
        · split at hfield
          · cases hfield
          · rwa [List.mem_singleton.mp hfield]
      · exact ihr h

/-- A node as it is read back has the fields with which it was written. -/
theorem repaired_json (k : Kind) (as : List Attr) (cs : List Node) :
    (json (.node k as cs)).repaired = .object (("kind", .ofString k.tag)
      :: ((if as.isEmpty then [] else [("attrs", .array (Json.repairedList (as.map Attr.json)))])
      ++ if cs.isEmpty then [] else [("children", .array (Json.repairedList (jsonList cs)))])) := by
  cases as <;> cases cs <;> simp [json, Json.repaired, Json.repairedFields, Json.ofString]

/-- The trees of a list that was written are read back. -/
theorem overElems_repaired (f : Forest) :
    overElems [] (Json.repairedList (jsonList f)) = some f.reread := by
  induction f using Forest.induction with
  | nil => simp [jsonList, Json.repairedList, overElems, Forest.reread]
  | hole rest ih =>
      simp [jsonList, json, Json.repairedList, Json.repaired, overElems, overJson, ih,
        Forest.reread]
  | node k as cs rest ihc ihr =>
      have hkind : NodeField.ofName? (Text.fold "kind") = some .kind := by decide +kernel
      have hattrs : NodeField.ofName? (Text.fold "attrs") = some .attrs := by decide +kernel
      have hchildren : NodeField.ofName? (Text.fold "children") = some .children := by
        decide +kernel
      -- An empty list is left out, and then the list stays as empty as it was.
      have hlast : overFields k (as.map Attr.reread) [] (if cs.isEmpty then [] else
          [("children", .array (Json.repairedList (jsonList cs)))]) =
            some (.node k (as.map Attr.reread) cs.reread) := by
        cases cs with
        | nil => simp [overFields, Forest.reread]
        | cons c cs => simp [overFields, hchildren, overList, ihc]
      have hfields (more : List (String × Json)) : overFields k [] [] ((if as.isEmpty then [] else
          [("attrs", .array (Json.repairedList (as.map Attr.json)))]) ++ more) =
            overFields k (as.map Attr.reread) [] more := by
        cases hempty : as.isEmpty with
        | true => rw [List.isEmpty_iff.mp hempty]; rfl
        | false => simp [overFields, hattrs, Attr.overList, Attr.overElems_repaired]
      have hnode : overJson .hole (json (.node k as cs)).repaired =
          some (.node k (as.map Attr.reread) cs.reread) := by
        have htag : Kind.overJson .unknown (.ofString k.tag) = some k := by
          rw [Json.ofString, Kind.overJson, Text.toString_ofString, Kind.ofTag_tag]
        rw [repaired_json, overJson, overFields, hkind]
        simp only [kind?, attrs, children, Option.getD_none, htag, Option.bind_eq_bind,
          Option.bind_some, hfields, hlast]
      simp [jsonList, Json.repairedList, overElems, hnode, ihr, Forest.reread]

end Node

/-- A forest in JSON that was written is read back. -/
theorem Forest.ofJson?_repaired (f : Forest) : ofJson? f.json.repaired = some f.reread := by
  rw [json, Json.repaired, ofJson?, Node.overList, Node.overElems_repaired]

theorem Forest.readable_json (f : Forest) : f.json.Readable :=
  .array fun _ hj => Node.readable_of_mem_jsonList hj

end Reading

section Levels

end Levels

namespace Inspect

/-- The forest that is to be shown: that of a document, or what a target sees of it. -/
def shown? (lang path : String) (fs : Files) : Option Forest :=
  match (Document.load fs path).2 with
  | .error _ => none
  | .ok c =>
    if lang = "" then some c.items
    else (Lang.parse? lang).bind fun l =>
      (Job.create l.tag (c.config l) c.items).toOption.map Job.tree

/-- The forest that a JSON report shows. -/
def shownItems? (out : Text) : Option Forest := do
  let response ← (Json.readAll out.chars).toOption
  let data ← response.value.member? "data"
  Forest.ofJson? (← data.member? "items")

/-- The levels of the answer that shows a forest. -/
def levels (f : Forest) : Nat := f.json.depth + 2

/-- An ending that shows a forest in JSON. The forest is read back from what was printed, as it is
exactly if it is well spelled. An answer with too many levels is not printed, and the command ends
with an error. -/
structure Shows (e : Ending) (f : Forest) : Prop where
  readBack : levels f ≤ Json.maxDepth →
    e.error = none ∧ (shownItems? e.out = some f ↔ f.IsWellSpelled)
  tooDeep : Json.maxDepth < levels f →
    e.out = [] ∧ ∃ bracket, e.error = some (Reporting.tooDeep bracket)

/-- What is to be shown is the forest of a document that was loaded, or that of a job for it. -/
theorem shown?_cases {lang path : String} {fs : Files} {f : Forest}
    (h : shown? lang path fs = some f) : ∃ c, (Document.load fs path).2 = .ok c ∧
      ((lang = "" ∧ f = c.items) ∨ ∃ l job, lang ≠ "" ∧ Lang.parse? lang = some l ∧
        Job.create l.tag (c.config l) c.items = .ok job ∧ f = job.tree) := by
  rw [shown?] at h
  split at h
  · cases h
  · next c hc =>
      refine ⟨c, hc, ?_⟩
      split at h
      · next hlang =>
          cases h
          exact .inl ⟨hlang, rfl⟩
      · next hlang =>
          obtain ⟨l, hl, hshown⟩ := Option.bind_eq_some_iff.mp h
          obtain ⟨job, hjob, rfl⟩ := Option.map_eq_some_iff.mp hshown
          exact .inr ⟨l, job, hlang, hl, eq_ok_of_toOption hjob, rfl⟩

/-- A command that has nothing to show is stopped. -/
theorem run_of_shown?_eq_none {r : Reporting} {lang path : String} {fs : Files}
    (h : shown? lang path fs = none) : ∃ failure notes warnings,
      run r lang path fs = .stopped r fs failure notes warnings := by
  rw [shown?] at h
  rw [run, Document.load_eq rfl]
  cases hc : (Document.load fs path).2 with
  | error e => exact ⟨.load e, [], _, rfl⟩
  | ok c =>
      rw [hc] at h
      dsimp only at h ⊢
      split at h
      · cases h
      · next hlang =>
          rw [if_neg hlang]
          cases hl : Lang.parse? lang with
          | none => exact ⟨.unknownLang lang, [], _, rfl⟩
          | some l =>
              rw [hl, Option.bind_some] at h
              dsimp only
              cases hjob : Job.create l.tag (c.config l) c.items with
              | error e => exact ⟨.job e, [], _, rfl⟩
              | ok job =>
                  rw [hjob] at h
                  cases h

section Reports

variable {r : Reporting} (hr : r.format = .json) {before : List (String × Json)}
  (hb : ∀ field ∈ before, field.2.FitsIn 0)
include hb

theorem depth_itemsObject (f : Forest) :
    (Json.object (before ++ [("items", f.json)])).depth = f.json.depth + 1 := by
  refine Nat.le_antisymm (Json.depth_object_le_iff.mpr ?_) ?_
  · refine List.forall_mem_append.mpr ⟨fun field hfield => ?_, ?_⟩
    · exact (hb field hfield).2.trans (Nat.zero_le _)
    · exact List.forall_mem_singleton.mpr (Nat.le_refl _)
  · exact Json.depth_lt_object (f := ("items", f.json)) (by simp)

theorem fitsIn_itemsObject (f : Forest) :
    (Json.object (before ++ [("items", f.json)])).FitsIn (f.json.depth + 1) where
  left := .object (List.forall_mem_append.mpr
    ⟨fun field hfield => (hb field hfield).1, List.forall_mem_singleton.mpr f.readable_json⟩)
  right := Nat.le_of_eq (depth_itemsObject hb f)

include hr

/-- The items of a report are read back, whatever stands before them. -/
theorem shownItems?_success (f : Forest) {out : Text}
    (hout : r.success (.object (before ++ [("items", f.json)])) = .ok out) :
    shownItems? out = some f.reread := by
  obtain ⟨s, hs, hv⟩ := Response.isIn_success hr (fitsIn_itemsObject hb f).1 hout
  have hdata : s.value.member? "data" =
      some (Json.object (before ++ [("items", f.json)])).repaired := by
    rw [hv]
    rfl
  have hitems : (Json.object (before ++ [("items", f.json)])).repaired.member? "items" =
      some f.json.repaired := by
    simp [Json.repaired, Json.repairedFields_eq_map, Json.member?, Json.field?]
  simp only [shownItems?, hs, Except.toOption, Option.bind_eq_bind, Option.bind_some, hdata,
    hitems, Forest.ofJson?_repaired]

/-- The report on a forest shows it. -/
theorem shows_reported (f : Forest) (files : Files) (notes : List Note) (warnings : List Record) :
    Shows (.reported files (r.success (.object (before ++ [("items", f.json)]))) none notes
      warnings) f where
  readBack h := by
    have hlimit : f.json.depth + 1 < Json.maxDepth := h
    obtain ⟨out, hout⟩ := Response.exists_success r (fitsIn_itemsObject hb f) hlimit
    rw [hout]
    refine ⟨rfl, ?_⟩
    rw [Ending.reported, shownItems?_success hr hb f hout, Option.some_inj,
      Forest.reread_eq_self_iff]
  tooDeep h := by
    rw [levels] at h
    have hdeep : Json.maxDepth ≤ (Json.object (before ++ [("items", f.json)])).depth := by
      rw [depth_itemsObject hb f]
      omega
    obtain ⟨bracket, herror⟩ := Response.exists_success_eq_error hr hdeep
    rw [herror]
    exact ⟨rfl, bracket, rfl⟩

end Reports

section Commands

variable {r : Reporting} (hr : r.format = .json)
include hr

theorem plainReport_eq_success (c : Content) :
    plainReport r c = r.success (.object ([] ++ [("items", c.items.json)])) := by
  simp only [plainReport, hr, List.nil_append]

theorem jobReport_eq_success (l : Lang) (job : Job) :
    jobReport r l job =
      r.success (.object ([("lang", .ofString l.tag)] ++ [("items", job.tree.json)])) := by
  simp only [jobReport, hr, List.singleton_append]

/-- A command that is to show a forest reports it, whatever it tells besides. -/
theorem run_of_shown? {lang path : String} {fs : Files} {f : Forest}
    (h : shown? lang path fs = some f) : ∃ before notes warnings,
      (∀ field ∈ before, field.2.FitsIn 0) ∧ run r lang path fs =
        .reported fs (r.success (.object (before ++ [("items", f.json)]))) none notes warnings := by
  obtain ⟨c, hc, hf⟩ := shown?_cases h
  rw [run, Document.load_eq hc]
  dsimp only
  rcases hf with ⟨hlang, rfl⟩ | ⟨l, job, hlang, hl, hjob, rfl⟩
  · rw [if_pos hlang, plainReport_eq_success hr]
    exact ⟨[], [], _, nofun, rfl⟩
  · rw [if_neg hlang, hl]
    dsimp only
    rw [hjob]
    dsimp only
    rw [jobReport_eq_success hr]
    exact ⟨_, _, _, List.forall_mem_singleton.mpr (Json.fitsIn_ofString _), rfl⟩

/-- The command shows what is to be shown. -/
theorem shows_run {lang path : String} {fs : Files} {f : Forest}
    (h : shown? lang path fs = some f) : Shows (run r lang path fs) f := by
  obtain ⟨before, notes, warnings, hb, hrun⟩ := run_of_shown? hr h
  rw [hrun]
  exact shows_reported hr hb f fs notes warnings

end Commands

section Nested

variable {n : Nat}

theorem shown?_nestedItemFiles (h : 2 * n + 3 ≤ Json.maxDepth) :
    shown? "" "d.json" (Document.nestedItemFiles n) = some (.nested n) := by
  rw [shown?, Document.load_nestedItemFiles h]
  rfl

/-- Of items that stand too far inside each other nothing is printed. -/
theorem out_run_nestedItemFiles {r : Reporting} (hr : r.format = .json)
    (h : 2 * n + 3 ≤ Json.maxDepth) (hdeep : Json.maxDepth < 2 * n + 6) :
    (run r "" "d.json" (Document.nestedItemFiles n)).out = [] := by
  refine ((shows_run hr (shown?_nestedItemFiles h)).tooDeep ?_).1
  rwa [levels, Forest.depth_json_nested]

end Nested

end Inspect

end DeclGen
