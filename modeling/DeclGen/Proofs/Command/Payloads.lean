import DeclGen.Command.Generate
import DeclGen.Command.Listing
import DeclGen.Command.Suite
import DeclGen.Command.Validate
import DeclGen.Proofs.Command.Responses

/-!
# Payloads

What a command reports in JSON has a few levels, whatever it reports on, unless it shows a tree. So
its report can always be written.
-/

namespace DeclGen

open Json (fitsIn_array_iff fitsIn_object_iff)

theorem Generate.fitsIn_resultJson (g : Generated) : (Generate.resultJson g).FitsIn 1 := by
  by_cases hpath : g.path = "" <;> by_cases htext : g.text = [] <;>
    simp [Generate.resultJson, fitsIn_object_iff, hpath, htext]

theorem Generate.fitsIn_outputs (gs : List Generated) :
    (Json.object [("outputs", .array (gs.map Generate.resultJson))]).FitsIn 3 := by
  simp [fitsIn_object_iff, fitsIn_array_iff, Generate.fitsIn_resultJson]

theorem Validate.fitsIn_complaintJson (i : Complaint) : (Validate.complaintJson i).FitsIn 1 := by
  cases hlang : i.lang <;> by_cases hpath : i.path = "" <;>
    simp [Validate.complaintJson, fitsIn_object_iff, hlang, hpath]

theorem Validate.fitsIn_resultJson (c : Content) (found : List Complaint) :
    (Validate.resultJson c found).FitsIn 3 := by
  by_cases hnil : found = [] <;>
    simp [Validate.resultJson, fitsIn_object_iff, fitsIn_array_iff, hnil,
      Validate.fitsIn_complaintJson]

theorem Suite.fitsIn_resultJson (x : ScenarioResult) : (Suite.resultJson x).FitsIn 2 := by
  by_cases hnil : x.errors = [] <;>
    simp [Suite.resultJson, fitsIn_object_iff, fitsIn_array_iff, hnil]

theorem Suite.fitsIn_summaryJson (rs : List ScenarioResult) : (Suite.summaryJson rs).FitsIn 4 := by
  simp [Suite.summaryJson, fitsIn_object_iff, fitsIn_array_iff, Suite.fitsIn_resultJson]

theorem Listing.fitsIn_langs : (Json.array (Lang.all.map Listing.langJson)).FitsIn 2 := by
  simp [Listing.langJson, fitsIn_array_iff, fitsIn_object_iff]

theorem Schema.fitsIn_json : Schema.json.FitsIn 9 := by
  simp [Schema.json, Schema.itemPart, Schema.optionsPart, Schema.configPart, Schema.itemList,
    Schema.reference, Schema.typeField, Schema.patternField, Schema.noOthers, fitsIn_object_iff,
    fitsIn_array_iff]

theorem Generate.exists_report (r : Reporting) (gs : List Generated) :
    ∃ out, Generate.report r gs = .ok out := by
  rw [Generate.report]
  split
  · exact Response.exists_success r (Generate.fitsIn_outputs gs) (by decide)
  · simp only
    split <;> exact ⟨_, rfl⟩

theorem Validate.exists_report (r : Reporting) (c : Content) (found : List Complaint) :
    ∃ out, Validate.report r c found = .ok out := by
  rw [Validate.report.eq_def]
  split
  · exact Response.exists_success r (Validate.fitsIn_resultJson c []) (by decide)
  · exact ⟨_, rfl⟩
  · exact ⟨_, rfl⟩
  · exact ⟨_, rfl⟩

theorem Suite.exists_report (r : Reporting) (rs : List ScenarioResult) :
    ∃ out, Suite.report r rs = .ok out := by
  have hfits := Suite.fitsIn_summaryJson rs
  rw [Suite.report]
  split
  · split
    · exact Response.exists_success r hfits (by decide)
    · exact Response.exists_error r _ _ hfits (by decide)
  · exact ⟨_, rfl⟩

end DeclGen
