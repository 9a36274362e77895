import DeclGen.Command.Report
import DeclGen.Proofs.Decimal.Digits
import DeclGen.Proofs.Json.ReadBack

/-!
# Responses

With JSON reports a command answers with one object: its status and either a payload or an error.
What is printed is this object and nothing else, so a program that reads it gets the answer back.

## Implementation notes

Strings are read back with the replacement character for each stray byte, so a payload is read back
as `Json.repaired` says. Most payloads hold strings of well-formed UTF-8 only and come back as they
are. The object adds levels to its payload, so the payload has to stay below the limit by as many.
-/

namespace DeclGen

namespace Json

section Readable

/-- Whole numbers are written in digits, the first of which is not a zero in front of others. -/
theorem isWhole_toString (n : Nat) : IsWhole (toString n).toList := by
  refine ⟨(Decimal.isDigits_toString n).2, (Decimal.isDigits_toString n).1, ?_⟩
  have hdigits : (toString n).toList = Nat.toDigits 10 n := Nat.toList_repr
  rw [hdigits]
  clear hdigits
  induction n using Nat.strongRecOn with
  | ind n ih =>
      intro more hmore
      rw [Nat.toDigits_eq_if (by decide)] at hmore
      split at hmore
      · exact (List.cons.inj hmore).2.symm
      · next hbig =>
          -- The digits in front are those of a smaller number, which is not zero.
          obtain ⟨d, ds, hds⟩ := List.exists_cons_of_ne_nil (@Nat.toDigits_ne_nil (n / 10) 10)
          rw [hds, List.cons_append] at hmore
          obtain ⟨rfl, -⟩ := List.cons.inj hmore
          have hnil : ds = [] := ih (n / 10) (by omega) ds hds
          have hzero : n / 10 = 0 := by
            have hvalue := @Nat.ofDigitChars_toDigits 10 (n / 10) (by decide) (by decide)
            rw [hds, hnil] at hvalue
            exact hvalue.symm
          omega

theorem readable_ofString (s : String) : (ofString s).Readable := .string _

theorem readable_ofNat (n : Nat) : (ofNat n).Readable := .number (isWhole_toString n)

theorem readable_array_iff {es : List Json} : (array es).Readable ↔ ∀ e ∈ es, e.Readable :=
  ⟨fun h => by cases h; assumption, .array⟩

theorem readable_object_iff {fs : List (String × Json)} :
    (object fs).Readable ↔ ∀ f ∈ fs, f.2.Readable :=
  ⟨fun h => by cases h; assumption, .object⟩

end Readable

section Fitting

/-- A value whose numbers are whole numbers and that keeps within a number of levels. -/
def FitsIn (n : Nat) (j : Json) : Prop := j.Readable ∧ j.depth ≤ n

variable {n : Nat}

@[simp]
theorem fitsIn_null : null.FitsIn n := ⟨.null, Nat.zero_le n⟩

@[simp]
theorem fitsIn_bool (b : Bool) : (bool b).FitsIn n := ⟨.bool b, Nat.zero_le n⟩

@[simp]
theorem fitsIn_string (t : Text) : (string t).FitsIn n := ⟨.string t, Nat.zero_le n⟩

@[simp]
theorem fitsIn_ofString (s : String) : (ofString s).FitsIn n := fitsIn_string _

@[simp]
theorem fitsIn_ofNat (k : Nat) : (ofNat k).FitsIn n := ⟨readable_ofNat k, Nat.zero_le n⟩

theorem fitsIn_array_iff {es : List Json} : (array es).FitsIn (n + 1) ↔ ∀ e ∈ es, e.FitsIn n := by
  rw [FitsIn, readable_array_iff, depth_array_le_iff]
  exact forall₂_and.symm

theorem fitsIn_object_iff {fs : List (String × Json)} :
    (object fs).FitsIn (n + 1) ↔ ∀ f ∈ fs, f.2.FitsIn n := by
  rw [FitsIn, readable_object_iff, depth_object_le_iff]
  exact forall₂_and.symm

end Fitting

end Json

/-- The answer of a command: a payload, or an error with its code, its message and maybe
details. -/
inductive Response where
  | success (data : Option Json)
  | failure (code message : String) (details : Option Json)

namespace Response

/-- Whether an answer reports a success. -/
def isOk : Response → Bool
  | success _ => true
  | failure _ _ _ => false

/-- The object for an answer. -/
def json : Response → Json
  | success data => .object (("status", .ofString "ok") :: (data.map ("data", ·)).toList)
  | failure code message details =>
    .object [("status", .ofString "error"), ("error", .object
      (("code", .ofString code) :: ("message", .ofString message)
        :: (details.map ("details", ·)).toList))]

/-- A text is an answer in JSON and nothing else. -/
def IsIn (x : Response) (t : Text) : Prop :=
  ∃ s, Json.readAll t.chars = .ok s ∧ s.value = x.json

/-- A payload as it is read back. A null is no payload. -/
def payload (j : Json) : Option Json := if j.isNull then none else some j.repaired

variable {r : Reporting} {data details : Json}

/-- The object that reports a success has one level more than its payload. -/
theorem depth_successObject (data : Json) :
    (Reporting.successObject data).depth = data.depth + 1 := by
  cases data <;> simp [Reporting.successObject, Json.isNull, Json.depth, Json.depthOfFields]

/-- The object that reports an error has two levels more than its details. -/
theorem depth_errorObject (code message : String) (details : Json) :
    (Reporting.errorObject code message details).depth = details.depth + 2 := by
  cases details <;> simp [Reporting.errorObject, Json.isNull, Json.depth, Json.depthOfFields]

theorem written_eq_ok {j : Json} (h : j.depth ≤ Json.maxDepth) :
    Reporting.written j = .ok (Text.ofChars (j.chars 0 ++ ['\n'])) := by
  rw [Reporting.written, Json.text_eq_ok_iff.mpr ⟨h, rfl⟩]

/-- A payload that keeps within the limit is reported, in either format. -/
theorem exists_success (r : Reporting) {n : Nat} (h : data.FitsIn n) (hn : n < Json.maxDepth) :
    ∃ out, r.success data = .ok out := by
  obtain ⟨format, verbose⟩ := r
  have hdepth : (Reporting.successObject data).depth ≤ Json.maxDepth := by
    rw [depth_successObject]
    exact Nat.lt_of_le_of_lt h.2 hn
  cases format with
  | text => exact ⟨_, rfl⟩
  | json => exact ⟨_, written_eq_ok hdepth⟩

/-- Details that keep within the limit are reported, in either format. -/
theorem exists_error (r : Reporting) (code message : String) {n : Nat} (h : details.FitsIn n)
    (hn : n + 1 < Json.maxDepth) : ∃ out, r.error code message details = .ok out := by
  obtain ⟨format, verbose⟩ := r
  have hdepth : (Reporting.errorObject code message details).depth ≤ Json.maxDepth := by
    rw [depth_errorObject]
    exact (Nat.add_le_add_right h.2 2).trans hn
  cases format with
  | text => exact ⟨_, rfl⟩
  | json => exact ⟨_, written_eq_ok hdepth⟩

/-- A payload with too many levels is not reported in JSON. -/
theorem exists_success_eq_error (hr : r.format = .json) (h : Json.maxDepth ≤ data.depth) :
    ∃ bracket, r.success data = .error (Reporting.tooDeep bracket) := by
  obtain ⟨bracket, hbracket⟩ := Json.exists_beyond? (n := Json.maxDepth)
    (j := Reporting.successObject data) (by rw [depth_successObject]; omega)
  refine ⟨bracket, ?_⟩
  rw [Reporting.success, hr]
  simp only [Reporting.written, Json.text, hbracket]

/-- What is written of an object is read back. -/
theorem readAll_written {j : Json} {t : Text} (h : j.Readable) (ht : Reporting.written j = .ok t) :
    ∃ s, Json.readAll t.chars = .ok s ∧ s.value = j.repaired := by
  rw [Reporting.written] at ht
  split at ht
  · next heq =>
      cases ht
      exact Json.readAll_text h heq
  · cases ht

theorem isIn_success (hr : r.format = .json) (h : data.Readable) {out : Text}
    (hout : r.success data = .ok out) : (success (payload data)).IsIn out := by
  have hreadable : (Reporting.successObject data).Readable := by
    refine Json.readable_object_iff.mpr (List.forall_mem_cons.mpr ⟨.string _, ?_⟩)
    split
    · simp
    · exact List.forall_mem_singleton.mpr h
  rw [Reporting.success, hr] at hout
  obtain ⟨s, hs, hv⟩ := readAll_written hreadable hout
  refine ⟨s, hs, ?_⟩
  rw [hv, Reporting.successObject, json, payload]
  split
  · simp [Json.repaired, Json.repairedFields, Json.ofString]
  · simp [Json.repaired, Json.repairedFields, Json.ofString]

theorem isIn_error (hr : r.format = .json) {code message : String} (h : details.Readable)
    {out : Text} (hout : r.error code message details = .ok out) :
    (failure code message (payload details)).IsIn out := by
  have hreadable : (Reporting.errorObject code message details).Readable := by
    refine Json.readable_object_iff.mpr (List.forall_mem_cons.mpr ⟨.string _, ?_⟩)
    refine List.forall_mem_singleton.mpr (Json.readable_object_iff.mpr ?_)
    refine List.forall_mem_append.mpr ⟨?_, ?_⟩
    · exact List.forall_mem_cons.mpr ⟨.string _, List.forall_mem_singleton.mpr (.string _)⟩
    · split
      · simp
      · exact List.forall_mem_singleton.mpr h
  rw [Reporting.error, hr] at hout
  obtain ⟨s, hs, hv⟩ := readAll_written hreadable hout
  refine ⟨s, hs, ?_⟩
  rw [hv, Reporting.errorObject, json, payload]
  split
  · simp [Json.repaired, Json.repairedFields, Json.ofString]
  · simp [Json.repaired, Json.repairedFields, Json.ofString]

/-- The report of an error with a few details is its answer. -/
theorem isIn_errorText (hr : r.format = .json) (code message : String) {n : Nat}
    (h : details.FitsIn n) (hn : n + 1 < Json.maxDepth) :
    (failure code message (payload details)).IsIn (r.errorText code message details) := by
  obtain ⟨out, hout⟩ := exists_error r code message h hn
  rw [Reporting.errorText, hout]
  exact isIn_error hr h.1 hout

end Response

end DeclGen
