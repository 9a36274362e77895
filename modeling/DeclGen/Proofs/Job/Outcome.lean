import DeclGen.Job
import DeclGen.Proofs.Render.Refusal
import DeclGen.Proofs.Store.Lookup

/-!
# The outcome of a job

A job is created only for a forest that passed the check, and such a forest is never refused while
it is rendered. What can still go wrong with a job is the writing of its file. Wherever that goes
wrong, the store is as it was before.
-/

namespace DeclGen

/-- A forest that passes the check is rendered in every style. -/
theorem exists_render_of_validate (style : Style) {f : Forest} (h : f.validate = none) :
    ∃ t, style.render f = .ok t := by
  apply (Style.fault?_eq_none_iff _).mp
  rw [fault?_render]
  exact validate_prune_eq_none f h

namespace Job

/-- The dialect of a job: the one that is given, or else that of the language. -/
def chosenDialect (tag : String) (dialect : Option Dialect) : Option Dialect :=
  dialect.or ((Lang.ofTag? tag).map Lang.dialect)

/-- The three things that are looked at before a job is created, in their order. -/
theorem create_eq (tag : String) (config : Option Config) (items : Forest)
    (dialect : Option Dialect) :
    create tag config items dialect =
      match chosenDialect tag dialect with
      | none => .error (.unknownLang tag)
      | some d =>
        match Config.format config with
        | .error e => .error (.invalidOption tag e)
        | .ok format =>
          match items.validate with
          | some v => .error (.invalidTree v)
          | none =>
            .ok { tag, items, style := { dialect := d, format, substitution := .ofConfig config } }
    := by
  unfold create chosenDialect
  cases dialect with
  | some d =>
      cases Config.format config with
      | error e => rfl
      | ok format => cases items.validate <;> rfl
  | none =>
      cases Lang.ofTag? tag with
      | none => rfl
      | some l =>
          cases Config.format config with
          | error e => rfl
          | ok format => cases items.validate <;> rfl

/-- The forest of a job has passed the check. -/
theorem validate_of_create {tag : String} {config : Option Config} {items : Forest}
    {dialect : Option Dialect} {j : Job} (h : create tag config items dialect = .ok j) :
    j.items.validate = none := by
  rw [create_eq] at h
  split at h
  · cases h
  · split at h
    · cases h
    · split at h
      · cases h
      · next hv =>
          cases h
          exact hv

/-- With its text at hand, a job fails only where the writing of its file does. -/
theorem writeFile_of_text {j : Job} {t : Text} (h : j.text = .ok t) (fs : Files)
    (token path : String) :
    (j.writeFile fs token path).2 =
      match (fs.writeAtomic token path t).2 with
      | some w => .error (.write w)
      | none => .ok (j.writtenRecord path t) := by
  simp only [writeFile, persist, Files.writeAtomic, h]
  obtain ⟨after, failure⟩ := fs.persist none token path t
  cases failure with
  | some w => rfl
  | none => rfl

/-- A job that was created renders to a text, and writing it to a file succeeds or fails with an
error of the store. -/
theorem created_job_renders {tag : String} {config : Option Config} {items : Forest}
    {dialect : Option Dialect} {j : Job} (h : create tag config items dialect = .ok j) :
    (∃ t, j.text = .ok t) ∧
      ∀ fs token path, (∃ r, (j.writeFile fs token path).2 = .ok r) ∨
        ∃ w, (j.writeFile fs token path).2 = .error (.write w) := by
  obtain ⟨t, ht⟩ := exists_render_of_validate j.style (validate_of_create h)
  refine ⟨⟨t, ht⟩, ?_⟩
  intro fs token path
  rw [writeFile_of_text ht]
  cases (fs.writeAtomic token path t).2 with
  | some w => exact .inr ⟨w, rfl⟩
  | none => exact .inl ⟨_, rfl⟩

/-- A job for a forest with a hole, an unknown kind and function pointers deep inside a
parameter. -/
def nestedJob : Job where
  tag := "rust"
  items :=
    [.hole, .node .struct []
      [.node .unknown [] [.node .function [] [.node .var [] []]],
        .node .function [] [.hole, .node .var [] [.node .struct []
          [.node .functionPointer [] [.node .var [] [.node .functionPointer [] []]]]]]]]
  style := { dialect := .rust }

theorem nestedJob_renders :
    create "rust" none nestedJob.items = .ok nestedJob ∧ (∃ t, nestedJob.text = .ok t) ∧
      ∀ fs token path, (∃ r, (nestedJob.writeFile fs token path).2 = .ok r) ∨
        ∃ w, (nestedJob.writeFile fs token path).2 = .error (.write w) :=
  ⟨rfl, created_job_renders (rfl : create "rust" none nestedJob.items = .ok nestedJob)⟩

/-- Writing a job's text is all or nothing. Either the file holds the text and nothing else has
changed, or the path is reported and nothing at all has changed. It is all when the temporary file
can be made, nothing interrupts the bytes on their way into it, and no directory is in the place of
the file. `writeFile` is the attempt that nothing interrupts. -/
theorem persist_all_or_nothing {j : Job} {t : Text} (ht : j.text = .ok t)
    (interruption : Option Files.Interruption) (fs : Files) (token path : String) :
    (interruption = none ∧ fs.Admits token path ∧
        ∃ after, j.persist interruption fs token path = (after, .ok (j.writtenRecord path t)) ∧
          after.read path = .ok t ∧
          ∀ loc, loc ≠ Files.destination path → after.get? loc = fs.get? loc) ∨
      ¬ (interruption = none ∧ fs.Admits token path) ∧
        ∃ e, j.persist interruption fs token path = (fs, .error (.write e)) ∧ e.path = path := by
  rcases Files.persist_cases interruption fs token path t with
    ⟨hnone, hadmits, hw⟩ | ⟨hnot, e, hw, hpath⟩
  · have ⟨_, loc, hloc, hkept⟩ := hadmits
    obtain rfl := Files.eq_destination_of_locate hloc
    have hget := Files.get?_set hkept (.file t)
    refine .inl ⟨hnone, hadmits, fs.set (Files.destination path) (.file t), ?_, ?_, ?_⟩
    · simp only [persist, ht, hw]
    · apply Files.read_eq_ok_iff.mpr
      exact ⟨_, (Files.locate_set_file_iff hkept t).mpr hloc, by rw [hget, if_pos rfl]⟩
    · intro loc hne
      rw [hget, if_neg hne]
  · exact .inr ⟨hnot, e, by simp only [persist, ht, hw], hpath⟩

/-- A store with a directory that holds an old file and another directory. -/
def crowdedStore : Files where
  entries := [(["out"], .directory), (["out", "a.rs"], .file (Text.ofString "old")),
    (["out", "b.rs"], .directory)]

theorem nestedJob_all_or_nothing :
    ∃ t, nestedJob.text = .ok t ∧
      (∃ after, nestedJob.writeFile crowdedStore "1" "out//a.rs" =
          (after, .ok (nestedJob.writtenRecord "out//a.rs" t)) ∧
        after.read "out//a.rs" = .ok t ∧
        ∀ loc, loc ≠ Files.destination "out//a.rs" → after.get? loc = crowdedStore.get? loc) ∧
      (∃ e, nestedJob.persist (some (.write 3 .noSpace)) crowdedStore "1" "out//a.rs" =
          (crowdedStore, .error (.write e)) ∧ e.path = "out//a.rs") ∧
      ∃ e, nestedJob.writeFile crowdedStore "1" "out/b.rs" =
          (crowdedStore, .error (.write e)) ∧ e.path = "out/b.rs" := by
  obtain ⟨t, ht⟩ : ∃ t, nestedJob.text = .ok t := exists_render_of_validate _ rfl
  refine ⟨t, ht, ?_, ?_, ?_⟩
  · rcases persist_all_or_nothing ht none crowdedStore "1" "out//a.rs" with
      ⟨-, -, hwritten⟩ | ⟨hnot, -⟩
    · exact hwritten
    · refine absurd ⟨rfl, ?_⟩ hnot
      exact ⟨⟨["out", ".a.rs.1.tmp"], rfl, rfl⟩, ["out", "a.rs"], rfl, by decide +kernel⟩
  · rcases persist_all_or_nothing ht (some (.write 3 .noSpace)) crowdedStore "1" "out//a.rs" with
      ⟨hnone, -⟩ | ⟨-, hfailed⟩
    · cases hnone
    · exact hfailed
  · rcases persist_all_or_nothing ht none crowdedStore "1" "out/b.rs" with
      ⟨-, ⟨-, loc, hloc, hkept⟩, -⟩ | ⟨-, hfailed⟩
    · refine absurd ?_ hkept
      rw [Files.eq_destination_of_locate hloc]
      decide +kernel
    · exact hfailed

end Job

end DeclGen
