import DeclGen.Command.Run
import DeclGen.Proofs.Command.Payloads
import DeclGen.Proofs.Job.Outcome
import DeclGen.Proofs.Store.Naming

/-!
# One generation

Code is generated for one target after the other, and the first failure ends it. Printed, the
outcome is that of all targets in order and the store stays as it is. Written to files, the store
changes at the output files of the targets that were finished, and nowhere else.

## Implementation notes

`Content.textFor` is what a target makes of a document, whether it is then printed or written.
`Generate.Written` carries the run lemma: it relates the store before and after the files of some
targets were written, and it composes along the list of targets.
-/

namespace DeclGen

/-- The text for a target of a document, or what stops the generation at this target. -/
def Content.textFor (c : Content) (l : Lang) : Except Failure Text :=
  match Job.create l.tag (c.config l) c.items with
  | .error e => .error (.job e)
  | .ok job =>
    match job.text with
    | .error v => .error (.render v)
    | .ok t => .ok t

/-- A target is stopped by its options, or else by the forest, or else it has a text. -/
theorem Content.textFor_cases (c : Content) (l : Lang) :
    (∃ e, Config.format (c.config l) = .error e ∧
        c.textFor l = .error (.job (.invalidOption l.tag e))) ∨
      ∃ format, Config.format (c.config l) = .ok format ∧
        ((∃ v, c.items.validate = some v ∧ c.textFor l = .error (.job (.invalidTree v))) ∨
          c.items.validate = none ∧ ∃ t, c.textFor l = .ok t) := by
  have hl : Job.chosenDialect l.tag none = some l.dialect := by
    simp [Job.chosenDialect]
  rw [textFor, Job.create_eq, hl]
  cases Config.format (c.config l) with
  | error e => exact .inl ⟨e, rfl, rfl⟩
  | ok format =>
      refine .inr ⟨format, rfl, ?_⟩
      cases hv : c.items.validate with
      | some v => exact .inl ⟨v, rfl, rfl⟩
      | none =>
          obtain ⟨t, ht⟩ := exists_render_of_validate
            { dialect := l.dialect, format, substitution := .ofConfig (c.config l) } hv
          refine .inr ⟨rfl, t, ?_⟩
          simp only [Job.text, ht]

namespace Generate

variable {o : GenerateOptions} {token : String} {c : Content}

section Printing

/-- What printing gives for a target. -/
def printed (c : Content) (l : Lang) : Except Failure Generated :=
  (c.textFor l).map fun t => { lang := l, text := t }

/-- Without an output directory the store stays, and the targets are taken in order. -/
theorem renderAll_printed (hd : o.directory = "") (langs : List Lang) (fs : Files) :
    (renderAll o token c langs fs).1 = fs ∧
      (renderAll o token c langs fs).2.2 = langs.mapM (printed c) := by
  induction langs with
  | nil => exact ⟨rfl, rfl⟩
  | cons l rest ih =>
      obtain ⟨hfiles, hresult⟩ := ih
      rw [List.mapM_cons, ← hresult]
      simp only [renderAll, printed, Content.textFor]
      cases Job.create l.tag (c.config l) c.items with
      | error e => exact ⟨rfl, rfl⟩
      | ok job =>
          simp only [emit, hd, if_true]
          cases job.text with
          | error v => exact ⟨rfl, rfl⟩
          | ok t =>
              refine ⟨hfiles, ?_⟩
              dsimp only
              cases (renderAll o token c rest fs).2.2 with
              | error f => rfl
              | ok gs => rfl

/-- Steps in a row succeed when all of them do, with the results in order. -/
theorem mapM_eq_ok_of_forall {α β ε : Type} {g : α → Except ε β} {value : α → β} {xs : List α}
    (h : ∀ x ∈ xs, g x = .ok (value x)) : xs.mapM g = .ok (xs.map value) := by
  induction xs with
  | nil => rfl
  | cons x rest ih =>
      rw [List.mapM_cons, h x (by simp), ih (fun y hy => h y (by simp [hy]))]
      rfl

/-- Steps in a row fail as one of them does. -/
theorem exists_of_mapM_eq_error {α β ε : Type} {g : α → Except ε β} {xs : List α} {f : ε}
    (h : xs.mapM g = .error f) : ∃ x ∈ xs, g x = .error f := by
  induction xs with
  | nil => cases h
  | cons x rest ih =>
      rw [List.mapM_cons] at h
      cases hx : g x with
      | error e =>
          rw [hx] at h
          cases h
          exact ⟨x, by simp, hx⟩
      | ok a =>
          rw [hx] at h
          cases hr : rest.mapM g with
          | error e =>
              rw [hr] at h
              cases h
              obtain ⟨y, hy, hf⟩ := ih hr
              exact ⟨y, by simp [hy], hf⟩
          | ok as =>
              rw [hr] at h
              cases h

/-- Steps in a row do not succeed when one of them fails. -/
theorem mapM_ne_ok_of_mem {α β ε : Type} {g : α → Except ε β} {xs : List α} {x : α} {f : ε}
    (hx : x ∈ xs) (hf : g x = .error f) (ys : List β) : xs.mapM g ≠ .ok ys := by
  induction xs generalizing ys with
  | nil => cases hx
  | cons y rest ih =>
      intro h
      rw [List.mapM_cons] at h
      cases hy : g y with
      | error e =>
          rw [hy] at h
          cases h
      | ok a =>
          have hmem : x ∈ rest := by
            rcases List.mem_cons.mp hx with rfl | hr
            · rw [hf] at hy
              cases hy
            · exact hr
          cases hr : rest.mapM g with
          | error e =>
              rw [hy, hr] at h
              cases h
          | ok zs => exact ih hmem zs hr

/-- The text for a target, or else the empty text. -/
def textOf (c : Content) (l : Lang) : Text := (c.textFor l).toOption.getD []

theorem textFor_eq_textOf {l : Lang} {t : Text} (h : c.textFor l = .ok t) :
    c.textFor l = .ok (textOf c l) := by
  rw [textOf, h]
  rfl

/-- A document that was loaded is printed for the targets in order. -/
theorem once_printed (hd : o.directory = "") (token : String) {fs : Files}
    (hload : (Document.load fs o.document).2 = .ok c) (langs : List Lang) :
    (once o token langs fs).files = fs ∧
      (once o token langs fs).result = langs.mapM (printed c) := by
  have hready : prepare o fs = .ok fs := by
    simp [prepare, hd]
  rw [once]
  generalize Document.load fs o.document = loading at hload
  obtain ⟨warnings, loaded⟩ := loading
  dsimp only at hload
  subst hload
  simp only [hready]
  exact renderAll_printed hd langs fs

/-- A document with a text for each of some targets is printed for them. -/
theorem once_of_textFor (hd : o.directory = "") (token : String) {fs : Files}
    (hload : (Document.load fs o.document).2 = .ok c) {langs : List Lang}
    (h : ∀ l ∈ langs, ∃ t, c.textFor l = .ok t) :
    (once o token langs fs).result =
      .ok (langs.map fun l => { lang := l, text := textOf c l }) := by
  rw [(once_printed hd token hload langs).2]
  apply mapM_eq_ok_of_forall
  intro l hl
  obtain ⟨t, ht⟩ := h l hl
  rw [printed, textFor_eq_textOf ht]
  rfl

/-- The command that does not watch reports the results when all targets have theirs. -/
theorem run_of_once (hw : o.watch = false) (r : Reporting) {fs : Files} {langs : List Lang}
    {gs : List Generated} (hl : Lang.resolve o.langs = .ok langs)
    (h : (once o token langs fs).result = .ok gs) :
    (run r o token fs).1.files = (once o token langs fs).files ∧
      (run r o token fs).1.error = none ∧ report r gs = .ok (run r o token fs).1.out := by
  obtain ⟨out, hout⟩ := exists_report r gs
  simp [run, start, hw, hl, h, hout, Ending.reported, Except.isOk, Except.toBool]

end Printing

section Writing

/-- The output file for a target. -/
def outputName (o : GenerateOptions) (l : Lang) : String :=
  Path.join o.directory (stem o ++ l.dialect.extension.toString)

/-- The place of the output file for a target. -/
def target (o : GenerateOptions) (l : Lang) : Location := Files.destination (outputName o l)

theorem outputPath_of_create {l : Lang} {config : Option Config} {items : Forest} {job : Job}
    (h : Job.create l.tag config items = .ok job) : outputPath o job = outputName o l := by
  have hl : Job.chosenDialect l.tag none = some l.dialect := by
    simp [Job.chosenDialect]
  rw [Job.create_eq, hl] at h
  split at h
  · next hnone => cases hnone
  · next d hd =>
      cases hd
      split at h
      · cases h
      · split at h
        · cases h
        · cases h
          rfl

theorem toString_extension (l : Lang) :
    ∃ ending, '.' ∉ ending ∧ '/' ∉ ending ∧ ending ≠ [] ∧
      l.dialect.extension.toString = String.ofList ('.' :: ending) := by
  cases l with
  | cpp => exact ⟨['c', 'p', 'p'], by decide, by decide, by decide, rfl⟩
  | rust => exact ⟨['r', 's'], by decide, by decide, by decide, rfl⟩

/-- An output file has the extension of its target, whatever stem was asked for. -/
theorem extension_outputName (o : GenerateOptions) (l : Lang) :
    Path.extension (outputName o l) = l.dialect.extension.toString ∧
      1 < (Path.extension (outputName o l)).length := by
  obtain ⟨ending, hdot, hslash, hne, hext⟩ := toString_extension l
  have hlong : 1 < (String.ofList ('.' :: ending)).length := by
    have hpos := List.length_pos_iff.mpr hne
    rw [String.length_ofList, List.length_cons]
    omega
  have hname : Path.extension (stem o ++ String.ofList ('.' :: ending)) =
      String.ofList ('.' :: ending) := Path.extension_append_ending hdot hslash _
  rw [← hname] at hlong
  rw [outputName, hext, Path.extension_join hlong]
  exact ⟨hname, hlong⟩

/-- Different targets have different output files. -/
theorem target_ne {l m : Lang} (h : l ≠ m) : target o l ≠ target o m := by
  obtain ⟨hl, hl1⟩ := extension_outputName o l
  obtain ⟨hm, hm1⟩ := extension_outputName o m
  refine Files.destination_ne hl1 hm1 ?_
  rw [hl, hm]
  revert h
  cases l <;> cases m <;> decide

/-- A store before and after the output files of some targets were written. -/
structure Written (o : GenerateOptions) (c : Content) (done : List Lang) (fs after : Files) :
    Prop where
  directories : ∀ loc, fs.get? loc = some .directory → after.get? loc = some .directory
  kept : ∀ loc, (∀ l ∈ done, loc ≠ target o l) → after.get? loc = fs.get? loc
  holds : ∀ l ∈ done, ∃ t, c.textFor l = .ok t ∧ after.read (outputName o l) = .ok t

theorem Written.nil {fs after : Files} (h : ∀ loc, after.get? loc = fs.get? loc) :
    Written o c [] fs after where
  directories loc hloc := (h loc).trans hloc
  kept loc _ := h loc
  holds l hl := by cases hl

/-- One file is written, then the others: the first one is still there. -/
theorem Written.cons {l : Lang} {t : Text} {fs mid after : Files}
    {done : List Lang} (ht : c.textFor l = .ok t)
    (hw : fs.writeAtomic token (outputName o l) t = (mid, none))
    (hrest : Written o c done mid after) : Written o c (l :: done) fs after := by
  rcases fs.writeAtomic_cases token (outputName o l) t with
    ⟨_, e, hf, _⟩ | ⟨_, hok, hloc, hdir, hget⟩
  · rw [hw] at hf
    cases hf
  · rw [hw] at hok
    cases hok
    have hmid (loc : Location) (h : fs.get? loc = some .directory) :
        mid.get? loc = some .directory := by
      rw [hget, if_neg, h]
      intro heq
      exact hdir (heq ▸ h)
    have hread : mid.read (outputName o l) = .ok t := by
      rw [Files.read_eq_ok_iff]
      refine ⟨_, Files.locate_of_directories hmid hloc, ?_⟩
      rw [hget, if_pos rfl]
    refine ⟨fun loc h => hrest.directories loc (hmid loc h), ?_, ?_⟩
    · intro loc hne
      rw [hrest.kept loc (fun m hm => hne m (by simp [hm])), hget]
      exact if_neg (hne l (by simp))
    · intro m hm
      by_cases hmem : m ∈ done
      · exact hrest.holds m hmem
      · have hml : m = l := by simpa [hmem] using hm
        subst hml
        obtain ⟨loc, hl, hg⟩ := Files.read_eq_ok_iff.mp hread
        refine ⟨t, ht, Files.read_eq_ok_iff.mpr
          ⟨loc, Files.locate_of_directories hrest.directories hl, ?_⟩⟩
        rw [hrest.kept loc, hg]
        -- The later targets are other targets, so their files are other files.
        intro k hk
        rw [Files.eq_destination_of_locate hl]
        exact target_ne (fun heq => hmem (heq ▸ hk))

/-- One target into a file: it is stopped before the store is touched, its file cannot be written,
or its file is written and the others follow. -/
theorem renderAll_step (hd : o.directory ≠ "") (l : Lang) (rest : List Lang) (fs : Files) :
    (∃ f, c.textFor l = .error f ∧ (renderAll o token c (l :: rest) fs).1 = fs ∧
        (renderAll o token c (l :: rest) fs).2.2 = .error f) ∨
      ∃ t, c.textFor l = .ok t ∧
        ((∃ after e, fs.writeAtomic token (outputName o l) t = (after, some e) ∧
            (renderAll o token c (l :: rest) fs).1 = after ∧
            (renderAll o token c (l :: rest) fs).2.2 = .error (.write e)) ∨
          ∃ mid, fs.writeAtomic token (outputName o l) t = (mid, none) ∧
            (renderAll o token c (l :: rest) fs).1 = (renderAll o token c rest mid).1 ∧
            (renderAll o token c (l :: rest) fs).2.2 =
              (renderAll o token c rest mid).2.2.map
                ({ lang := l, path := outputName o l } :: ·)) := by
  simp only [renderAll, Content.textFor, Files.writeAtomic]
  cases hj : Job.create l.tag (c.config l) c.items with
  | error e => exact .inl ⟨_, rfl, rfl, rfl⟩
  | ok job =>
      simp only [emit, hd, if_false, Job.writeFile, Job.persist, outputPath_of_create hj]
      cases job.text with
      | error v => exact .inl ⟨_, rfl, rfl, rfl⟩
      | ok t =>
          refine .inr ⟨t, rfl, ?_⟩
          dsimp only
          obtain ⟨after, failure⟩ := fs.persist none token (outputName o l) t
          cases failure with
          | some e => exact .inl ⟨after, e, rfl, rfl, rfl⟩
          | none => exact .inr ⟨after, rfl, rfl, rfl⟩

/-- With an output directory the targets are finished one by one. At the end all are, or the next
one is stopped, or its file cannot be written. -/
theorem renderAll_written (hd : o.directory ≠ "") (token : String) (langs : List Lang)
    (fs : Files) :
    ∃ done rest, langs = done ++ rest ∧
      Written o c done fs (renderAll o token c langs fs).1 ∧
      (∀ gs, (renderAll o token c langs fs).2.2 = .ok gs → rest = []) ∧
      ∀ f, (renderAll o token c langs fs).2.2 = .error f →
        (∃ e, f = .write e) ∨ ∃ l ∈ rest.head?, c.textFor l = .error f := by
  induction langs generalizing fs with
  | nil =>
      refine ⟨[], [], rfl, .nil fun _ => rfl, fun _ _ => rfl, ?_⟩
      intro f hf
      cases hf
  | cons l rest ih =>
      rcases renderAll_step hd l rest fs with
        ⟨f, ht, hfiles, hresult⟩ | ⟨t, ht, ⟨after, e, hw, hfiles, hresult⟩ |
          ⟨mid, hw, hfiles, hresult⟩⟩
      · refine ⟨[], l :: rest, rfl, ?_, ?_, ?_⟩
        · rw [hfiles]
          exact .nil fun _ => rfl
        · intro gs hgs
          rw [hresult] at hgs
          cases hgs
        · intro f' hf
          rw [hresult] at hf
          cases hf
          exact .inr ⟨l, rfl, ht⟩
      · refine ⟨[], l :: rest, rfl, ?_, ?_, ?_⟩
        · rw [hfiles]
          apply Written.nil
          rcases fs.writeAtomic_cases token (outputName o l) t with ⟨_, _, hf, hsame⟩ | ⟨_, hok, _⟩
          · rw [hw] at hf
            cases hf
            exact hsame
          · rw [hw] at hok
            cases hok
        · intro gs hgs
          rw [hresult] at hgs
          cases hgs
        · intro f' hf
          rw [hresult] at hf
          cases hf
          exact .inl ⟨e, rfl⟩
      · obtain ⟨done, left, heq, hdone, hok, herror⟩ := ih mid
        refine ⟨l :: done, left, by rw [heq, List.cons_append], ?_, ?_, ?_⟩
        · rw [hfiles]
          exact .cons ht hw hdone
        · intro gs hgs
          rw [hresult] at hgs
          cases hr : (renderAll o token c rest mid).2.2 with
          | error f =>
              rw [hr] at hgs
              cases hgs
          | ok gs' => exact hok gs' hr
        · intro f hf
          rw [hresult] at hf
          cases hr : (renderAll o token c rest mid).2.2 with
          | error f' =>
              rw [hr] at hf
              cases hf
              exact herror f hr
          | ok gs' =>
              rw [hr] at hf
              cases hf

end Writing

end Generate

end DeclGen
