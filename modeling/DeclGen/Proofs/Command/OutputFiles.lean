import DeclGen.Proofs.Command.Generation
import DeclGen.Proofs.Command.Payloads
import DeclGen.Proofs.Document.Loading

/-!
# The output files

With an output directory the generate command writes one file per target. It leaves every other file
as it was, the document in particular, whether it ends well or not. When it ends well, the files
hold what the command would print, and what it would report as JSON.

A generation that is stopped by the document leaves all files as they were, unless the options of a
later target stop it: the files of the targets before have then been written.
-/

namespace DeclGen

/-- A document is loaded only from a name that ends like a document, which no output file does. -/
theorem extension_of_load {fs : Files} {path : String} {c : Content}
    (h : (Document.load fs path).2 = .ok c) :
    1 < (Path.extension path).length ∧
      ∀ l : Lang, Path.extension path ≠ l.dialect.extension.toString := by
  obtain ⟨format, hformat⟩ := Document.exists_format_of_load h
  refine ⟨DocumentFormat.length_of_ofPath? hformat, fun l => ?_⟩
  apply DocumentFormat.extension_ne_of_ofPath? hformat
  cases l <;> decide +kernel

namespace Json

/-- The value of a field of an object. -/
def member? (name : String) : Json → Option Json
  | .object fs => field? name fs
  | _ => none

/-- The elements of a list. -/
def elems : Json → List Json
  | .array es => es
  | _ => []

/-- The text of a string. -/
def string? : Json → Option Text
  | .string t => some t
  | _ => none

end Json

namespace Generate

variable {o : GenerateOptions} {token : String} {fs : Files}

/-- A generation into files does nothing, because the document does not load or the directory cannot
be made, or it finishes the files of some targets. -/
theorem once_written (hd : o.directory ≠ "") (token : String) (langs : List Lang) (fs : Files) :
    ((once o token langs fs).files = fs ∧
        ((∃ e, (once o token langs fs).result = .error (.load e)) ∨
          ∃ e, (once o token langs fs).result = .error (.write e))) ∨
      ∃ c ready done rest, (Document.load fs o.document).2 = .ok c ∧ Files.Grown fs ready ∧
        langs = done ++ rest ∧ Written o c done ready (once o token langs fs).files ∧
        (∀ gs, (once o token langs fs).result = .ok gs → rest = []) ∧
        ∀ f, (once o token langs fs).result = .error f →
          (∃ e, f = .write e) ∨ ∃ l ∈ rest.head?, c.textFor l = .error f := by
  rw [once]
  generalize Document.load fs o.document = loading
  obtain ⟨warnings, loaded⟩ := loading
  cases loaded with
  | error e => exact .inl ⟨rfl, .inl ⟨e, rfl⟩⟩
  | ok c =>
      simp only [prepare, hd, if_false]
      cases hm : fs.makeDirectories o.directory with
      | error f => exact .inl ⟨rfl, .inr ⟨_, rfl⟩⟩
      | ok ready =>
          obtain ⟨done, rest, hlangs, hwritten, hok, herror⟩ :=
            renderAll_written hd token langs ready
          exact .inr ⟨c, ready, done, rest, rfl, Files.grown_makeDirectories hm, hlangs, hwritten,
            hok, herror⟩

/-- The store after the command that does not watch. -/
theorem files_run (hw : o.watch = false) (r : Reporting) (token : String) (fs : Files) :
    (run r o token fs).1.files =
      match Lang.resolve o.langs with
      | .error _ => fs
      | .ok langs => (once o token langs fs).files := by
  cases hl : Lang.resolve o.langs with
  | error f => simp [run, start, hw, hl, Ending.stopped]
  | ok langs =>
      cases hr : (once o token langs fs).result with
      | error f => simp [run, start, hw, hl, hr, Ending.stopped]
      | ok gs => exact (run_of_once hw r hl hr).1

/-- The command that does not watch ends well only when all targets have their results. -/
theorem once_of_exitCode (hw : o.watch = false) {r : Reporting}
    (h : exitCode (run r o token fs).1.error = 0) :
    ∃ langs gs, Lang.resolve o.langs = .ok langs ∧ (once o token langs fs).result = .ok gs := by
  simp only [run, start, hw] at h
  cases hl : Lang.resolve o.langs with
  | error f => simp [hl, Ending.stopped, exitCode] at h
  | ok langs =>
      cases hr : (once o token langs fs).result with
      | error f => simp [hl, hr, Ending.stopped, exitCode] at h
      | ok gs => exact ⟨langs, gs, rfl, hr⟩

section Stopped

/-- A generation that is stopped, but not by the writing of a file, leaves all files as they were;
or the options of a target after others have stopped it, and of all files those of the targets
before have been written. -/
theorem stopped_generation_files (hd : o.directory ≠ "") {langs : List Lang} {f : Failure}
    (hf : (once o token langs fs).result = .error f) (hw : ∀ e, f ≠ .write e) :
    (∀ loc, (once o token langs fs).files.content? loc = fs.content? loc) ∨
      ∃ c done l rest e, (Document.load fs o.document).2 = .ok c ∧ langs = done ++ l :: rest ∧
        done ≠ [] ∧ f = .job (.invalidOption l.tag e) ∧
        (∀ loc, (∀ m ∈ done, loc ≠ target o m) →
          (once o token langs fs).files.content? loc = fs.content? loc) ∧
        ∀ m ∈ done, ∃ t, c.textFor m = .ok t ∧
          (once o token langs fs).files.read (outputName o m) = .ok t := by
  rcases once_written hd token langs fs with ⟨hsame, -⟩ | ⟨c, ready, done, rest, hload, hgrown,
    hlangs, hwritten, -, herror⟩
  · refine .inl fun loc => ?_
    rw [hsame]
  · have hframe (loc : Location) (h : ∀ m ∈ done, loc ≠ target o m) :
        (once o token langs fs).files.content? loc = fs.content? loc :=
      (Files.content?_congr (hwritten.kept loc h)).trans (hgrown.content? loc)
    rcases herror f hf with ⟨e, he⟩ | ⟨l, hl, htext⟩
    · exact absurd he (hw e)
    · obtain ⟨more, hrest⟩ : ∃ more, rest = l :: more := List.head?_eq_some_iff.mp hl
      cases done with
      | nil => exact .inl fun loc => hframe loc (by simp)
      | cons m done =>
          right
          -- A finished target shows that the forest is in order, so only options can be at fault.
          have hvalid : c.items.validate = none := by
            obtain ⟨t, ht, -⟩ := hwritten.holds m (by simp)
            rcases c.textFor_cases m with ⟨e, -, he⟩ | ⟨_, _, ⟨v, -, hv⟩ | ⟨hv, -⟩⟩
            · rw [ht] at he
              cases he
            · rw [ht] at hv
              cases hv
            · exact hv
          rcases c.textFor_cases l with ⟨e, -, he⟩ | ⟨_, _, ⟨v, hv, -⟩ | ⟨-, t, ht⟩⟩
          · rw [htext] at he
            cases he
            exact ⟨c, m :: done, l, more, e, hload, by rw [hlangs, hrest], by simp, rfl, hframe,
              hwritten.holds⟩
          · rw [hvalid] at hv
            cases hv
          · rw [htext] at ht
            cases ht

/-- A document whose options are refused for the second target, with an old file of the first. -/
def refusedOptions : Files :=
  ⟨[(["x.json"], .file (.ofString
      "\x7b\"configs\": \x7b\"rust\": \x7b\"global\": \x7b\"num_tabs\": \"x\"\x7d\x7d\x7d\x7d")),
    (["out"], .directory), (["out", "x.cpp"], .file (.ofString "old\n"))]⟩

/-- The failure of a generation, if it has one. -/
def failure? (g : Generation) : Option Failure :=
  match g.result with
  | .error f => some f
  | .ok _ => none

theorem result_of_failure? {g : Generation} {f : Failure} (h : failure? g = some f) :
    g.result = .error f := by
  rw [failure?] at h
  split at h
  · next hr =>
      cases h
      exact hr
  · cases h

theorem refusedOptions_failure :
    failure? (once { document := "x.json", directory := "out" } "t" Lang.all refusedOptions) =
      some (.job (.invalidOption "rust" ⟨.indentWidth, .ofString "x", .notByte⟩)) := by
  decide +kernel

theorem refusedOptions_stopped :
    ∃ c done l rest e, (Document.load refusedOptions "x.json").2 = .ok c ∧
      Lang.all = done ++ l :: rest ∧ done ≠ [] ∧
      (once { document := "x.json", directory := "out" } "t" Lang.all refusedOptions).result =
        .error (.job (.invalidOption l.tag e)) := by
  have hf := result_of_failure? refusedOptions_failure
  rcases stopped_generation_files (by decide) hf (by simp) with hall | ⟨c, done, l, rest, e, hload,
    hlangs, hne, he, -, -⟩
  · exact absurd (hall ["out", "x.cpp"]) (by decide +kernel)
  · exact ⟨c, done, l, rest, e, hload, hlangs, hne, by rw [hf, he]⟩

/-- A generation that the options of a target have stopped may have overwritten a file. -/
theorem not_all_stopped_generations_keep_files :
    ¬ ∀ (o : GenerateOptions) (token : String) (langs : List Lang) (fs : Files) (f : Failure),
      o.directory ≠ "" → (once o token langs fs).result = .error f → (∀ e, f ≠ .write e) →
        ∀ loc, (once o token langs fs).files.content? loc = fs.content? loc := by
  intro h
  have hkept := h _ _ _ _ _ (by decide) (result_of_failure? refusedOptions_failure) (by simp)
    ["out", "x.cpp"]
  exact absurd hkept (by decide +kernel)

end Stopped

section Report

/-- A rendered text is never empty. -/
theorem ne_nil_of_textFor {c : Content} {l : Lang} {t : Text} (h : c.textFor l = .ok t) :
    t ≠ [] := by
  have hn : newline ≠ [] := by decide
  rw [Content.textFor] at h
  split at h
  · cases h
  · next job _ =>
      split at h
      · cases h
      · next t' ht =>
          cases h
          rw [Job.text, Style.render] at ht
          cases hi : job.style.items 0 job.items with
          | error v =>
              rw [hi] at ht
              cases ht
          | ok body =>
              rw [hi] at ht
              cases ht
              simp [Style.comment, hn]

/-- Texts that were printed are reported one after the other. -/
theorem report_printed {r : Reporting} (hr : r.format = .text) (langs : List Lang)
    (texts : Lang → Text) :
    report r (langs.map fun l => { lang := l, text := texts l }) = .ok (langs.flatMap texts) := by
  have hall : (langs.map fun l => ({ lang := l, text := texts l } : Generated)).filter
      (·.path = "") = langs.map fun l => { lang := l, text := texts l } := by
    rw [List.filter_eq_self]
    simp
  have hnone : (langs.map fun l => ({ lang := l, text := texts l } : Generated)).filter
      (·.path ≠ "") = [] := by
    rw [List.filter_eq_nil_iff]
    simp
  rw [report, hr]
  simp only [hall, hnone, List.length_nil, if_true, List.flatMap_map]

/-- Whether an output is reported for a target. -/
def isOutputOf (l : Lang) (output : Json) : Bool :=
  (output.member? "lang").bind Json.string? == some (.ofString l.tag)

/-- The text that a JSON report on the standard output gives for a target. -/
def reportedText? (l : Lang) (out : Text) : Option Text := do
  let response ← (Json.readAll out.chars).toOption
  let outputs ← (← response.value.member? "data").member? "outputs"
  let output ← outputs.elems.find? (isOutputOf l)
  (← output.member? "text").string?

/-- The object with the results, as it is read back. -/
theorem readAll_report {r : Reporting} (hr : r.format = .json) {gs : List Generated} {out : Text}
    (hout : report r gs = .ok out) :
    ∃ s, Json.readAll out.chars = .ok s ∧
      s.value = .object [("status", .ofString "ok"), ("data", .object [("outputs",
        .array (gs.map fun g => (resultJson g).repaired))])] := by
  rw [report, hr] at hout
  obtain ⟨s, hs, hv⟩ := Response.isIn_success hr (fitsIn_outputs gs).1 hout
  refine ⟨s, hs, ?_⟩
  rw [hv]
  simp [Response.json, Response.payload, Json.isNull, Json.repaired, Json.repairedFields,
    Json.repairedList_eq_map]

/-- The result for a target that was printed, as it is read back. -/
theorem repaired_resultJson (l : Lang) {t : Text} (h : t ≠ []) :
    (resultJson { lang := l, text := t }).repaired =
      .object [("lang", .ofString l.tag), ("text", .ofString t.toString)] := by
  simp [resultJson, h, Json.repaired, Json.repairedFields, Json.ofString]

theorem isOutputOf_object (l m : Lang) (text : Json) :
    isOutputOf l (.object [("lang", .ofString m.tag), ("text", text)]) = decide (m = l) := by
  have htag : (Text.ofString m.tag = Text.ofString l.tag) ↔ m = l := by
    cases l <;> cases m <;> decide
  simp [isOutputOf, Json.member?, Json.field?, Json.string?, Json.ofString, htag, beq_eq_decide]

/-- What was printed for a target is what a report of it says, if it is well-formed UTF-8. -/
theorem reportedText?_report {r : Reporting} (hr : r.format = .json) {langs : List Lang}
    {texts : Lang → Text} (hne : ∀ m ∈ langs, texts m ≠ []) {out : Text}
    (hout : report r (langs.map fun m => { lang := m, text := texts m }) = .ok out) {l : Lang}
    (hl : l ∈ langs) {s : String} (hs : texts l = .ofString s) :
    reportedText? l out = some (texts l) := by
  obtain ⟨response, hread, hvalue⟩ := readAll_report hr hout
  have houtputs : (langs.map fun m => ({ lang := m, text := texts m } : Generated)).map
      (fun g => (resultJson g).repaired) =
        langs.map fun m => .object [("lang", .ofString m.tag),
          ("text", .ofString (texts m).toString)] := by
    rw [List.map_map]
    exact List.map_congr_left fun m hm => repaired_resultJson m (hne m hm)
  have hself : langs.find? (fun m => decide (m = l)) = some l := by
    cases hf : langs.find? (fun m => decide (m = l)) with
    | none => simpa [hl] using List.find?_eq_none.mp hf l hl
    | some m =>
        have hm := List.find?_some hf
        rw [of_decide_eq_true hm]
  have hfound : (langs.map fun m => Json.object [("lang", .ofString m.tag),
      ("text", .ofString (texts m).toString)]).find? (isOutputOf l) =
        some (.object [("lang", .ofString l.tag), ("text", .ofString (texts l).toString)]) := by
    rw [List.find?_map]
    simp only [Function.comp_def, isOutputOf_object, hself, Option.map_some]
  have hdata : response.value.member? "data" = some (.object [("outputs",
      .array (langs.map fun m => .object [("lang", .ofString m.tag),
        ("text", .ofString (texts m).toString)]))]) := by
    rw [hvalue, houtputs]
    rfl
  have hmember (outputs : Json) :
      (Json.object [("outputs", outputs)]).member? "outputs" = some outputs := rfl
  simp only [reportedText?, hread, Except.toOption, hdata, hmember, Json.elems, hfound,
    Option.bind_eq_bind, Option.bind_some]
  rw [hs, Text.toString_ofString]
  rfl

end Report

section Effects

/-- One generation into files changes no file but the output files of its targets. -/
theorem content?_once (hd : o.directory ≠ "") (token : String) {langs : List Lang}
    {loc : Location} (h : ∀ l ∈ langs, loc ≠ target o l) (fs : Files) :
    (once o token langs fs).files.content? loc = fs.content? loc := by
  rcases once_written hd token langs fs with ⟨hsame, -⟩ | ⟨c, ready, done, rest, -, hgrown, hlangs,
    hwritten, -, -⟩
  · rw [hsame]
  · have hkept := hwritten.kept loc fun l hl => h l (by simp [hlangs, hl])
    exact (Files.content?_congr hkept).trans (hgrown.content? loc)

/-- One generation into files keeps its document. -/
theorem read_document_once (hd : o.directory ≠ "") (token : String) (langs : List Lang) {t : Text}
    (h : fs.read o.document = .ok t) : (once o token langs fs).files.read o.document = .ok t := by
  rcases once_written hd token langs fs with ⟨hsame, -⟩ | ⟨c, ready, done, rest, hload, hgrown, -,
    hwritten, -, -⟩
  · rw [hsame, h]
  · obtain ⟨loc, hloc, hfile⟩ := Files.read_eq_ok_iff.mp h
    have hother (l : Lang) : loc ≠ target o l := by
      obtain ⟨hlong, hext⟩ := extension_of_load hload
      obtain ⟨hout, hout1⟩ := extension_outputName o l
      rw [Files.eq_destination_of_locate hloc]
      refine Files.destination_ne hlong hout1 ?_
      rw [hout]
      exact hext l
    have hready : ready.get? loc = some (.file t) := by
      rcases hgrown loc with hsame | ⟨hnone, -⟩
      · rw [hsame, hfile]
      · rw [hnone] at hfile
        cases hfile
    refine Files.read_eq_ok_iff.mpr ⟨loc, ?_, ?_⟩
    · exact Files.locate_of_directories
        (fun l hl => hwritten.directories l (hgrown.directory hl)) hloc
    · rw [hwritten.kept loc fun l _ => hother l, hready]

/-- The generate command with an output directory creates, removes and changes no file but the
output files of its targets, whether it ends well or not, and it keeps its document. When it ends
well, each output file holds what the command without the directory prints for the target. This is
also the text that a JSON report gives for the target, if it is well-formed UTF-8. -/
theorem generate_writes_output_files (o : GenerateOptions) (hw : o.watch = false)
    (hd : o.directory ≠ "") (r : Reporting) (token : String) (fs : Files) :
    (∀ loc, (∀ langs, Lang.resolve o.langs = .ok langs → ∀ l ∈ langs, loc ≠ target o l) →
      (run r o token fs).1.files.content? loc = fs.content? loc) ∧
    (∀ t, fs.read o.document = .ok t →
      (run r o token fs).1.files.read o.document = .ok t) ∧
    (exitCode (run r o token fs).1.error = 0 →
      ∃ langs, Lang.resolve o.langs = .ok langs ∧ ∃ texts : Lang → Text,
        (∀ l ∈ langs, (run r o token fs).1.files.read (outputName o l) = .ok (texts l)) ∧
        ∀ r' token',
          exitCode (run r' { o with directory := "" } token' fs).1.error = 0 ∧
          (r'.format = .text →
            (run r' { o with directory := "" } token' fs).1.out = langs.flatMap texts) ∧
          (r'.format = .json → ∀ l ∈ langs, ∀ s, texts l = .ofString s →
            reportedText? l (run r' { o with directory := "" } token' fs).1.out =
              some (texts l))) := by
  rw [files_run hw]
  refine ⟨fun loc hloc => ?_, fun t ht => ?_, fun hexit => ?_⟩
  · cases hl : Lang.resolve o.langs with
    | error f => rfl
    | ok langs => exact content?_once hd token (hloc langs hl) fs
  · cases hl : Lang.resolve o.langs with
    | error f => exact ht
    | ok langs => exact read_document_once hd token langs ht
  · obtain ⟨langs, gs, hl, hgs⟩ := once_of_exitCode hw hexit
    rw [hl]
    rcases once_written hd token langs fs with
      ⟨-, ⟨e, he⟩ | ⟨e, he⟩⟩ | ⟨c, ready, done, rest, hload, -, hlangs, hwritten, hall, -⟩
    · rw [hgs] at he
      cases he
    · rw [hgs] at he
      cases he
    · -- All targets are done, each with its text in its file.
      rw [hall gs hgs, List.append_nil] at hlangs
      subst hlangs
      have htext (l : Lang) (hm : l ∈ langs) : ∃ t, c.textFor l = .ok t := by
        obtain ⟨t, ht, -⟩ := hwritten.holds l hm
        exact ⟨t, ht⟩
      refine ⟨langs, rfl, textOf c, fun l hm => ?_, fun r' token' => ?_⟩
      · obtain ⟨t, ht, hread⟩ := hwritten.holds l hm
        have heq := textFor_eq_textOf ht
        rw [ht] at heq
        cases heq
        exact hread
      · have honce := once_of_textFor (o := { o with directory := "" }) rfl token' hload htext
        obtain ⟨-, herror, hout⟩ :=
          run_of_once (o := { o with directory := "" }) hw r' hl honce
        refine ⟨by rw [herror]; rfl, fun hr => ?_, fun hr l hm s hs => ?_⟩
        · exact Except.ok.inj (hout.symm.trans (report_printed hr langs (textOf c)))
        · refine reportedText?_report hr (fun m hm => ?_) hout hm hs
          obtain ⟨t, ht⟩ := htext m hm
          exact ne_nil_of_textFor (textFor_eq_textOf ht)

/-- A document next to old output files. -/
def oldOutputs : Files :=
  ⟨[(["x.json"], .file (.ofString
      "\x7b\"items\": [\x7b\"kind\": \"var\", \"name\": \"é\", \"type\": \"int\"\x7d]\x7d")),
    (["x.cpp"], .file (.ofString "old\n")), (["x.rs"], .file (.ofString "old\n"))]⟩

/-- What is generated from the document for Rust. -/
def freshOutput : Text :=
  .ofString ("// Code generated by codespawn. DO NOT EDIT.\npub const é: int;\n" ++
    "// End of generated code.\n")

theorem oldOutputs_written :
    exitCode (run {} { document := "x.json", langs := ["rs"], directory := "." } "t"
        oldOutputs).1.error = 0 ∧
      (run {} { document := "x.json", langs := ["rs"], directory := "." } "t"
        oldOutputs).1.files.content? ["x.cpp"] = some (.ofString "old\n") ∧
      (run {} { document := "x.json", langs := ["rs"], directory := "." } "t"
        oldOutputs).1.files.read "x.rs" = .ok freshOutput ∧
      reportedText? .rust (run { format := .json } { document := "x.json", langs := ["rs"] } "u"
        oldOutputs).1.out = some freshOutput := by
  have hexit : exitCode (run {} { document := "x.json", langs := ["rs"], directory := "." } "t"
      oldOutputs).1.error = 0 := by
    decide +kernel
  have hprint : (run {} { document := "x.json", langs := ["rs"] } "u" oldOutputs).1.out =
      freshOutput := by
    decide +kernel
  have hresolve : Lang.resolve ["rs"] = .ok [.rust] := by
    have hparse : Lang.parse? "rs" = some .rust := by decide +kernel
    simp [Lang.resolve, Lang.resolve.go, hparse]
  obtain ⟨hkept, -, hwell⟩ := generate_writes_output_files
    { document := "x.json", langs := ["rs"], directory := "." } rfl (by decide) {} "t" oldOutputs
  obtain ⟨langs, hl, texts, hread, hprinted⟩ := hwell hexit
  rw [hresolve] at hl
  cases hl
  have htext : texts .rust = freshOutput := by
    have hout := (hprinted {} "u").2.1 rfl
    rw [hprint] at hout
    simpa using hout.symm
  refine ⟨hexit, hkept ["x.cpp"] ?_, ?_, ?_⟩
  · intro langs hl l hm
    rw [hresolve] at hl
    cases hl
    rw [List.mem_singleton.mp hm]
    decide +kernel
  · rw [← htext]
    exact hread .rust (by simp)
  · rw [← htext]
    exact (hprinted { format := .json } "u").2.2 rfl .rust (by simp) _ htext

end Effects

end Generate

end DeclGen
