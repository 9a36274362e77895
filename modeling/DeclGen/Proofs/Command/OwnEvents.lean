import DeclGen.Proofs.Command.OutputFiles
import DeclGen.Command.Watch
import Mathlib.Data.List.Perm.Basic

/-!
# Watching does not feed on itself

A generation writes into a directory that may be the watched one, and its files cause events there.
None of these files has the name of the document, whatever directory, stem and targets were asked
for: an output file ends like its target, a temporary file like no document, and the document stands
where no directory is made. So the events that a generation causes never arm the timer, and there
are no more generations than others have asked for.

## Implementation notes

A generation is one turn, and others can do anything between two turns. How often the system tells
of one file is not fixed, so `Generate.Causes` says of an event only what it is about. The number of
generations is bounded by an account: every event of others that asks for a generation pays for one,
as long as it waits to be delivered, then in the armed timer, and at last in the generation.
-/

namespace DeclGen

variable {o : GenerateOptions} {token : String} {langs : List Lang} {fs : Files}

namespace DocumentFormat

/-- What makes a name that of a document rules out every other ending. -/
theorem base_ne_of_ofPath? {path name ending : String} {format : DocumentFormat}
    (h : ofPath? path = some format) (hname : Path.extension name = ending)
    (hlong : 1 < ending.length) (he : ofExtension? (ending.map Char.toLower) = none) :
    Path.base name ≠ Path.base path := by
  subst hname
  exact Path.base_ne_of_extension_ne hlong (length_of_ofPath? h)
    (extension_ne_of_ofPath? h he).symm

end DocumentFormat

namespace Generate

section Names

variable {format : DocumentFormat} (hdoc : DocumentFormat.ofPath? o.document = some format)
include hdoc

/-- An output file does not have the name of the document. -/
theorem base_outputName_ne (l : Lang) : Path.base (outputName o l) ≠ Path.base o.document := by
  obtain ⟨hext, hlong⟩ := extension_outputName o l
  refine DocumentFormat.base_ne_of_ofPath? hdoc hext (hext ▸ hlong) ?_
  cases l <;> decide +kernel

/-- Nor does a temporary file. -/
theorem base_temporaryName_ne (token path : String) :
    Path.base (Files.temporaryName token path) ≠ Path.base o.document :=
  DocumentFormat.base_ne_of_ofPath? hdoc (Files.extension_temporaryName token path) (by decide)
    (by decide +kernel)

end Names

section Places

/-- The directory in which the document stands. -/
def folder (o : GenerateOptions) : Location := (Files.destination o.document).dropLast

/-- The document stands in its directory under its name. -/
theorem destination_document {format : DocumentFormat}
    (hdoc : DocumentFormat.ofPath? o.document = some format) :
    Files.destination o.document = folder o ++ [Path.base o.document] := by
  have hlong := DocumentFormat.length_of_ofPath? hdoc
  obtain ⟨before, hbefore⟩ := List.getLast?_eq_some_iff.mp
    (Files.getLast?_destination (Path.isProper_lastName hlong))
  rw [folder, hbefore, List.dropLast_concat, Path.base_eq_lastName hlong]

/-- A document that is loaded stands in its place. -/
theorem get?_document_of_load {c : Content} (h : (Document.load fs o.document).2 = .ok c) :
    ∃ t, fs.read o.document = .ok t ∧ fs.get? (Files.destination o.document) = some (.file t) := by
  obtain ⟨t, ht⟩ := Document.exists_read_of_load h
  obtain ⟨loc, hloc, hfile⟩ := Files.read_eq_ok_iff.mp ht
  exact ⟨t, ht, Files.eq_destination_of_locate hloc ▸ hfile⟩

/-- A generation leaves the place of the document as it was. -/
theorem get?_document_once (o : GenerateOptions) (token : String) (langs : List Lang)
    (fs : Files) :
    (once o token langs fs).files.get? (Files.destination o.document) =
      fs.get? (Files.destination o.document) := by
  cases hload : (Document.load fs o.document).2 with
  | error e =>
      rw [once]
      generalize Document.load fs o.document = loading at hload
      obtain ⟨warnings, loaded⟩ := loading
      dsimp only at hload
      subst hload
      rfl
  | ok c =>
      by_cases hd : o.directory = ""
      · rw [(once_printed hd token hload langs).1]
      · obtain ⟨t, ht, hfile⟩ := get?_document_of_load hload
        have hafter := read_document_once hd token langs ht
        obtain ⟨loc, hloc, hfile'⟩ := Files.read_eq_ok_iff.mp hafter
        rw [hfile, ← hfile', Files.eq_destination_of_locate hloc]

/-- An event that a generation can cause in the directory of the document: one about the temporary
file or the output file of a target, about an entry that was not there when the document was
loaded, or about any other entry that has changed. -/
inductive Causes (o : GenerateOptions) (token : String) (langs : List Lang) (fs : Files)
    (e : FileEvent) : Prop
  | temporary (l : Lang) (hl : l ∈ langs)
      (he : Path.base e.name = Path.base (Files.temporaryName token (outputName o l)))
  | output (l : Lang) (hl : l ∈ langs) (he : Path.base e.name = Path.base (outputName o l))
  | made (c : Content) (hload : (Document.load fs o.document).2 = .ok c)
      (hnew : fs.get? (folder o ++ [Path.base e.name]) = none)
  | changed (hchanged : (once o token langs fs).files.get? (folder o ++ [Path.base e.name]) ≠
      fs.get? (folder o ++ [Path.base e.name]))

/-- An event that a generation causes does not ask for another one. -/
theorem Causes.concerns_eq_false {format : DocumentFormat} {e : FileEvent}
    (h : Causes o token langs fs e) (hdoc : DocumentFormat.ofPath? o.document = some format) :
    Watch.concerns o.document e = false := by
  have hname : Path.base e.name ≠ Path.base o.document := by
    intro hsame
    cases h with
    | temporary l hl he => exact base_temporaryName_ne hdoc token _ (he.symm.trans hsame)
    | output l hl he => exact base_outputName_ne hdoc l (he.symm.trans hsame)
    | made c hload hnew =>
        obtain ⟨t, -, hfile⟩ := get?_document_of_load hload
        rw [hsame, ← destination_document hdoc, hfile] at hnew
        cases hnew
    | changed hchanged =>
        rw [hsame, ← destination_document hdoc] at hchanged
        exact hchanged (get?_document_once o token langs fs)
  simp [Watch.concerns, hname]

end Places

end Generate

namespace Watch

/-- An event that was not delivered yet, and whether a generation has caused it. -/
structure Notice where
  event : FileEvent
  own : Bool

/-- A document that is watched, the files around it, and the events that were not delivered yet. -/
structure Course where
  watch : Watch
  files : Files
  pending : List Notice := []

/-- What happens next while a document is watched. -/
inductive Turn where
  /-- Others change the store in whatever way and cause events. -/
  | others (files : Files) (events : List FileEvent)
  /-- The loop takes one of the events that were not delivered yet. -/
  | deliver (i : Nat)
  /-- The timer expires, and the generation causes events. -/
  | expire (token : String) (events : List FileEvent)

namespace Turn

/-- Whether a turn generates anew. -/
def regenerates : Turn → Bool
  | expire _ _ => true
  | _ => false

/-- The events that others cause in a turn. -/
def foreign : Turn → List FileEvent
  | others _ events => events
  | _ => []

end Turn

namespace Course

variable {w : Watch} {s s' start : Course} {turns : List Turn} {turn : Turn}

/-- One turn. Any of the events may be the next to be delivered. -/
inductive Step (s : Course) : Turn → Course → Prop
  | others (files : Files) (events : List FileEvent) :
      Step s (.others files events)
        { s with files, pending := s.pending ++ events.map (⟨·, false⟩) }
  | deliver {i : Nat} (hi : i < s.pending.length) :
      Step s (.deliver i)
        { s with
          watch := (s.watch.notice s.pending[i].event).1
          pending := s.pending.eraseIdx i }
  | expire {token : String} {events : List FileEvent} (harmed : s.watch.armed = true)
      (hcauses : ∀ e ∈ events,
        Generate.Causes s.watch.options token s.watch.langs s.files e) :
      Step s (.expire token events)
        { watch := (s.watch.expire token s.files).1
          files := (s.watch.expire token s.files).2.files
          pending := s.pending ++ events.map (⟨·, true⟩) }

/-- Some turns in a row. -/
inductive Run (start : Course) : List Turn → Course → Prop
  | nil : Run start [] start
  | snoc {turns : List Turn} {turn : Turn} {s s' : Course} :
      Run start turns s → Step s turn s' → Run start (turns ++ [turn]) s'

/-- How many generations there were. -/
def generations (turns : List Turn) : Nat := turns.countP Turn.regenerates

/-- How many events of others have asked for a generation of a document. -/
def requests (document : String) (turns : List Turn) : Nat :=
  (turns.flatMap Turn.foreign).countP (concerns document)

/-- The events that were not delivered yet and ask for a generation. -/
def waiting (s : Course) : Nat := s.pending.countP (concerns s.watch.options.document ·.event)

/-- What every run keeps: what is watched, that own events ask for nothing, and the account. -/
structure Settled (w : Watch) (turns : List Turn) (s : Course) : Prop where
  options : s.watch.options = w.options
  own : ∀ n ∈ s.pending, n.own = true → concerns w.options.document n.event = false
  account : generations turns + s.watch.armed.toNat + s.waiting ≤ requests w.options.document turns

theorem generations_snoc (turns : List Turn) (turn : Turn) :
    generations (turns ++ [turn]) = generations turns + turn.regenerates.toNat := by
  rw [generations, List.countP_append, generations]
  cases turn <;> rfl

theorem requests_snoc (document : String) (turns : List Turn) (turn : Turn) :
    requests document (turns ++ [turn]) =
      requests document turns + turn.foreign.countP (concerns document) := by
  simp [requests]

/-- A delivered event may arm the timer, and then it has asked for a generation. -/
theorem notice_account (w : Watch) {pending : List Notice} {i : Nat} (hi : i < pending.length) :
    (w.notice pending[i].event).1.armed.toNat +
        (pending.eraseIdx i).countP (concerns w.options.document ·.event) ≤
      w.armed.toNat + pending.countP (concerns w.options.document ·.event) := by
  have hcount := (List.getElem_cons_eraseIdx_perm hi).countP_eq
    (concerns w.options.document ·.event)
  rw [List.countP_cons] at hcount
  rw [notice, ← hcount]
  split
  · simp [Nat.add_comm]
  · simp

theorem notice_options (w : Watch) (e : FileEvent) : (w.notice e).1.options = w.options := by
  rw [notice]
  split <;> rfl

section Arrivals

variable {document : String} {events : List FileEvent} {own : Bool}

/-- Events that arrive ask for as many generations as they did before. -/
theorem countP_notices :
    (events.map (Notice.mk · own)).countP (concerns document ·.event) =
      events.countP (concerns document) :=
  List.countP_map

/-- Own events ask for nothing, if this is so of those that arrive. -/
theorem own_append {pending : List Notice}
    (hpending : ∀ n ∈ pending, n.own = true → concerns document n.event = false)
    (hevents : own = true → ∀ e ∈ events, concerns document e = false) :
    ∀ n ∈ pending ++ events.map (Notice.mk · own),
      n.own = true → concerns document n.event = false := by
  intro n hn hnown
  rw [List.mem_append, List.mem_map] at hn
  rcases hn with hn | ⟨e, he, rfl⟩
  · exact hpending n hn hnown
  · exact hevents hnown e he

end Arrivals

/-- No turn upsets the account: what others cause is asked for, a delivered event passes its request
on to the timer, and a generation takes it from there. -/
theorem Settled.step {format : DocumentFormat}
    (hdoc : DocumentFormat.ofPath? w.options.document = some format) (h : s.Settled w turns)
    (hstep : s.Step turn s') : s'.Settled w (turns ++ [turn]) := by
  obtain ⟨hoptions, hown, haccount⟩ := h
  rw [waiting, hoptions] at haccount
  cases hstep with
  | others files events =>
      refine ⟨hoptions, own_append hown nofun, ?_⟩
      rw [generations_snoc, requests_snoc, waiting, hoptions, List.countP_append, countP_notices]
      simp only [Turn.regenerates, Turn.foreign, Bool.toNat_false]
      omega
  | @deliver i hi =>
      have hdelivered := notice_account s.watch hi
      rw [hoptions] at hdelivered
      refine ⟨(notice_options _ _).trans hoptions,
        fun n hn => hown n (List.mem_of_mem_eraseIdx hn), ?_⟩
      rw [generations_snoc, requests_snoc, waiting]
      simp only [notice_options, hoptions, Turn.regenerates, Turn.foreign, Bool.toNat_false,
        List.countP_nil]
      omega
  | @expire token events harmed hcauses =>
      have hnone : ∀ e ∈ events, concerns w.options.document e = false := by
        intro e he
        rw [← hoptions] at hdoc ⊢
        exact (hcauses e he).concerns_eq_false hdoc
      have hzero : events.countP (concerns w.options.document) = 0 :=
        List.countP_eq_zero.mpr fun e he => by simp [hnone e he]
      have hexpired : (s.watch.expire token s.files).1 = { s.watch with armed := false } := by
        rw [expire, if_pos harmed]
      refine ⟨by rw [hexpired]; exact hoptions, own_append hown fun _ => hnone, ?_⟩
      rw [generations_snoc, requests_snoc, waiting, hexpired, List.countP_append, countP_notices]
      simp only [hoptions, hzero, harmed, Turn.regenerates, Turn.foreign, Bool.toNat_true,
        Bool.toNat_false, List.countP_nil] at haccount ⊢
      omega

theorem Run.settled {format : DocumentFormat}
    (hdoc : DocumentFormat.ofPath? w.options.document = some format) {fs : Files}
    (h : Run { watch := { w with armed := false }, files := fs } turns s) : s.Settled w turns := by
  induction h with
  | nil => exact ⟨rfl, nofun, Nat.le_refl 0⟩
  | snoc _ hstep ih => exact ih.step hdoc hstep

/-- Watching does not feed on itself. No output file and no temporary file of a generation has the
name of the document. So, whatever happens while the document is watched and in whatever order
events are delivered, those that a generation has caused do not change the watch, and there are no
more generations than events of others that ask for one. -/
theorem watching_never_feeds_itself (w : Watch) (format : DocumentFormat)
    (hdoc : DocumentFormat.ofPath? w.options.document = some format) :
    (∀ l config items job token, Job.create (Lang.tag l) config items = .ok job →
      Path.base (Generate.outputPath w.options job) ≠ Path.base w.options.document ∧
      Path.base (Files.temporaryName token (Generate.outputPath w.options job)) ≠
        Path.base w.options.document) ∧
    ∀ fs turns s, Run { watch := { w with armed := false }, files := fs } turns s →
      (∀ n ∈ s.pending, n.own = true → s.watch.notice n.event = (s.watch, [])) ∧
      generations turns ≤ requests w.options.document turns := by
  constructor
  · intro l config items job token hjob
    rw [Generate.outputPath_of_create hjob]
    exact ⟨Generate.base_outputName_ne hdoc l, Generate.base_temporaryName_ne hdoc token _⟩
  · intro fs turns s hrun
    obtain ⟨hoptions, hown, haccount⟩ := hrun.settled hdoc
    refine ⟨?_, by omega⟩
    intro n hn hnown
    rw [notice, hoptions, hown n hn hnown]
    rfl

/-- The output goes into the directory of the document, under a name that begins like it. -/
def sharedFolder : Watch where
  reporting := {}
  options := { document := "x.json", directory := ".", basename := "x.json", watch := true }
  langs := [.rust]

/-- A store with an empty document. -/
def emptyDocument : Files := ⟨[(["x.json"], .file (.ofString "\x7b\x7d"))]⟩

/-- The document is rewritten, another file is created, and the events of the two arrive in the
other order; a generation follows, and the loop takes one of its events. -/
def rewrittenOnce : List Turn :=
  [.others emptyDocument [⟨"./x.json", .write⟩, ⟨"./y.json", .create⟩], .deliver 1, .deliver 0,
    .expire "t" [⟨"./.x.json.rs.t.tmp", .create⟩, ⟨"./x.json.rs", .create⟩], .deliver 1]

theorem rewrittenOnce_bounded :
    (∃ job, Job.create (Lang.tag .rust) none [] = .ok job ∧
      Path.base (Generate.outputPath sharedFolder.options job) ≠ "x.json") ∧
    ∃ s, Run { watch := { sharedFolder with armed := false }, files := emptyDocument }
        rewrittenOnce s ∧ s.pending.length = 1 ∧
      (∀ n ∈ s.pending, n.own = true ∧ s.watch.notice n.event = (s.watch, [])) ∧
      generations rewrittenOnce = 1 ∧ 1 ≤ requests "x.json" rewrittenOnce := by
  obtain ⟨hnames, hruns⟩ := watching_never_feeds_itself sharedFolder .json (by decide +kernel)
  constructor
  · obtain ⟨job, hjob⟩ : ∃ job, Job.create (Lang.tag .rust) none [] = .ok job := ⟨_, rfl⟩
    exact ⟨job, hjob, (hnames _ _ _ job "t" hjob).1⟩
  · have hrun : ∃ s, Run { watch := { sharedFolder with armed := false }, files := emptyDocument }
        rewrittenOnce s ∧ s.pending = [⟨⟨"./.x.json.rs.t.tmp", .create⟩, true⟩] := by
      refine ⟨_, .snoc (.snoc (.snoc (.snoc (.snoc .nil (.others _ _)) (.deliver ?_))
        (.deliver ?_)) (.expire ?_ ?_)) (.deliver ?_), ?_⟩
      · decide
      · decide
      · decide +kernel
      · intro e he
        rcases List.mem_cons.mp he with rfl | he
        · exact .temporary .rust (by decide) (by decide +kernel)
        · rw [List.mem_singleton] at he
          subst he
          exact .output .rust (by decide) (by decide +kernel)
      · decide
      · rfl
    obtain ⟨s, hrun, hpending⟩ := hrun
    obtain ⟨hown, hbounded⟩ := hruns _ _ s hrun
    refine ⟨s, hrun, by rw [hpending]; rfl, ?_, rfl, hbounded⟩
    intro n hn
    have hnown : n.own = true := by
      rw [hpending, List.mem_singleton] at hn
      rw [hn]
    exact ⟨hnown, hown n hn hnown⟩

end Course

end Watch

end DeclGen
