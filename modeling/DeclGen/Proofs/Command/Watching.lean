import DeclGen.Proofs.Command.OutputFiles
import Mathlib.Data.List.Induction

/-!
# A watched document and its output files

While a document is watched, it may be rewritten at any moment: before a generation has read it,
while the files are being written, while the timer runs. Every rewrite after the directory was
registered causes an event. When the loop waits, the timer is not armed and no event about the
document is left, the output files belong to the document as it stands, if the last generation
succeeded.

There is one exception. The first generation reads the document before the directory is registered.
A rewrite in between causes no event, and the output files stay behind until the document is
rewritten once more.

## Implementation notes

A generation is taken apart into the moment when the document is read and the moment when the files
have been written, because a rewrite can fall between the two. The writing does not look at the
document, so it can count as one moment.
-/

namespace DeclGen

/-- A change of the document that does not remove it causes an event that asks for a generation. -/
theorem Watch.exists_event (document : String) (operation : FileOperation)
    (h : operation ≠ .remove) :
    ∃ e, Watch.event? document document operation = some e ∧ Watch.concerns document e = true := by
  refine ⟨_, if_pos rfl, ?_⟩
  rw [concerns, Path.base_below_dir]
  simpa using h

namespace Generate

variable {o : GenerateOptions} {token : String} {langs : List Lang} {fs : Files}

/-- What a generation does after the document was loaded. -/
def finish (o : GenerateOptions) (token : String) (langs : List Lang)
    (loaded : List Record × Except LoadError Content) (fs : Files) : Generation :=
  match loaded with
  | (warnings, .error e) => { files := fs, warnings, result := .error (.load e) }
  | (warnings, .ok c) =>
    let loaded := c.loadedNote o.document
    match prepare o fs with
    | .error f => { files := fs, notes := [loaded], warnings, result := .error f }
    | .ok fs =>
      let (files, notes, result) := renderAll o token c langs fs
      { files, notes := loaded :: notes, warnings, result }

/-- A generation loads the document and does the rest. -/
theorem once_eq_finish (o : GenerateOptions) (token : String) (langs : List Lang) (fs : Files) :
    once o token langs fs = finish o token langs (Document.load fs o.document) fs :=
  rfl

/-- The document loads, and every output file holds what it gives for the target. -/
def Current (o : GenerateOptions) (langs : List Lang) (fs : Files) : Prop :=
  ∃ c, (Document.load fs o.document).2 = .ok c ∧
    ∀ l ∈ langs, ∃ t, c.textFor l = .ok t ∧ fs.read (outputName o l) = .ok t

/-- After a generation that succeeded the output files belong to the document. -/
theorem current_once (hd : o.directory ≠ "") {gs : List Generated}
    (h : (once o token langs fs).result = .ok gs) :
    Current o langs (once o token langs fs).files := by
  rcases once_written hd token langs fs with
    ⟨-, ⟨e, he⟩ | ⟨e, he⟩⟩ | ⟨c, ready, done, rest, hload, -, hlangs, hwritten, hall, -⟩
  · rw [h] at he
    cases he
  · rw [h] at he
    cases he
  · obtain ⟨t, ht⟩ := Document.exists_read_of_load hload
    rw [hall gs h, List.append_nil] at hlangs
    subst hlangs
    refine ⟨c, ?_, hwritten.holds⟩
    rw [Document.load_congr ((read_document_once hd token langs ht).trans ht.symm), hload]

theorem content?_target {l : Lang} {t : Text} (h : fs.read (outputName o l) = .ok t) :
    fs.content? (target o l) = some t := by
  obtain ⟨loc, hloc, hfile⟩ := Files.read_eq_ok_iff.mp h
  rw [target, ← Files.eq_destination_of_locate hloc, Files.content?, hfile]

/-- Where the output files belong to the document, one more generation changes no file. -/
theorem Current.content?_once (hd : o.directory ≠ "") (h : Current o langs fs) (token : String)
    (loc : Location) : (once o token langs fs).files.content? loc = fs.content? loc := by
  obtain ⟨c, hc, hfiles⟩ := h
  rcases once_written hd token langs fs with
    ⟨hsame, -⟩ | ⟨c', ready, done, rest, hload, hgrown, hlangs, hwritten, -, -⟩
  · rw [hsame]
  · rw [hc] at hload
    cases hload
    by_cases hdone : ∃ l ∈ done, loc = target o l
    · obtain ⟨l, hl, rfl⟩ := hdone
      obtain ⟨t, ht, hafter⟩ := hwritten.holds l hl
      obtain ⟨t', ht', hbefore⟩ := hfiles l (by simp [hlangs, hl])
      rw [ht] at ht'
      cases ht'
      rw [content?_target hafter, content?_target hbefore]
    · have hkept := hwritten.kept loc fun l hl heq => hdone ⟨l, hl, heq⟩
      exact (Files.content?_congr hkept).trans (hgrown.content? loc)

end Generate

namespace Watch

/-- Where the command stands. -/
inductive Stage where
  | opening
  /-- The document has been loaded, and its files are being written. -/
  | rendering (watched : Bool) (loaded : List Record × Except LoadError Content)
  /-- The first generation has succeeded, and the directory is not registered yet. -/
  | generated
  /-- The loop waits for events, and for the timer if it is armed. -/
  | waiting (armed : Bool)
  /-- The first generation has failed. -/
  | ended

namespace Stage

/-- Whether the directory is registered. -/
def watched : Stage → Bool
  | rendering watched _ => watched
  | waiting _ => true
  | _ => false

/-- Whether a generation can start: the first one, or one for which the timer expires. -/
def startsGeneration : Stage → Bool
  | opening => true
  | waiting armed => armed
  | _ => false

/-- Whether the document has been read and the directory is not registered. -/
def unguarded : Stage → Bool
  | rendering watched _ => !watched
  | generated => true
  | _ => false

theorem watched_of_unguarded {stage : Stage} (h : stage.unguarded = true) :
    stage.watched = false := by
  cases stage with
  | rendering watched loaded => simpa [unguarded, Stage.watched] using h
  | generated => rfl
  | opening => cases h
  | waiting armed => cases h
  | ended => cases h

/-- Whether the loop waits and the timer is not armed. -/
def idle : Stage → Bool
  | waiting armed => !armed
  | _ => false

end Stage

/-- A command that watches, with the files around it, the events that were not delivered yet, and
whether the latest generation succeeded. -/
structure Session where
  stage : Stage := .opening
  files : Files
  pending : List FileEvent := []
  succeeded : Bool := false

/-- What can happen next. -/
inductive Move where
  /-- A generation reads the document. -/
  | load
  /-- A generation has written its files, or it has failed. -/
  | finish (token : String)
  /-- The directory of the document is registered. -/
  | register
  /-- The document is rewritten from outside, by moving a new file into its place or not. -/
  | rewrite (content : Text) (moved : Bool)
  /-- Something else happens in the directory. -/
  | other (e : FileEvent)
  /-- The next event is delivered to the loop. -/
  | deliver
  deriving DecidableEq, Repr

/-- Whether a move rewrites the document. -/
def Move.isRewrite : Move → Bool
  | rewrite _ _ => true
  | _ => false

namespace Session

variable {w : Watch} {s : Session}

/-- An event arrives, if the directory is registered. -/
def notify (s : Session) (e : Option FileEvent) : Session :=
  if s.stage.watched then { s with pending := s.pending ++ e.toList } else s

@[simp] theorem notify_stage (s : Session) (e : Option FileEvent) :
    (s.notify e).stage = s.stage := by
  rw [notify]
  split <;> rfl

/-- A generation ends that had loaded the document. -/
def conclude (w : Watch) (token : String) (watched : Bool)
    (loaded : List Record × Except LoadError Content) (s : Session) : Session :=
  let g := Generate.finish w.options token w.langs loaded s.files
  { s with
    files := g.files
    succeeded := g.result.isOk
    stage := if watched then .waiting false else if g.result.isOk then .generated else .ended }

/-- The session after a move, where the move is possible. -/
def step? (w : Watch) (s : Session) : Move → Option Session
  | .load =>
    if s.stage.startsGeneration then
      some { s with
        stage := .rendering s.stage.watched (Document.load s.files w.options.document) }
    else none
  | .finish token =>
    match s.stage with
    | .rendering watched loaded => some (s.conclude w token watched loaded)
    | _ => none
  | .register =>
    match s.stage with
    | .generated => some { s with stage := .waiting false }
    | _ => none
  | .rewrite content moved =>
    match s.files.write w.options.document content with
    | .ok files =>
      let operation := if moved then FileOperation.create else .write
      some (notify { s with files } (event? w.options.document w.options.document operation))
    | .error _ => none
  | .other e => some (s.notify (some e))
  | .deliver =>
    match s.stage, s.pending with
    | .waiting armed, e :: rest =>
      some { s with stage := .waiting ({ w with armed }.notice e).1.armed, pending := rest }
    | _, _ => none

/-- The session after some moves in a row. -/
def run? (w : Watch) (s : Session) (moves : List Move) : Option Session :=
  moves.foldlM (step? w) s

section Moves

variable {s' : Session}

theorem step?_load (h : s.step? w .load = some s') :
    s.stage.startsGeneration = true ∧
      s' = { s with
        stage := .rendering s.stage.watched (Document.load s.files w.options.document) } := by
  rw [step?] at h
  split at h
  · next hs => exact ⟨hs, (Option.some.inj h).symm⟩
  · cases h

theorem step?_finish {token : String} (h : s.step? w (.finish token) = some s') :
    ∃ watched loaded, s.stage = .rendering watched loaded ∧
      s' = s.conclude w token watched loaded := by
  rw [step?] at h
  split at h
  · next watched loaded hs => exact ⟨watched, loaded, hs, (Option.some.inj h).symm⟩
  · cases h

theorem step?_register (h : s.step? w .register = some s') :
    s.stage = .generated ∧ s' = { s with stage := .waiting false } := by
  rw [step?] at h
  split at h
  · next hs => exact ⟨hs, (Option.some.inj h).symm⟩
  · cases h

/-- A rewrite of the document causes an event that asks for a generation. -/
theorem step?_rewrite {content : Text} {moved : Bool}
    (h : s.step? w (.rewrite content moved) = some s') :
    ∃ files e, concerns w.options.document e = true ∧
      s' = notify { s with files } (some e) := by
  rw [step?] at h
  split at h
  · next files _ =>
      obtain ⟨e, he, hconcerns⟩ := exists_event w.options.document
        (if moved then .create else .write) (by cases moved <;> decide)
      dsimp only at h
      rw [he] at h
      exact ⟨files, e, hconcerns, (Option.some.inj h).symm⟩
  · cases h

theorem step?_deliver (h : s.step? w .deliver = some s') :
    ∃ armed e rest, s.stage = .waiting armed ∧ s.pending = e :: rest ∧
      s' = { s with
        stage := .waiting (armed || concerns w.options.document e), pending := rest } := by
  rw [step?] at h
  split at h
  · next armed e rest hs hp =>
      refine ⟨armed, e, rest, hs, hp, ?_⟩
      rw [← Option.some.inj h, notice]
      split <;> simp_all
  · cases h

end Moves

section Agreement

/-- A generation during which the document is not rewritten. -/
theorem run?_load_finish (hs : s.stage.startsGeneration = true) (token : String) :
    run? w s [.load, .finish token] =
      some { s with
        files := (Generate.once w.options token w.langs s.files).files
        succeeded := (Generate.once w.options token w.langs s.files).result.isOk
        stage :=
          if s.stage.watched then .waiting false
          else if (Generate.once w.options token w.langs s.files).result.isOk then .generated
          else .ended } := by
  simp only [run?, List.foldlM_cons, List.foldlM_nil, step?, hs, if_true, Option.bind_eq_bind,
    Option.bind_some, conclude, ← Generate.once_eq_finish]
  rfl

/-- The command up to the first generation does what the first two moves do. -/
theorem run?_of_start {token : String} {fs : Files} {ending : Ending}
    (h : Generate.start w.reporting w.options token fs = (ending, some w.langs)) :
    run? w { files := fs } [.load, .finish token] =
      some { stage := .generated, files := ending.files, succeeded := true } := by
  rw [run?_load_finish rfl]
  rw [Generate.start] at h
  split at h
  · cases h
  · split at h
    · cases h
    · next langs _ =>
        dsimp only at h
        split at h
        · cases h
        · next gs hr =>
            obtain ⟨out, hout⟩ := Generate.exists_report w.reporting gs
            simp only [hout, Except.isOk, Except.toBool, if_true, Prod.mk.injEq,
              Option.some.injEq] at h
            obtain ⟨hending, rfl⟩ := h
            rw [← hending, hr]
            rfl

/-- The expiry of the timer does what the reading and the writing do. -/
theorem run?_expire (hs : s.stage = .waiting true) (token : String) :
    ∃ s', run? w s [.load, .finish token] = some s' ∧
      s'.stage = .waiting ({ w with armed := true }.expire token s.files).1.armed ∧
      s'.files = ({ w with armed := true }.expire token s.files).2.files ∧
      s'.pending = s.pending := by
  refine ⟨_, run?_load_finish (by rw [hs]; rfl) token, ?_, rfl, rfl⟩
  simp [hs, Stage.watched, expire]

end Agreement

section Updates

/-- An event that asks for a generation was not delivered yet. -/
def Announced (w : Watch) (s : Session) : Prop :=
  ∃ e ∈ s.pending, concerns w.options.document e = true

/-- The loop waits, the timer is not armed, and no event about the document is left. -/
def Quiet (w : Watch) (s : Session) : Prop :=
  s.stage.idle = true ∧ ∀ e ∈ s.pending, concerns w.options.document e = false

instance (w : Watch) (s : Session) : Decidable (s.Quiet w) :=
  inferInstanceAs (Decidable (_ ∧ _))

/-- The output files belong to the document if the latest generation succeeded, or there will be
another generation. -/
def UpToDate (w : Watch) (s : Session) : Prop :=
  match s.stage with
  | .opening | .ended => True
  | .rendering watched loaded =>
    loaded = Document.load s.files w.options.document ∨ watched = true ∧ s.Announced w
  | .generated => s.succeeded = true → Generate.Current w.options w.langs s.files
  | .waiting armed =>
    armed = true ∨ s.Announced w ∨
      (s.succeeded = true → Generate.Current w.options w.langs s.files)

/-- An event that arrives takes nothing away. -/
theorem UpToDate.notify (h : s.UpToDate w) (e : Option FileEvent) : (s.notify e).UpToDate w := by
  rw [Session.notify]
  split
  · have hmore (ha : s.Announced w) :
        Announced w { s with pending := s.pending ++ e.toList } := by
      obtain ⟨a, hmem, hconcerns⟩ := ha
      exact ⟨a, List.mem_append_left _ hmem, hconcerns⟩
    obtain ⟨stage, files, pending, succeeded⟩ := s
    cases stage with
    | opening => trivial
    | rendering watched loaded => exact h.imp_right fun ⟨hw, ha⟩ => ⟨hw, hmore ha⟩
    | generated => exact h
    | waiting armed => exact h.imp_right fun h => h.imp_left hmore
    | ended => trivial
  · exact h

/-- While the directory is registered, an event that asks for a generation is enough. -/
theorem upToDate_of_announced (hw : s.stage.watched = true) (ha : s.Announced w) :
    s.UpToDate w := by
  obtain ⟨stage, files, pending, succeeded⟩ := s
  cases stage with
  | opening => trivial
  | rendering watched loaded => exact .inr ⟨hw, ha⟩
  | generated => cases hw
  | waiting armed => exact .inr (.inl ha)
  | ended => trivial

/-- A rewrite that is announced leaves nothing behind, unless the document had been read and the
directory was not registered. -/
theorem upToDate_notify (hs : s.stage.unguarded = false) {e : FileEvent}
    (he : concerns w.options.document e = true) : (s.notify (some e)).UpToDate w := by
  cases hw : s.stage.watched with
  | true =>
      refine upToDate_of_announced (by rw [notify_stage, hw]) ⟨e, ?_, he⟩
      simp [notify, hw]
  | false =>
      obtain ⟨stage, files, pending, succeeded⟩ := s
      cases stage with
      | opening => trivial
      | rendering watched loaded =>
          cases hw
          cases hs
      | generated => cases hs
      | waiting armed => cases hw
      | ended => trivial

/-- The end of a generation whose document is still there: the files belong to it. -/
theorem upToDate_conclude (hd : w.options.directory ≠ "") (token : String) (watched : Bool)
    (s : Session) :
    (s.conclude w token watched (Document.load s.files w.options.document)).UpToDate w := by
  have hcurrent (hok : (Generate.finish w.options token w.langs
      (Document.load s.files w.options.document) s.files).result.isOk = true) :
      Generate.Current w.options w.langs (Generate.finish w.options token w.langs
        (Document.load s.files w.options.document) s.files).files := by
    rw [← Generate.once_eq_finish] at hok ⊢
    cases hr : (Generate.once w.options token w.langs s.files).result with
    | error f =>
        rw [hr] at hok
        cases hok
    | ok gs => exact Generate.current_once hd hr
  rw [conclude]
  cases watched with
  | true => exact .inr (.inr hcurrent)
  | false =>
      cases hok : (Generate.finish w.options token w.langs
          (Document.load s.files w.options.document) s.files).result.isOk with
      | true => exact fun _ => hcurrent hok
      | false => trivial

/-- A move keeps the output files up to date, unless it rewrites the document that had been read
while the directory is not registered. -/
theorem UpToDate.step (hd : w.options.directory ≠ "") (h : s.UpToDate w) {m : Move} {s' : Session}
    (hstep : s.step? w m = some s') (hm : m.isRewrite = true → s.stage.unguarded = false) :
    s'.UpToDate w := by
  cases m with
  | load =>
      obtain ⟨-, rfl⟩ := step?_load hstep
      exact .inl rfl
  | finish token =>
      obtain ⟨watched, loaded, hs, rfl⟩ := step?_finish hstep
      rw [UpToDate, hs] at h
      rcases h with rfl | ⟨rfl, ha⟩
      · exact upToDate_conclude hd token watched s
      · exact .inr (.inl ha)
  | register =>
      obtain ⟨hs, rfl⟩ := step?_register hstep
      rw [UpToDate, hs] at h
      exact .inr (.inr h)
  | rewrite content moved =>
      obtain ⟨files, e, hconcerns, rfl⟩ := step?_rewrite hstep
      exact upToDate_notify (s := { s with files }) (hm rfl) hconcerns
  | other e =>
      cases hstep
      exact h.notify (some e)
  | deliver =>
      obtain ⟨armed, e, rest, hs, hp, rfl⟩ := step?_deliver hstep
      rw [UpToDate, hs] at h
      rcases h with rfl | ⟨a, hmem, hconcerns⟩ | h
      · exact .inl rfl
      · rw [hp, List.mem_cons] at hmem
        rcases hmem with rfl | hmem
        · exact .inl (by simp [hconcerns])
        · exact .inr (.inl ⟨a, hmem, hconcerns⟩)
      · exact .inr (.inr h)

end Updates

section Runs

variable {fs : Files} {moves : List Move}

theorem run?_snoc (w : Watch) (s : Session) (moves : List Move) (m : Move) :
    run? w s (moves ++ [m]) = (run? w s moves).bind (step? w · m) := by
  simp [run?, List.foldlM_append]

/-- What the stage of a session says about the moves that led to it. -/
structure Recorded (moves : List Move) (s : Session) : Prop where
  read : s.stage.unguarded = true → .load ∈ moves
  unregistered : s.stage.watched = false → .register ∉ moves

/-- A move that keeps the stage. -/
theorem Recorded.append (h : s.Recorded moves) {m : Move} {s' : Session}
    (hs : s'.stage = s.stage) (hm : m ≠ .register) : s'.Recorded (moves ++ [m]) where
  read hu := List.mem_append_left _ (h.read (hs ▸ hu))
  unregistered hw := by
    rw [List.mem_append, List.mem_singleton]
    rintro (hmem | heq)
    · exact h.unregistered (hs ▸ hw) hmem
    · exact hm heq.symm

theorem Recorded.step (h : s.Recorded moves) {m : Move} {s' : Session}
    (hstep : s.step? w m = some s') : s'.Recorded (moves ++ [m]) := by
  cases m with
  | load =>
      obtain ⟨-, rfl⟩ := step?_load hstep
      exact ⟨fun _ => by simp, fun hw => by simpa using h.unregistered hw⟩
  | finish token =>
      obtain ⟨watched, loaded, hs, rfl⟩ := step?_finish hstep
      cases watched with
      | true => exact ⟨fun hu => (by cases hu), fun hw => (by cases hw)⟩
      | false =>
          have hread := h.read (by rw [hs]; rfl)
          have hunregistered := h.unregistered (by rw [hs]; rfl)
          exact ⟨fun _ => by simp [hread], fun _ => by simpa using hunregistered⟩
  | register =>
      obtain ⟨-, rfl⟩ := step?_register hstep
      exact ⟨fun hu => (by cases hu), fun hw => (by cases hw)⟩
  | rewrite content moved =>
      obtain ⟨files, e, -, rfl⟩ := step?_rewrite hstep
      exact h.append (notify_stage _ _) (by simp)
  | other e =>
      cases hstep
      exact h.append (notify_stage _ _) (by simp)
  | deliver =>
      obtain ⟨armed, e, rest, -, -, rfl⟩ := step?_deliver hstep
      exact ⟨fun hu => (by cases hu), fun hw => (by cases hw)⟩

/-- The document was rewritten after the first generation had read it and before the directory was
registered, and no generation has read it since. -/
def Overlooked (moves : List Move) : Prop :=
  ∃ i < moves.length, moves[i]?.any Move.isRewrite = true ∧ .load ∈ moves.take i ∧
    .register ∉ moves.take i ∧ .load ∉ moves.drop (i + 1)

instance (moves : List Move) : Decidable (Overlooked moves) :=
  inferInstanceAs (Decidable (∃ i < moves.length, _))

theorem overlooked_append_rewrite {m : Move} (hm : m.isRewrite = true) (hload : .load ∈ moves)
    (hregister : .register ∉ moves) : Overlooked (moves ++ [m]) :=
  ⟨moves.length, by simp, by simp [hm], by simpa using hload, by simpa using hregister, by simp⟩

theorem Overlooked.append {m : Move} (h : Overlooked moves) (hm : m ≠ .load) :
    Overlooked (moves ++ [m]) := by
  obtain ⟨i, hi, hrewrite, hload, hregister, hunread⟩ := h
  refine ⟨i, by simp; omega, ?_, ?_, ?_, ?_⟩
  · rw [List.getElem?_append_left hi, hrewrite]
  · rwa [List.take_append_of_le_length hi.le]
  · rwa [List.take_append_of_le_length hi.le]
  · rw [List.drop_append_of_le_length hi, List.mem_append, List.mem_singleton]
    rintro (h | h)
    · exact hunread h
    · exact hm h.symm

/-- After any moves the output files are up to date, unless a rewrite was overlooked. -/
theorem run?_upToDate (hd : w.options.directory ≠ "") (fs : Files) (moves : List Move) :
    ∀ s, run? w { files := fs } moves = some s →
      s.Recorded moves ∧ (s.UpToDate w ∨ Overlooked moves) := by
  induction moves using List.reverseRecOn with
  | nil =>
      intro s h
      cases h
      exact ⟨⟨fun hu => (by cases hu), fun _ => by simp⟩, .inl trivial⟩
  | append_singleton moves m ih =>
      intro s' h
      rw [run?_snoc, Option.bind_eq_some_iff] at h
      obtain ⟨s, hrun, hstep⟩ := h
      obtain ⟨hrecorded, hbefore⟩ := ih s hrun
      refine ⟨hrecorded.step hstep, ?_⟩
      by_cases hload : m = .load
      · -- A generation that reads the document makes up for all that was missed before.
        subst hload
        obtain ⟨-, rfl⟩ := step?_load hstep
        exact .inl (.inl rfl)
      · rcases hbefore with hup | hover
        · by_cases hlost : m.isRewrite = true ∧ s.stage.unguarded = true
          · obtain ⟨hm, hu⟩ := hlost
            exact .inr (overlooked_append_rewrite hm (hrecorded.read hu)
              (hrecorded.unregistered (Stage.watched_of_unguarded hu)))
          · refine .inl (hup.step hd hstep fun hm => ?_)
            simpa [hm] using hlost
        · exact .inr (hover.append hload)

/-- A command that watches a document loses no rewrite that comes after the directory was
registered, or before the document was first read. Where the loop waits, the timer is not armed, no
event about the document is left and the latest generation succeeded, the output files belong to
the document, and a generation would change no file. -/
theorem quiet_output_files (w : Watch) (hd : w.options.directory ≠ "") (fs : Files)
    (moves : List Move) (s : Session) (hrun : run? w { files := fs } moves = some s)
    (hquiet : s.Quiet w) (hsucceeded : s.succeeded = true) (hseen : ¬ Overlooked moves) :
    Generate.Current w.options w.langs s.files ∧
      ∀ token loc, (Generate.once w.options token w.langs s.files).files.content? loc =
        s.files.content? loc := by
  obtain ⟨-, hup | hover⟩ := run?_upToDate hd fs moves s hrun
  · obtain ⟨hidle, hnone⟩ := hquiet
    have hcurrent : Generate.Current w.options w.langs s.files := by
      cases hs : s.stage with
      | waiting armed =>
          rw [hs] at hidle
          rw [UpToDate, hs] at hup
          rcases hup with rfl | ⟨e, he, hconcerns⟩ | hup
          · cases hidle
          · rw [hnone e he] at hconcerns
            cases hconcerns
          · exact hup hsucceeded
      | _ =>
          rw [hs] at hidle
          cases hidle
    exact ⟨hcurrent, fun token loc => hcurrent.content?_once hd token loc⟩
  · exact absurd hover hseen

/-- A document with one constant. -/
def constantNamed (name : String) : Text :=
  .ofString ("\x7b\"items\": [\x7b\"kind\": \"var\", \"name\": \"" ++ name ++
    "\", \"type\": \"T\"\x7d]\x7d")

/-- A store with one document. -/
def oneDocument : Files := ⟨[(["x.json"], .file (constantNamed "a"))]⟩

/-- The document is watched, and one output file is written. -/
def rustWatch : Watch where
  reporting := {}
  options := { document := "x.json", directory := "out", watch := true }
  langs := [.rust]

/-- The document is rewritten before it is first read, while another file changes, and while the
files are being written. -/
def seenRewrites : List Move :=
  [.rewrite (constantNamed "b") false, .load, .finish "t", .register,
    .rewrite (constantNamed "c") true, .other ⟨"./x.rs", .create⟩, .deliver, .load,
    .rewrite (constantNamed "d") false, .finish "u", .deliver, .deliver, .load, .finish "v"]

/-- The document is rewritten before the directory is registered. -/
def overlookedRewrite : List Move :=
  [.load, .finish "t", .rewrite (constantNamed "b") false, .register]

theorem exists_run (w : Watch) (fs : Files) (moves : List Move) (p : Session → Prop)
    [DecidablePred p] (h : (run? w { files := fs } moves).any (p ·) = true) :
    ∃ s, run? w { files := fs } moves = some s ∧ p s := by
  cases hrun : run? w { files := fs } moves with
  | none =>
      rw [hrun] at h
      cases h
  | some s =>
      rw [hrun] at h
      exact ⟨s, rfl, of_decide_eq_true h⟩

theorem seenRewrites_current :
    ∃ s, run? rustWatch { files := oneDocument } seenRewrites = some s ∧ s.Quiet rustWatch ∧
      s.succeeded = true ∧ s.files.content? ["x.json"] = some (constantNamed "d") ∧
      Generate.Current rustWatch.options rustWatch.langs s.files := by
  obtain ⟨s, hrun, hquiet, hsucceeded, hdocument⟩ :=
    exists_run rustWatch oneDocument seenRewrites
      (fun s => s.Quiet rustWatch ∧ s.succeeded = true ∧
        s.files.content? ["x.json"] = some (constantNamed "d")) (by decide +kernel)
  have hcurrent := quiet_output_files rustWatch (by decide) oneDocument seenRewrites s hrun hquiet
    hsucceeded (by decide +kernel)
  exact ⟨s, hrun, hquiet, hsucceeded, hdocument, hcurrent.1⟩

/-- A rewrite between the first reading of the document and the registration of its directory can be
lost: the loop waits, and another generation would change an output file. -/
theorem not_every_rewrite_seen :
    ¬ ∀ (w : Watch) (fs : Files) (moves : List Move) (s : Session), w.options.directory ≠ "" →
      run? w { files := fs } moves = some s → s.Quiet w → s.succeeded = true →
        ∀ token loc, (Generate.once w.options token w.langs s.files).files.content? loc =
          s.files.content? loc := by
  intro h
  obtain ⟨s, hrun, hquiet, hsucceeded, hstale⟩ :=
    exists_run rustWatch oneDocument overlookedRewrite
      (fun s => s.Quiet rustWatch ∧ s.succeeded = true ∧
        (Generate.once rustWatch.options "u" rustWatch.langs s.files).files.content?
          ["out", "x.rs"] ≠ s.files.content? ["out", "x.rs"]) (by decide +kernel)
  exact hstale
    (h rustWatch oneDocument overlookedRewrite s (by decide) hrun hquiet hsucceeded "u" _)

end Runs

end Session

end Watch

end DeclGen
