import CourierDispatch.Proofs.Pipeline.Going

/-!
# Starts that are taken back

A start may find either component at any point between start and stop. If it finds one that is not
stopped it fails, and then both components are where they were: a reader that it has started is stopped
again, and its inbox is taken away. The loops may go on all the while.
-/

namespace CourierDispatch

namespace Component

variable {α : Type}

theorem start_of_stopped {c : Component α} (h : c.control.phase = .stopped) (r : Run α) :
    c.start r = .ok { c with control := ⟨.running, some c.runs.length⟩, runs := c.runs ++ [r] } := by
  simp [start, Lifecycle.start?, h]

theorem start_of_ne_stopped {c : Component α} (h : c.control.phase ≠ .stopped) (r : Run α) :
    c.start r = .error (.alreadyStarted c.label) := by
  unfold start Lifecycle.start?
  cases hphase : c.control.phase with
  | stopped => exact absurd hphase h
  | running | stopping => rfl

end Component

namespace Pipeline

variable {S H K : Type}

theorem startReader_of_ne_stopped {p : Pipeline S H K}
    (h : p.desk.reader.component.control.phase ≠ .stopped) :
    p.startReader = (p, .error (.alreadyStarted p.desk.reader.component.label)) := by
  rw [startReader, Reader.start, Component.start_of_ne_stopped h]

theorem startReader_of_stopped {p : Pipeline S H K}
    (h : p.desk.reader.component.control.phase = .stopped) :
    ∃ reader : Reader S, p.startReader = ({ p with desk := { p.desk with reader } }, .ok ()) ∧
      reader.component.control = ⟨.running, some p.desk.reader.component.runs.length⟩ ∧
      reader.channels.isSome = true := by
  rw [startReader, Reader.start, Component.start_of_stopped h]
  exact ⟨_, rfl, rfl, rfl⟩

theorem startProcessor_of_ne_stopped {p : Pipeline S H K}
    (h : p.desk.processor.component.control.phase ≠ .stopped) :
    p.startProcessor = (p, .error (.alreadyStarted p.desk.processor.component.label)) := by
  rw [startProcessor, Processor.start, Component.start_of_ne_stopped h]

theorem startProcessor_of_stopped {p : Pipeline S H K}
    (h : p.desk.processor.component.control.phase = .stopped) :
    ∃ processor : Processor H (Writer K),
      p.startProcessor = ({ p with desk := { p.desk with processor } }, .ok ()) ∧
      processor.isRunning = true := by
  rw [startProcessor, Processor.start, Component.start_of_stopped h]
  exact ⟨_, rfl, rfl⟩

variable [MessageSource S] [Service H] [MessageSink K]

/-- Stops the reader while the loops go on: they do so until the run that has been claimed has ended. -/
def stopReaderAmid (after : List (Going S)) (p : Pipeline S H K) :
    Pipeline S H K × Except LifecycleError Unit :=
  match p.desk.reader.claim with
  | .error e => (p, .error e)
  | .ok (_, reader) =>
    let p := { p with desk := { p.desk with reader } }.goAll after
    let reader := p.desk.reader.exit.getD p.desk.reader
    ({ p with desk := { p.desk with reader := { reader with component := reader.component.finish } } },
      .ok ())

/-- Starts the processor. If that fails the reader is stopped again, while the loops go on. -/
def startProcessorAmid (after : List (Going S)) (p : Pipeline S H K) :
    Pipeline S H K × Except PipelineError Unit :=
  match p.startProcessor with
  | (p, .ok ()) => (p.note .started, .ok ())
  | (p, .error e) =>
    match p.stopReaderAmid after with
    | (p, .ok ()) => (p, .error (.lifecycle e))
    | (p, .error rollback) => (p.note (.rollbackFailed rollback), .error (.lifecycle e))

/-- Starts the pipeline while the loops go on, before the processor is started and, if that fails, until
the reader has stopped again. -/
def startAmid (before after : List (Going S)) (p : Pipeline S H K) :
    Pipeline S H K × Except PipelineError Unit :=
  match p.startReader with
  | (p, .error e) => (p, .error (.lifecycle e))
  | (p, .ok ()) => (p.goAll before).startProcessorAmid after

/-- A start is one during which the loops do not go on. -/
theorem startAmid_nil (p : Pipeline S H K) : p.startAmid [] [] = p.start := by
  have hstop (q : Pipeline S H K) : q.stopReaderAmid [] = q.stopReader := by
    unfold stopReaderAmid stopReader Reader.stop
    cases q.desk.reader.claim <;> rfl
  unfold startAmid start
  rcases p.startReader with ⟨q, e | ⟨⟩⟩
  · rfl
  dsimp only
  rw [goAll, List.foldl_nil, startProcessorAmid]
  rcases q.startProcessor with ⟨q, e | ⟨⟩⟩
  · rcases hq : q.stopReader with ⟨q', e | ⟨⟩⟩
    · simp only [hstop, hq]
    · simp only [hstop, hq]
  · rfl

/-- Where the components of a pipeline are between start and stop, who has their activations, and
whether the reader has an inbox. -/
structure Standing where
  reader : Lifecycle Nat
  processor : Lifecycle Nat
  inbox : Bool
deriving DecidableEq, Repr

def standing (p : Pipeline S H K) : Standing :=
  { reader := p.desk.reader.component.control
    processor := p.desk.processor.component.control
    inbox := p.desk.reader.channels.isSome }

/-- The component that a start finds not to be stopped, the reader first. -/
def Standing.obstacle? (s : Standing) : Option String :=
  match s.reader.phase, s.processor.phase with
  | .stopped, .stopped => none
  | .stopped, _ => some "processor"
  | _, _ => some "command reader"

/-- What may become of a pipeline that is started: both components run, or the first that was not
stopped is named and nothing has changed. -/
inductive AllOrNothing (p : Pipeline S H K) : Pipeline S H K × Except PipelineError Unit → Prop
  | all (q : Pipeline S H K) (hfree : p.standing.obstacle? = none) (hrunning : q.isRunning = true)
      (hinbox : q.standing.inbox = true) : AllOrNothing p (q, .ok ())
  | nothing (q : Pipeline S H K) (label : String) (hlabel : p.standing.obstacle? = some label)
      (hsame : q.standing = p.standing) :
      AllOrNothing p (q, .error (.lifecycle (.alreadyStarted label)))

/-- A running reader that is stopped has given up its activation and its inbox, whatever goes on until
then. -/
theorem stopReaderAmid_of_running {p : Pipeline S H K} {i : Nat}
    (h : p.desk.reader.component.control = ⟨.running, some i⟩) (after : List (Going S)) :
    ∃ q, p.stopReaderAmid after = (q, .ok ()) ∧
      q.standing = ⟨⟨.stopped, none⟩, p.desk.processor.component.control, false⟩ := by
  have hclaim : ∃ component, p.desk.reader.component.claim = .ok (i, component) ∧
      component.control = ⟨.stopping, none⟩ := by
    unfold Component.claim
    rw [h]
    exact ⟨_, rfl, rfl⟩
  obtain ⟨component, hclaim, hcontrol⟩ := hclaim
  let claimed : Pipeline S H K :=
    { p with desk := { p.desk with reader := { p.desk.reader with component, channels := none } } }
  have hstays := claimed.stays_goAll after
  have hends := hstays.reader.trans (.ends _)
  rw [stopReaderAmid, Reader.claim, hclaim]
  refine ⟨_, rfl, ?_⟩
  rw [standing, Standing.mk.injEq]
  refine ⟨?_, hstays.processor.control, congrArg Option.isSome hends.channels⟩
  change Lifecycle.finish (Component.control _) = _
  rw [hends.component.control]
  change Lifecycle.finish component.control = _
  rw [hcontrol]
  rfl

/-- What a pipeline is like that has been handled as it should be: the components have their names, and a
reader that is stopped has neither an activation nor an inbox. -/
structure Proper (p : Pipeline S H K) : Prop where
  readerLabel : p.desk.reader.component.label = "command reader"
  processorLabel : p.desk.processor.component.label = "processor"
  stopped : p.desk.reader.component.control.phase = .stopped →
    p.desk.reader.component.control = ⟨.stopped, none⟩ ∧ p.desk.reader.channels = none

/-- A start that has come as far as the processor: the reader of `p` has been stopped until now, and the
loops have gone on since it was started. -/
structure Halfway (p q : Pipeline S H K) (i : Nat) : Prop where
  free : p.desk.reader.component.control.phase = .stopped
  reader : q.desk.reader.component.control = ⟨.running, some i⟩
  inbox : q.desk.reader.channels.isSome = true
  processor : p.desk.processor.component.Stays q.desk.processor.component

theorem exists_halfway {p : Pipeline S H K}
    (h : p.desk.reader.component.control.phase = .stopped) (before : List (Going S)) :
    ∃ q i, p.Halfway q i ∧ ∀ after, p.startAmid before after = q.startProcessorAmid after := by
  obtain ⟨reader, hstart, hcontrol, hinbox⟩ := startReader_of_stopped h
  -- the loops go on, but both components stay where they are
  have hstays := stays_goAll { p with desk := { p.desk with reader } } before
  refine ⟨_, _, ⟨h, hstays.reader.component.control.trans hcontrol,
    (congrArg Option.isSome hstays.reader.channels).trans hinbox, hstays.processor⟩, fun after => ?_⟩
  rw [startAmid, hstart]

namespace Halfway

variable {p q : Pipeline S H K} {i : Nat}

theorem allOrNothing_of_stopped (h : p.Halfway q i)
    (hprocessor : p.desk.processor.component.control.phase = .stopped) (after : List (Going S)) :
    p.AllOrNothing (q.startProcessorAmid after) := by
  have hphase : q.desk.processor.component.control.phase = .stopped := by
    rw [h.processor.control]
    exact hprocessor
  obtain ⟨processor, hok, hrunning⟩ := startProcessor_of_stopped hphase
  rw [startProcessorAmid, hok]
  refine .all _ ?_ ?_ h.inbox
  · simp only [Standing.obstacle?, standing, h.free, hprocessor]
  · change (processor.isRunning && q.desk.reader.isRunning) = true
    rw [hrunning, Reader.isRunning, Component.isRunning, h.reader]
    rfl

theorem allOrNothing_of_ne_stopped (h : p.Halfway q i) (hproper : p.Proper)
    (hprocessor : p.desk.processor.component.control.phase ≠ .stopped) (after : List (Going S)) :
    p.AllOrNothing (q.startProcessorAmid after) := by
  have hphase : q.desk.processor.component.control.phase ≠ .stopped := by
    rw [h.processor.control]
    exact hprocessor
  obtain ⟨hfree, hchannels⟩ := hproper.stopped h.free
  obtain ⟨q', hstop, hstanding⟩ := stopReaderAmid_of_running h.reader after
  rw [startProcessorAmid, startProcessor_of_ne_stopped hphase, h.processor.label,
    hproper.processorLabel]
  dsimp only
  rw [hstop]
  refine .nothing q' _ ?_ ?_
  · simp only [Standing.obstacle?, standing, h.free]
  · rw [hstanding, h.processor.control, standing, hchannels, hfree]
    rfl

end Halfway

theorem Proper.startAmid {p : Pipeline S H K} (h : p.Proper) (before after : List (Going S)) :
    p.AllOrNothing (p.startAmid before after) := by
  by_cases hreader : p.desk.reader.component.control.phase = .stopped
  · obtain ⟨q, i, hhalfway, hstart⟩ := exists_halfway hreader before
    rw [hstart after]
    by_cases hprocessor : p.desk.processor.component.control.phase = .stopped
    · exact hhalfway.allOrNothing_of_stopped hprocessor after
    · exact hhalfway.allOrNothing_of_ne_stopped h hprocessor after
  · rw [Pipeline.startAmid, startReader_of_ne_stopped hreader, h.readerLabel]
    refine .nothing p _ ?_ rfl
    simp only [Standing.obstacle?, standing]
    cases hphase : p.desk.reader.component.control.phase with
    | stopped => exact absurd hphase hreader
    | running | stopping => rfl

end Pipeline

end CourierDispatch
