import CourierDispatch.Proofs.Component.Callers
import CourierDispatch.Proofs.Pipeline.Rollback

/-!
# Callers of a pipeline

Any number of callers start and shut down a pipeline, and each of them may give up wherever it waits.
`Attended` is a pipeline with the stops that are in progress, `Attended.step` lets one of the callers or
one of the loops take a step. Wherever all these steps lead, a start is all or nothing.
-/

namespace CourierDispatch

theorem Callers.Custody.eq_of_stopped {n runs : Nat} {l : Lifecycle Nat} {stops : List Nat}
    (h : Custody n runs l stops) (hl : l.phase = .stopped) : l = ⟨.stopped, none⟩ := by
  cases h with
  | stopped => rfl
  | running => cases hl
  | abandoned => cases hl
  | claimed => cases hl

instance {H W : Type} : Loop (DispatchLoop H W) Unit where
  ending? l :=
    match l.stage with
    | .exited => some (.value ())
    | _ => none

theorem Component.exists_of_claim {α : Type} {c c' : Component α} {i : Nat} (h : c.claim = .ok (i, c')) :
    c.control.claim? = some (i, c'.control) ∧ c'.label = c.label ∧
      c'.runs.length = c.runs.length := by
  unfold claim at h
  split at h
  next j control hcontrol =>
    cases h
    exact ⟨hcontrol, rfl, List.length_modify _ _ _⟩
  next => cases h

theorem Reader.exists_of_claim {S : Type} {r r' : Reader S} {i : Nat} (h : r.claim = .ok (i, r')) :
    ∃ component, r.component.claim = .ok (i, component) ∧
      r' = { r with component, channels := none } := by
  unfold claim at h
  split at h
  next j component hcomponent =>
    cases h
    exact ⟨component, hcomponent, rfl⟩
  next => cases h

/-- A pipeline with the stops of its components that are in progress, each of which holds an activation. -/
structure Attended (S H K : Type) where
  pipeline : Pipeline S H K
  readerStops : List Nat := []
  processorStops : List Nat := []

namespace Attended

/-- A step of somebody who starts or shuts down the pipeline, or what goes on in between. A start takes
one step for each component, and two more if it takes back the first; a shutdown takes two for each of
them, and one for the writer. -/
inductive Event (S : Type)
  | start (t : Turn)
  /-- A stop claims the activation. -/
  | claim (t : Turn)
  /-- A stop in progress finds its loop ended. -/
  | join (t : Turn) (k : Nat)
  /-- A stop in progress is dropped. -/
  | drop (t : Turn) (k : Nat)
  | closeWriter
  | go (g : Going S)

variable {S H K : Type}

def withReader (w : Attended S H K) (reader : Reader S) (readerStops : List Nat) : Attended S H K :=
  { w with pipeline := { w.pipeline with desk := { w.pipeline.desk with reader } }, readerStops }

def withProcessor (w : Attended S H K) (processor : Processor H (Writer K))
    (processorStops : List Nat) : Attended S H K :=
  { w with pipeline := { w.pipeline with desk := { w.pipeline.desk with processor } }, processorStops }

/-- What becomes of a stop in progress, for either component. -/
def onStop (w : Attended S H K) (e : {α : Type} → Callers.Event α) : Turn → Attended S H K
  | .reader =>
    let reader := w.pipeline.desk.reader
    let callers := Callers.step ⟨reader.component, w.readerStops, []⟩ e
    w.withReader { reader with component := callers.component } callers.stops
  | .processor =>
    let processor := w.pipeline.desk.processor
    let callers := Callers.step ⟨processor.component, w.processorStops, []⟩ e
    w.withProcessor { processor with component := callers.component } callers.stops

/-- What is true of a pipeline whatever its callers have done: one of them at most has the activation of
the reader, and the reader has an inbox only while it is running. -/
structure Kept (w : Attended S H K) : Prop where
  readerLabel : w.pipeline.desk.reader.component.label = "command reader"
  processorLabel : w.pipeline.desk.processor.component.label = "processor"
  custody : ∃ n, Callers.Custody n w.pipeline.desk.reader.component.runs.length
    w.pipeline.desk.reader.component.control w.readerStops
  inbox : w.pipeline.desk.reader.component.control.phase ≠ .running →
    w.pipeline.desk.reader.channels = none

variable {w : Attended S H K}

theorem kept_ofConfig {U : Type} (config : Config) (source : S) (sink : K)
    (couriers : Dispatcher U) : Kept ⟨.ofConfig config source sink couriers, [], []⟩ :=
  ⟨rfl, rfl, ⟨0, .stopped rfl⟩, fun _ => rfl⟩

namespace Kept

/-- Whatever its callers have done, they have handled the pipeline as they should. -/
theorem proper (h : w.Kept) : w.pipeline.Proper := by
  refine ⟨h.readerLabel, h.processorLabel, fun hphase => ?_⟩
  obtain ⟨n, hcustody⟩ := h.custody
  refine ⟨?_, h.inbox (by rw [hphase]; nofun)⟩
  exact hcustody.eq_of_stopped hphase

/-- The processor may be another one, as long as it has its name. -/
theorem withProcessor (h : w.Kept) {processor : Processor H (Writer K)}
    (hlabel : processor.component.label = w.pipeline.desk.processor.component.label)
    (processorStops : List Nat) : (w.withProcessor processor processorStops).Kept :=
  ⟨h.readerLabel, hlabel.trans h.processorLabel, h.custody, h.inbox⟩

theorem withReader (h : w.Kept) {reader : Reader S} {readerStops : List Nat}
    (hlabel : reader.component.label = w.pipeline.desk.reader.component.label)
    (hcustody : ∃ n, Callers.Custody n reader.component.runs.length reader.component.control readerStops)
    (hinbox : reader.component.control.phase ≠ .running → reader.channels = none) :
    (w.withReader reader readerStops).Kept :=
  ⟨hlabel.trans h.readerLabel, h.processorLabel, hcustody, hinbox⟩

theorem onStop_reader (h : w.Kept) {component : Component ConsumeLoop} {readerStops : List Nat}
    (hlabel : component.label = w.pipeline.desk.reader.component.label)
    (hlength : component.runs = w.pipeline.desk.reader.component.runs)
    (hcustody : ∀ n, Callers.Custody n w.pipeline.desk.reader.component.runs.length
        w.pipeline.desk.reader.component.control w.readerStops →
      w.pipeline.desk.reader.component.control.phase ≠ .running ∧
        ∃ m, Callers.Custody m w.pipeline.desk.reader.component.runs.length component.control
          readerStops) :
    (w.withReader { w.pipeline.desk.reader with component } readerStops).Kept := by
  obtain ⟨n, hn⟩ := h.custody
  obtain ⟨hphase, hm⟩ := hcustody n hn
  refine h.withReader hlabel ?_ fun _ => h.inbox hphase
  change ∃ m, Callers.Custody m component.runs.length component.control readerStops
  rw [hlength]
  exact hm

end Kept

variable [MessageSource S] [Service H] [MessageSink K]

/-- Takes a step. A call that fails changes nothing, nor does a stop whose loop has not ended. -/
def step (w : Attended S H K) : Event S → Attended S H K
  | .start .reader => { w with pipeline := w.pipeline.startReader.1 }
  | .start .processor => { w with pipeline := w.pipeline.startProcessor.1 }
  | .claim .reader =>
    match w.pipeline.desk.reader.claim with
    | .ok (i, reader) => w.withReader reader (i :: w.readerStops)
    | .error _ => w
  | .claim .processor =>
    match w.pipeline.desk.processor.claim with
    | .ok (i, processor) => w.withProcessor processor (i :: w.processorStops)
    | .error _ => w
  | .join t k => w.onStop (.join k) t
  | .drop t k => w.onStop (.drop k) t
  | .closeWriter => { w with pipeline := w.pipeline.closeWriter.1 }
  | .go g => { w with pipeline := w.pipeline.go g }

def run (w : Attended S H K) (events : List (Event S)) : Attended S H K := events.foldl step w

namespace Kept

theorem go (h : w.Kept) (g : Going S) : (w.step (.go g)).Kept := by
  obtain ⟨hreader, hprocessor⟩ := w.pipeline.stays_go g
  refine ⟨hreader.component.label.trans h.readerLabel, hprocessor.label.trans h.processorLabel, ?_,
    fun hphase => hreader.channels.trans (h.inbox ?_)⟩
  · change ∃ n, Callers.Custody n (w.pipeline.go g).desk.reader.component.runs.length
      (w.pipeline.go g).desk.reader.component.control w.readerStops
    rw [hreader.component.length, hreader.component.control]
    exact h.custody
  · rw [← hreader.component.control]
    exact hphase

theorem startReader (h : w.Kept) : (w.step (.start .reader)).Kept := by
  obtain ⟨n, hcustody⟩ := h.custody
  by_cases hphase : w.pipeline.desk.reader.component.control.phase = .stopped
  · have hstarted : w.pipeline.desk.reader.component.control.start?
        w.pipeline.desk.reader.component.runs.length =
          some ⟨.running, some w.pipeline.desk.reader.component.runs.length⟩ := by
      simp only [Lifecycle.start?, hphase]
    simp only [step, Pipeline.startReader, Reader.start, Component.start_of_stopped hphase]
    refine ⟨h.readerLabel, h.processorLabel, ⟨n, ?_⟩, fun hrunning => absurd rfl hrunning⟩
    rw [List.length_append]
    exact hcustody.start hstarted
  · simp only [step, Pipeline.startReader_of_ne_stopped hphase]
    exact h

theorem startProcessor (h : w.Kept) : (w.step (.start .processor)).Kept := by
  by_cases hphase : w.pipeline.desk.processor.component.control.phase = .stopped
  · simp only [step, Pipeline.startProcessor, Processor.start, Component.start_of_stopped hphase]
    exact ⟨h.readerLabel, h.processorLabel, h.custody, h.inbox⟩
  · simp only [step, Pipeline.startProcessor_of_ne_stopped hphase]
    exact h

theorem claimReader (h : w.Kept) : (w.step (.claim .reader)).Kept := by
  simp only [step]
  split
  next i reader hclaim =>
    obtain ⟨n, hcustody⟩ := h.custody
    obtain ⟨component, hcomponent, rfl⟩ := Reader.exists_of_claim hclaim
    obtain ⟨hcontrol, hlabel, hlength⟩ := Component.exists_of_claim hcomponent
    refine h.withReader hlabel ⟨n, ?_⟩ fun _ => rfl
    rw [hlength]
    exact hcustody.claim hcontrol
  next => exact h

theorem claimProcessor (h : w.Kept) : (w.step (.claim .processor)).Kept := by
  simp only [step]
  split
  next i processor hclaim =>
    obtain ⟨component, hcomponent, rfl⟩ := Processor.exists_of_claim hclaim
    obtain ⟨-, hlabel, -⟩ := Component.exists_of_claim hcomponent
    exact h.withProcessor hlabel _
  next => exact h

theorem join (h : w.Kept) (t : Turn) (k : Nat) : (w.step (.join t k)).Kept := by
  cases t with
  | reader =>
      simp only [step, onStop, Callers.step]
      cases hjoin : Callers.join ⟨w.pipeline.desk.reader.component, w.readerStops, []⟩ k with
      | none => exact h
      | some answer =>
          obtain ⟨i, e, hi, -, hw, -⟩ := Callers.exists_of_join hjoin
          rw [Option.map_some, Option.getD_some, hw]
          refine h.onStop_reader rfl rfl fun n hn => ⟨?_, n + 1, hn.finish hi⟩
          rw [(hn.of_stop hi).1]
          nofun
  | processor =>
      simp only [step, onStop, Callers.step]
      cases hjoin : Callers.join ⟨w.pipeline.desk.processor.component, w.processorStops, []⟩ k with
      | none => exact h
      | some answer =>
          obtain ⟨i, e, -, -, hw, -⟩ := Callers.exists_of_join hjoin
          rw [Option.map_some, Option.getD_some, hw]
          refine h.withProcessor ?_ _
          rfl

theorem drop (h : w.Kept) (t : Turn) (k : Nat) : (w.step (.drop t k)).Kept := by
  cases t with
  | reader =>
      simp only [step, onStop, Callers.step, Callers.drop]
      split
      next i hi =>
        refine h.onStop_reader rfl rfl fun n hn => ⟨?_, n, hn.giveBack hi⟩
        rw [(hn.of_stop hi).1]
        nofun
      next => exact h
  | processor =>
      simp only [step, onStop, Callers.step, Callers.drop]
      split
      next =>
        refine h.withProcessor ?_ _
        rfl
      next => exact h

theorem step (h : w.Kept) (e : Event S) : (w.step e).Kept := by
  cases e with
  | start t =>
      cases t with
      | reader => exact h.startReader
      | processor => exact h.startProcessor
  | claim t =>
      cases t with
      | reader => exact h.claimReader
      | processor => exact h.claimProcessor
  | join t k => exact h.join t k
  | drop t k => exact h.drop t k
  | closeWriter => exact ⟨h.readerLabel, h.processorLabel, h.custody, h.inbox⟩
  | go g => exact h.go g

theorem run (h : w.Kept) (events : List (Event S)) : (w.run events).Kept := by
  induction events generalizing w with
  | nil => exact h
  | cons e events ih => exact ih (h.step e)

end Kept

/-- Wherever its callers have left a pipeline, a start of it is all or nothing, and so it is while the
loops go on. -/
theorem run_start_allOrNothing {U : Type} [UseCases U] (config : Config) (source : S) (sink : K)
    (couriers : Dispatcher U) (events : List (Event S)) (before after : List (Going S)) :
    let p := (run ⟨.ofConfig config source sink couriers, [], []⟩ events).pipeline
    p.AllOrNothing p.start ∧ p.AllOrNothing (p.startAmid before after) := by
  intro p
  have hproper : p.Proper := ((kept_ofConfig config source sink couriers).run events).proper
  refine ⟨?_, hproper.startAmid before after⟩
  rw [← p.startAmid_nil]
  exact hproper.startAmid [] []

/-- Where a component may be that has been started once at most. -/
inductive Place
  | stopped
  | running
  /-- A stop is in progress. -/
  | claimed
  /-- The last stop has been dropped. -/
  | abandoned

namespace Place

def control : Place → Lifecycle Nat
  | stopped => ⟨.stopped, none⟩
  | running => ⟨.running, some 0⟩
  | claimed => ⟨.stopping, none⟩
  | abandoned => ⟨.stopping, some 0⟩

def events (t : Turn) : Place → List (Event S)
  | stopped => []
  | running => [.start t]
  | claimed => [.start t, .claim t]
  | abandoned => [.start t, .claim t, .drop t 0]

def isRunning : Place → Bool
  | running => true
  | _ => false

end Place

/-- Every place of the reader goes together with every place of the processor. -/
theorem exists_standing {U : Type} [UseCases U] (config : Config) (source : S) (sink : K)
    (couriers : Dispatcher U) (reader processor : Place) :
    (run ⟨.ofConfig config source sink couriers, [], []⟩
      (reader.events .reader ++ processor.events .processor)).pipeline.standing =
        ⟨reader.control, processor.control, reader.isRunning⟩ := by
  cases reader <;> cases processor <;> rfl

/-- A start that finds only the processor stopping takes the reader back. -/
example {U : Type} [UseCases U] (config : Config) (source : S) (sink : K) (couriers : Dispatcher U) :
    (run ⟨.ofConfig config source sink couriers, [], []⟩
      (Place.claimed.events .processor)).pipeline.start.2 =
        .error (.lifecycle (.alreadyStarted "processor")) := by
  rfl

end Attended

end CourierDispatch
