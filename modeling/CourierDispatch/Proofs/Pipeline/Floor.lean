import CourierDispatch.Proofs.Broker.AcceptingSink
import CourierDispatch.Proofs.Pipeline.Events
import CourierDispatch.Proofs.Service.Layers

/-!
# A running pipeline in its parts

While a pipeline runs, only a few parts of its desk change: the source, the two loops, the handler and
the sink. A `Floor` holds these parts, and `Floor.desk` puts them where they belong.
-/

namespace CourierDispatch

/-- The parts of a desk that change while it runs. -/
structure Floor (H K : Type) where
  source : MemoryTopic
  reader : ConsumeLoop
  handler : H
  processor : DispatchLoop H (Writer K)
  sink : K

def Config.writer {K : Type} (config : Config) (sink : K) : Writer K :=
  { sink, topic := config.resultTopic, format := config.format }

def Config.message (config : Config) (r : Result) : Outbound := (config.writer ()).message r

theorem Floor.topic_message {config : Config} (r : Result) :
    ∀ m ∈ [config.message r], m.topic = config.resultTopic := by
  intro m hm
  rw [List.mem_singleton.1 hm]
  rfl

namespace Floor

variable {H K : Type} (config : Config)

def desk (f : Floor H K) : Desk MemoryTopic H K where
  reader :=
    { source := f.source
      format := config.format
      backoff := config.readBackoff
      component :=
        { label := "command reader", control := ⟨.running, some 0⟩, runs := [⟨false, f.reader⟩] }
      channels := some 0 }
  processor :=
    { handler := f.handler
      retry := config.retry
      idleBackoff := config.readBackoff
      component :=
        { label := "processor", control := ⟨.running, some 0⟩, runs := [⟨false, f.processor⟩] } }
  writer := config.writer f.sink

def opening {U : Type} (source : MemoryTopic) (sink : K) (couriers : Dispatcher U) :
    Floor (Stack (Dispatcher U)) K where
  source := source
  reader := .begin 0
  handler := stack config.timeout couriers
  processor := {}
  sink := sink

theorem desk_start {U : Type} (source : MemoryTopic) (sink : K) (couriers : Dispatcher U) :
    (Pipeline.ofConfig config source sink couriers).start.1.desk =
      (opening config source sink couriers).desk config := rfl

def consume (time : Nat) (f : Floor H K) : Floor H K :=
  let r := f.reader.step config.format config.readBackoff time f.source
  { f with source := r.1, reader := r.2.getD f.reader }

theorem consume_of_step {f : Floor H K} {time : Nat} {source : MemoryTopic}
    {loop : Option ConsumeLoop}
    (h : f.reader.step config.format config.readBackoff time f.source = (source, loop)) :
    f.consume config time = { f with source, reader := loop.getD f.reader } := by
  simp only [consume, h]

theorem turn_reader (f : Floor H K) (time : Nat) :
    (f.desk config).reader.turn time =
      (((f.consume config time).desk config).reader,
        (f.reader.step config.format config.readBackoff time f.source).2.isSome) := by
  have hexit : (f.desk config).reader.exit = none := rfl
  have hlatest : (f.desk config).reader.component.latest? = some ⟨false, f.reader⟩ := rfl
  rw [Reader.turn, hexit]
  rcases hstep : f.reader.step config.format config.readBackoff time f.source with ⟨source, loop⟩
  have hstep' : f.reader.step (f.desk config).reader.format (f.desk config).reader.backoff time
      (f.desk config).reader.source = (source, loop) := hstep
  simp only [Reader.step, hlatest, hstep', consume_of_step config hstep]
  cases loop <;> rfl

theorem latest_reader (f : Floor H K) :
    (f.desk config).reader.component.latest? = some ⟨false, f.reader⟩ := rfl

theorem latest_processor (f : Floor H K) :
    (f.desk config).processor.component.latest? = some ⟨false, f.processor⟩ := rfl

theorem loop_reader (f : Floor H K) : (f.desk config).reader.loop? 0 = some f.reader := rfl

theorem desk_putBehind (p : Pipeline MemoryTopic H K) (t : Turn) (moved : Bool) :
    (p.putBehind t moved).desk = p.desk := by
  cases moved <;> rfl

variable [Service H] [MessageSink K] {p : Pipeline MemoryTopic H K} {f : Floor H K}

theorem desk_occur_reader (hp : p.desk = f.desk config) :
    (p.occur .reader).desk = (f.consume config p.time).desk config := by
  simp only [Pipeline.occur, Pipeline.move, hp, turn_reader, desk_putBehind]
  rfl

theorem desk_occur_processor (hp : p.desk = f.desk config) (reportFirst : Bool) :
    (p.occur (.processor reportFirst)).desk =
      ((f.desk config).step p.time reportFirst).getD (f.desk config) := by
  have hexit : (f.desk config).processor.exit = none := rfl
  simp only [Pipeline.occur, hp, Desk.turnWith, hexit, desk_putBehind]
  cases (f.desk config).step p.time reportFirst <;> rfl

/-! The moves of the dispatch loop, by its stage. -/

section Moves

variable {config} {time : Nat} {reportFirst : Bool}

theorem step_next (h : f.processor.stage = .next) :
    (f.desk config).step time reportFirst =
      some ({ f with processor := { f.processor with stage := .reading 0 } }.desk config) := by
  simp only [Desk.step, latest_processor, h]
  rfl

def handle (time : Nat) (c : Command) (f : Floor H K) : Floor H K :=
  let call := Service.call f.handler c
  let stage := .handling c (call.latency.map (time + ·)) call.finish
  { f with handler := call.begun, processor := { f.processor with stage, idle := 0 } }

theorem step_command (h : f.processor.stage = .reading 0) {inbox : Inbox} {c : Command}
    (htake : f.reader.inbox.take reportFirst = (inbox, some (.ok c))) :
    (f.desk config).step time reportFirst =
      some ((handle time c { f with reader := { f.reader with inbox } }).desk config) := by
  simp only [Desk.step, latest_processor, h, Reader.takeFrom, loop_reader, htake]
  rfl

theorem step_report (h : f.processor.stage = .reading 0) {inbox : Inbox} {e : ReadError}
    (htake : f.reader.inbox.take reportFirst = (inbox, some (.error e))) :
    (f.desk config).step time reportFirst =
      some ({ f with
        reader := { f.reader with inbox }
        processor := f.processor.readFailed config.readBackoff time e }.desk config) := by
  simp only [Desk.step, latest_processor, h, Reader.takeFrom, loop_reader, htake]
  rfl

theorem step_nothing (h : f.processor.stage = .reading 0) {inbox : Inbox}
    (htake : f.reader.inbox.take reportFirst = (inbox, none)) :
    (f.desk config).step time reportFirst = none := by
  simp only [Desk.step, latest_processor, h, Reader.takeFrom, loop_reader, htake]

theorem step_handling {c : Command} {due : Option Nat} {finish : H → H × Outcome}
    (h : f.processor.stage = .handling c due finish) :
    (f.desk config).step time reportFirst =
      if DispatchLoop.isDue due time then
        some ({ f with
          handler := (finish f.handler).1
          processor := f.processor.handled c (finish f.handler).2 }.desk config)
      else none := by
  simp only [Desk.step, latest_processor, h]
  rfl

theorem step_publishing {c : Command} {r : Result} {retries : Nat}
    (h : f.processor.stage = .publishing c r retries) :
    (f.desk config).step time reportFirst =
      some ({ f with
        sink := (MessageSink.write f.sink [config.message r]).begun
        processor := ({ f.processor with
          stage := .writing c r retries
            ((MessageSink.write f.sink [config.message r]).latency.map (time + ·))
            ((config.writer f.sink).write (some r)).finish }.note (.writing time)) }.desk
          config) := by
  simp only [Desk.step, latest_processor, h]
  rfl

theorem step_writing {c : Command} {r : Result} {retries : Nat} {due : Option Nat} {sink : K}
    (h : f.processor.stage =
      .writing c r retries due ((config.writer sink).write (some r)).finish) :
    (f.desk config).step time reportFirst =
      if DispatchLoop.isDue due time then
        let answer :=
          (MessageSink.write sink [config.message r]).finish f.sink
        some ({ f with
          sink := answer.1
          processor := f.processor.written config.retry time c r retries
            (answer.2.mapError .publish) }.desk config)
      else none := by
  simp only [Desk.step, latest_processor, h]
  rfl

end Moves

end Floor

end CourierDispatch
