import CourierDispatch.Proofs.Pipeline.Account
import CourierDispatch.Proofs.Pipeline.Calls
import CourierDispatch.Simulation.Scripted

/-!
# Pipelines that are started again

A pipeline that has been started runs until it is shut down, and it can be started again then. Its
components begin anew, but the writer does not: once a shutdown has closed it, it stays closed. So it
depends on whether there has been a shutdown before what becomes of the results.
-/

namespace CourierDispatch.Pipeline

section

variable {S H K : Type}

theorem started {p q : Pipeline S H K} (h : p.start = (q, .ok ())) :
    q.isRunning = true ∧ q.desk.processor.component.latestLoop? = some {} ∧
      q.desk.writer = p.desk.writer := by
  have hq : p.start.1 = q := by rw [h]
  rcases p.desk_start with ⟨reader, processor, hreader, hprocessor, hdesk⟩ | ⟨hfailed, -⟩
  · obtain ⟨component, hcomponent, rfl⟩ := Processor.exists_of_start hprocessor
    obtain ⟨hlatest, hrunning⟩ := Component.latestLoop?_of_start hcomponent
    rw [hq] at hdesk
    rw [isRunning, hdesk]
    refine ⟨?_, hlatest, rfl⟩
    rw [Processor.isRunning, hrunning, Reader.isRunning_of_start hreader]
    rfl
  · rw [h] at hfailed
    exact absurd rfl hfailed

end

open AcceptingSink

variable {S K U : Type} [MessageSink K]

theorem upholds_ofConfig {Good Begun : Writer K → Prop} {config : Config} {sink : K}
    (h : Good (config.writer sink)) (source : S) (couriers : Dispatcher U) :
    (ofConfig config source sink couriers).desk.Upholds Good Begun :=
  ⟨h, fun _ hl => by cases hl⟩

variable [MessageSource S] [AcceptingSink K] [UseCases U]

/-- Whatever has gone before, a pipeline that has been started goes on running. Without a shutdown before
it publishes all results that its handler yields, except for the one in hand. After a shutdown it gives
none of them to the sink, and drops every one. -/
theorem started_publishes {config : Config} {sink : K} (hs : Ready config.resultTopic sink)
    (source : S) (couriers : Dispatcher U) {before : List (Act S)}
    {p : Pipeline S (Stack (Dispatcher U)) K}
    (hstart : ((ofConfig config source sink couriers).actAll before).start = (p, .ok ()))
    (after : List (Stir S)) :
    let q := p.stirAll after
    let results := p.yielded after
    q.isRunning = true ∧
      ∃ l, q.desk.processor.component.latestLoop? = some l ∧ l.inHand.length ≤ 1 ∧
        (.shutdown ∉ before →
          taken q.desk.writer.sink ++ l.inHand.map config.message =
            taken p.desk.writer.sink ++ results.map config.message) ∧
        (.shutdown ∈ before →
          q.desk.writer = p.desk.writer ∧ l.dropped + l.inHand.length = results.length) := by
  intro q results
  obtain ⟨hrunning, hloop, hwriter⟩ := started hstart
  obtain ⟨l, hl, hall⟩ := handovers_stirAll hloop after
  refine ⟨(p.isRunning_stirAll after).trans hrunning, l, hl, l.length_inHand_le, fun hbefore => ?_,
    fun hbefore => ?_⟩
  · have hserving : p.desk.writer.Serving config := by
      rw [hwriter]
      exact (upholds_actAll (Writer.law_serving config) (upholds_ofConfig ⟨rfl, hs⟩ source couriers)
        before fun h => absurd h hbefore).writer
    exact hall.served (Desk.guarded_of_isWriting hserving rfl)
  · have hclosed : p.desk.writer.closed = true := by
      rw [hwriter]
      exact (upholds_closed (upholds_ofConfig trivial source couriers) hbefore).writer
    have hguarded : Desk.Guarded (· = p.desk.writer) (· = p.desk.writer) p.desk.writer
        ({} : DispatchLoop (Stack (Dispatcher U)) (Writer K)) :=
      Desk.guarded_of_isWriting rfl rfl
    refine ⟨(hall.guarded (Writer.law_same hclosed) hguarded).writer, ?_⟩
    exact (hall.refused hclosed hguarded).trans (Nat.zero_add _)

def oneCourier {K : Type} (sink : K) : Pipeline MemoryTopic Couriers K :=
  ofConfig {} { name := "commands" } sink
    (.ofLedger ⟨.ofRoster [⟨"k1"⟩], .counting 0, .counting 0⟩)

def oneOrder : List (Stir MemoryTopic) :=
  let booking : Command :=
    ⟨"1", CommandKind.assignCourier.wireName, (Details.assignCourier ⟨"o1"⟩).payload, {}⟩
  let source : MemoryTopic := { name := "commands" }
  [.source (source.publish none (booking.encode .json) []).1, .reader, .reader] ++
    List.replicate 6 (.processor false)

/-- The courier is booked, and the world is told. -/
theorem started_publishes_booking :
    let new := oneCourier ({ name := "courier.results" } : MemoryTopic)
    let p := new.start.1
    new.start.2 = .ok () ∧ (p.yielded oneOrder).length = 1 ∧
      taken (p.stirAll oneOrder).desk.writer.sink = (p.yielded oneOrder).map (Config.message {}) := by
  intro new p
  have hok : new.start.2 = .ok () := by decide +kernel
  have hone : (p.yielded oneOrder).length = 1 := by decide +kernel
  have hnothing : taken p.desk.writer.sink = [] := by decide +kernel
  have hhand : ((p.stirAll oneOrder).desk.processor.component.latestLoop?).map
      (·.inHand.length) = some 0 := by decide +kernel
  have hstart : (new.actAll []).start = (p, .ok ()) := Prod.ext rfl hok
  have hready : Ready (Config.resultTopic {}) ({ name := "courier.results" } : MemoryTopic) :=
    ⟨rfl, rfl⟩
  obtain ⟨-, l, hl, -, hserved, -⟩ := started_publishes hready _ _ hstart oneOrder
  rw [hl] at hhand
  have hempty : l.inHand = [] := List.length_eq_zero_iff.1 (Option.some.inj hhand)
  have hpublished := hserved List.not_mem_nil
  rw [hempty, hnothing] at hpublished
  exact ⟨hok, hone, (List.append_nil _).symm.trans hpublished⟩

/-- If the pipeline was shut down before it was started, it runs and the courier is booked, but the sink
gets nothing, even though it has not been closed. -/
theorem started_silent :
    let sink : Simulation.ScriptedSink :=
      { topic := { name := "courier.results" }, closeError := some (.unavailable "busy") }
    let start := ((oneCourier sink).actAll [.shutdown]).start
    let q := start.1.stirAll oneOrder
    start.2 = .ok () ∧ q.isRunning = true ∧ (start.1.yielded oneOrder).length = 1 ∧
      q.desk.writer.sink = sink ∧ q.desk.processor.dropped = 1 := by
  decide +kernel

end CourierDispatch.Pipeline
