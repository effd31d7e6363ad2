import CourierDispatch.Proofs.Broker.MemoryTopic
import CourierDispatch.Simulation.Scripted

/-!
# Sinks that take a batch as a whole

An atomic sink takes a whole batch, or it answers with an error and takes nothing. It may take its time,
but not forever. A topic in memory is one of these, open or closed, and so is a topic whose writes fail
by a script.
-/

namespace CourierDispatch

/-- What a sink takes of a batch when this is its answer. -/
def accepted {ε α : Type} (batch : List α) : Except ε Unit → List α
  | .ok () => batch
  | .error _ => []

/-- A sink that takes a batch as a whole or not at all. -/
class AtomicSink (K : Type) [MessageSink K] where
  /-- The messages that it has taken. -/
  taken : K → List Outbound
  latency (k : K) (batch : List Outbound) : (MessageSink.write k batch).latency.isSome
  begun (k : K) (batch : List Outbound) : taken (MessageSink.write k batch).begun = taken k
  finish (k k' : K) (batch : List Outbound) :
    taken ((MessageSink.write k batch).finish k').1 =
      taken k' ++ accepted batch ((MessageSink.write k batch).finish k').2
  close (k : K) : taken (MessageSink.close k).1 = taken k

namespace MemoryTopic

theorem taken_write (t : MemoryTopic) (batch : List Outbound) :
    (t.write batch).1.queue.map Message.outbound =
      t.queue.map Message.outbound ++ accepted batch (t.write batch).2 := by
  unfold write
  cases hstray : stray? t.name batch with
  | some m => exact (List.append_nil _).symm
  | none =>
      have hnamed : ∀ m ∈ batch, m.topic = t.name := by
        rw [stray?, List.find?_eq_none] at hstray
        intro m hm
        simpa using hstray m hm
      cases hclosed : t.closed with
      | false =>
          obtain ⟨hok, -, -, hqueue⟩ := publishAll_of_open hclosed hnamed
          simp only [hok, hqueue, accepted]
      | true =>
          cases batch with
          | nil => exact (List.append_nil _).symm
          | cons m rest =>
              have hrefused : t.publishAll (m :: rest) = (t, .error .closed) := by
                simp [publishAll, publish, hclosed]
              rw [hrefused]
              exact (List.append_nil _).symm

instance : AtomicSink MemoryTopic where
  taken t := t.queue.map Message.outbound
  latency _ _ := rfl
  begun _ _ := rfl
  finish _ t batch := t.taken_write batch
  close _ := rfl

end MemoryTopic

namespace Simulation

instance : AtomicSink ScriptedSink where
  taken s := s.topic.queue.map Message.outbound
  latency _ _ := rfl
  begun _ _ := rfl
  finish k k' batch := by
    simp only [MessageSink.write]
    cases (k.script.head?.getD {}).error with
    | some e => exact (List.append_nil _).symm
    | none => exact k'.topic.taken_write batch
  close k := by
    simp only [MessageSink.close]
    cases k.closeError <;> rfl

end Simulation

end CourierDispatch
