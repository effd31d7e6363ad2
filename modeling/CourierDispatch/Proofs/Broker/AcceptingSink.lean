import CourierDispatch.Proofs.Broker.MemoryTopic

/-!
# Sinks that accept everything

An accepting sink takes every batch that is addressed to its topic. It may take its time over a batch,
but not forever, and what it has taken it does not forget. A topic in memory is one of these as long as
it is open.
-/

namespace CourierDispatch

class AcceptingSink (K : Type) [MessageSink K] where
  /-- The sink takes what is addressed to the topic. -/
  Ready : String → K → Prop
  /-- The messages that it has taken. -/
  taken : K → List Outbound
  latency {topic : String} {k : K} {batch : List Outbound} (hk : Ready topic k)
    (hb : ∀ m ∈ batch, m.topic = topic) : ∃ ms, (MessageSink.write k batch).latency = some ms
  begun {topic : String} {k : K} {batch : List Outbound} (hk : Ready topic k)
    (hb : ∀ m ∈ batch, m.topic = topic) :
    Ready topic (MessageSink.write k batch).begun ∧
      taken (MessageSink.write k batch).begun = taken k
  finish {topic : String} {k k' : K} {batch : List Outbound} (hk : Ready topic k)
    (hb : ∀ m ∈ batch, m.topic = topic) (hk' : Ready topic k') :
    ((MessageSink.write k batch).finish k').2 = .ok () ∧
      Ready topic ((MessageSink.write k batch).finish k').1 ∧
      taken ((MessageSink.write k batch).finish k').1 = taken k' ++ batch

namespace MemoryTopic

instance : AcceptingSink MemoryTopic where
  Ready topic t := t.closed = false ∧ t.name = topic
  taken t := t.queue.map Message.outbound
  latency _ _ := ⟨0, rfl⟩
  begun hk _ := ⟨hk, rfl⟩
  finish {topic t t' batch} _ hb ht' := by
    obtain ⟨hopen, rfl⟩ := ht'
    have hwrite : (MessageSink.write t batch).finish t' = t'.publishAll batch := by
      change t'.write batch = _
      rw [write, stray?_eq_none hb]
    rw [hwrite]
    obtain ⟨hok, hopen', hname, hqueue⟩ := publishAll_of_open hopen hb
    exact ⟨hok, ⟨hopen', hname⟩, hqueue⟩

end MemoryTopic

end CourierDispatch
