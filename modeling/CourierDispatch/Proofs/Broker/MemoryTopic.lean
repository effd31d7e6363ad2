import CourierDispatch.Broker.MemoryTopic

/-!
# An open topic in memory

What is published to an open topic is put behind the messages that it holds, and what is read from it is
the first of them.
-/

namespace CourierDispatch

def Message.outbound (m : Message) : Outbound := ⟨m.topic, m.key, m.value, m.headers⟩

theorem stray?_eq_none {topic : String} {batch : List Outbound}
    (h : ∀ m ∈ batch, m.topic = topic) : stray? topic batch = none := by
  rw [stray?, List.find?_eq_none]
  intro m hm
  simp [h m hm]

namespace MemoryTopic

theorem publish_of_open {t : MemoryTopic} (h : t.closed = false) (key : Option (List UInt8))
    (value : List UInt8) (headers : Headers) :
    t.publish key value headers =
      ({ t with queue := t.queue ++ [t.stamp key value headers], published := t.published + 1 },
        .ok t.published) := by
  rw [publish, h]
  rfl

theorem publishAll_of_open {t : MemoryTopic} {batch : List Outbound} (h : t.closed = false)
    (hb : ∀ m ∈ batch, m.topic = t.name) :
    (t.publishAll batch).2 = .ok () ∧ (t.publishAll batch).1.closed = false ∧
      (t.publishAll batch).1.name = t.name ∧
      (t.publishAll batch).1.queue.map Message.outbound =
        t.queue.map Message.outbound ++ batch := by
  induction batch generalizing t with
  | nil => exact ⟨rfl, h, rfl, (List.append_nil _).symm⟩
  | cons m rest ih =>
      have hm : m.topic = t.name := hb m List.mem_cons_self
      rw [publishAll, publish_of_open h]
      obtain ⟨hok, hopen, hname, hqueue⟩ :=
        ih (t := { t with
          queue := t.queue ++ [t.stamp m.key m.value m.headers]
          published := t.published + 1 }) h
          (fun m' hm' => hb m' (List.mem_cons_of_mem _ hm'))
      refine ⟨hok, hopen, hname, hqueue.trans ?_⟩
      simp [stamp, Message.outbound, ← hm]

theorem poll_nil {t : MemoryTopic} (h : t.closed = false) (hqueue : t.queue = []) :
    t.poll = (t, none) := by
  simp [poll, h, hqueue]

theorem poll_cons {t : MemoryTopic} (h : t.closed = false) {m : Message} {rest : List Message}
    (hqueue : t.queue = m :: rest) : t.poll = ({ t with queue := rest }, some (.ok m)) := by
  simp [poll, h, hqueue]

end MemoryTopic

end CourierDispatch
