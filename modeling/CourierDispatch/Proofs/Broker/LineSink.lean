import CourierDispatch.Broker.LineSink
import CourierDispatch.Proofs.Broker.LineSource
import CourierDispatch.Proofs.Broker.MemoryTopic
import CourierDispatch.Server

/-!
# Writing lines

A writer of bytes that never fails takes all that it is given. A line sink over such a writer puts down
the values of its batches one after the other, each on a line.
-/

namespace CourierDispatch

class AcceptingWriter (W : Type) [ByteWriter W] where
  /-- The bytes that it has taken. -/
  taken : W → List UInt8
  write (w : W) (bs : List UInt8) :
    (ByteWriter.write w bs).2 = .ok () ∧ taken (ByteWriter.write w bs).1 = taken w ++ bs
  flush (w : W) : (ByteWriter.flush w).2 = .ok () ∧ taken (ByteWriter.flush w).1 = taken w

instance : AcceptingWriter Outlet where
  taken w := w.taken
  write _ _ := ⟨rfl, rfl⟩
  flush _ := ⟨rfl, rfl⟩

namespace LineSink

variable {W : Type} [ByteWriter W]

def writeAll (s : LineSink W) : List (List Outbound) → LineSink W × List (Except BrokerError Unit)
  | [] => (s, [])
  | batch :: rest =>
      (((s.write batch).1.writeAll rest).1, (s.write batch).2 :: ((s.write batch).1.writeAll rest).2)

variable [AcceptingWriter W]

open AcceptingWriter

theorem exists_write (w : W) (bs : List UInt8) :
    ∃ w', ByteWriter.write w bs = (w', .ok ()) ∧ taken w' = taken w ++ bs := by
  obtain ⟨hok, htaken⟩ := AcceptingWriter.write w bs
  exact ⟨_, Prod.ext rfl hok, htaken⟩

theorem writeLines_of_accepting (w : W) (vs : List (List UInt8)) :
    (writeLines w vs).2 = .ok () ∧ taken (writeLines w vs).1 = taken w ++ asLines vs := by
  induction vs generalizing w with
  | nil =>
      obtain ⟨hok, htaken⟩ := AcceptingWriter.flush w
      exact ⟨hok, htaken.trans (List.append_nil _).symm⟩
  | cons v vs ih =>
      obtain ⟨w₁, hvalue, htaken₁⟩ := exists_write w v
      obtain ⟨w₂, hfeed, htaken₂⟩ := exists_write w₁ [LineSource.lineFeed]
      have hline : writeLines w (v :: vs) = writeLines w₂ vs := by
        have hfeed : ByteWriter.write w₁ [10] = (w₂, .ok ()) := hfeed
        simp only [writeLines, hvalue, hfeed]
      obtain ⟨hok, htaken⟩ := ih w₂
      rw [hline, htaken, htaken₂, htaken₁, asLines_cons]
      exact ⟨hok, by simp⟩

theorem write_of_topic (s : LineSink W) {batch : List Outbound}
    (h : ∀ m ∈ batch, m.topic = s.topic) :
    (s.write batch).2 = .ok () ∧ (s.write batch).1.topic = s.topic ∧
      taken (s.write batch).1.writer = taken s.writer ++ asLines (batch.map (·.value)) := by
  obtain ⟨hok, htaken⟩ := writeLines_of_accepting s.writer (batch.map (·.value))
  rw [LineSink.write, stray?_eq_none h]
  exact ⟨by rw [settle, hok]; rfl, rfl, htaken⟩

theorem writeAll_of_topic (s : LineSink W) {batches : List (List Outbound)}
    (h : ∀ batch ∈ batches, ∀ m ∈ batch, m.topic = s.topic) :
    (∀ answer ∈ (s.writeAll batches).2, answer = .ok ()) ∧
      taken (s.writeAll batches).1.writer =
        taken s.writer ++ asLines (batches.flatten.map (·.value)) := by
  induction batches generalizing s with
  | nil => exact ⟨fun answer h => absurd h List.not_mem_nil, (List.append_nil _).symm⟩
  | cons batch rest ih =>
      obtain ⟨hbatch, hrest⟩ := List.forall_mem_cons.1 h
      obtain ⟨hok, htopic, htaken⟩ := s.write_of_topic hbatch
      obtain ⟨hoks, htakens⟩ := ih (s.write batch).1 fun b hb m hm =>
        (hrest b hb m hm).trans htopic.symm
      refine ⟨List.forall_mem_cons.2 ⟨hok, hoks⟩, ?_⟩
      rw [writeAll, htakens, htaken, List.flatten_cons, List.map_append, asLines_append,
        List.append_assoc]

theorem writeAll_map {α : Type} (s : LineSink W) (message : α → Outbound)
    (h : ∀ a, (message a).topic = s.topic) (batches : List (List α)) :
    (∀ answer ∈ (s.writeAll (batches.map (·.map message))).2, answer = .ok ()) ∧
      taken (s.writeAll (batches.map (·.map message))).1.writer =
        taken s.writer ++ asLines (batches.flatten.map fun a => (message a).value) := by
  have htopic : ∀ batch ∈ batches.map (·.map message), ∀ m ∈ batch, m.topic = s.topic := by
    simp [h]
  have hvalues := s.writeAll_of_topic htopic
  rwa [← List.map_flatten, List.map_map] at hvalues

end LineSink

end CourierDispatch
