import CourierDispatch.Proofs.Bookings
import CourierDispatch.Proofs.Pipeline.Halting
import CourierDispatch.Proofs.Pipeline.Refinement
import Mathlib.Data.Set.Subsingleton

/-!
# What an interrupted pipeline has published

A pipeline may be cancelled or stopped between any two moves of its loops. What it has published then
are the replies to all commands that it has handled, but for the last one at most. So there is at most
one order whose booking nobody has been told of.
-/

namespace CourierDispatch

namespace Ledger

theorem handle_replies (b : Ledger) (c : Command) :
    (b.handle c).2 = [] ∨ ∃ reply, (b.handle c).2 = [reply] := by
  unfold handle serve
  split
  · split <;> split <;> first | exact .inr ⟨_, rfl⟩ | exact .inl rfl
  · exact .inl rfl

theorem handleAll_prefix (b : Ledger) {cs ds : List Command} (h : cs <+: ds) :
    (b.handleAll cs).2 <+: (b.handleAll ds).2 := by
  obtain ⟨rest, rfl⟩ := h
  rw [handleAll_append]
  exact List.prefix_append _ _

end Ledger

namespace Launch

open Bookings

variable {K : Type}

/-- Without the replies to the last command, a history is wrong about one order at most. -/
theorem subsingleton_untold (s : Launch K) (told : List Command) (last : Option Command) :
    {o | replay ((s.ledger.handleAll told).2.map Reply.answer) o ≠
      (s.ledger.handleAll (told ++ last.toList)).1.pool.assignment? o}.Subsingleton := by
  have hrecorded := Ledger.handleAll_recorded
    (Ledger.recorded_ofRoster s.roster s.draws s.ids) (told ++ last.toList)
  have hreplay : replay ((s.ledger.handleAll (told ++ last.toList)).2.map Reply.answer) =
      (s.ledger.handleAll (told ++ last.toList)).1.pool.assignment? := hrecorded.bookings
  rw [← hreplay]
  cases last with
  | none =>
      rw [Option.toList_none, List.append_nil]
      exact fun o ho => absurd rfl ho
  | some c =>
      rw [Option.toList_some, Ledger.handleAll_concat]
      rcases (s.ledger.handleAll told).1.handle_replies c with hnone | ⟨reply, hone⟩
      · rw [hnone, List.append_nil]
        exact fun o ho => absurd rfl ho
      · -- the reply that is missing is about a single order
        rw [hone, List.map_append, List.map_singleton, replay_append_singleton]
        refine Set.subsingleton_of_subset_singleton (a := reply.answer.order) fun o ho => ?_
        by_contra hne
        exact ho (note_of_ne hne).symm

variable [MessageSink K] [AcceptingSink K] {s : Launch K}

/-- Wherever a pipeline is interrupted, it has handled the first of the commands received, and its pool
is what they have made of it. It has published the replies to all of them, but for the last one at most,
so that what it has published is wrong about the courier of one order at most. A shutdown does not make
the pool another one. -/
theorem interrupted_published (hs : s.Ready) (os : List Occurrence) :
    let p := s.pipeline.undergoAll os
    let handled := s.pipeline.handled os
    handled <+: (s.letters os).filterMap (·.command? s.config.format) ∧
      p.pool = (s.ledger.handleAll handled).1.pool ∧
      p.shutdown.1.pool = p.pool ∧
      ∃ told ms, (told = handled ∨ ∃ c, handled = told ++ [c]) ∧
        List.Forall₂ (Publishes s.config) (s.ledger.handleAll told).2 ms ∧
        p.published = AcceptingSink.taken s.sink ++ ms ∧
        {o | replay ((s.ledger.handleAll told).2.map Reply.answer) o ≠
          p.pool.assignment? o}.Subsingleton := by
  intro p handled
  have hpool {q : Pipeline MemoryTopic Couriers K} {commands : List Command}
      (hq : Keeps s commands handled q.desk) : q.pool = (s.ledger.handleAll handled).1.pool := by
    obtain ⟨_, _, _, h⟩ := hq
    rw [Pipeline.pool, h.ledger]
  have hkept : Keeps s ((s.letters os).filterMap (·.command? s.config.format)) handled p.desk :=
    keeps_undergoAll hs os
  -- a shutdown begins with these two stops, which handle nothing
  have hstopped := hkept.undergoAll [.stopProcessor, .stopReader]
  rw [show p.handled [.stopProcessor, .stopReader] = [] from rfl, List.append_nil] at hstopped
  obtain ⟨told, delivered, l, h⟩ := id hkept
  obtain ⟨last, hlast⟩ := h.stage.exists_last
  have hfirst : handled <+: (s.letters os).filterMap (·.command? s.config.format) :=
    h.stage.prefix.trans h.reader.prefix
  have htold : told <+: handled := hlast ▸ List.prefix_append _ _
  have hreplies : ∀ r ∈ (s.ledger.handleAll told).2,
      r ∈ s.ledger.replies s.config.format (s.letters os) := by
    rw [Ledger.replies, Ledger.takeAll_eq_handleAll]
    exact fun r hr => (s.ledger.handleAll_prefix (htold.trans hfirst)).subset hr
  refine ⟨hfirst, hpool hkept, ?_, told, _, ?_, forall₂_publishes hreplies, ?_, ?_⟩
  · rw [hpool hkept, ← hpool hstopped, Pipeline.pool, p.desk_shutdown]
    rfl
  · cases last with
    | none => exact .inl (hlast.trans (List.append_nil _)).symm
    | some c => exact .inr ⟨c, hlast⟩
  · exact h.taken
  · rw [hpool hkept, hlast]
    exact s.subsingleton_untold told last

/-- A courier has been booked when the pipeline is cancelled, and nobody is told. No other courier is. -/
theorem interrupted_published_booking :
    let s : Launch MemoryTopic :=
      { config := {}, source := { name := "commands" }, sink := { name := "courier.results" },
        roster := [⟨"k1"⟩], draws := .counting 0, ids := .counting 0 }
    let booking : Command :=
      ⟨"1", CommandKind.assignCourier.wireName, (Details.assignCourier ⟨"o1"⟩).payload, {}⟩
    let os : List Occurrence :=
      [.arrive none ⟨booking.encode .json, []⟩, .reader, .reader, .processor false,
        .processor false, .cancel, .processorEnds]
    let p := s.pipeline.undergoAll os
    s.Ready ∧ (s.pipeline.handled os).length = 1 ∧ p.published = [] ∧
      p.pool.assignment? ⟨"o1"⟩ = some ⟨"k1"⟩ ∧
      ∀ o, o ≠ ⟨"o1"⟩ → p.pool.assignment? o = none := by
  intro s booking os p
  have hs : s.Ready := ⟨rfl, rfl, rfl⟩
  have hhandled : (s.pipeline.handled os).length = 1 := by decide +kernel
  have hnothing : p.published = [] := by decide +kernel
  have hbooked : p.pool.assignment? ⟨"o1"⟩ = some ⟨"k1"⟩ := by decide +kernel
  obtain ⟨-, -, -, told, ms, -, hms, hpublished, hone⟩ := interrupted_published hs os
  have hempty : ms = [] := (List.append_eq_nil_iff.1 (hpublished.symm.trans hnothing)).2
  rw [hempty] at hms
  rw [List.forall₂_nil_right_iff.1 hms] at hone
  refine ⟨hs, hhandled, hnothing, hbooked, fun o ho => ?_⟩
  have huntold : none ≠ p.pool.assignment? ⟨"o1"⟩ := by
    rw [hbooked]
    exact nofun
  by_contra hbusy
  exact ho (hone (Ne.symm hbusy) huntold)

end Launch

end CourierDispatch
