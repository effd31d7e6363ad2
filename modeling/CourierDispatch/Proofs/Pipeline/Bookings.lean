import CourierDispatch.Proofs.Bookings
import CourierDispatch.Proofs.Pipeline.Refinement

/-!
# No courier is booked twice

The messages that a pipeline publishes tell a lawful history: nobody gets a courier who serves another
order, and no order loses a courier that it does not have. Once all of them are published they tell
what the pool holds.
-/

namespace CourierDispatch.Launch

open Bookings

variable {K : Type}

theorem answers_recorded (s : Launch K) (ls : List Letter) :
    Recorded s.roster (s.ledger.takeAll s.config.format ls).1 (s.answers ls) :=
  Ledger.takeAll_recorded (Ledger.recorded_ofRoster s.roster s.draws s.ids) s.config.format ls

/-- Releasing an order is answered exactly if it has a courier by then. -/
theorem answers_append_release {s : Launch K} {before : List Letter} {l : Letter} {o : OrderId}
    (hl : l.request? s.config.format = some (.release o)) :
    s.answers (before ++ [l]) =
      s.answers before ++ ((replay (s.answers before) o).map (Answer.unassigned o)).toList := by
  rw [← Ledger.answers_release (answers_recorded s before) hl]
  simp [answers, Ledger.replies, Ledger.takeAll_append, Ledger.takeAll]

variable [MessageSink K] [AcceptingSink K] {s : Launch K}

/-- At every moment what has been published is a lawful history of the roster. An order that is to be
released is answered for exactly if the answers before it tell that it has a courier. When the pipeline
is drained, which it can always be, the history tells which courier each order has in the pool. -/
theorem published_lawful (hs : s.Ready) (events : List Event) :
    (∃ q, (s.pipeline.run events).Reaches q ∧ q.Drained) ∧
      (∀ before l o, l.request? s.config.format = some (.release o) →
        s.answers (before ++ [l]) =
          s.answers before ++ ((replay (s.answers before) o).map (Answer.unassigned o)).toList) ∧
      ∃ rs ms, List.Forall₂ (Publishes s.config) rs ms ∧
        (s.pipeline.run events).published = AcceptingSink.taken s.sink ++ ms ∧
        rs.map Reply.answer <+: s.answers (s.received events) ∧
        LawfulHistory s.roster (rs.map Reply.answer) ∧
        ((s.pipeline.run events).Drained →
          rs.map Reply.answer = s.answers (s.received events) ∧
            replay (rs.map Reply.answer) = (s.pipeline.run events).pool.assignment?) := by
  obtain ⟨-, hdrains⟩ := run_drains hs events
  obtain ⟨rs, hpart, hpublished, hdrained⟩ := run_published hs events
  have hrecorded := answers_recorded s (s.received events)
  have hanswers : rs.map Reply.answer <+: s.answers (s.received events) := hpart.map _
  refine ⟨hdrains, fun before l o hl => answers_append_release hl, rs, _,
    forall₂_publishes fun r hr => hpart.subset hr, ?_, hanswers,
    hrecorded.lawful.restrict hanswers, ?_⟩
  · exact hpublished
  · intro hall
    obtain ⟨hrs, hpool⟩ := hdrained hall
    have hmap : rs.map Reply.answer = s.answers (s.received events) := by
      rw [hrs]
      rfl
    refine ⟨hmap, ?_⟩
    rw [hmap, hpool, hrecorded.bookings]

/-- With a single courier, the second of two orders waits in vain until the first one is released. -/
theorem published_lawful_single :
    let s : Launch MemoryTopic :=
      { config := {}, source := { name := "commands" }, sink := { name := "courier.results" },
        roster := [⟨"k"⟩], draws := .counting 0, ids := .counting 0 }
    let letter (kind : CommandKind) (d : Details) : Letter :=
      ⟨Command.encode .json ⟨"1", kind.wireName, d.payload, {}⟩, []⟩
    let events : List Event :=
      [.arrive none (letter .assignCourier (.assignCourier ⟨"o"⟩)),
        .arrive none (letter .assignCourier (.assignCourier ⟨"p"⟩)),
        .arrive none (letter .unassignCourier (.unassignCourier ⟨"o"⟩))]
    s.Ready ∧ ∃ moves rs, (s.pipeline.run (events ++ moves)).Drained ∧
      List.Forall₂ (Publishes s.config) rs (s.pipeline.run (events ++ moves)).published ∧
      rs.map Reply.answer = [.assigned ⟨"o"⟩ ⟨"k"⟩, .failed ⟨"p"⟩, .unassigned ⟨"o"⟩ ⟨"k"⟩] ∧
      LawfulHistory s.roster (rs.map Reply.answer) ∧
      (s.pipeline.run (events ++ moves)).pool.assignment? ⟨"o"⟩ = none := by
  intro s letter events
  have hs : s.Ready := ⟨rfl, rfl, rfl⟩
  have hanswers : s.answers (s.received events) =
      [.assigned ⟨"o"⟩ ⟨"k"⟩, .failed ⟨"p"⟩, .unassigned ⟨"o"⟩ ⟨"k"⟩] := by decide +kernel
  obtain ⟨moves, hreceived, hdrained⟩ := exists_moves hs events
  obtain ⟨-, -, rs, ms, hms, hpublished, -, hlawful, hall⟩ := published_lawful hs (events ++ moves)
  obtain ⟨hrs, hreplay⟩ := hall hdrained
  rw [hreceived, hanswers] at hrs
  refine ⟨hs, moves, rs, hdrained, ?_, hrs, hlawful, ?_⟩
  · rw [hpublished]
    exact hms
  · rw [← hreplay, hrs]
    rfl

end CourierDispatch.Launch
