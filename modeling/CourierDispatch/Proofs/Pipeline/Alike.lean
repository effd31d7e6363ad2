import CourierDispatch.Proofs.Alike
import CourierDispatch.Proofs.Pipeline.Refinement

/-!
# Two runs with the same roster

Two pipelines with the same roster receive the same messages, apart from bad ones in between. Whatever
couriers they pick, they publish the same kinds of results for the same orders with the same headers.
-/

namespace CourierDispatch.Launch

variable {K K' : Type} [MessageSink K] [AcceptingSink K] [MessageSink K'] [AcceptingSink K']
  {s : Launch K} {s' : Launch K'}

/-- At every two moments of the runs one has published what the other one has, or the first part of
it, if ids and couriers are not looked at. Both can be drained, and then neither is behind. -/
theorem published_alike (hs : s.Ready) (hs' : s'.Ready) (hroster : s.roster = s'.roster)
    (hformat : s.config.format = s'.config.format) {events events' : List Event}
    (hpadded : Padded s.config.format (s.received events) (s'.received events')) :
    (∃ q, (s.pipeline.run events).Reaches q ∧ q.Drained) ∧
      (∃ q, (s'.pipeline.run events').Reaches q ∧ q.Drained) ∧
      ∃ rs ms rs' ms', List.Forall₂ (Publishes s.config) rs ms ∧
        (s.pipeline.run events).published = AcceptingSink.taken s.sink ++ ms ∧
        List.Forall₂ (Publishes s'.config) rs' ms' ∧
        (s'.pipeline.run events').published = AcceptingSink.taken s'.sink ++ ms' ∧
        (rs.map Reply.gist <+: rs'.map Reply.gist ∨ rs'.map Reply.gist <+: rs.map Reply.gist) ∧
        ((s.pipeline.run events).Drained → (s'.pipeline.run events').Drained →
          rs.map Reply.gist = rs'.map Reply.gist) := by
  have hgists : (s.replies events).map Reply.gist = (s'.replies events').map Reply.gist := by
    have halike : s.ledger.pool.Alike s'.ledger.pool := by
      simp only [ledger, hroster]
      exact .refl (Pool.ofRoster_sound s'.roster)
    rw [replies, replies, ← hformat]
    exact Ledger.replies_alike halike hpadded
  obtain ⟨-, hdrains⟩ := run_drains hs events
  obtain ⟨-, hdrains'⟩ := run_drains hs' events'
  obtain ⟨rs, hpart, hpublished, hdrained⟩ := run_published hs events
  obtain ⟨rs', hpart', hpublished', hdrained'⟩ := run_published hs' events'
  refine ⟨hdrains, hdrains', rs, _, rs', _, forall₂_publishes fun r hr => hpart.subset hr, ?_,
    forall₂_publishes fun r hr => hpart'.subset hr, ?_, ?_, ?_⟩
  · exact hpublished
  · exact hpublished'
  · have hgist := hpart.map Reply.gist
    rw [hgists] at hgist
    exact List.prefix_or_prefix_of_prefix hgist (hpart'.map Reply.gist)
  · intro hall hall'
    rw [(hdrained hall).1, (hdrained' hall').1, hgists]

/-- Two pipelines pick different couriers for an order, and the second one is sent a message that is
not JSON as well. -/
theorem published_alike_two :
    let s : Launch MemoryTopic :=
      { config := {}, source := { name := "commands" }, sink := { name := "courier.results" },
        roster := [⟨"a"⟩, ⟨"b"⟩], draws := .counting 0, ids := .counting 0 }
    let s' : Launch MemoryTopic := { s with draws := .counting 1, ids := .counting 7 }
    let booking : Letter :=
      ⟨Command.encode .json
        ⟨"1", CommandKind.assignCourier.wireName, (Details.assignCourier ⟨"o"⟩).payload, {}⟩, []⟩
    let events : List Event := [.arrive none booking]
    let events' : List Event := [.arrive none ⟨[0x7B], []⟩, .reader, .arrive none booking]
    s.Ready ∧ s'.Ready ∧ Padded .json (s.received events) (s'.received events') ∧
      s.answers (s.received events) = [.assigned ⟨"o"⟩ ⟨"a"⟩] ∧
      s'.answers (s'.received events') = [.assigned ⟨"o"⟩ ⟨"b"⟩] ∧
      ∃ moves moves' rs rs', (s.pipeline.run (events ++ moves)).Drained ∧
        (s'.pipeline.run (events' ++ moves')).Drained ∧
        List.Forall₂ (Publishes s.config) rs (s.pipeline.run (events ++ moves)).published ∧
        List.Forall₂ (Publishes s'.config) rs' (s'.pipeline.run (events' ++ moves')).published ∧
        rs.map Reply.gist = rs'.map Reply.gist := by
  intro s s' booking events events'
  have hs : s.Ready := ⟨rfl, rfl, rfl⟩
  have hs' : s'.Ready := ⟨rfl, rfl, rfl⟩
  have hbad : (⟨[0x7B], []⟩ : Letter).Bad .json := by
    cases h : Command.decode .json [0x7B] with
    | error e => exact .undecodable h
    | ok c =>
        have hnone : (Command.decode .json [0x7B]).toOption.isNone = true := by decide +kernel
        rw [h] at hnone
        cases hnone
  have hpadded : Padded .json (s.received events) (s'.received events') :=
    .insert hbad (.keep booking .nil)
  obtain ⟨moves, hreceived, hdrained⟩ := exists_moves hs events
  obtain ⟨moves', hreceived', hdrained'⟩ := exists_moves hs' events'
  have hmore : Padded .json (s.received (events ++ moves)) (s'.received (events' ++ moves')) := by
    rw [hreceived, hreceived']
    exact hpadded
  obtain ⟨-, -, rs, ms, rs', ms', hms, hpublished, hms', hpublished', -, hgists⟩ :=
    published_alike hs hs' rfl rfl hmore
  refine ⟨hs, hs', hpadded, by decide +kernel, by decide +kernel, moves, moves', rs, rs', hdrained,
    hdrained', ?_, ?_, hgists hdrained hdrained'⟩
  · rw [hpublished]
    exact hms
  · rw [hpublished']
    exact hms'

end CourierDispatch.Launch
