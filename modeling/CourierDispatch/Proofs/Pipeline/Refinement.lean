import CourierDispatch.Proofs.Pipeline.Launch
import CourierDispatch.Proofs.Reply
import Mathlib.Data.List.Forall2

/-!
# A pipeline publishes the replies of a ledger

Whatever messages arrive, and in whatever order the loops move, a pipeline publishes one message for
each reply of a ledger that takes the messages one after the other. A published message can be read back
as the result it stands for, unless it is in MsgPack and the id of its courier has 4 GiB or more.
-/

namespace CourierDispatch

/-- A message that is right for a reply. -/
structure Publishes (config : Config) (reply : Reply) (m : Outbound) : Prop where
  topic : m.topic = config.resultTopic
  key : m.key = some (Utf8.bytes reply.id.toText)
  headers : m.headers = reply.context.toHeaders
  value : m.value = reply.result.encode config.format
  /-- The id of the order has been read from MsgPack, so that it can be written again. -/
  order : config.format = .msgPack → MsgPack.Fits reply.answer.order.text

/-- What is published for a reply can be read exactly if the reply is readable. -/
theorem Publishes.decode_iff {config : Config} {reply : Reply} {m : Outbound}
    (h : Publishes config reply m) :
    Result.decode config.format m.value = .ok { reply.result with context := {} } ↔
      reply.Readable config.format := by
  rw [h.value]
  exact Reply.decode_encode_iff h.order

theorem publishes_message {config : Config} {b : Ledger} {ls : List Letter} {reply : Reply}
    (h : reply ∈ b.replies config.format ls) :
    Publishes config reply (config.message reply.result) where
  topic := rfl
  key := rfl
  headers := rfl
  value := rfl
  order hformat := by
    obtain ⟨l, -, r, hrequest, horder⟩ := Ledger.exists_request_of_mem_replies h
    rw [hformat] at hrequest
    exact horder ▸ Letter.fits_order hrequest

theorem forall₂_publishes {config : Config} {b : Ledger} {ls : List Letter} {rs : List Reply}
    (h : ∀ r ∈ rs, r ∈ b.replies config.format ls) :
    List.Forall₂ (Publishes config) rs (rs.map fun reply => config.message reply.result) := by
  rw [List.forall₂_map_right_iff, List.forall₂_same]
  intro r hr
  exact publishes_message (h r hr)

namespace Launch

variable {K : Type} [MessageSink K] [AcceptingSink K] {s : Launch K}

/-- At every moment a pipeline has published one message for each of the first replies to the messages
received, in their order. Each of them can be read as the result of its reply, if the reply is readable, and
otherwise it cannot. The pipeline goes on running and can be drained, and then all of the replies have been
published. -/
theorem publishes_replies (hs : s.Ready) (events : List Event) :
    (s.pipeline.run events).isRunning = true ∧
      (∃ q, (s.pipeline.run events).Reaches q ∧ q.Drained) ∧
      ∃ rs ms, rs <+: s.replies events ∧ List.Forall₂ (Publishes s.config) rs ms ∧
        List.Forall₂ (fun reply m =>
          Result.decode s.config.format m.value = .ok { reply.result with context := {} } ↔
            reply.Readable s.config.format) rs ms ∧
        (s.pipeline.run events).published = AcceptingSink.taken s.sink ++ ms ∧
        ((s.pipeline.run events).Drained → rs = s.replies events) := by
  obtain ⟨hrunning, hdrains⟩ := run_drains hs events
  obtain ⟨rs, hpart, hpublished, hdrained⟩ := run_published hs events
  have hpublishes : List.Forall₂ (Publishes s.config) rs _ :=
    forall₂_publishes fun r hr => hpart.subset hr
  refine ⟨hrunning, hdrains, rs, _, hpart, hpublishes, hpublishes.imp fun _ _ h => h.decode_iff,
    hpublished, fun hall => ?_⟩
  exact (hdrained hall).1

def single (format : WireFormat) (k : CourierId) : Launch MemoryTopic :=
  { config := { format }, source := { name := "commands" }, sink := { name := "courier.results" },
    roster := [k], draws := .counting 0, ids := .counting 0 }

/-- A message that is neither JSON nor a command in MsgPack, and a booking. -/
def booking (format : WireFormat) : List Event :=
  let c : Command :=
    ⟨"1", CommandKind.assignCourier.wireName, (Details.assignCourier ⟨"o1"⟩).payload, {}⟩
  [.arrive none ⟨[0x7B], []⟩, .reader, .arrive none ⟨c.encode format, []⟩]

theorem ready_single (format : WireFormat) (k : CourierId) : (single format k).Ready :=
  ⟨rfl, rfl, rfl⟩

theorem replies_single (format : WireFormat) (k : CourierId) :
    (single format k).replies (booking format) = [⟨.random 0, .assigned ⟨"o1"⟩ k, {}⟩] := by
  let c : Command :=
    ⟨"1", CommandKind.assignCourier.wireName, (Details.assignCourier ⟨"o1"⟩).payload, {}⟩
  have hbad : (⟨[0x7B], []⟩ : Letter).request? format = none := by cases format <;> decide +kernel
  have hgood : (⟨c.encode format, []⟩ : Letter).request? format = some (.assign ⟨"o1"⟩) := by
    cases format <;> decide +kernel
  change ((single format k).ledger.takeAll format [⟨[0x7B], []⟩, ⟨c.encode format, []⟩]).2 = _
  simp only [Ledger.takeAll, Ledger.take, hbad, hgood]
  rfl

/-- A message that is not JSON and a booking are received, and one result is published. -/
theorem publishes_replies_booking :
    let s := single .json ⟨"k1"⟩
    s.Ready ∧ ∃ q, (s.pipeline.run (booking .json)).Reaches q ∧ q.Drained ∧ ∃ m, q.published = [m] ∧
      m.key = some (Utf8.bytes "00000000-0000-4000-8000-000000000000") ∧
      Result.decode .json m.value = .ok
        ⟨.random 0, .courierAssigned, (Details.courierAssigned ⟨"o1"⟩ ⟨"k1"⟩).payload, {}⟩ := by
  intro s
  have hs : s.Ready := ready_single _ _
  obtain ⟨-, ⟨q, ⟨moves, hmoves, rfl⟩, hdrained⟩, -⟩ := publishes_replies hs (booking .json)
  refine ⟨hs, _, ⟨moves, hmoves, rfl⟩, hdrained, ?_⟩
  rw [← Pipeline.run_append] at hdrained ⊢
  obtain ⟨-, -, rs, ms, -, hms, hread, hpublished, hall⟩ :=
    publishes_replies hs (booking .json ++ moves)
  have hreceived : s.received (booking .json ++ moves) = s.received (booking .json) := by
    simp only [received, arrivals_append, hmoves, List.append_nil]
  have hrs : rs = s.replies (booking .json) := by
    rw [hall hdrained, replies, hreceived]
    rfl
  rw [hrs, replies_single] at hms hread
  obtain ⟨m, _, hm, hnil, rfl⟩ := List.forall₂_cons_left_iff.1 hms
  cases hnil
  obtain ⟨hread, -⟩ := List.forall₂_cons.1 hread
  exact ⟨m, hpublished, hm.key.trans (by decide +kernel), hread.2 fun h => by cases h⟩

/-- In MsgPack a courier with an id of 4 GiB is booked, but the result that is published for the booking
cannot be read. -/
theorem publishes_replies_overlong :
    let s := single .msgPack ⟨MsgPack.overlong⟩
    s.Ready ∧ s.replies (booking .msgPack) = [⟨.random 0, .assigned ⟨"o1"⟩ ⟨MsgPack.overlong⟩, {}⟩] ∧
      ∃ moves m, s.received (booking .msgPack ++ moves) = s.received (booking .msgPack) ∧
        (s.pipeline.run (booking .msgPack ++ moves)).Drained ∧
        (s.pipeline.run (booking .msgPack ++ moves)).published = [m] ∧
        Result.decode .msgPack m.value =
          .error (.wire (.msgPack (.mismatch (.wrongType (.natural 0x61) .text)))) := by
  intro s
  have hs : s.Ready := ready_single _ _
  have hreplies : s.replies (booking .msgPack) =
      [⟨.random 0, .assigned ⟨"o1"⟩ ⟨MsgPack.overlong⟩, {}⟩] := replies_single _ _
  obtain ⟨moves, hreceived, hdrained⟩ := exists_moves hs (booking .msgPack)
  obtain ⟨rs, -, hpublished, hall⟩ := run_published hs (booking .msgPack ++ moves)
  have hrs : rs = s.replies (booking .msgPack) := by
    rw [(hall hdrained).1, replies, hreceived]
    rfl
  rw [hrs, hreplies] at hpublished
  exact ⟨hs, hreplies, moves, _, hreceived, hdrained, hpublished, Reply.decode_overlong⟩

end Launch

end CourierDispatch
