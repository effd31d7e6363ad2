import CourierDispatch.Proofs.Broker.LineSink
import CourierDispatch.Proofs.Json.Visible
import CourierDispatch.Writer

/-!
# Envelopes in lines

An envelope in JSON is a line of its own, whatever its payload holds, so that results in JSON come back
from the lines that they were written to. The lengths, numbers and texts of an envelope in MsgPack are
written as the bytes they are, and any of them can be a line break: such an envelope does not come back.
-/

namespace CourierDispatch

open LineSource (OneLine Delivers lineFeed carriageReturn)

namespace LineSource

theorem visible_of_not_isSpace {v : List UInt8} {b : UInt8} (hb : b ∈ v) (h : isSpace b = false) :
    v.all isSpace = false :=
  List.all_eq_false.2 ⟨b, hb, by simp [h]⟩

theorem oneLine_of_le {v : List UInt8} {b : UInt8} (hle : ∀ b ∈ v, 32 ≤ b.toNat) (hb : b ∈ v)
    (h : isSpace b = false) : OneLine v where
  lineFeed hfeed := absurd (hle _ hfeed) (by decide)
  carriageReturn hreturn := absurd (hle _ (List.mem_of_getLast? hreturn)) (by decide)
  visible := visible_of_not_isSpace hb h

end LineSource

namespace Envelope

theorem oneLine_json (e : Envelope) : OneLine (e.encode .json) := by
  have hbrace : (0x7B : UInt8) ∈ e.encode .json := by
    have hchar : '\x7b' ∈ e.jsonText := List.mem_append_left _ List.mem_cons_self
    exact List.mem_flatMap.2 ⟨'\x7b', hchar, by decide⟩
  exact LineSource.oneLine_of_le (Json.le_of_mem_encode (Json.visible_jsonText e)) hbrace (by decide)

/-- The first byte of an envelope in MsgPack is no blank, so that line breaks are all that matters. -/
theorem oneLine_msgPack_iff (e : Envelope) :
    OneLine (e.encode .msgPack) ↔
      lineFeed ∉ e.encode .msgPack ∧ (e.encode .msgPack).getLast? ≠ some carriageReturn := by
  have hmap : (0x83 : UInt8) ∈ e.encode .msgPack := by
    simp [encode, msgPackBytes, MsgPack.mapHeader, MsgPack.shortLength]
  refine ⟨fun h => ⟨h.lineFeed, h.carriageReturn⟩, fun h => ⟨h.1, h.2, ?_⟩⟩
  exact LineSource.visible_of_not_isSpace hmap (by decide)

end Envelope

section

variable {W : Type} [ByteWriter W] [AcceptingWriter W]

open AcceptingWriter (taken)

def LineSink.resultMessage (sink : LineSink W) (r : Result) : Outbound :=
  ({ sink, topic := sink.topic, format := .json } : Writer (LineSink W)).message r

/-- Results in JSON come back from a line source as the bytes that were written, in their order and
numbered from zero, whatever they hold and however they were split into batches. -/
theorem LineSink.json_results_delivered (sink : LineSink W) (batches : List (List Result)) :
    let values := batches.flatten.map (·.encode .json)
    let written := sink.writeAll (batches.map (·.map sink.resultMessage))
    (∀ answer ∈ written.2, answer = .ok ()) ∧
      taken written.1.writer = taken sink.writer ++ asLines values ∧
      Delivers (asLines values) values := by
  intro values written
  obtain ⟨hok, htaken⟩ := sink.writeAll_map sink.resultMessage (fun _ => rfl) batches
  refine ⟨hok, htaken, LineSource.delivers_of_oneLine fun v hv => ?_⟩
  obtain ⟨r, -, rfl⟩ := List.mem_map.1 hv
  exact r.envelope.oneLine_json

def LineSink.commandMessage (sink : LineSink W) (c : Command) : Outbound :=
  { topic := sink.topic, key := none, value := c.encode .msgPack, headers := c.context.toHeaders }

/-- Commands in MsgPack are written as lines, too, but come back from a line source only if there is no
line feed in any of them and no carriage return at the end of one. -/
theorem LineSink.msgPack_commands_delivered_iff (sink : LineSink W) (batches : List (List Command)) :
    let values := batches.flatten.map (·.encode .msgPack)
    let written := sink.writeAll (batches.map (·.map sink.commandMessage))
    (∀ answer ∈ written.2, answer = .ok ()) ∧
      taken written.1.writer = taken sink.writer ++ asLines values ∧
      (Delivers (asLines values) values ↔
        ∀ v ∈ values, lineFeed ∉ v ∧ v.getLast? ≠ some carriageReturn) := by
  intro values written
  obtain ⟨hok, htaken⟩ := sink.writeAll_map sink.commandMessage (fun _ => rfl) batches
  refine ⟨hok, htaken, LineSource.delivers_asLines_iff.trans (forall₂_congr fun v hv => ?_)⟩
  obtain ⟨c, -, rfl⟩ := List.mem_map.1 hv
  exact c.envelope.oneLine_msgPack_iff

/-- A count of ten is a line feed in MsgPack: the command that holds it comes back in two parts. -/
theorem LineSink.msgPack_command_cut :
    let sink : LineSink Outlet := { topic := "commands", writer := {} }
    let command : Command :=
      { id := "c1", name := "create_order.assign_courier"
        payload := .object [("count", .number (.whole 10)), ("orderID", .string "o1")] }
    let written := sink.writeAll [[sink.commandMessage command]]
    let answers := (LineSource.run { topic := "commands" }
      [.feed (LineSource.stream written.1.writer.taken), .poll, .poll, .poll]).2
    answers.map (·.toOption.map (·.value)) =
        [some ((command.encode .msgPack).take 55), some ((command.encode .msgPack).drop 56)] ∧
      ¬ Delivers written.1.writer.taken [command.encode .msgPack] := by
  intro sink command written answers
  have hwritten : written.1.writer.taken = asLines [command.encode .msgPack] := by decide +kernel
  have hfeed : lineFeed ∈ command.encode .msgPack := by decide +kernel
  refine ⟨by decide +kernel, fun h => ?_⟩
  rw [hwritten, LineSource.delivers_asLines_iff] at h
  exact (h _ (List.mem_singleton_self _)).lineFeed hfeed

end

end CourierDispatch
