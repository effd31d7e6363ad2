import CourierDispatch.Proofs.Dispatcher
import CourierDispatch.Proofs.Envelope.Decided
import CourierDispatch.Proofs.Letter
import CourierDispatch.Proofs.Result.Acceptance

/-!
# Replies and back

The result of a reply is written, and it is read again as it was, but for its context. In MsgPack the texts
in it have to fit into their headers. The order id does, as it has come from MsgPack. The id of a courier
is from the roster and may be too long, and then the result cannot be read.
-/

namespace CourierDispatch

/-- A result with details comes back exactly if the texts of the details can be written. -/
theorem Result.decode_encode_iff {format : WireFormat} {r : Result} {d : Details}
    (hr : r.payload = d.payload) :
    decode format (r.encode format) = .ok { r with context := {} } ↔ (format = .msgPack → d.Sized) := by
  refine ⟨?_, decode_encode hr⟩
  rintro h rfl
  rw [decode_eq_bind, bind_eq_ok_iff] at h
  obtain ⟨c, hc, hresult⟩ := h
  obtain ⟨-, -, hpayload, -⟩ := ofEnvelope_eq_ok_iff.1 hresult
  have htexts : d.payload.Texts MsgPack.Fits := by
    rw [← hr]
    exact hpayload ▸ Command.texts_decode_msgPack hc
  exact DetailsType.texts_read htexts d.read_payload

theorem Answer.sized_details_iff {a : Answer} (horder : MsgPack.Fits a.order.text) :
    a.details.Sized ↔ ∀ k, a.courier? = some k → MsgPack.Fits k.text := by
  cases a with
  | failed o | assigned o k | unassigned o k =>
      have horder : MsgPack.Fits o.text := horder
      simp [Details.Sized, details, Details.fields, courier?, horder]

namespace Reply

/-- The id of the courier, if there is one, can be written. -/
def Readable (format : WireFormat) (reply : Reply) : Prop :=
  format = .msgPack → ∀ k, reply.answer.courier? = some k → MsgPack.Fits k.text

theorem decode_encode_iff {format : WireFormat} {reply : Reply}
    (horder : format = .msgPack → MsgPack.Fits reply.answer.order.text) :
    Result.decode format (reply.result.encode format) = .ok { reply.result with context := {} } ↔
      reply.Readable format := by
  rw [Result.decode_encode_iff (d := reply.answer.details) rfl]
  exact forall_congr' fun hformat => Answer.sized_details_iff (horder hformat)

/-- Behind the header of a courier id that is too long, its first byte stands where a name is expected. -/
theorem decode_overlong :
    Result.decode .msgPack
        (Reply.result ⟨.random 0, .assigned ⟨"o1"⟩ ⟨MsgPack.overlong⟩, {}⟩ |>.encode .msgPack) =
      .error (.wire (.msgPack (.mismatch (.wrongType (.natural 0x61) .text)))) := by
  let front : List UInt8 :=
    MsgPack.mapHeader 3 ++ MsgPack.textBytes "id" ++ MsgPack.textBytes (Uuid.random 0).toText ++
      MsgPack.textBytes "name" ++ MsgPack.textBytes ResultKind.courierAssigned.wireName ++
      MsgPack.textBytes "payload" ++ MsgPack.mapHeader 2 ++ MsgPack.textBytes Details.courierField
  have hencode : ∃ more, (Reply.result ⟨.random 0, .assigned ⟨"o1"⟩ ⟨MsgPack.overlong⟩, {}⟩).encode
      .msgPack = (front ++ [0xA0, 0x61]) ++ more := by
    refine ⟨List.replicate (MsgPack.sizeLimit - 1) 0x61 ++
      MsgPack.printMembers [(Details.orderField, .string "o1")], ?_⟩
    change MsgPack.mapHeader 3 ++ MsgPack.textBytes "id" ++
      MsgPack.textBytes (Uuid.random 0).toText ++ MsgPack.textBytes "name" ++
      MsgPack.textBytes ResultKind.courierAssigned.wireName ++ MsgPack.textBytes "payload" ++
      (MsgPack.mapHeader 2 ++ (MsgPack.textBytes Details.courierField ++
        MsgPack.textBytes MsgPack.overlong ++
        MsgPack.printMembers [(Details.orderField, .string "o1")])) = _
    rw [MsgPack.textBytes_overlong]
    simp only [front, List.append_assoc, List.cons_append, List.nil_append]
  obtain ⟨more, hmore⟩ := hencode
  have hverdict : (Envelope.parse .msgPack (front ++ [0xA0, 0x61])).map (fun _ => ()) =
      .error (.msgPack (.mismatch (.wrongType (.natural 0x61) .text))) := by decide +kernel
  cases hparse : Envelope.parse .msgPack (front ++ [0xA0, 0x61]) with
  | ok e =>
      rw [hparse] at hverdict
      cases hverdict
  | error f =>
      rw [hparse] at hverdict
      cases hverdict
      have hcut : Envelope.parse .msgPack (front ++ [0xA0, 0x61]) ≠ .error (.msgPack .cutShort) := by
        rw [hparse]
        exact nofun
      rw [hmore, Result.decode, Envelope.decode, Envelope.parse_append hcut, hparse]
      rfl

end Reply

end CourierDispatch
