import CourierDispatch.Proofs.Envelope.Carried
import CourierDispatch.Proofs.Envelope.Decided
import CourierDispatch.Proofs.Json.Unfinished
import CourierDispatch.Proofs.MsgPack.Unfinished

/-!
# Envelopes that stop short

An envelope is complete with its last byte and not before, in both formats. So a message that lost its end
on the way is never taken for another one, wherever it was cut. The only exception is a message that cannot
be written as it is: in MsgPack the header of a text of 4 GiB has no room for its length.
-/

namespace CourierDispatch

namespace Envelope

namespace Draft

theorem awaits_payload {d : Draft} (hd : d.stage = .field .payload) :
    Awaits d.resume .top d where
  accept _ ht := accept_field_payload hd ht
  skims := by
    change d.skims = false
    simp [skims, hd]

end Draft

open Json Json.Scanner

/-- The part of a JSON text in front of its payload is the same for all payloads, and it is unfinished. -/
theorem via_front (e : Envelope) :
    ∃ front, e.encode .json = front ++ (Utf8.encode (text e.payload) ++ [0x7D]) ∧
      Via step Unfinished (start ({} : Draft)) front
        ⟨.value, [.object], { stage := .field .payload, id := some e.id, name := some e.name }⟩ := by
  have hopen : Via step Unfinished (start ({} : Draft)) [0x7B]
      ⟨.firstName, [.object], { stage := .memberName }⟩ := .single rfl rfl
  have hid : Via step Unfinished ⟨.firstName, [.object], ({ stage := .memberName } : Draft)⟩ _
      ⟨.name, [.object], { stage := .memberName, id := some e.id }⟩ :=
    via_textMember (k := Field.id.wireName) (s := e.id) (.inr rfl) rfl rfl rfl rfl
  have hname : Via step Unfinished
      ⟨.name, [.object], ({ stage := .memberName, id := some e.id } : Draft)⟩ _
      ⟨.name, [.object], { stage := .memberName, id := some e.id, name := some e.name }⟩ :=
    via_textMember (k := Field.name.wireName) (s := e.name) (.inl rfl) rfl rfl rfl rfl
  have hpayload : Via step Unfinished
      ⟨.name, [.object], ({ stage := .memberName, id := some e.id, name := some e.name } : Draft)⟩ _
      ⟨.value, [.object], { stage := .field .payload, id := some e.id, name := some e.name }⟩ :=
    via_name (k := Field.payload.wireName) (.inl rfl) rfl rfl
  refine ⟨_, ?_, hopen.append (hid.append (hname.append hpayload))⟩
  change Utf8.encode (text e.toValue) = _
  rw [toValue, encode_object, encode_members, encode_members, encode_lastMember]
  simp only [List.append_assoc]
  rfl

theorem feed_json_cut (e : Envelope) (hw : e.payload.WellFormed) {d : Draft}
    (h : Json.feed ({} : Draft) (e.encode .json) = .ok d) {p : List UInt8}
    (hp : p <+: e.encode .json) (hne : p ≠ e.encode .json) :
    Json.feed ({} : Draft) p = .error .cutShort := by
  obtain ⟨front, hbytes, hfront⟩ := via_front e
  rw [hbytes] at h hp hne
  cases hscan : (start ({} : Draft)).scan (front ++ (Utf8.encode (text e.payload) ++ [0x7D])) with
  | error f =>
      rw [Json.feed, hscan] at h
      cases h
  | ok s =>
      obtain ⟨m, hm, hrest⟩ := exists_of_foldlM_append hscan
      cases hfront.foldlM_eq.symm.trans hm
      have hawaits := Draft.awaits_payload
        (d := { stage := .field .payload, id := some e.id, name := some e.name }) rfl
      obtain ⟨hback, -⟩ :=
        via_value (Draft.hosts_resume _) e.payload hw hawaits (.inr (.inr rfl)) hrest
      obtain ⟨m, hm, hmid⟩ := (hfront.append hback).exists_mid hp hne
      change (start ({} : Draft)).scan p = .ok m at hm
      rw [Json.feed, hm]
      exact hmid

theorem feed_msgPack_cut (e : Envelope) (hs : e.Sized) {d : Draft}
    (h : MsgPack.feed ({} : Draft) (e.encode .msgPack) = .ok d) {p : List UInt8}
    (hp : p <+: e.encode .msgPack) (hne : p ≠ e.encode .msgPack) :
    MsgPack.feed ({} : Draft) p = .error .cutShort := by
  have hwritten := MsgPack.written_print e.toValue hs.toValue
  rw [← msgPackBytes_eq_print] at hwritten
  exact MsgPack.Scanner.feed_cut hwritten h hp hne

theorem parse_cut (format : WireFormat) (e : Envelope) (hw : e.payload.WellFormed)
    (hs : format = .msgPack → e.Sized) {e' : Envelope} (h : parse format (e.encode format) = .ok e')
    {p : List UInt8} (hp : p <+: e.encode format) (hne : p ≠ e.encode format) :
    parse format p = .error format.cutShort := by
  obtain ⟨d, hfeed, -⟩ := exists_feed_of_parse h
  cases format with
  | json =>
      rw [parse, WireFormat.feed, feed_json_cut e hw (mapError_eq_ok_iff.1 hfeed) hp hne]
      rfl
  | msgPack =>
      rw [parse, WireFormat.feed, feed_msgPack_cut e (hs rfl) (mapError_eq_ok_iff.1 hfeed) hp hne]
      rfl

end Envelope

namespace Command

/-- A command that lost its end is never accepted. It is refused because it stops short, wherever it was
cut. The lengths have to fit into the headers of MsgPack, which say less than there is if they do not. -/
theorem decode_cut (format : WireFormat) (c c' : Command) (hw : c.payload.WellFormed)
    (hs : format = .msgPack → c.envelope.Sized) (h : decode format (c.encode format) = .ok c')
    (p : List UInt8) (hp : p <+: c.encode format) (hne : p ≠ c.encode format) :
    decode format p = .error (.wire format.cutShort) := by
  obtain ⟨hparse, -, -⟩ := parse_of_decode h
  rw [decode, Envelope.decode, Envelope.parse_cut format c.envelope hw hs hparse hp hne]
  rfl

/-- The payload has an escaped name, a number of which every part is a number, one with an exponent, and a
character of two bytes. -/
theorem decode_cut_edges :
    let payload : Value := .object
      [("a\n", .array [.number (.whole (-120)), .number (.double ⟨0x46293E5939A08CEA⟩), .null]),
        ("é", .string "\u0001")]
    let c : Command := ⟨"c\"1", "x", payload, {}⟩
    (c.encode .json).length = 74 ∧ (c.encode .msgPack).length = 45 ∧
      ∀ (format : WireFormat) (n : Nat), n < (c.encode format).length →
        decode format ((c.encode format).take n) = .error (.wire format.cutShort) := by
  intro payload c
  have hwhole : (Number.whole (-120)).fits := by decide
  have hdouble : (Number.double ⟨0x46293E5939A08CEA⟩).fits := by decide
  have hw : payload.WellFormed := ⟨by decide, ⟨hwhole, hdouble, trivial, trivial⟩, trivial, trivial⟩
  have htwo : 2 < MsgPack.sizeLimit := by decide
  have hthree : 3 < MsgPack.sizeLimit := by decide
  have hcontrol : MsgPack.Fits "\u0001" := by decide
  have hs : Envelope.Sized ⟨"c\"1", "x", payload⟩ :=
    ⟨by decide, by decide, ⟨by decide, by decide⟩, ⟨hthree, hwhole, hdouble, trivial, trivial⟩,
      hcontrol, trivial⟩
  have hread (format : WireFormat) : (decode format (c.encode format)).isOk = true := by
    cases format <;> decide +kernel
  refine ⟨by decide +kernel, by decide +kernel, fun format n hn => ?_⟩
  cases hc : decode format (c.encode format) with
  | error e =>
      have hok := hread format
      rw [hc] at hok
      cases hok
  | ok c' =>
      refine decode_cut format c c' hw (fun _ => hs) hc _ (List.take_prefix n _) fun heq => ?_
      have hlength := congrArg List.length heq
      rw [List.length_take] at hlength
      omega

/-- A text of 4 GiB has the header of an empty one, and with this header the command is complete. -/
theorem decode_cut_overlong :
    let c : Command := ⟨"1", "x", .string MsgPack.overlong, {}⟩
    let p : List UInt8 :=
      [0x83, 0xA2, 0x69, 0x64, 0xA1, 0x31, 0xA4, 0x6E, 0x61, 0x6D, 0x65, 0xA1, 0x78,
        0xA7, 0x70, 0x61, 0x79, 0x6C, 0x6F, 0x61, 0x64, 0xA0]
    c.payload.WellFormed ∧ p <+: c.encode .msgPack ∧ p ≠ c.encode .msgPack ∧
      decode .msgPack (c.encode .msgPack) = .ok ⟨"1", "x", .string "", {}⟩ ∧
      decode .msgPack p = .ok ⟨"1", "x", .string "", {}⟩ := by
  intro c p
  have hencode : c.encode .msgPack =
      p ++ 0x61 :: List.replicate (MsgPack.sizeLimit - 1) 0x61 := by
    have hfront : MsgPack.mapHeader 3 ++ MsgPack.textBytes "id" ++ MsgPack.textBytes "1" ++
        MsgPack.textBytes "name" ++ MsgPack.textBytes "x" ++ MsgPack.textBytes "payload" ++ [0xA0] =
          p := by decide
    change MsgPack.mapHeader 3 ++ MsgPack.textBytes "id" ++ MsgPack.textBytes "1" ++
      MsgPack.textBytes "name" ++ MsgPack.textBytes "x" ++ MsgPack.textBytes "payload" ++
      MsgPack.textBytes MsgPack.overlong = _
    rw [MsgPack.textBytes_overlong, List.append_cons _ 0xA0, hfront]
  have hread : decode .msgPack p = .ok ⟨"1", "x", .string "", {}⟩ := by with_unfolding_all rfl
  have hdecided : ¬ Undecided p := by
    rw [Undecided, hread]
    intro h
    cases h
  rw [hencode]
  refine ⟨trivial, List.prefix_append _ _, fun h => ?_, (decode_append hdecided _).trans hread, hread⟩
  exact absurd (List.self_eq_append_right.1 h) (List.cons_ne_nil _ _)

end Command

end CourierDispatch
