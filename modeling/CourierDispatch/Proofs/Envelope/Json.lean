import CourierDispatch.Command
import CourierDispatch.Proofs.Envelope.Draft
import CourierDispatch.Proofs.Json.Text

/-!
# Commands in JSON and back

The bytes of an envelope are those of an object of its three fields. Reading them back is offering this
object to a draft, and then the id and the name are looked at. The object around the payload counts as a
container, so one container less fits into the payload.
-/

namespace CourierDispatch

namespace Envelope

theorem integral_toValue {e : Envelope} (h : e.payload.Integral) : e.toValue.Integral :=
  ⟨trivial, trivial, trivial, h, trivial⟩

/-- Reading an envelope back from JSON, before its id and name are looked at. -/
theorem parse_encode_json (e : Envelope) (hw : e.payload.WellFormed) (hi : e.payload.Integral) :
    parse .json (e.encode .json) =
      if 126 < e.payload.depth then .error (.json .illFormed) else .ok e := by
  have hfeed : Json.feed ({} : Draft) (e.encode .json) =
      if e.payload.depth + 1 ≤ Json.Scanner.depthLimit then .ok (Draft.filled e)
      else .error .illFormed := by
    rw [← Draft.offer_toValue Json.manner_limits (by decide) e hw]
    exact Json.Scanner.feed_print _ (integral_toValue hi) _
  rw [parse, WireFormat.feed, hfeed]
  by_cases hdepth : 126 < e.payload.depth
  · rw [if_pos hdepth, if_neg (by simp only [Json.Scanner.depthLimit]; omega)]
    rfl
  · rw [if_neg hdepth, if_pos (by simp only [Json.Scanner.depthLimit]; omega)]
    rfl

end Envelope

namespace Command

open Text

theorem map_ofEnvelope_check (c : Command) :
    c.envelope.check.map ofEnvelope =
      if IsBlank c.id then .error .missingId
      else if IsBlank c.name then .error .missingName
      else .ok { c with context := {} } := by
  by_cases hid : IsBlank c.id
  · simp [Envelope.check, envelope, hid, Except.map]
  · by_cases hname : IsBlank c.name
    · simp [Envelope.check, envelope, hid, hname, Except.map]
    · simp [Envelope.check, envelope, hid, hname, Except.map, ofEnvelope]

/-- What reading a command back from JSON answers. A payload of 127 nested containers is too deep; up to
there only a blank id or a blank name keeps the command from coming back. -/
theorem decode_encode_json (c : Command) (hw : c.payload.WellFormed) (hi : c.payload.Integral) :
    decode .json (c.encode .json) =
      if 126 < c.payload.depth then .error (.wire (.json .illFormed))
      else if IsBlank c.id then .error .missingId
      else if IsBlank c.name then .error .missingName
      else .ok { c with context := {} } := by
  have hparse := Envelope.parse_encode_json c.envelope hw hi
  change Envelope.parse .json (c.encode .json) = _ at hparse
  rw [decode, Envelope.decode, hparse]
  change _ = if 126 < c.envelope.payload.depth then _ else _
  by_cases hdepth : 126 < c.envelope.payload.depth
  · rw [if_pos hdepth, if_pos hdepth]
    rfl
  · rw [if_neg hdepth, if_neg hdepth]
    exact map_ofEnvelope_check c

/-- A quote, a control character and a character beyond the first plane in the names, and the least and
the largest whole number in the payload. -/
theorem decode_encode_json_edges :
    let payload : Value := .object
      [("a\"\\", .array [.number (.whole (-9223372036854775808)), .string "\u0001\n"]),
        ("😀", .number (.whole 18446744073709551615))]
    payload.WellFormed ∧ payload.Integral ∧
      decode .json (encode .json ⟨"id\t1", "näme", payload, {}⟩) =
        .ok ⟨"id\t1", "näme", payload, {}⟩ := by
  intro payload
  have hleast : (Number.whole (-9223372036854775808)).fits := by decide
  have hlargest : (Number.whole 18446744073709551615).fits := by decide
  have hw : payload.WellFormed :=
    ⟨by decide, ⟨hleast, trivial, trivial⟩, hlargest, trivial⟩
  have hi : payload.Integral :=
    ⟨trivial, ⟨trivial, hleast, trivial, trivial⟩, hlargest, trivial⟩
  refine ⟨hw, hi, ?_⟩
  rw [decode_encode_json ⟨"id\t1", "näme", payload, {}⟩ hw hi]
  rw [if_neg (by decide), if_neg (by decide), if_neg (by decide)]

end Command

end CourierDispatch
