import CourierDispatch.Proofs.Envelope.Acceptance
import CourierDispatch.Proofs.Envelope.Json
import CourierDispatch.Proofs.Uuid

/-!
# Results and back

A result comes back from either format, without its context, if the format carries its payload. The
payloads of the results that are sent are flat objects of texts, which both formats carry.
-/

namespace CourierDispatch

namespace Details

def payload : Details → Value
  | assignCourier o | unassignCourier o | courierAssignmentFailed o =>
    .object [(orderField, .string o.text)]
  | courierAssigned o k | courierUnassigned o k =>
    .object [(courierField, .string k.text), (orderField, .string o.text)]

theorem toValue?_toDatum (d : Details) : d.toDatum.toValue? = some d.payload := by
  cases d <;> rfl

theorem read_payload (d : Details) : d.type.read d.payload = .ok d := by
  cases d <;> rfl

theorem wellFormed_payload (d : Details) : d.payload.WellFormed := by
  have hone (o : String) : (Value.object [(orderField, .string o)]).WellFormed :=
    ⟨List.pairwise_singleton _ _, trivial, trivial⟩
  have htwo (o k : String) :
      (Value.object [(courierField, .string k), (orderField, .string o)]).WellFormed := by
    have hfields : courierField < orderField := by decide
    exact ⟨List.pairwise_pair.2 hfields, trivial, trivial, trivial⟩
  cases d with
  | assignCourier o => exact hone o.text
  | unassignCourier o => exact hone o.text
  | courierAssigned o k => exact htwo o.text k.text
  | courierAssignmentFailed o => exact hone o.text
  | courierUnassigned o k => exact htwo o.text k.text

theorem integral_payload (d : Details) : d.payload.Integral := by
  cases d <;>
    simp [payload, Value.Integral, Value.IntegralNode, Value.All, Value.AllMembers]

theorem depth_payload (d : Details) : d.payload.depth = 1 := by
  cases d <;> rfl

/-- The texts of the details fit into their headers. -/
def Sized (d : Details) : Prop := ∀ f ∈ d.fields, MsgPack.Fits f.2

theorem Sized.payload {d : Details} (h : d.Sized) : MsgPack.Sized d.payload := by
  have horder : MsgPack.Fits orderField := by decide
  have hcourier : MsgPack.Fits courierField := by decide
  have hone : 1 < MsgPack.sizeLimit := by decide
  have htwo : 2 < MsgPack.sizeLimit := by decide
  cases d <;>
    simp_all [Sized, fields, Details.payload, MsgPack.Sized, MsgPack.SizedNode, Value.All,
      Value.AllMembers]

end Details

/-- The payloads that come back in an envelope of the format. The envelope is a container too. -/
structure WireFormat.Carries (format : WireFormat) (v : Value) : Prop where
  wellFormed : v.WellFormed
  depth : v.depth < format.depthLimit
  integral : format = .json → v.Integral
  sized : format = .msgPack → MsgPack.Sized v

namespace Result

open Text

theorem not_isBlank_toText (u : Uuid) : ¬ IsBlank u.toText := by
  have hdigit : ∀ n < 16, isBlank (Hex.digit n) = false := by decide
  obtain ⟨n, hn, cs, hcs⟩ := u.exists_toText_eq_cons
  intro h
  have hblank := h (Hex.digit n) (by rw [hcs]; exact List.mem_cons_self)
  rw [hdigit n hn] at hblank
  cases hblank

theorem not_isBlank_wireName (k : ResultKind) : ¬ IsBlank k.wireName := by
  cases k <;> decide

theorem ofName?_wireName (k : ResultKind) : ResultKind.ofName? k.wireName = some k := by
  cases k <;> decide

theorem ofEnvelope_envelope (r : Result) : ofEnvelope r.envelope = .ok { r with context := {} } := by
  rw [ofEnvelope, envelope, Uuid.ofText?_toText, ofName?_wireName]

theorem decode_encode_of_parse {format : WireFormat} {r : Result}
    (h : Envelope.parse format (r.encode format) = .ok r.envelope) :
    decode format (r.encode format) = .ok { r with context := {} } := by
  have hcheck : r.envelope.check = .ok r.envelope := by
    have hid : ¬ IsBlank r.envelope.id := not_isBlank_toText r.id
    have hname : ¬ IsBlank r.envelope.name := not_isBlank_wireName r.kind
    rw [Envelope.check, if_neg hid, if_neg hname]
  rw [decode, Envelope.decode, h]
  simp only [hcheck, Except.bind]
  exact ofEnvelope_envelope r

theorem sized_envelope (r : Result) (h : MsgPack.Sized r.payload) : r.envelope.Sized where
  id := by
    have hlength := Utf8.length_encode_le r.id.toText.toList
    rw [Uuid.length_toText] at hlength
    exact Nat.lt_of_le_of_lt hlength (by decide)
  name := by
    change MsgPack.Fits r.kind.wireName
    cases r.kind <;> decide
  payload := h

theorem decode_encode_of_carries {format : WireFormat} {r : Result}
    (h : format.Carries r.payload) :
    decode format (r.encode format) = .ok { r with context := {} } := by
  refine decode_encode_of_parse ?_
  have hdepth := h.depth
  cases format with
  | json =>
      have hparse := Envelope.parse_encode_json r.envelope h.wellFormed (h.integral rfl)
      have hfits : r.envelope.payload.depth < 127 := hdepth
      rwa [if_neg (by omega)] at hparse
  | msgPack =>
      have hparse := Envelope.parse_encode_msgPack r.envelope h.wellFormed
        (sized_envelope r (h.sized rfl))
      have hfits : r.envelope.payload.depth < 1023 := hdepth
      rwa [if_neg (by omega)] at hparse

/-- A result with details comes back. In MsgPack the texts of the details have to fit into their
headers. -/
theorem decode_encode {format : WireFormat} {r : Result} {d : Details} (hr : r.payload = d.payload)
    (h : format = .msgPack → d.Sized) :
    decode format (r.encode format) = .ok { r with context := {} } := by
  have hdepth : d.payload.depth < format.depthLimit := by
    rw [d.depth_payload]
    cases format <;> decide
  have hcarries : format.Carries d.payload :=
    ⟨d.wellFormed_payload, hdepth, fun _ => d.integral_payload, fun hf => (h hf).payload⟩
  exact decode_encode_of_carries (hr ▸ hcarries)

end Result

end CourierDispatch
