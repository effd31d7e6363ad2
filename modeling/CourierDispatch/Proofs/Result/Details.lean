import CourierDispatch.Proofs.Details
import CourierDispatch.Proofs.Result

/-!
# Payloads of envelopes

The payload of a command or a result is read as a type if it has the shape of a payload of this type, and
what is read are the texts in it. A payload that is put into a result has its shape, and has it still when
the result has been written in either format and read again.
-/

namespace CourierDispatch

namespace Details

theorem details_of_ofDatum {d : Details} {format : WireFormat} (h : format = .msgPack → d.Sized)
    (id : Uuid) (kind : ResultKind) (context : Context) :
    ∃ r, Result.ofDatum id kind d.toDatum context = .ok r ∧
      Result.decode format (r.encode format) = .ok { r with context := {} } ∧
        Result.details { r with context := {} } d.type = .ok d := by
  refine ⟨⟨id, kind, d.payload, context⟩, ?_, Result.decode_encode rfl h, ?_⟩
  · rw [Result.ofDatum, toValue?_toDatum]
  · exact mapError_eq_ok_iff.2 d.read_payload

/-- A payload is read from the envelopes that hold a value of its shape, and from no others. What has been
put into a result is read from it again behind either format, whatever the texts are. -/
theorem payloads_exact :
    (∀ (c : Command) (t : DetailsType) (d : Details), c.payload.WellFormed →
      (c.details t = .ok d ↔ d.type = t ∧ d.Shape c.payload)) ∧
    (∀ (r : Result) (t : DetailsType) (d : Details), r.payload.WellFormed →
      (r.details t = .ok d ↔ d.type = t ∧ d.Shape r.payload)) ∧
    ∀ (d : Details) (format : WireFormat) (id : Uuid) (kind : ResultKind) (context : Context),
      (format = .msgPack → d.Sized) → ∃ r, Result.ofDatum id kind d.toDatum context = .ok r ∧
        ∃ r', Result.decode format (r.encode format) = .ok r' ∧ r'.details d.type = .ok d := by
  refine ⟨fun c t d hc => ?_, fun r t d hr => ?_, fun d format id kind context hd => ?_⟩
  · rw [Command.details, mapError_eq_ok_iff, read_eq_ok_iff_shape hc]
  · rw [Result.details, mapError_eq_ok_iff, read_eq_ok_iff_shape hr]
  · obtain ⟨r, hr, hback, hread⟩ := details_of_ofDatum hd id kind context
    exact ⟨r, hr, _, hback, hread⟩

/-- The order comes behind the courier in an object and in front of him in an array. The array is too long
for a payload with an order alone. The texts that are sent are an empty one and one with a quote, a line
feed and an astral character. -/
theorem payloads_exact_forms :
    let object : Value :=
      .object [("courierID", .string "k"), ("extra", .array [.null]), ("orderID", .string "o")]
    let array : Value := .array [.string "o", .string "k"]
    let c : Command := { id := "c", name := "n", payload := object }
    let r : Result := { id := ⟨0⟩, kind := .courierUnassigned, payload := array }
    let d : Details := .courierUnassigned ⟨"o"⟩ ⟨"k"⟩
    let sent : Details := .courierAssigned ⟨"\"\n😀"⟩ ⟨""⟩
    (object.WellFormed ∧ array.WellFormed ∧ sent.Sized) ∧
      c.details .courierUnassigned = .ok d ∧ r.details .courierUnassigned = .ok d ∧
      (¬ ∃ d, r.details .assignCourier = .ok d) ∧
      (∃ r, Result.ofDatum ⟨0⟩ .courierAssigned sent.toDatum {} = .ok r ∧
        ∃ r', Result.decode .json (r.encode .json) = .ok r' ∧ r'.details .courierAssigned = .ok sent) ∧
      ∃ r, Result.ofDatum ⟨0⟩ .courierAssigned sent.toDatum {} = .ok r ∧
        ∃ r', Result.decode .msgPack (r.encode .msgPack) = .ok r' ∧
          r'.details .courierAssigned = .ok sent := by
  intro object array c r d sent
  have hobject : object.WellFormed := ⟨by decide, trivial, ⟨trivial, trivial⟩, trivial, trivial⟩
  have harray : array.WellFormed := ⟨trivial, trivial, trivial⟩
  have hsent : sent.Sized := by
    intro f hf
    obtain rfl | rfl : f = (orderField, "\"\n😀") ∨ f = (courierField, "") := by
      simpa [sent, fields] using hf
    all_goals decide
  obtain ⟨hcommand, hresult, hback⟩ := payloads_exact
  have hshape : d.Shape object := shape_object_iff.2 (by simp [d, fields, orderField, courierField])
  refine ⟨⟨hobject, harray, hsent⟩, (hcommand c _ d hobject).2 ⟨rfl, hshape⟩,
    (hresult r _ d harray).2 ⟨rfl, .array⟩, ?_, hback sent .json _ _ _ fun _ => hsent,
    hback sent .msgPack _ _ _ fun _ => hsent⟩
  rintro ⟨d, hd⟩
  obtain ⟨htype, hshape⟩ := (hresult r _ d harray).1 hd
  cases d with
  | assignCourier o => simpa [fields] using shape_array_iff.1 hshape
  | _ => cases htype

end Details

end CourierDispatch
