import CourierDispatch.Proofs.Result
import CourierDispatch.Proofs.Uuid.Spelling

/-!
# Which results are accepted

A result is written and comes back with any payload that its format carries. What is read as a result is
read as a command as well: its id is a spelling of a UUID and its name one of the catalogue. The id is
looked at first, and its spelling does not matter.
-/

namespace CourierDispatch

theorem ResultKind.ofName?_eq_some_iff {s : String} {k : ResultKind} :
    ofName? s = some k ↔ s = k.wireName := by
  constructor
  · intro h
    unfold ofName? at h
    have hwire := List.find?_some h
    exact (of_decide_eq_true hwire).symm
  · rintro rfl
    exact Result.ofName?_wireName k

namespace Result

theorem ofEnvelope_eq_ok_iff {e : Envelope} {r : Result} :
    ofEnvelope e = .ok r ↔
      r.id.Spelt e.id ∧ e.name = r.kind.wireName ∧ r.payload = e.payload ∧ r.context = {} := by
  rw [← Uuid.ofText?_eq_some_iff, ← ResultKind.ofName?_eq_some_iff]
  unfold ofEnvelope
  cases hid : Uuid.ofText? e.id with
  | none => simp
  | some id =>
      cases hname : ResultKind.ofName? e.name with
      | none => simp
      | some kind =>
          cases r
          simp [eq_comm]

theorem decode_eq_bind (format : WireFormat) (bs : List UInt8) :
    decode format bs = (Command.decode format bs).bind fun c => ofEnvelope c.envelope := by
  rw [decode, Command.decode]
  cases Envelope.decode format bs <;> rfl

/-- What bytes say as a result, by what they say as a command. -/
structure ReadAlike (format : WireFormat) (bs : List UInt8) : Prop where
  accepted : ∀ r, decode format bs = .ok r ↔ ∃ c, Command.decode format bs = .ok c ∧
    r.id.Spelt c.id ∧ c.name = r.kind.wireName ∧ r.payload = c.payload ∧ r.context = {}
  /-- Nothing is said about the name if the id is bad. -/
  badId : ∀ c, Command.decode format bs = .ok c → (∀ u : Uuid, ¬ u.Spelt c.id) →
    decode format bs = .error (.invalidResultId c.id)
  badName : ∀ (c : Command) (u : Uuid), Command.decode format bs = .ok c → u.Spelt c.id →
    (∀ k : ResultKind, c.name ≠ k.wireName) → decode format bs = .error (.unknownResult c.name)
  refused : ∀ e, Command.decode format bs = .error e → decode format bs = .error e

theorem readAlike (format : WireFormat) (bs : List UInt8) : ReadAlike format bs where
  accepted r := by
    rw [decode_eq_bind]
    cases Command.decode format bs with
    | error e => simp [Except.bind]
    | ok c =>
        change ofEnvelope c.envelope = .ok r ↔ _
        rw [ofEnvelope_eq_ok_iff]
        simp [Command.envelope]
  badId c hc hid := by
    have hnone : Uuid.ofText? c.id = none :=
      Option.eq_none_iff_forall_ne_some.2 fun u hu => hid u (Uuid.ofText?_eq_some_iff.1 hu)
    rw [decode_eq_bind, hc]
    change ofEnvelope c.envelope = _
    simp only [ofEnvelope, Command.envelope, hnone]
  badName c u hc hid hname := by
    have hnone : ResultKind.ofName? c.name = none :=
      Option.eq_none_iff_forall_ne_some.2 fun k hk =>
        hname k (ResultKind.ofName?_eq_some_iff.1 hk)
    rw [decode_eq_bind, hc]
    change ofEnvelope c.envelope = _
    simp only [ofEnvelope, Command.envelope, Uuid.ofText?_eq_some_iff.2 hid, hnone]
  refused e he := by
    rw [decode_eq_bind, he]
    rfl

/-- Results come back from what they are written as. Bytes are a result when they are a command with the
id and the name of one; every fault is reported as that of the command or, behind it, of the id and
then of the name. The same digits are the same id in every spelling. -/
theorem codec_exact (format : WireFormat) :
    (∀ r : Result, format.Carries r.payload →
      decode format (r.encode format) = .ok { r with context := {} }) ∧
    (∀ bs, ReadAlike format bs) ∧
    ∀ ds : List Char, ds.length = 32 → (∀ d ∈ ds, d.toLower ∈ Hex.alphabet) →
      ∃ u : Uuid, ∀ ds' bs c k, ds'.map Char.toLower = ds.map Char.toLower →
        Command.decode format bs = .ok c → Uuid.Spelling ds' c.id.toList →
        c.name = ResultKind.wireName k →
        decode format bs = .ok { id := u, kind := k, payload := c.payload } := by
  refine ⟨fun r => decode_encode_of_carries, readAlike format, fun ds hlength hdigits => ?_⟩
  obtain ⟨u, hu⟩ := Uuid.exists_spelt hlength hdigits
  refine ⟨u, fun ds' bs c k hsame hc hspelling hname => ?_⟩
  exact ((readAlike format bs).accepted _).2 ⟨c, hc, hu ds' c.id hsame hspelling, hname, rfl, rfl⟩

/-- An object of a whole number goes there and back in both formats, the same digits are read in braces
and as a name, once in capitals, and a bad id, a bad name and bytes that stop short are reported. -/
theorem codec_exact_edges :
    let payload : Value := .object [("n", .number (.whole (-9223372036854775808)))]
    let r : Result := ⟨⟨0x6f1c4f5e3a1e4d8e9d0c2b0f7b1c9a11⟩, .courierAssigned, payload, {}⟩
    let written (id name : String) : List UInt8 := Command.encode .json ⟨id, name, .null, {}⟩
    decode .json (r.encode .json) = .ok r ∧ decode .msgPack (r.encode .msgPack) = .ok r ∧
      (∃ u, decode .json (written "\x7b6F1C4F5E-3A1E-4D8E-9D0C-2B0F7B1C9A11\x7d"
            "courier.courier_assigned") = .ok ⟨u, .courierAssigned, .null, {}⟩ ∧
          decode .json (written "Urn:Uuid:6f1c4f5e-3a1e-4d8e-9d0c-2b0f7b1c9a11"
            "courier.courier_unassigned") = .ok ⟨u, .courierUnassigned, .null, {}⟩) ∧
      decode .json (written "c1" "courier.nope") = .error (.invalidResultId "c1") ∧
      decode .json (written "6f1c4f5e3a1e4d8e9d0c2b0f7b1c9a11" "courier.nope") =
        .error (.unknownResult "courier.nope") ∧
      decode .msgPack [] = .error (.wire (.msgPack .cutShort)) := by
  intro payload r written
  have hleast : (Number.whole (-9223372036854775808)).fits := by decide
  have hone : 1 < MsgPack.sizeLimit := by decide
  have hcarries (format : WireFormat) : format.Carries payload := by
    refine ⟨⟨by decide, hleast, trivial⟩, ?_, fun _ => ⟨trivial, hleast, trivial⟩,
      fun _ => ⟨⟨hone, by decide⟩, hleast, trivial⟩⟩
    cases format <;> decide
  have hread (id name : String) (hid : ¬ Text.IsBlank id) (hname : ¬ Text.IsBlank name) :
      Command.decode .json (written id name) = .ok ⟨id, name, .null, {}⟩ := by
    have hback := Command.decode_encode_json ⟨id, name, .null, {}⟩ trivial trivial
    rwa [if_neg (by simp [Value.depth]), if_neg hid, if_neg hname] at hback
  have hbraced := hread "\x7b6F1C4F5E-3A1E-4D8E-9D0C-2B0F7B1C9A11\x7d" "courier.courier_assigned"
    (by decide) (by decide)
  have hnamed := hread "Urn:Uuid:6f1c4f5e-3a1e-4d8e-9d0c-2b0f7b1c9a11"
    "courier.courier_unassigned" (by decide) (by decide)
  have hbad := hread "c1" "courier.nope" (by decide) (by decide)
  have hplain := hread "6f1c4f5e3a1e4d8e9d0c2b0f7b1c9a11" "courier.nope" (by decide) (by decide)
  have hdigits : "6f1c4f5e3a1e4d8e9d0c2b0f7b1c9a11".toList.all (·.toLower ∈ Hex.alphabet) = true := by
    decide
  obtain ⟨u, hu⟩ := (codec_exact .json).2.2 "6f1c4f5e3a1e4d8e9d0c2b0f7b1c9a11".toList (by decide)
    fun d hd => of_decide_eq_true (List.all_eq_true.1 hdigits d hd)
  refine ⟨(codec_exact .json).1 r (hcarries .json), (codec_exact .msgPack).1 r (hcarries .msgPack),
    ⟨u, ?_, ?_⟩, ?_, ?_, ?_⟩
  · exact hu "6F1C4F5E3A1E4D8E9D0C2B0F7B1C9A11".toList _ _ .courierAssigned (by decide) hbraced
      .braces rfl
  · exact hu "6f1c4f5e3a1e4d8e9d0c2b0f7b1c9a11".toList _ _ .courierUnassigned (by decide) hnamed
      (@Uuid.Spelling.urn _ "Urn:Uuid:".toList (by decide)) rfl
  · refine ((codec_exact .json).2.1 _).badId _ hbad fun u hspelt => ?_
    have hsome := Uuid.ofText?_eq_some_iff.2 hspelt
    have hnone : Uuid.ofText? "c1" = none := by decide
    rw [hnone] at hsome
    cases hsome
  · have hspelt : Uuid.Spelt ⟨0x6f1c4f5e3a1e4d8e9d0c2b0f7b1c9a11⟩
        "6f1c4f5e3a1e4d8e9d0c2b0f7b1c9a11" := Uuid.ofText?_eq_some_iff.1 (by decide)
    exact ((codec_exact .json).2.1 _).badName _ _ hplain hspelt fun k => by cases k <;> decide
  · exact ((codec_exact .msgPack).2.1 []).refused _ rfl

end Result

end CourierDispatch
