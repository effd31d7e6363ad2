import CourierDispatch.Proofs.Envelope.Carried

/-!
# Commands in MsgPack and back

A command that fits into its headers comes back from MsgPack. What is read from MsgPack fits into its
headers whatever the bytes are, so to write it is to bring the bytes into a normal form.
-/

namespace CourierDispatch

theorem Envelope.check_of_not_blank {e : Envelope} (hid : ¬ Text.IsBlank e.id)
    (hname : ¬ Text.IsBlank e.name) : e.check = .ok e := by
  rw [check, if_neg hid, if_neg hname]

namespace Command

open Text

theorem decode_of_parse {format : WireFormat} {bs : List UInt8} {c : Command}
    (hparse : Envelope.parse format bs = .ok c.envelope)
    (hcheck : c.envelope.check = .ok c.envelope) :
    decode format bs = .ok { c with context := {} } := by
  rw [decode, Envelope.decode, hparse]
  simp only [hcheck]
  rfl

/-- A command whose payload is not nested too deep comes back if its id and name are accepted. -/
theorem decode_encode_of_check {c : Command} (hw : c.payload.WellFormed) (hs : c.envelope.Sized)
    (hdepth : c.payload.depth ≤ 1022) (hcheck : c.envelope.check = .ok c.envelope) :
    decode .msgPack (c.encode .msgPack) = .ok { c with context := {} } := by
  have hparse := Envelope.parse_encode_msgPack c.envelope hw hs
  have hfits : ¬ 1022 < c.envelope.payload.depth := Nat.not_lt.2 hdepth
  rw [if_neg hfits] at hparse
  exact decode_of_parse hparse hcheck

/-- Reading from MsgPack undoes writing, and a command that was read comes back unchanged, whatever
the bytes were. -/
theorem msgPack_normal_form :
    (∀ c : Command, c.payload.WellFormed → c.envelope.Sized → c.payload.depth ≤ 1022 →
      ¬ IsBlank c.id → ¬ IsBlank c.name →
      decode .msgPack (c.encode .msgPack) = .ok { c with context := {} }) ∧
    ∀ (bs : List UInt8) (c : Command), decode .msgPack bs = .ok c →
      decode .msgPack (c.encode .msgPack) = .ok c := by
  constructor
  · intro c hw hs hdepth hid hname
    exact decode_encode_of_check hw hs hdepth (Envelope.check_of_not_blank hid hname)
  · intro bs c hread
    obtain ⟨hcarried, hcheck, hcontext⟩ := carried_of_decode hread
    have hback := decode_encode_of_check hcarried.payload.wellFormed hcarried.sized
      hcarried.depth_le hcheck
    rw [hback, ← hcontext]

/-- The least and the largest whole number and a negative zero are written and come back. The bytes have
a number in place of a field name, bytes in place of the id, a member that comes twice, first as a
binary32 NaN, and a byte too many. -/
theorem msgPack_normal_form_edges :
    let payload : Value := .object
      [("a", .array [.number (.whole (-9223372036854775808)), .null]),
        ("b", .number (.whole 18446744073709551615)),
        ("c", .number (.double ⟨0x8000000000000000⟩))]
    let bytes : List UInt8 :=
      [0x83, 0x00, 0xC4, 0x01, 0x63, 0xA4, 0x6E, 0x61, 0x6D, 0x65, 0xA1, 0x78, 0x02,
        0x82, 0xA1, 0x61, 0xCA, 0x7F, 0xC0, 0x00, 0x00, 0xA1, 0x61, 0x92, 0xC0, 0xE0, 0xFF]
    let c : Command := ⟨"c", "x", .object [("a", .array [.null, .number (.whole (-32))])], {}⟩
    decode .msgPack (encode .msgPack ⟨"c", "x", payload, {}⟩) = .ok ⟨"c", "x", payload, {}⟩ ∧
      decode .msgPack bytes = .ok c ∧ decode .msgPack (c.encode .msgPack) = .ok c := by
  intro payload bytes c
  have hleast : (Number.whole (-9223372036854775808)).fits := by decide
  have hlargest : (Number.whole 18446744073709551615).fits := by decide
  have hzero : (Number.double ⟨0x8000000000000000⟩).fits := by decide
  have hw : payload.WellFormed :=
    ⟨by decide, ⟨hleast, trivial, trivial⟩, hlargest, hzero, trivial⟩
  have htwo : 2 < MsgPack.sizeLimit := by decide
  have hs : Envelope.Sized ⟨"c", "x", payload⟩ :=
    ⟨by decide, by decide, ⟨by decide, by decide⟩, ⟨htwo, hleast, trivial, trivial⟩, hlargest,
      hzero, trivial⟩
  have hsmall : (Number.whole (-32)).fits := by decide
  have hone : 1 < MsgPack.sizeLimit := by decide
  have hback : decode .msgPack (c.encode .msgPack) = .ok c :=
    msgPack_normal_form.1 c ⟨List.pairwise_singleton _ _, ⟨trivial, hsmall, trivial⟩, trivial⟩
      ⟨by decide, by decide, ⟨hone, by decide⟩, ⟨htwo, trivial, hsmall, trivial⟩, trivial⟩
      (by decide) (by decide) (by decide)
  -- commands are compared by what they are written as
  have hwritten : (decode .msgPack bytes).map (·.encode .msgPack) = .ok (c.encode .msgPack) := by
    decide +kernel
  obtain ⟨c', hread, hsame⟩ := map_eq_ok_iff.1 hwritten
  have hback' := msgPack_normal_form.2 bytes c' hread
  rw [hsame, hback] at hback'
  cases hback'
  exact ⟨msgPack_normal_form.1 ⟨"c", "x", payload, {}⟩ hw hs (by decide) (by decide) (by decide),
    hread, hback⟩

end Command

end CourierDispatch
