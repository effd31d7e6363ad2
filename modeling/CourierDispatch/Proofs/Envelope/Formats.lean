import CourierDispatch.Command
import CourierDispatch.Proofs.Json.Text
import CourierDispatch.Proofs.MsgPack.Scanner
import CourierDispatch.Proofs.Value.Taken

/-!
# The formats agree

A draft is an even-handed consumer, so up to 127 containers deep it takes the same values from JSON and
from MsgPack. What is made of a value is therefore the same in both formats, whether it is an envelope or
not; only the fault that a value is refused with is one of the format.
-/

namespace CourierDispatch

open Consumer

theorem Json.manner_roomy : Json.manner.Roomy Json.Scanner.depthLimit where
  tooDeep? skims depth h := by simp [Json.manner, Nat.not_le.2 h]
  skim t := by cases t <;> simp [Json.manner]

theorem MsgPack.manner_roomy : MsgPack.manner.Roomy MsgPack.Scanner.depthLimit where
  tooDeep? skims depth h := by simp [MsgPack.manner, Nat.not_le.2 h]
  skim _ := .inl rfl

theorem WireFormat.toOption_feed_print {σ : Type} [Consumer σ] (hσ : EvenHanded σ)
    (format : WireFormat) (c : σ) {v : Value} (hi : v.Integral) (hs : MsgPack.Sized v)
    (hd : v.depth ≤ 127) : (format.feed c (format.print v)).toOption = take? c v := by
  have hzero : 0 + v.depth ≤ 127 := by omega
  cases format with
  | json =>
      rw [← Manner.toOption_offer hσ Json.manner_roomy 0 c v hzero, feed, print,
        Json.Scanner.feed_print v hi]
      cases Json.manner.offer 0 c v <;> rfl
  | msgPack =>
      have hprint := MsgPack.Scanner.feed_print v hs c []
      rw [List.append_nil] at hprint
      have hroom : 0 + v.depth ≤ MsgPack.Scanner.depthLimit := hzero.trans (by decide)
      rw [← Manner.toOption_offer hσ MsgPack.manner_roomy 0 c v hroom, feed, print, hprint]
      cases MsgPack.manner.offer 0 c v <;> rfl

def WireFormat.Owns : WireFormat → WireFault → Prop
  | json, .json _ | msgPack, .msgPack _ => True
  | _, _ => False

theorem WireFormat.owns_of_feed {σ : Type} [Consumer σ] {format : WireFormat} {c : σ}
    {bs : List UInt8} {f : WireFault} (h : format.feed c bs = .error f) : format.Owns f := by
  cases format with
  | json =>
      cases hfeed : Json.feed c bs <;> simp only [feed, hfeed, Except.mapError] at h <;> cases h
      trivial
  | msgPack =>
      cases hfeed : MsgPack.feed c bs <;> simp only [feed, hfeed, Except.mapError] at h <;> cases h
      trivial

namespace Envelope

/-- An unknown member is passed over whatever it is, and behind the last field only the array may
end. -/
theorem Draft.evenHanded : EvenHanded Draft where
  accept_skimmed d t hs ht := by
    change d.skims = true at hs
    change d.accept .skimmed = d.accept t
    unfold skims at hs
    split at hs
    next depth hat => cases t <;> first | exact ht.elim | simp [accept, hat, skip]
    next => cases hs
  accept_sated d t hs ht := by
    change d.sated = true at hs
    change (d.accept t).toOption = none
    unfold sated at hs
    split at hs
    next hat => cases t <;> first | exact absurd rfl ht | simp [accept, hat, Except.toOption]
    next => cases hs

theorem toOption_parse_print (format : WireFormat) {v : Value} (hi : v.Integral)
    (hs : MsgPack.Sized v) (hd : v.depth ≤ 127) :
    (parse format (format.print v)).toOption = (take? ({} : Draft) v).bind Draft.result? := by
  rw [← format.toOption_feed_print Draft.evenHanded ({} : Draft) hi hs hd, parse]
  cases format.feed ({} : Draft) (format.print v) with
  | error f => rfl
  | ok d =>
      change _ = d.result?
      cases hresult : d.result? <;> simp [hresult, Except.toOption]

theorem owns_of_parse {format : WireFormat} {bs : List UInt8} {f : WireFault}
    (h : parse format bs = .error f) : format.Owns f := by
  unfold parse at h
  split at h
  next f' hfeed =>
    cases h
    exact WireFormat.owns_of_feed hfeed
  next =>
    split at h
    next => cases h
    next =>
      cases h
      cases format <;> trivial

end Envelope

namespace Command

/-- What JSON and MsgPack may make of the same value. -/
inductive Agree : Except CodecError Command → Except CodecError Command → Prop
  | accepted (c : Command) : Agree (.ok c) (.ok c)
  | missingId : Agree (.error .missingId) (.error .missingId)
  | missingName : Agree (.error .missingName) (.error .missingName)
  /-- The value is no envelope, and each format says so with a fault of its own. -/
  | refused {f g : WireFault} (hf : WireFormat.json.Owns f) (hg : WireFormat.msgPack.Owns g) :
    Agree (.error (.wire f)) (.error (.wire g))

theorem agree_check (e : Envelope) : Agree (e.check.map ofEnvelope) (e.check.map ofEnvelope) := by
  unfold Envelope.check
  split
  next => exact .missingId
  next =>
    split
    next => exact .missingName
    next => exact .accepted _

/-- Both formats accept the same values and read the same command from them, and a blank id or name is
found in both. -/
theorem formats_agree (v : Value) (hi : v.Integral) (hs : MsgPack.Sized v) (hd : v.depth ≤ 127) :
    Agree (decode .json (Json.print v)) (decode .msgPack (MsgPack.print v)) := by
  have hsame : (Envelope.parse .json (Json.print v)).toOption =
      (Envelope.parse .msgPack (MsgPack.print v)).toOption :=
    (Envelope.toOption_parse_print .json hi hs hd).trans
      (Envelope.toOption_parse_print .msgPack hi hs hd).symm
  unfold decode Envelope.decode
  cases hread : Envelope.parse .json (Json.print v) with
  | error f =>
      cases hread' : Envelope.parse .msgPack (MsgPack.print v) with
      | error g => exact .refused (Envelope.owns_of_parse hread) (Envelope.owns_of_parse hread')
      | ok e =>
          rw [hread, hread'] at hsame
          cases hsame
  | ok e =>
      cases hread' : Envelope.parse .msgPack (MsgPack.print v) with
      | error f =>
          rw [hread, hread'] at hsame
          cases hsame
      | ok e' =>
          rw [hread, hread'] at hsame
          cases hsame
          exact agree_check e

/-- The members come in no order, one of them is unknown and nested, and the id is blank. -/
theorem formats_agree_disordered :
    let v : Value := .object
      [("name", .string "x"), ("extra", .array [.array [.null]]), ("payload", .number (.whole (-1))),
        ("id", .string " ")]
    v.Integral ∧ MsgPack.Sized v ∧ v.depth ≤ 127 ∧
      Agree (decode .json (Json.print v)) (decode .msgPack (MsgPack.print v)) := by
  intro v
  have hone : (Number.whole (-1)).fits := by decide
  have hi : v.Integral :=
    ⟨trivial, trivial, ⟨trivial, ⟨trivial, trivial, trivial⟩, trivial⟩, hone, trivial, trivial⟩
  have hitem : 1 < MsgPack.sizeLimit := by decide
  have hs : MsgPack.Sized v := by
    refine ⟨⟨by decide, by decide⟩, ?_, ⟨hitem, ⟨hitem, trivial, trivial⟩, trivial⟩, hone, ?_, trivial⟩
    · exact (by decide : MsgPack.Fits "x")
    · exact (by decide : MsgPack.Fits " ")
  exact ⟨hi, hs, by decide, formats_agree v hi hs (by decide)⟩

end Command

end CourierDispatch
