import CourierDispatch.Envelope.Codec
import CourierDispatch.Proofs.Envelope.Draft
import CourierDispatch.Proofs.MsgPack.Scanner

/-!
# Envelopes in MsgPack and back

As in JSON, the bytes of an envelope are those of an object of its three fields.
-/

namespace CourierDispatch.Envelope

structure Sized (e : Envelope) : Prop where
  id : MsgPack.Fits e.id
  name : MsgPack.Fits e.name
  payload : MsgPack.Sized e.payload

theorem msgPackBytes_eq_print (e : Envelope) : e.msgPackBytes = MsgPack.print e.toValue := by
  simp [msgPackBytes, toValue, MsgPack.print, MsgPack.printMembers, Field.wireName]

theorem Sized.toValue {e : Envelope} (h : e.Sized) : MsgPack.Sized e.toValue := by
  have hwire : ∀ f : Field, MsgPack.Fits f.wireName := by
    intro f
    cases f <;> decide
  have hthree : 3 < MsgPack.sizeLimit := by decide
  refine ⟨⟨hthree, ?_⟩, h.id, h.name, h.payload, trivial⟩
  intro m hm
  simp only [List.mem_cons, List.not_mem_nil, or_false] at hm
  rcases hm with rfl | rfl | rfl
  · exact hwire .id
  · exact hwire .name
  · exact hwire .payload

/-- Reading an envelope back from MsgPack, before its id and name are looked at. -/
theorem parse_encode_msgPack (e : Envelope) (hw : e.payload.WellFormed) (hs : e.Sized) :
    parse .msgPack (e.encode .msgPack) =
      if 1022 < e.payload.depth then .error (.msgPack .tooDeep) else .ok e := by
  have hfeed : MsgPack.feed ({} : Draft) (e.encode .msgPack) =
      if e.payload.depth + 1 ≤ MsgPack.Scanner.depthLimit then .ok (Draft.filled e)
      else .error .tooDeep := by
    have hprint := MsgPack.Scanner.feed_print e.toValue hs.toValue ({} : Draft) []
    rw [List.append_nil, ← msgPackBytes_eq_print] at hprint
    rw [← Draft.offer_toValue MsgPack.manner_limits (by decide) e hw]
    exact hprint
  rw [parse, WireFormat.feed, hfeed]
  by_cases hdepth : 1022 < e.payload.depth
  · rw [if_pos hdepth, if_neg (by simp only [MsgPack.Scanner.depthLimit]; omega)]
    rfl
  · rw [if_neg hdepth, if_pos (by simp only [MsgPack.Scanner.depthLimit]; omega)]
    rfl

end CourierDispatch.Envelope
