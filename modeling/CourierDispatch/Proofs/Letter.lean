import CourierDispatch.Proofs.Envelope.Carried
import CourierDispatch.Proofs.Ledger
import CourierDispatch.Proofs.Value.Texts

/-!
# The order ids in messages

An order id comes out of the payload of a command. In MsgPack it is short enough to be written again.
-/

namespace CourierDispatch

theorem MsgPack.Sized.texts {v : Value} (h : Sized v) : v.Texts Fits := by
  refine Value.All.imp ?_ v h
  intro v hv
  cases v with
  | string s => exact hv
  | object members => exact hv.2
  | _ => trivial

theorem Command.texts_request? {p : String → Prop} {c : Command} {r : Request}
    (hc : c.payload.Texts p) (h : c.request? = some r) : p r.order.text := by
  unfold Command.request? at h
  split at h
  · cases h
  · split at h
    next o ho =>
      cases h
      exact DetailsType.texts_read hc ho (Details.orderField, o.text) List.mem_cons_self
    next => cases h
  · split at h
    next o ho =>
      cases h
      exact DetailsType.texts_read hc ho (Details.orderField, o.text) List.mem_cons_self
    next => cases h

theorem Command.texts_decode_msgPack {bs : List UInt8} {c : Command}
    (h : Command.decode .msgPack bs = .ok c) : c.payload.Texts MsgPack.Fits :=
  (Command.carried_of_decode h).1.payload.sized.texts

/-- An order id that was read from MsgPack can be written to MsgPack. -/
theorem Letter.fits_order {l : Letter} {r : Request} (h : l.request? .msgPack = some r) :
    MsgPack.Fits r.order.text := by
  unfold Letter.request? at h
  split at h
  next c hc => exact Command.texts_request? (Command.texts_decode_msgPack hc) h
  next => cases h

end CourierDispatch
