import CourierDispatch.Envelope
import CourierDispatch.Proofs.Value.Offer

/-!
# Offering an envelope to a draft

An envelope is written as an object of its three fields. A draft that is offered this object ends up
with these fields, whatever the format, unless the payload is nested too deep.
-/

namespace CourierDispatch

namespace Manner

variable {ε σ : Type} [Consumer σ]

/-- How a value is received depends on the consumer only through its first token. -/
theorem Offers.congr {m : Manner ε} {form : Number → Token → Prop}
    (hform : ∀ n t, form n t → n.Form t) {c d : σ}
    (ha : ∀ t, t ≠ .arrayEnd → Consumer.accept c t = Consumer.accept d t)
    (hc : Consumer.skims c = false) (hd : Consumer.skims d = false) {depth : Nat} {v : Value}
    {k : σ → Except ε σ} (h : m.Offers form depth v k) : k c = k d := by
  have hand_eq : ∀ t, t ≠ .arrayEnd → m.hand c t = m.hand d t := by
    intro t ht
    rw [hand, hand, ha t ht]
  have scalar_eq : ∀ t, t.IsScalar → m.handScalar c t = m.handScalar d t := by
    intro t ht
    rw [handScalar, handScalar, hc, hd]
    refine hand_eq t ?_
    rintro rfl
    exact ht
  have enter_eq : ∀ t, t ≠ .arrayEnd → m.enter depth c t = m.enter depth d t := by
    intro t ht
    rw [enter, enter, hc, hd]
    cases m.tooDeep? false depth with
    | none => exact hand_eq t ht
    | some e => rfl
  cases v with
  | null | bool | string =>
      rw [h]
      exact scalar_eq _ trivial
  | number n =>
      obtain ⟨t, ht, h⟩ := h
      rw [h]
      exact scalar_eq t (hform n t ht).isScalar
  | array items =>
      obtain ⟨ks, -, h⟩ := h
      rw [h]
      simp only
      rw [enter_eq .arrayStart (by simp)]
  | object members =>
      obtain ⟨ks, -, h⟩ := h
      rw [h]
      simp only
      rw [enter_eq .objectStart (by simp)]

end Manner

namespace Envelope

def toValue (e : Envelope) : Value :=
  .object [(Field.id.wireName, .string e.id), (Field.name.wireName, .string e.name),
    (Field.payload.wireName, e.payload)]

namespace Draft

def filled (e : Envelope) : Draft :=
  { stage := .complete, id := some e.id, name := some e.name, payload := some e.payload }

theorem hosts_resume (d : Draft) : Hosts d.resume where
  accept b t hb := by
    have hstage : (d.resume b).stage = .payload b := by simp [resume, hb]
    change (d.resume b).accept t = _
    unfold accept
    simp only [hstage, acceptPayload]
    cases Value.Builder.accept b t with
    | error m => rfl
    | ok b' =>
        simp only [Except.map, resume, hb]
        cases b'.result? <;> rfl
  skims b hb := by
    change (d.resume b).skims = false
    simp [skims, resume, hb]
  sated b hb := by
    change (d.resume b).sated = false
    simp [sated, resume, hb]

theorem next_eq {ε : Type} (m : Manner ε) {d : Draft} (hd : d.stage ≠ .full)
    (inMap last : Bool) : m.next inMap last d = .ok d := by
  refine m.next_of_not_sated ?_ inMap last
  change d.sated = false
  unfold sated
  split
  · contradiction
  · rfl

theorem accept_field_payload {d : Draft} (hd : d.stage = .field .payload) {t : Token}
    (ht : t ≠ .arrayEnd) :
    Consumer.accept d t = (Value.Builder.start.accept t).map d.resume := by
  change d.accept t = _
  unfold accept
  simp only [hd, acceptField, acceptPayload]
  split
  · exact absurd rfl ht
  · exact absurd rfl ht
  · cases Value.Builder.start.accept _ <;> rfl
  all_goals simp_all

/-- A draft that waits for its payload is a draft whose payload is about to be built. -/
theorem offers_field_payload {ε : Type} {m : Manner ε} {form : Number → Token → Prop}
    (hform : ∀ n t, form n t → n.Form t) {d : Draft} (hd : d.stage = .field .payload) {depth : Nat}
    {v : Value} {k : Draft → Except ε Draft} (hk : m.Offers form depth v k) :
    k d = k (d.resume .start) := by
  have hskims : d.skims = false := by simp [skims, hd]
  refine hk.congr hform (fun t ht => ?_) hskims ((hosts_resume d).skims .start rfl)
  rw [(hosts_resume d).accept .start t rfl]
  exact accept_field_payload hd ht

/-- The fields of an envelope fill a draft, if the payload fits into the object around it. -/
theorem offer_toValue {ε : Type} {m : Manner ε} {limit : Nat} {fault : ε}
    (hm : m.Limits limit fault) (hl : 0 < limit) (e : Envelope) (he : e.payload.WellFormed) :
    m.offer 0 ({} : Draft) e.toValue =
      if e.payload.depth + 1 ≤ limit then .ok (filled e) else .error fault := by
  have hopen : m.enter 0 ({} : Draft) .objectStart = .ok { stage := .memberName } := by
    have hskims : Consumer.skims ({} : Draft) = false := rfl
    rw [Manner.enter, hskims, hm 0, if_neg (by omega)]
    rfl
  have hpayload : m.offer 1
      ({ stage := .field .payload, id := some e.id, name := some e.name } : Draft) e.payload =
      if e.payload.depth + 1 ≤ limit then
        .ok { stage := .memberName, id := some e.id, name := some e.name,
              payload := some e.payload }
      else .error fault := by
    have hoffers : m.Offers Number.Form 1 e.payload fun d : Draft => m.offer 1 d e.payload :=
      Manner.offers_offer .own 1 e.payload
    rw [offers_field_payload (fun _ _ h => h) rfl hoffers]
    have hhosts := hosts_resume { stage := .field .payload, id := some e.id, name := some e.name }
    have hone : 1 ≤ limit := hl
    rw [Nat.add_comm]
    exact hhosts.offer_eq hm hone .top e.payload he
  have hidName : m.handScalar ({ stage := .memberName } : Draft) (.text Field.id.wireName) =
      .ok { stage := .field .id } := m.handScalar_of_accept rfl rfl
  have hid : m.handScalar ({ stage := .field .id } : Draft) (.text e.id) =
      .ok { stage := .memberName, id := some e.id } := m.handScalar_of_accept rfl rfl
  have hnameName : m.handScalar ({ stage := .memberName, id := some e.id } : Draft)
      (.text Field.name.wireName) = .ok { stage := .field .name, id := some e.id } :=
    m.handScalar_of_accept rfl rfl
  have hname : m.handScalar ({ stage := .field .name, id := some e.id } : Draft) (.text e.name) =
      .ok { stage := .memberName, id := some e.id, name := some e.name } :=
    m.handScalar_of_accept rfl rfl
  have hpayloadName : m.handScalar
      ({ stage := .memberName, id := some e.id, name := some e.name } : Draft)
      (.text Field.payload.wireName) =
      .ok { stage := .field .payload, id := some e.id, name := some e.name } :=
    m.handScalar_of_accept rfl rfl
  rw [toValue, Manner.offer, hopen]
  simp only [Manner.offerMembers, Manner.offer, Except.bind, hidName, hid, hnameName, hname,
    hpayloadName, hpayload, next_eq, ne_eq, reduceCtorEq, not_false_eq_true]
  by_cases hfits : e.payload.depth + 1 ≤ limit
  · simp only [hfits, if_true, next_eq, ne_eq, reduceCtorEq, not_false_eq_true]
    exact m.hand_of_accept rfl
  · simp only [hfits, if_false]

end Draft

end Envelope

end CourierDispatch
