import CourierDispatch.Proofs.Value.Offer

/-!
# What a consumer takes

`Consumer.take?` hands a value to a consumer without any of the points in which formats differ, and keeps
nothing of a refusal. An even-handed consumer takes a value in every manner the way it does here, as long
as its containers are not nested too deep for the manner.
-/

namespace CourierDispatch

namespace Consumer

variable {σ : Type} [Consumer σ]

def accept? (c : σ) (t : Token) : Option σ := (accept c t).toOption

mutual
/-- Hands the tokens of a value to a consumer. -/
def take? (c : σ) : Value → Option σ
  | .null => accept? c .null
  | .bool b => accept? c (.bool b)
  | .number n => accept? c n.token
  | .string s => accept? c (.text s)
  | .array items =>
    (accept? c .arrayStart).bind fun c => (takeItems? c items).bind fun c => accept? c .arrayEnd
  | .object members =>
    (accept? c .objectStart).bind fun c =>
      (takeMembers? c members).bind fun c => accept? c .objectEnd

def takeItems? (c : σ) : List Value → Option σ
  | [] => some c
  | v :: rest => (take? c v).bind fun c => takeItems? c rest

def takeMembers? (c : σ) : List (String × Value) → Option σ
  | [] => some c
  | (k, v) :: rest =>
    (accept? c (.text k)).bind fun c => (take? c v).bind fun c => takeMembers? c rest
end

/-- A consumer to which the points in which formats differ make no difference. -/
structure EvenHanded (σ : Type) [Consumer σ] : Prop where
  /-- Of a scalar that is passed over nothing matters. -/
  accept_skimmed : ∀ (c : σ) (t : Token), skims c = true → t.IsScalar →
    accept c .skimmed = accept c t
  /-- Where no further item is taken, only the end of the array is. -/
  accept_sated : ∀ (c : σ) (t : Token), sated c = true → t ≠ .arrayEnd → accept? c t = none

theorem EvenHanded.take?_sated (h : EvenHanded σ) {c : σ} (hc : sated c = true) (v : Value) :
    take? c v = none := by
  have hnone : ∀ t, t ≠ .arrayEnd → accept? c t = none := fun t => h.accept_sated c t hc
  cases v with
  | null => exact hnone _ (by simp)
  | bool b => exact hnone _ (by simp)
  | number n =>
      refine hnone _ fun hn => ?_
      have hscalar := (Number.Form.own n).isScalar
      rw [hn] at hscalar
      exact hscalar
  | string s => exact hnone _ (by simp)
  | array items => rw [take?, hnone _ (by simp), Option.bind_none]
  | object members => rw [take?, hnone _ (by simp), Option.bind_none]

end Consumer

theorem Except.toOption_bind {ε α β : Type} (x : Except ε α) (f : α → Except ε β) :
    (x.bind f).toOption = x.toOption.bind fun a => (f a).toOption := by
  cases x <;> rfl

namespace Manner

open Consumer Value

/-- A format in which fewer than `limit` containers around another one never keep it from being opened,
and scalars that are passed over stay what they are or become `Token.skimmed`. -/
structure Roomy {ε : Type} (m : Manner ε) (limit : Nat) : Prop where
  tooDeep? : ∀ skims depth, depth < limit → m.tooDeep? skims depth = none
  skim : ∀ t, m.skim t = t ∨ m.skim t = .skimmed

variable {ε σ : Type} [Consumer σ] {m : Manner ε} {limit : Nat}

theorem toOption_hand (m : Manner ε) (c : σ) (t : Token) : (m.hand c t).toOption = accept? c t := by
  rw [hand, accept?]
  cases accept c t <;> rfl

theorem toOption_handScalar (hσ : EvenHanded σ) (hm : m.Roomy limit) (c : σ) {t : Token}
    (ht : t.IsScalar) : (m.handScalar c t).toOption = accept? c t := by
  rw [handScalar, toOption_hand]
  split
  next hs =>
    rcases hm.skim t with hskim | hskim
    · rw [hskim]
    · rw [hskim, accept?, accept?, hσ.accept_skimmed c t hs ht]
  next => rfl

theorem toOption_enter (hm : m.Roomy limit) {depth : Nat} (hd : depth < limit) (c : σ) (t : Token) :
    (m.enter depth c t).toOption = accept? c t := by
  rw [enter, hm.tooDeep? _ _ hd]
  exact m.toOption_hand c t

/-- A further item that comes too many is refused, by the format or by the consumer. -/
theorem toOption_next_bind (m : Manner ε) (inMap last : Bool) (c : σ) (k : σ → Except ε σ)
    (h : last = false → sated c = true → (k c).toOption = none) :
    ((m.next inMap last c).bind k).toOption = (k c).toOption := by
  unfold next
  split
  next => rfl
  next hlast =>
    split
    next =>
      split
      next hs => exact (h (by simpa using hlast) hs).symm
      next => rfl
    next => rfl

mutual
/-- What becomes of a value depends on the manner only where containers are nested too deep. -/
theorem toOption_offer (hσ : EvenHanded σ) (hm : m.Roomy limit) (depth : Nat) (c : σ) (v : Value)
    (hv : depth + v.depth ≤ limit) : (m.offer depth c v).toOption = take? c v := by
  match v, hv with
  | .null, _ => exact toOption_handScalar hσ hm c trivial
  | .bool b, _ => exact toOption_handScalar hσ hm c trivial
  | .number n, _ => exact toOption_handScalar hσ hm c (Number.Form.own n).isScalar
  | .string s, _ => exact toOption_handScalar hσ hm c trivial
  | .array items, hv =>
      rw [Value.depth] at hv
      rw [offer, take?, Except.toOption_bind, toOption_enter hm (by omega)]
      congr 1
      funext c
      rw [Except.toOption_bind, toOption_offerItems hσ hm (depth + 1) c items (by omega)]
      simp only [toOption_hand]
  | .object members, hv =>
      rw [Value.depth] at hv
      rw [offer, take?, Except.toOption_bind, toOption_enter hm (by omega)]
      congr 1
      funext c
      rw [Except.toOption_bind, toOption_offerMembers hσ hm (depth + 1) c members (by omega)]
      simp only [toOption_hand]

theorem toOption_offerItems (hσ : EvenHanded σ) (hm : m.Roomy limit) (depth : Nat) (c : σ)
    (items : List Value) (hv : depth + depthOfItems items ≤ limit) :
    (m.offerItems depth c items).toOption = takeItems? c items := by
  match items, hv with
  | [], _ => rfl
  | v :: rest, hv =>
      rw [depthOfItems] at hv
      rw [offerItems, takeItems?, Except.toOption_bind, toOption_offer hσ hm depth c v (by omega)]
      congr 1
      funext c
      have hrest := toOption_offerItems hσ hm depth c rest (by omega)
      rw [toOption_next_bind, hrest]
      intro hlast hs
      cases rest with
      | nil => cases hlast
      | cons w rest => rw [hrest, takeItems?, hσ.take?_sated hs, Option.bind_none]

theorem toOption_offerMembers (hσ : EvenHanded σ) (hm : m.Roomy limit) (depth : Nat) (c : σ)
    (members : List (String × Value)) (hv : depth + depthOfMembers members ≤ limit) :
    (m.offerMembers depth c members).toOption = takeMembers? c members := by
  match members, hv with
  | [], _ => rfl
  | (k, v) :: rest, hv =>
      rw [depthOfMembers] at hv
      rw [offerMembers, takeMembers?, Except.toOption_bind,
        toOption_handScalar (t := .text k) hσ hm c trivial]
      congr 1
      funext c
      have hoffer := toOption_offer hσ hm depth c v (by omega)
      rw [toOption_next_bind, Except.toOption_bind, hoffer]
      · congr 1
        funext c
        have hrest := toOption_offerMembers hσ hm depth c rest (by omega)
        rw [toOption_next_bind, hrest]
        intro hlast hs
        cases rest with
        | nil => cases hlast
        | cons w rest =>
            rw [hrest, takeMembers?, hσ.accept_sated c _ hs (by simp), Option.bind_none]
      · intro _ hs
        rw [Except.toOption_bind, hoffer, hσ.take?_sated hs, Option.bind_none]
end

end Manner

end CourierDispatch
