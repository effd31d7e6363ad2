import CourierDispatch.Proofs.Value.Normal
import CourierDispatch.Value.Builder

/-!
# Offering a value to a consumer

Reading the text of a value comes down to handing its tokens to a consumer, from the outside in and
from left to right. `Manner.offer` does so by recursion on the value, without any text. The formats
differ in a few points, which a `Manner` holds: what stops a container from being opened, what stops a
further item, and what becomes of a scalar that the consumer passes over.

A number may come in signed form although it is not negative. `Manner.Offers` says that a function hands
on a value as `offer` does, each of its numbers in one of the forms that are allowed.

A consumer may leave a value to a builder. Then the normal form of the value ends up where it belongs,
unless the value is nested too deep, which is found out where the first container too many begins.
-/

namespace CourierDispatch

def Number.token : Number → Token
  | whole n => if n < 0 then .integer n else .natural n.toNat
  | double x => .float x

/-- The tokens that a number may come as. -/
inductive Number.Form : Number → Token → Prop
  | own (n : Number) : n.Form n.token
  | signed (n : Int) : (Number.whole n).Form (.integer n)

def Token.IsScalar : Token → Prop
  | arrayStart | arrayEnd | objectStart | objectEnd => False
  | _ => True

theorem Number.Form.isScalar {n : Number} {t : Token} (h : n.Form t) : t.IsScalar := by
  cases h with
  | own =>
      cases n with
      | whole n => by_cases hn : n < 0 <;> simp [Number.token, hn, Token.IsScalar]
      | double x => trivial
  | signed n => trivial

/-- How a format hands tokens to a consumer. -/
structure Manner (ε : Type) where
  /-- The fault of a token that does not suit the consumer. -/
  mismatch : Mismatch → ε
  /-- The fault of a container, by whether it is passed over and how many are open around it. -/
  tooDeep? : (skims : Bool) → (depth : Nat) → Option ε
  /-- The fault of a further item where the consumer takes no more, in an array or in a map. -/
  surplus? : (inMap : Bool) → Option ε
  /-- The token that stands for a scalar that is passed over. -/
  skim : Token → Token

namespace Manner

variable {ε σ : Type} [Consumer σ] (m : Manner ε)

def hand (c : σ) (t : Token) : Except ε σ := (Consumer.accept c t).mapError m.mismatch

def handScalar (c : σ) (t : Token) : Except ε σ :=
  m.hand c (if Consumer.skims c then m.skim t else t)

def enter (depth : Nat) (c : σ) (opening : Token) : Except ε σ :=
  match m.tooDeep? (Consumer.skims c) depth with
  | some e => .error e
  | none => m.hand c opening

/-- Goes on behind an item, to the next one unless it was the last. -/
def next (inMap last : Bool) (c : σ) : Except ε σ :=
  if last then .ok c
  else
    match m.surplus? inMap with
    | some e => if Consumer.sated c then .error e else .ok c
    | none => .ok c

mutual
/-- Hands the tokens of a value inside `depth` containers to a consumer. -/
def offer (depth : Nat) (c : σ) : Value → Except ε σ
  | .null => m.handScalar c .null
  | .bool b => m.handScalar c (.bool b)
  | .number n => m.handScalar c n.token
  | .string s => m.handScalar c (.text s)
  | .array items =>
    (m.enter depth c .arrayStart).bind fun c =>
      (offerItems (depth + 1) c items).bind fun c => m.hand c .arrayEnd
  | .object members =>
    (m.enter depth c .objectStart).bind fun c =>
      (offerMembers (depth + 1) c members).bind fun c => m.hand c .objectEnd

def offerItems (depth : Nat) (c : σ) : List Value → Except ε σ
  | [] => .ok c
  | v :: rest =>
    (offer depth c v).bind fun c =>
      (m.next false rest.isEmpty c).bind fun c => offerItems depth c rest

def offerMembers (depth : Nat) (c : σ) : List (String × Value) → Except ε σ
  | [] => .ok c
  | (k, v) :: rest =>
    (m.handScalar c (.text k)).bind fun c =>
      (m.next true false c).bind fun c =>
        (offer depth c v).bind fun c =>
          (m.next true rest.isEmpty c).bind fun c => offerMembers depth c rest
end

mutual
/-- The function hands on a value as `offer` does, each of its numbers in one of the given forms. -/
def Offers (form : Number → Token → Prop) (depth : Nat) : Value → (σ → Except ε σ) → Prop
  | .number n, k => ∃ t, form n t ∧ k = fun c => m.handScalar c t
  | .array items, k =>
    ∃ ks, OffersItems form (depth + 1) items ks ∧
      k = fun c =>
        (m.enter depth c .arrayStart).bind fun c => (ks c).bind fun c => m.hand c .arrayEnd
  | .object members, k =>
    ∃ ks, OffersMembers form (depth + 1) members ks ∧
      k = fun c =>
        (m.enter depth c .objectStart).bind fun c => (ks c).bind fun c => m.hand c .objectEnd
  | v, k => k = fun c => m.offer depth c v

def OffersItems (form : Number → Token → Prop) (depth : Nat) :
    List Value → (σ → Except ε σ) → Prop
  | [], k => k = .ok
  | v :: rest, k =>
    ∃ kv ks, Offers form depth v kv ∧ OffersItems form depth rest ks ∧
      k = fun c => (kv c).bind fun c => (m.next false rest.isEmpty c).bind ks

def OffersMembers (form : Number → Token → Prop) (depth : Nat) :
    List (String × Value) → (σ → Except ε σ) → Prop
  | [], k => k = .ok
  | (key, v) :: rest, k =>
    ∃ kv ks, Offers form depth v kv ∧ OffersMembers form depth rest ks ∧
      k = fun c =>
        (m.handScalar c (.text key)).bind fun c =>
          (m.next true false c).bind fun c =>
            (kv c).bind fun c => (m.next true rest.isEmpty c).bind ks
end

section

variable {form : Number → Token → Prop} {m : Manner ε}

mutual
/-- With one form for each number, a value is handed on in only one way. -/
theorem Offers.eq_offer (hform : ∀ n t, form n t → t = n.token) {depth : Nat} {v : Value}
    {k : σ → Except ε σ} (h : m.Offers form depth v k) : k = fun c => m.offer depth c v := by
  match v, h with
  | .null, h | .bool _, h | .string _, h => exact h
  | .number n, h =>
      obtain ⟨t, ht, rfl⟩ := h
      rw [hform n t ht]
      rfl
  | .array items, h =>
      obtain ⟨ks, hks, rfl⟩ := h
      rw [OffersItems.eq_offerItems hform hks]
      rfl
  | .object members, h =>
      obtain ⟨ks, hks, rfl⟩ := h
      rw [OffersMembers.eq_offerMembers hform hks]
      rfl

theorem OffersItems.eq_offerItems (hform : ∀ n t, form n t → t = n.token) {depth : Nat}
    {items : List Value} {k : σ → Except ε σ} (h : m.OffersItems form depth items k) :
    k = fun c => m.offerItems depth c items := by
  match items, h with
  | [], h => exact h
  | v :: rest, h =>
      obtain ⟨kv, ks, hkv, hks, rfl⟩ := h
      rw [Offers.eq_offer hform hkv, OffersItems.eq_offerItems hform hks]
      rfl

theorem OffersMembers.eq_offerMembers (hform : ∀ n t, form n t → t = n.token) {depth : Nat}
    {members : List (String × Value)} {k : σ → Except ε σ}
    (h : m.OffersMembers form depth members k) : k = fun c => m.offerMembers depth c members := by
  match members, h with
  | [], h => exact h
  | (key, v) :: rest, h =>
      obtain ⟨kv, ks, hkv, hks, rfl⟩ := h
      rw [Offers.eq_offer hform hkv, OffersMembers.eq_offerMembers hform hks]
      rfl
end

mutual
theorem offers_offer (hform : ∀ n : Number, form n n.token) (depth : Nat) (v : Value) :
    m.Offers form depth v fun c : σ => m.offer depth c v := by
  match v with
  | .null | .bool _ | .string _ => rfl
  | .number n => exact ⟨n.token, hform n, rfl⟩
  | .array items => exact ⟨_, offersItems_offerItems hform (depth + 1) items, rfl⟩
  | .object members => exact ⟨_, offersMembers_offerMembers hform (depth + 1) members, rfl⟩

theorem offersItems_offerItems (hform : ∀ n : Number, form n n.token) (depth : Nat)
    (items : List Value) : m.OffersItems form depth items fun c : σ => m.offerItems depth c items := by
  match items with
  | [] => rfl
  | v :: rest =>
      exact ⟨_, _, offers_offer hform depth v, offersItems_offerItems hform depth rest, rfl⟩

theorem offersMembers_offerMembers (hform : ∀ n : Number, form n n.token) (depth : Nat)
    (members : List (String × Value)) :
    m.OffersMembers form depth members fun c : σ => m.offerMembers depth c members := by
  match members with
  | [] => rfl
  | (key, v) :: rest =>
      exact ⟨_, _, offers_offer hform depth v, offersMembers_offerMembers hform depth rest, rfl⟩
end

end

/-- At most `limit` containers may be open around each other, if they are read. -/
def Limits (limit : Nat) (e : ε) : Prop :=
  ∀ depth, m.tooDeep? false depth = if limit ≤ depth then some e else none

theorem hand_of_accept {c d : σ} {t : Token} (h : Consumer.accept c t = .ok d) :
    m.hand c t = .ok d := by
  rw [hand, h]
  rfl

theorem handScalar_of_accept {c d : σ} {t : Token} (hs : Consumer.skims c = false)
    (h : Consumer.accept c t = .ok d) : m.handScalar c t = .ok d := by
  rw [handScalar, hs]
  exact m.hand_of_accept h

theorem next_of_not_sated {c : σ} (h : Consumer.sated c = false) (inMap last : Bool) :
    m.next inMap last c = .ok c := by
  unfold next
  cases last
  · cases m.surplus? inMap <;> simp [h]
  · rfl

end Manner

/-- A consumer that leaves a value to a builder until the value is complete. -/
structure Hosts {σ : Type} [Consumer σ] (host : Value.Builder → σ) : Prop where
  accept : ∀ b t, b.result? = none →
    Consumer.accept (host b) t = (Value.Builder.accept b t).map host
  skims : ∀ b, b.result? = none → Consumer.skims (host b) = false
  sated : ∀ b, b.result? = none → Consumer.sated (host b) = false

namespace Hosts

open Value Value.Builder

variable {ε σ : Type} [Consumer σ] {host : Value.Builder → σ}

theorem hand_eq (h : Hosts host) (m : Manner ε) {b b' : Value.Builder} {t : Token}
    (hb : b.result? = none) (ht : b.accept t = .ok b') : m.hand (host b) t = .ok (host b') := by
  refine m.hand_of_accept ?_
  rw [h.accept b t hb, ht]
  rfl

theorem handScalar_eq (h : Hosts host) (m : Manner ε) {b b' : Value.Builder} {t : Token}
    (hb : b.result? = none) (ht : b.accept t = .ok b') :
    m.handScalar (host b) t = .ok (host b') := by
  refine m.handScalar_of_accept (h.skims b hb) ?_
  rw [h.accept b t hb, ht]
  rfl

/-- A container opens unless there are too many around it. -/
theorem enter_eq (h : Hosts host) {m : Manner ε} {limit : Nat} {e : ε} (hm : m.Limits limit e)
    {b b' : Value.Builder} {t : Token} (hb : b.result? = none) (ht : b.accept t = .ok b')
    (depth : Nat) :
    m.enter depth (host b) t = if limit ≤ depth then .error e else .ok (host b') := by
  rw [Manner.enter, h.skims b hb, hm depth]
  by_cases hd : limit ≤ depth
  · simp [hd]
  · simp [hd, h.hand_eq m hb ht]

theorem acceptValue_scalar {t : Token} {v : Value} (place : Place) (ht : scalar? t = some v) :
    (Builder.value place).accept t = .ok (put v place) := by
  change acceptValue place t = _
  cases t <;> simp_all [acceptValue, scalar?]

/-- Whatever it comes as, a builder makes the same of a number. -/
theorem scalar?_form {n : Number} {t : Token} (h : n.Form t) :
    scalar? t = some (Value.number n).normal := by
  cases h with
  | own =>
      cases n with
      | whole n =>
          by_cases hneg : n < 0
          · simp [Number.token, hneg, scalar?, normal]
          · simp [Number.token, hneg, scalar?, normal, Int.toNat_of_nonneg (not_lt.1 hneg)]
      | double x => rfl
  | signed n => rfl

variable {form : Number → Token → Prop}

mutual
/-- The normal form of a value that is left to a builder is built, or the value is nested too deep. -/
theorem offers_eq (h : Hosts host) {m : Manner ε} {limit : Nat} {e : ε} (hm : m.Limits limit e)
    (hform : ∀ n t, form n t → n.Form t) {depth : Nat} (hd : depth ≤ limit) (place : Place)
    (v : Value) {k : σ → Except ε σ} (hk : m.Offers form depth v k) :
    k (host (.value place)) =
      if depth + v.depth ≤ limit then .ok (host (put v.normal place)) else .error e := by
  match v, hk with
  | .null, hk | .bool b, hk | .string s, hk =>
      rw [hk]
      change m.handScalar _ _ = _
      rw [h.handScalar_eq m rfl (acceptValue_scalar place rfl),
        if_pos (by simpa [Value.depth] using hd)]
      rfl
  | .number n, hk =>
      obtain ⟨t, ht, rfl⟩ := hk
      change m.handScalar _ _ = _
      rw [h.handScalar_eq m rfl (acceptValue_scalar place (scalar?_form (hform n t ht))),
        if_pos (by simpa [Value.depth] using hd)]
  | .array items, hk =>
      obtain ⟨ks, hks, rfl⟩ := hk
      have hstart : (Builder.value place).accept .arrayStart = .ok (.value (.item [] place)) := rfl
      simp only
      rw [h.enter_eq hm rfl hstart]
      by_cases hopen : limit ≤ depth
      · rw [if_pos hopen, if_neg (by simp only [Value.depth]; omega)]
        rfl
      · rw [if_neg hopen]
        change (ks (host (.value (.item [] place)))).bind _ = _
        rw [offersItems_eq h hm hform (by omega) [] place items hks]
        have hdepth : depth + 1 + depthOfItems items = depth + (Value.array items).depth := by
          simp only [Value.depth]
          omega
        rw [hdepth]
        by_cases hfits : depth + (Value.array items).depth ≤ limit
        · rw [if_pos hfits, if_pos hfits]
          have hclose : (Builder.value (.item ((normalItems items).reverse ++ []) place)).accept
              .arrayEnd = .ok (put (Value.array items).normal place) := by
            simp [Builder.accept, Builder.acceptValue, normal]
          exact h.hand_eq m rfl hclose
        · rw [if_neg hfits, if_neg hfits]
          rfl
  | .object members, hk =>
      obtain ⟨ks, hks, rfl⟩ := hk
      have hstart : (Builder.value place).accept .objectStart = .ok (.name [] place) := rfl
      simp only
      rw [h.enter_eq hm rfl hstart]
      by_cases hopen : limit ≤ depth
      · rw [if_pos hopen, if_neg (by simp only [Value.depth]; omega)]
        rfl
      · rw [if_neg hopen]
        change (ks (host (.name [] place))).bind _ = _
        rw [offersMembers_eq h hm hform (by omega) [] place members hks]
        have hdepth : depth + 1 + depthOfMembers members =
            depth + (Value.object members).depth := by
          simp only [Value.depth]
          omega
        rw [hdepth]
        by_cases hfits : depth + (Value.object members).depth ≤ limit
        · rw [if_pos hfits, if_pos hfits]
          exact h.hand_eq m rfl rfl
        · rw [if_neg hfits, if_neg hfits]
          rfl

theorem offersItems_eq (h : Hosts host) {m : Manner ε} {limit : Nat} {e : ε}
    (hm : m.Limits limit e) (hform : ∀ n t, form n t → n.Form t) {depth : Nat} (hd : depth ≤ limit)
    (before : List Value) (place : Place) (items : List Value) {k : σ → Except ε σ}
    (hk : m.OffersItems form depth items k) :
    k (host (.value (.item before place))) =
      if depth + depthOfItems items ≤ limit then
        .ok (host (.value (.item ((normalItems items).reverse ++ before) place)))
      else .error e := by
  match items, hk with
  | [], hk =>
      rw [hk, if_pos (by simpa [depthOfItems] using hd)]
      rfl
  | v :: rest, hk =>
      obtain ⟨kv, ks, hkv, hks, rfl⟩ := hk
      simp only
      rw [offers_eq h hm hform hd _ v hkv]
      by_cases hfits : depth + v.depth ≤ limit
      · rw [if_pos hfits]
        change (m.next false rest.isEmpty (host (.value (.item (v.normal :: before) place)))).bind _ = _
        rw [m.next_of_not_sated (h.sated _ rfl)]
        change ks (host (.value (.item (v.normal :: before) place))) = _
        rw [offersItems_eq h hm hform hd (v.normal :: before) place rest hks]
        have hiff : depth + depthOfItems rest ≤ limit ↔
            depth + depthOfItems (v :: rest) ≤ limit := by
          simp only [depthOfItems]
          omega
        simp only [hiff, normalItems, List.reverse_cons, List.append_assoc, List.singleton_append]
      · rw [if_neg hfits, if_neg (by simp only [depthOfItems]; omega)]
        rfl

theorem offersMembers_eq (h : Hosts host) {m : Manner ε} {limit : Nat} {e : ε}
    (hm : m.Limits limit e) (hform : ∀ n t, form n t → n.Form t) {depth : Nat} (hd : depth ≤ limit)
    (before : List (String × Value)) (place : Place) (members : List (String × Value))
    {k : σ → Except ε σ} (hk : m.OffersMembers form depth members k) :
    k (host (.name before place)) =
      if depth + depthOfMembers members ≤ limit then
        .ok (host (.name ((normalMembers members).foldl (fun ms e => Keyed.insert e.1 e.2 ms) before)
          place))
      else .error e := by
  match members, hk with
  | [], hk =>
      rw [hk, if_pos (by simpa [depthOfMembers] using hd)]
      rfl
  | (key, v) :: rest, hk =>
      obtain ⟨kv, ks, hkv, hks, rfl⟩ := hk
      have hname : (Builder.name before place).accept (.text key) =
          .ok (.value (.member before key place)) := by
        cases before <;> rfl
      simp only
      rw [h.handScalar_eq m rfl hname]
      change (m.next true false (host (.value (.member before key place)))).bind _ = _
      rw [m.next_of_not_sated (h.sated _ rfl)]
      change (kv (host (.value (.member before key place)))).bind _ = _
      rw [offers_eq h hm hform hd _ v hkv]
      by_cases hfits : depth + v.depth ≤ limit
      · rw [if_pos hfits]
        change (m.next true rest.isEmpty
          (host (.name (Keyed.insert key v.normal before) place))).bind _ = _
        rw [m.next_of_not_sated (h.sated _ rfl)]
        change ks (host (.name (Keyed.insert key v.normal before) place)) = _
        rw [offersMembers_eq h hm hform hd (Keyed.insert key v.normal before) place rest hks]
        have hiff : depth + depthOfMembers rest ≤ limit ↔
            depth + depthOfMembers ((key, v) :: rest) ≤ limit := by
          simp only [depthOfMembers]
          omega
        simp only [hiff, normalMembers, List.foldl_cons]
      · rw [if_neg hfits, if_neg (by simp only [depthOfMembers]; omega)]
        rfl
end

theorem offer_eq (h : Hosts host) {m : Manner ε} {limit : Nat} {e : ε} (hm : m.Limits limit e)
    {depth : Nat} (hd : depth ≤ limit) (place : Place) (v : Value) (hv : v.WellFormed) :
    m.offer depth (host (.value place)) v =
      if depth + v.depth ≤ limit then .ok (host (put v place)) else .error e := by
  have hoffers : m.Offers Number.Form depth v fun c : σ => m.offer depth c v :=
    Manner.offers_offer .own depth v
  have heq := offers_eq h hm (fun _ _ hform => hform) hd place v hoffers
  rwa [normal_of_wellFormed v hv] at heq

end Hosts

end CourierDispatch
