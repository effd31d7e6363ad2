import CourierDispatch.Proofs.Answers
import CourierDispatch.Proofs.Envelope.Draft
import CourierDispatch.Proofs.Value.Taken
import CourierDispatch.Token.Message

/-!
# Envelopes by their members

What a draft makes of an object is decided by its members one after the other. A member with a name that
is none of a field's is passed over, a field that comes a second time is refused, and the value of a field
is stored if it suits. `Envelope.ofMembers` says so without tokens and formats, and every way to hand on
the object comes to the same, except that a mismatch may have found another form of the same number.
-/

namespace CourierDispatch

/-- The mismatches are reported in the same words. -/
def Mismatch.Like (m m' : Mismatch) : Prop := ∀ w, m.message w = m'.message w

theorem Number.Form.like {n : Number} {t : Token} (h : n.Form t) (e : Expectation) :
    (Mismatch.wrongType t e).Like (.wrongType n.token e) := by
  cases h with
  | own => exact fun _ => rfl
  | signed n =>
      intro w
      by_cases hn : n < 0
      · rw [Number.token, if_pos hn]
      · obtain ⟨k, rfl⟩ := Int.eq_ofNat_of_zero_le (Int.not_lt.1 hn)
        rw [Number.token, if_neg hn]
        rfl

/-- The first is what the second says, with a mismatch turned into a fault. -/
inductive Answers {ε α : Type} (refuse : Mismatch → ε) : Except ε α → Except Mismatch α → Prop
  | ok (a : α) : Answers refuse (.ok a) (.ok a)
  | error {m m' : Mismatch} (h : m.Like m') : Answers refuse (.error (refuse m)) (.error m')

namespace Answers

variable {ε ε' α β : Type} {refuse : Mismatch → ε} {x : Except ε α} {y : Except Mismatch α}

theorem refl (y : Except Mismatch α) : Answers refuse (y.mapError refuse) y := by
  cases y with
  | ok a => exact .ok a
  | error m => exact .error fun _ => rfl

theorem bind {f : α → Except ε β} {g : α → Except Mismatch β} (h : Answers refuse x y)
    (hfg : ∀ a, y = .ok a → Answers refuse (f a) (g a)) :
    Answers refuse (x.bind f) (y.bind g) := by
  cases h with
  | ok a => exact hfg a rfl
  | error h => exact .error h

theorem mapError (h : Answers refuse x y) (g : ε → ε') :
    Answers (fun m => g (refuse m)) (x.mapError g) y := by
  cases h with
  | ok a => exact .ok a
  | error h => exact .error h

end Answers

namespace Envelope

theorem Field.ofName?_eq_some_iff {s : String} {f : Field} : ofName? s = some f ↔ s = f.wireName := by
  constructor
  · intro h
    unfold ofName? at h
    have hwire := List.find?_some h
    exact (of_decide_eq_true hwire).symm
  · rintro rfl
    cases f <;> rfl

namespace Draft

structure AtName (d : Draft) : Prop where
  stage : d.stage = .memberName
  positional : d.positional = false

def textIn : Value → Except Mismatch String
  | .null => .error (.wrongType .null .text)
  | .bool b => .error (.wrongType (.bool b) .text)
  | .number n => .error (.wrongType n.token .text)
  | .string s => .ok s
  | .array _ => .error (.wrongType .arrayStart .text)
  | .object _ => .error (.wrongType .objectStart .text)

def store (d : Draft) (f : Field) (v : Value) : Except Mismatch Draft :=
  match f with
  | .id => (textIn v).map fun s => { d with id := some s }
  | .name => (textIn v).map fun s => { d with name := some s }
  | .payload => .ok { d with payload := some v.normal }

/-- Takes a member of the object. -/
def takeMember (d : Draft) (m : String × Value) : Except Mismatch Draft :=
  match Field.ofName? m.1 with
  | none => .ok d
  | some f => if d.has f then .error (.duplicate f.wireName) else d.store f m.2

theorem AtName.store {d d' : Draft} {f : Field} {v : Value} (hd : d.AtName)
    (h : d.store f v = .ok d') : d'.AtName := by
  cases f with
  | payload =>
      cases h
      exact ⟨hd.stage, hd.positional⟩
  | id | name =>
      obtain ⟨s, -, rfl⟩ := map_eq_ok_iff.1 h
      exact ⟨hd.stage, hd.positional⟩

theorem AtName.takeMember {d d' : Draft} {m : String × Value} (hd : d.AtName)
    (h : d.takeMember m = .ok d') : d'.AtName := by
  unfold Draft.takeMember at h
  split at h
  · cases h
    exact hd
  · split at h
    · cases h
    · exact hd.store h

theorem atName_of_foldlM {d d' : Draft} {ms : List (String × Value)} (hd : d.AtName)
    (h : ms.foldlM takeMember d = .ok d') : d'.AtName := by
  induction ms generalizing d with
  | nil =>
      cases h
      exact hd
  | cons m ms ih =>
      rw [List.foldlM_cons] at h
      cases htake : d.takeMember m with
      | error e =>
          rw [htake] at h
          cases h
      | ok mid =>
          rw [htake] at h
          exact ih (hd.takeMember htake) h

section

variable {ε : Type} {m : Manner ε} {form : Number → Token → Prop} {limit : Nat} {fault : ε}

theorem skip_scalar (d : Draft) (n : Nat) {t : Token} (ht : t.IsScalar) :
    d.skip n t = { d with stage := if n = 0 then .memberName else .unknown n } := by
  cases t <;> first | exact ht.elim | rfl

theorem accept_unknown {d : Draft} {n : Nat} (hd : d.stage = .unknown n) (t : Token) :
    Consumer.accept d t = .ok (d.skip n t) := by
  change d.accept t = _
  unfold accept
  simp only [hd]

theorem handScalar_unknown (hm : m.Roomy limit) {d : Draft} {n : Nat} (hd : d.stage = .unknown n)
    {t : Token} (ht : t.IsScalar) :
    m.handScalar d t = .ok { d with stage := if n = 0 then .memberName else .unknown n } := by
  have hskim : (m.skim t).IsScalar := by
    rcases hm.skim t with h | h <;> rw [h]
    · exact ht
    · trivial
  rw [Manner.handScalar]
  split
  · exact m.hand_of_accept ((accept_unknown hd _).trans (congrArg _ (skip_scalar d n hskim)))
  · exact m.hand_of_accept ((accept_unknown hd _).trans (congrArg _ (skip_scalar d n ht)))

theorem enter_unknown (hm : m.Roomy limit) {d : Draft} {n : Nat} (hd : d.stage = .unknown n)
    {depth : Nat} (hdepth : depth < limit) {t : Token} (ht : t = .arrayStart ∨ t = .objectStart) :
    m.enter depth d t = .ok { d with stage := .unknown (n + 1) } := by
  have hskip : d.skip n t = { d with stage := .unknown (n + 1) } := by
    rcases ht with rfl | rfl <;> rfl
  rw [Manner.enter, hm.tooDeep? _ _ hdepth]
  exact m.hand_of_accept ((accept_unknown hd t).trans (congrArg _ hskip))

theorem leave_unknown {d : Draft} {n : Nat} {t : Token} (ht : t = .arrayEnd ∨ t = .objectEnd) :
    m.hand { d with stage := .unknown (n + 1) } t =
      .ok { d with stage := if n = 0 then .memberName else .unknown n } := by
  refine m.hand_of_accept ((accept_unknown (n := n + 1) rfl t).trans (congrArg _ ?_))
  rcases ht with rfl | rfl <;> rfl

mutual
/-- The value of an unknown member is passed over, whatever it is. -/
theorem offers_unknown (hm : m.Roomy limit) (hform : ∀ n t, form n t → n.Form t) {d : Draft}
    {n : Nat} (hd : d.stage = .unknown n) {depth : Nat} {v : Value} (hv : depth + v.depth ≤ limit)
    {k : Draft → Except ε Draft} (hk : m.Offers form depth v k) :
    k d = .ok { d with stage := if n = 0 then .memberName else .unknown n } := by
  match v, hk with
  | .null, hk | .bool b, hk | .string s, hk =>
      rw [hk]
      exact handScalar_unknown hm hd trivial
  | .number x, hk =>
      obtain ⟨t, ht, rfl⟩ := hk
      exact handScalar_unknown hm hd (hform x t ht).isScalar
  | .array items, hk =>
      obtain ⟨ks, hks, rfl⟩ := hk
      rw [Value.depth] at hv
      simp only
      rw [enter_unknown hm hd (by omega) (.inl rfl)]
      change (ks { d with stage := .unknown (n + 1) }).bind _ = _
      rw [offersItems_unknown hm hform (n := n) rfl (by omega) hks]
      exact leave_unknown (.inl rfl)
  | .object members, hk =>
      obtain ⟨ks, hks, rfl⟩ := hk
      rw [Value.depth] at hv
      simp only
      rw [enter_unknown hm hd (by omega) (.inr rfl)]
      change (ks { d with stage := .unknown (n + 1) }).bind _ = _
      rw [offersMembers_unknown hm hform (n := n) rfl (by omega) hks]
      exact leave_unknown (.inr rfl)

theorem offersItems_unknown (hm : m.Roomy limit) (hform : ∀ n t, form n t → n.Form t) {d : Draft}
    {n : Nat} (hd : d.stage = .unknown (n + 1)) {depth : Nat} {items : List Value}
    (hv : depth + Value.depthOfItems items ≤ limit) {k : Draft → Except ε Draft}
    (hk : m.OffersItems form depth items k) : k d = .ok d := by
  match items, hk with
  | [], hk => rw [hk]
  | v :: rest, hk =>
      obtain ⟨kv, ks, hkv, hks, rfl⟩ := hk
      rw [Value.depthOfItems] at hv
      have hback : { d with stage := .unknown (n + 1) } = d := by rw [← hd]
      simp only
      rw [offers_unknown hm hform hd (by omega) hkv, if_neg (Nat.succ_ne_zero n), hback]
      change (m.next false rest.isEmpty d).bind ks = _
      rw [next_eq m (by simp [hd])]
      exact offersItems_unknown hm hform hd (by omega) hks

theorem offersMembers_unknown (hm : m.Roomy limit) (hform : ∀ n t, form n t → n.Form t) {d : Draft}
    {n : Nat} (hd : d.stage = .unknown (n + 1)) {depth : Nat} {members : List (String × Value)}
    (hv : depth + Value.depthOfMembers members ≤ limit) {k : Draft → Except ε Draft}
    (hk : m.OffersMembers form depth members k) : k d = .ok d := by
  match members, hk with
  | [], hk => rw [hk]
  | (key, v) :: rest, hk =>
      obtain ⟨kv, ks, hkv, hks, rfl⟩ := hk
      rw [Value.depthOfMembers] at hv
      have hback : { d with stage := .unknown (n + 1) } = d := by rw [← hd]
      have hfull : d.stage ≠ .full := by simp [hd]
      simp only
      rw [handScalar_unknown (t := .text key) hm hd trivial, if_neg (Nat.succ_ne_zero n), hback]
      change ((m.next true false d).bind fun d => (kv d).bind _) = _
      rw [next_eq m hfull]
      change (kv d).bind _ = _
      rw [offers_unknown hm hform hd (by omega) hkv, if_neg (Nat.succ_ne_zero n), hback]
      change (m.next true rest.isEmpty d).bind ks = _
      rw [next_eq m hfull]
      exact offersMembers_unknown hm hform hd (by omega) hks
end

theorem textOf_form {n : Number} {t : Token} (h : n.Form t) :
    textOf t = .error (.wrongType t .text) := by
  cases h with
  | own =>
      cases n with
      | whole n => by_cases hn : n < 0 <;> simp [Number.token, hn, textOf, Token.refuse]
      | double x => rfl
  | signed n => rfl

/-- A draft that waits for a text takes a string and refuses everything else. -/
theorem offers_text (hl : m.Limits limit fault) (hform : ∀ n t, form n t → n.Form t) {d : Draft}
    (hskims : d.skims = false) {g : String → Draft}
    (haccept : ∀ t, t ≠ .arrayEnd → d.accept t = (textOf t).map g) {depth : Nat} {v : Value}
    (hv : depth + v.depth ≤ limit) {k : Draft → Except ε Draft} (hk : m.Offers form depth v k) :
    Answers m.mismatch (k d) ((textIn v).map g) := by
  have hhand (t : Token) (ht : t ≠ .arrayEnd) :
      m.hand d t = ((textOf t).map g).mapError m.mismatch := congrArg _ (haccept t ht)
  have hscalar (t : Token) (ht : t.IsScalar) :
      m.handScalar d t = ((textOf t).map g).mapError m.mismatch := by
    have hd : Consumer.skims d = false := hskims
    rw [Manner.handScalar, hd]
    refine hhand t ?_
    rintro rfl
    exact ht
  have henter (t : Token) (ht : t ≠ .arrayEnd) (hdepth : depth < limit) :
      m.enter depth d t = ((textOf t).map g).mapError m.mismatch := by
    have hd : Consumer.skims d = false := hskims
    rw [Manner.enter, hd, hl depth, if_neg (Nat.not_le.2 hdepth)]
    exact hhand t ht
  match v, hk with
  | .null, hk =>
      rw [hk]
      change Answers _ (m.handScalar d .null) _
      rw [hscalar .null trivial]
      exact .error fun _ => rfl
  | .bool b, hk =>
      rw [hk]
      change Answers _ (m.handScalar d (.bool b)) _
      rw [hscalar (.bool b) trivial]
      exact .error fun _ => rfl
  | .string s, hk =>
      rw [hk]
      change Answers _ (m.handScalar d (.text s)) _
      rw [hscalar (.text s) trivial]
      exact .ok (g s)
  | .number n, hk =>
      obtain ⟨t, ht, rfl⟩ := hk
      have hn := hform n t ht
      change Answers _ (m.handScalar d t) _
      rw [hscalar t hn.isScalar, textOf_form hn]
      exact .error (hn.like .text)
  | .array items, hk =>
      obtain ⟨ks, -, rfl⟩ := hk
      rw [Value.depth] at hv
      simp only
      rw [henter .arrayStart (by simp) (by omega)]
      exact .error fun _ => rfl
  | .object members, hk =>
      obtain ⟨ks, -, rfl⟩ := hk
      rw [Value.depth] at hv
      simp only
      rw [henter .objectStart (by simp) (by omega)]
      exact .error fun _ => rfl

theorem offers_field (hl : m.Limits limit fault) (hform : ∀ n t, form n t → n.Form t) {d : Draft}
    (hd : d.AtName) (f : Field) {depth : Nat} {v : Value} (hv : depth + v.depth ≤ limit)
    {k : Draft → Except ε Draft} (hk : m.Offers form depth v k) :
    Answers m.mismatch (k { d with stage := .field f }) (d.store f v) := by
  have hback : Stage.memberName = d.stage := hd.stage.symm
  cases f with
  | id =>
      refine offers_text hl hform rfl ?_ hv hk
      intro t ht
      unfold accept
      simp only [acceptField, hd.positional, following, hback]
      cases t <;> first | exact absurd rfl ht | rfl
  | name =>
      refine offers_text hl hform rfl ?_ hv hk
      intro t ht
      unfold accept
      simp only [acceptField, hd.positional, following, hback]
      cases t <;> first | exact absurd rfl ht | rfl
  | payload =>
      have hhosts := hosts_resume { d with stage := .field .payload }
      have hbuilt := hhosts.offers_eq hl hform (by omega) .top v hk
      rw [if_pos hv] at hbuilt
      rw [offers_field_payload hform rfl hk]
      change Answers _ (k ({ d with stage := .field .payload }.resume (.value .top))) _
      rw [hbuilt]
      have hresume : { d with stage := .field .payload }.resume (.done v.normal) =
          { d with payload := some v.normal } := by
        simp [resume, Value.Builder.result?, following, hd.positional, hback]
      change Answers _ (.ok ({ d with stage := .field .payload }.resume (.done v.normal))) _
      rw [hresume]
      exact .ok _

theorem handScalar_atName (m : Manner ε) {d : Draft} (hd : d.AtName) (key : String) :
    m.handScalar d (.text key) =
      match Field.ofName? key with
      | none => .ok { d with stage := .unknown 0 }
      | some f =>
        if d.has f then .error (m.mismatch (.duplicate f.wireName))
        else .ok { d with stage := .field f } := by
  have hskims : Consumer.skims d = false := by
    change d.skims = false
    simp [skims, hd.stage]
  rw [Manner.handScalar, hskims]
  change (d.accept (.text key)).mapError m.mismatch = _
  unfold accept
  simp only [hd.stage, acceptName, Field.ofToken]
  cases Field.ofName? key with
  | none => rfl
  | some f => by_cases hf : d.has f = true <;> simp [hf, Except.mapError]

/-- The members of an object are taken one after the other. -/
theorem offersMembers_answers (hl : m.Limits limit fault) (hm : m.Roomy limit)
    (hform : ∀ n t, form n t → n.Form t) {d : Draft} (hd : d.AtName) {depth : Nat}
    {ms : List (String × Value)} (hv : depth + Value.depthOfMembers ms ≤ limit)
    {k : Draft → Except ε Draft} (hk : m.OffersMembers form depth ms k) :
    Answers m.mismatch (k d) (ms.foldlM takeMember d) := by
  induction ms generalizing d k with
  | nil =>
      rw [hk]
      exact .ok d
  | cons member rest ih =>
      obtain ⟨key, v⟩ := member
      obtain ⟨kv, ks, hkv, hks, rfl⟩ := hk
      rw [Value.depthOfMembers] at hv
      have hrest {d' : Draft} (hd' : d'.AtName) :
          Answers m.mismatch ((m.next true rest.isEmpty d').bind ks) (rest.foldlM takeMember d') := by
        rw [next_eq m (by simp [hd'.stage])]
        exact ih hd' (by omega) hks
      rw [List.foldlM_cons]
      simp only
      rw [handScalar_atName m hd]
      cases hkey : Field.ofName? key with
      | none =>
          have htake : d.takeMember (key, v) = .ok d := by simp [takeMember, hkey]
          have hback : { d with stage := .memberName } = d := by rw [← hd.stage]
          rw [htake]
          change Answers _ ((m.next true false { d with stage := .unknown 0 }).bind _) _
          rw [next_eq m (by simp)]
          change Answers _ ((kv { d with stage := .unknown 0 }).bind _) _
          rw [offers_unknown hm hform (n := 0) rfl (by omega) hkv, if_pos rfl]
          change Answers _ ((m.next true rest.isEmpty { d with stage := .memberName }).bind ks) _
          rw [hback]
          exact hrest hd
      | some f =>
          by_cases hf : d.has f = true
          · have htake : d.takeMember (key, v) = .error (.duplicate f.wireName) := by
              simp [takeMember, hkey, hf]
            rw [htake]
            simp only [hf, if_true]
            exact .error fun _ => rfl
          · have htake : d.takeMember (key, v) = d.store f v := by simp [takeMember, hkey, hf]
            rw [htake]
            simp only [hf]
            change Answers _ ((m.next true false { d with stage := .field f }).bind _) _
            rw [next_eq m (by simp)]
            change Answers _ ((kv { d with stage := .field f }).bind _) _
            exact (offers_field hl hform hd f (by omega) hkv).bind fun d' hd' =>
              hrest (hd.store hd')

theorem offers_object (hl : m.Limits limit fault) (hm : m.Roomy limit)
    (hform : ∀ n t, form n t → n.Form t) {ms : List (String × Value)}
    (hv : (Value.object ms).depth ≤ limit) {k : Draft → Except ε Draft}
    (hk : m.Offers form 0 (.object ms) k) :
    Answers m.mismatch (k {}) ((ms.foldlM takeMember { stage := .memberName }).bind close) := by
  obtain ⟨ks, hks, rfl⟩ := hk
  rw [Value.depth] at hv
  have hopen : m.enter 0 ({} : Draft) .objectStart = .ok { stage := .memberName } := by
    have hskims : Consumer.skims ({} : Draft) = false := rfl
    rw [Manner.enter, hskims, hl 0, if_neg (by omega)]
    rfl
  have hstart : AtName { stage := .memberName } := ⟨rfl, rfl⟩
  simp only
  rw [hopen]
  refine (offersMembers_answers hl hm hform hstart (by omega) hks).bind fun d hd => ?_
  have hat : d.AtName := atName_of_foldlM hstart hd
  have hclose : Consumer.accept d .objectEnd = d.close := by
    change d.accept .objectEnd = _
    unfold accept
    simp only [hat.stage]
    rfl
  rw [Manner.hand, hclose]
  exact .refl _

end

def finish (d : Draft) : Except Mismatch Envelope :=
  match d.id, d.name with
  | none, _ => .error (.missing Field.id.wireName)
  | some _, none => .error (.missing Field.name.wireName)
  | some id, some name => .ok ⟨id, name, d.payload.getD .null⟩

/-- Nothing but the envelope is left of a draft that is closed. -/
theorem close_cases (d : Draft) :
    (∃ m, d.close = .error m ∧ d.finish = .error m) ∨
      ∃ d' e, d.close = .ok d' ∧ d'.result? = some e ∧ d.finish = .ok e := by
  unfold close finish
  cases hid : d.id with
  | none => exact .inl ⟨_, rfl, rfl⟩
  | some id =>
      cases hname : d.name with
      | none => exact .inl ⟨_, rfl, rfl⟩
      | some name => exact .inr ⟨_, _, rfl, rfl, rfl⟩

end Draft

/-- The envelope that an object with these members is. -/
def ofMembers (ms : List (String × Value)) : Except Mismatch Envelope :=
  (ms.foldlM Draft.takeMember { stage := .memberName }).bind Draft.finish

end Envelope

end CourierDispatch
