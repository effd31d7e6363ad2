import CourierDispatch.Proofs.Envelope.Formats
import CourierDispatch.Proofs.Envelope.Members
import CourierDispatch.Proofs.Envelope.NormalForm

/-!
# Which envelopes are accepted

An object is accepted as a command when it has one id, one name and at most one payload, in any order and
among any other members, and the id and the name are strings that are not blank. This holds of every way
to write the object in either format. The members with other names change neither the command nor what
is said about an object that is refused.
-/

namespace CourierDispatch

namespace WireFormat

def depthLimit : WireFormat → Nat
  | json => Json.Scanner.depthLimit
  | msgPack => MsgPack.Scanner.depthLimit

/-- The bytes are the value: as a JSON text with any blanks between its tokens and around it, or in
MsgPack with headers of any length. -/
def Written (format : WireFormat) (v : Value) (bs : List UInt8) : Prop :=
  match format with
  | json => ∃ cs, Json.Padded (Json.Written v) cs ∧ bs = Utf8.encode cs
  | msgPack => MsgPack.Written Number.Form v bs

/-- The bytes are an object with these members, whose numbers are whole and whose nesting is within the
limit of the format. -/
structure Writes (format : WireFormat) (ms : List (String × Value)) (bs : List UInt8) : Prop where
  integral : (Value.object ms).Integral
  depth : (Value.object ms).depth ≤ format.depthLimit
  written : format.Written (.object ms) bs

def refuse : WireFormat → Mismatch → WireFault
  | json, m => .json (.mismatch m)
  | msgPack, m => .msgPack (.mismatch m)

theorem message_refuse (format : WireFormat) {m m' : Mismatch} (h : m.Like m') :
    (format.refuse m).message = (format.refuse m').message := by
  cases format with
  | json => exact congrArg (fun s => s!"invalid json: {s}") (h Json.wording)
  | msgPack => exact congrArg (fun s => s!"invalid msgpack: {s}") (h MsgPack.wording)

end WireFormat

namespace Envelope

/-- Reading an object is taking its members. -/
theorem feed_answers {format : WireFormat} {ms : List (String × Value)} {bs : List UInt8}
    (h : format.Writes ms bs) :
    Answers format.refuse (format.feed ({} : Draft) bs)
      ((ms.foldlM Draft.takeMember { stage := .memberName }).bind Draft.close) := by
  cases format with
  | json =>
      obtain ⟨cs, hcs, rfl⟩ := h.written
      have hoffers : Json.manner.Offers Number.Form 0 (.object ms) fun d : Draft =>
          Json.manner.offer 0 d (.object ms) := Manner.offers_offer .own 0 _
      have hanswers := Draft.offers_object Json.manner_limits Json.manner_roomy (fun _ _ hform => hform)
        h.depth hoffers
      rw [WireFormat.feed, Json.Scanner.feed_written h.integral hcs]
      exact hanswers.mapError WireFault.json
  | msgPack =>
      obtain ⟨k, hk, hfeed⟩ := MsgPack.Scanner.feed_written (σ := Draft) h.written
      have hanswers := Draft.offers_object MsgPack.manner_limits MsgPack.manner_roomy
        (fun _ _ hform => hform) h.depth hk
      have hbs := hfeed {} []
      rw [List.append_nil] at hbs
      rw [WireFormat.feed, hbs]
      exact hanswers.mapError WireFault.msgPack

theorem parse_answers {format : WireFormat} {ms : List (String × Value)} {bs : List UInt8}
    (h : format.Writes ms bs) : Answers format.refuse (parse format bs) (ofMembers ms) := by
  have hfeed := feed_answers h
  unfold parse ofMembers
  generalize ms.foldlM Draft.takeMember { stage := .memberName } = taken at hfeed
  generalize format.feed ({} : Draft) bs = fed at hfeed
  cases taken with
  | error m =>
      cases hfeed with
      | error hlike => exact .error hlike
  | ok d =>
      change Answers _ fed d.close at hfeed
      change Answers _ _ d.finish
      rcases d.close_cases with ⟨m, hclose, hfinish⟩ | ⟨d', e, hclose, hresult, hfinish⟩
      · rw [hclose] at hfeed
        rw [hfinish]
        cases hfeed with
        | error hlike => exact .error hlike
      · rw [hclose] at hfeed
        rw [hfinish]
        cases hfeed
        simp only [hresult]
        exact .ok e

/-- The values of all members that have the name of a field. -/
def named (f : Field) (ms : List (String × Value)) : List Value :=
  (ms.filter (·.1 = f.wireName)).map (·.2)

def known (ms : List (String × Value)) : List (String × Value) :=
  ms.filter fun m => (Field.ofName? m.1).isSome

theorem named_singleton (f : Field) (key : String) (v : Value) :
    named f [(key, v)] = if Field.ofName? key = some f then [v] else [] := by
  simp only [named, List.filter_cons, Field.ofName?_eq_some_iff, decide_eq_true_eq]
  split <;> rfl

theorem named_cons (f : Field) (m : String × Value) (ms : List (String × Value)) :
    named f (m :: ms) = named f [m] ++ named f ms := by
  rw [named, ← List.singleton_append, List.filter_append, List.map_append]
  rfl

theorem named_known (f : Field) (ms : List (String × Value)) : named f (known ms) = named f ms := by
  unfold named known
  rw [List.filter_filter]
  congr 1
  refine List.filter_congr fun m _ => ?_
  by_cases hm : m.1 = f.wireName
  · simp [hm, Field.ofName?_eq_some_iff.2 rfl]
  · simp [hm]

theorem foldlM_known (d : Draft) (ms : List (String × Value)) :
    (known ms).foldlM Draft.takeMember d = ms.foldlM Draft.takeMember d := by
  induction ms generalizing d with
  | nil => rfl
  | cons m ms ih =>
      rw [List.foldlM_cons]
      cases hm : Field.ofName? m.1 with
      | none =>
          have hknown : known (m :: ms) = known ms := by simp [known, hm]
          have htake : d.takeMember m = .ok d := by simp [Draft.takeMember, hm]
          rw [hknown, htake, ih]
          rfl
      | some f =>
          have hknown : known (m :: ms) = m :: known ms := by simp [known, hm]
          rw [hknown, List.foldlM_cons]
          cases d.takeMember m with
          | error e => rfl
          | ok d => exact ih d

theorem ofMembers_known (ms : List (String × Value)) : ofMembers (known ms) = ofMembers ms := by
  rw [ofMembers, foldlM_known, ofMembers]

/-- What is kept of the value of a field. -/
def Field.kept : Field → Value → Value
  | id, v | name, v => v
  | payload, v => v.normal

namespace Draft

def stored (d : Draft) : Field → List Value
  | .id => d.id.toList.map .string
  | .name => d.name.toList.map .string
  | .payload => d.payload.toList

theorem stored_eq_nil_iff {d : Draft} {f : Field} : d.stored f = [] ↔ d.has f = false := by
  cases f <;> simp [stored, has]

theorem length_stored_le (d : Draft) (f : Field) : (d.stored f).length ≤ 1 := by
  have hlength {α : Type} (o : Option α) : o.toList.length ≤ 1 := by cases o <;> simp
  cases f with
  | id | name => simp [stored, hlength]
  | payload => exact hlength d.payload

/-- A draft is known by what it has stored. -/
theorem eq_of_stored {d d' : Draft} (h : ∀ f, d.stored f = d'.stored f) (hstage : d.stage = d'.stage)
    (hpositional : d.positional = d'.positional) : d = d' := by
  have hoption {α : Type} {o o' : Option α} (ho : o.toList = o'.toList) : o = o' := by
    cases o <;> cases o' <;> simp_all
  have hstring {o o' : Option String} (ho : o.toList.map Value.string = o'.toList.map .string) :
      o = o' := by
    cases o <;> cases o' <;> simp_all
  cases d with
  | mk stage positional id name payload =>
      cases d' with
      | mk stage' positional' id' name' payload' =>
          obtain rfl : stage = stage' := hstage
          obtain rfl : positional = positional' := hpositional
          obtain rfl : id = id' := hstring (h .id)
          obtain rfl : name = name' := hstring (h .name)
          obtain rfl : payload = payload' := hoption (h .payload)
          rfl

theorem textIn_eq_ok_iff {v : Value} {s : String} : textIn v = .ok s ↔ v = .string s := by
  cases v <;> simp [textIn]

theorem stored_of_store {d d' : Draft} {f : Field} {v : Value} (h : d.store f v = .ok d') :
    (∀ g, d'.stored g = if g = f then [f.kept v] else d.stored g) ∧
      d'.stage = d.stage ∧ d'.positional = d.positional := by
  cases f with
  | id | name =>
      obtain ⟨s, hv, rfl⟩ := map_eq_ok_iff.1 h
      rw [textIn_eq_ok_iff.1 hv]
      exact ⟨fun g => by cases g <;> rfl, rfl, rfl⟩
  | payload =>
      cases h
      exact ⟨fun g => by cases g <;> rfl, rfl, rfl⟩

theorem kept_notMem_stored {d : Draft} {f : Field} {v : Value} {m : Mismatch}
    (h : d.store f v = .error m) (d' : Draft) : f.kept v ∉ d'.stored f := by
  have htext (h : ∀ s, v ≠ .string s) (o : Option String) : v ∉ o.toList.map Value.string := by
    intro hv
    obtain ⟨s, -, hs⟩ := List.mem_map.1 hv
    exact h s hs.symm
  have hnone {g : String → Draft} (h : (textIn v).map g = .error m) (s : String) :
      v ≠ .string s := by
    rintro rfl
    cases h
  cases f with
  | id => exact htext (hnone h) d'.id
  | name => exact htext (hnone h) d'.name
  | payload => cases h

/-- A member that is taken is stored, if it has the name of a field. -/
theorem stored_of_takeMember {d d' : Draft} {m : String × Value} (h : d.takeMember m = .ok d') :
    (∀ f, d'.stored f = d.stored f ++ (named f [m]).map f.kept) ∧
      d'.stage = d.stage ∧ d'.positional = d.positional := by
  obtain ⟨key, v⟩ := m
  unfold takeMember at h
  split at h
  next hkey =>
    cases h
    refine ⟨fun f => ?_, rfl, rfl⟩
    rw [named_singleton, hkey, if_neg (by simp)]
    exact (List.append_nil _).symm
  next f hkey =>
    split at h
    next => cases h
    next hf =>
      obtain ⟨hstored, hstage, hpositional⟩ := stored_of_store h
      refine ⟨fun g => ?_, hstage, hpositional⟩
      rw [hstored, named_singleton]
      by_cases hg : g = f
      · subst hg
        have hnil : d.stored g = [] := stored_eq_nil_iff.2 (by simpa using hf)
        rw [if_pos rfl, if_pos hkey, hnil]
        rfl
      · rw [if_neg hg, if_neg (by simpa [hkey] using Ne.symm hg)]
        exact (List.append_nil _).symm

/-- What is refused is too much for one field, or does not suit it. -/
theorem stored_ne_of_takeMember {d : Draft} {m : String × Value} {e : Mismatch}
    (h : d.takeMember m = .error e) (d' : Draft) :
    ∃ f, ∀ rest, d.stored f ++ ((named f [m]).map f.kept ++ rest) ≠ d'.stored f := by
  obtain ⟨key, v⟩ := m
  unfold takeMember at h
  split at h
  next => cases h
  next f hkey =>
    refine ⟨f, fun rest heq => ?_⟩
    rw [named_singleton, if_pos hkey] at heq
    split at h
    next hf =>
      have hne : d.stored f ≠ [] := by
        rw [ne_eq, stored_eq_nil_iff]
        simp [hf]
      have hlength := congrArg List.length heq
      have hone := d'.length_stored_le f
      have hpos := List.length_pos_of_ne_nil hne
      simp only [List.length_append, List.map_cons, List.length_cons] at hlength
      omega
    next =>
      refine kept_notMem_stored h d' ?_
      rw [← heq]
      simp

/-- All members are taken when each field comes once at most, with a value that suits. -/
theorem foldlM_takeMember_eq_ok_iff {d d' : Draft} {ms : List (String × Value)} :
    ms.foldlM takeMember d = .ok d' ↔
      (∀ f, d.stored f ++ (named f ms).map f.kept = d'.stored f) ∧
        d.stage = d'.stage ∧ d.positional = d'.positional := by
  induction ms generalizing d with
  | nil =>
      have hnamed (f : Field) : d.stored f ++ (named f []).map f.kept = d.stored f :=
        List.append_nil _
      simp only [hnamed]
      constructor
      · intro h
        cases h
        exact ⟨fun _ => rfl, rfl, rfl⟩
      · rintro ⟨hstored, hstage, hpositional⟩
        rw [eq_of_stored hstored hstage hpositional]
        rfl
  | cons m ms ih =>
      rw [List.foldlM_cons]
      simp only [named_cons _ m ms, List.map_append]
      cases htake : d.takeMember m with
      | error e =>
          obtain ⟨f, hf⟩ := stored_ne_of_takeMember htake d'
          constructor
          · intro h
            cases h
          · rintro ⟨hstored, -, -⟩
            exact absurd (hstored f) (hf _)
      | ok mid =>
          obtain ⟨hmid, hstage, hpositional⟩ := stored_of_takeMember htake
          change ms.foldlM takeMember mid = .ok d' ↔ _
          rw [ih, hstage, hpositional]
          simp only [hmid, List.append_assoc]

theorem finish_eq_ok_iff {d : Draft} {e : Envelope} :
    d.finish = .ok e ↔
      d.id = some e.id ∧ d.name = some e.name ∧ d.payload.getD .null = e.payload := by
  unfold finish
  cases d.id with
  | none => simp
  | some id =>
      cases d.name with
      | none => simp
      | some name =>
          cases e
          simp

end Draft

/-- The envelope that an object says: it has one id, one name and at most one payload. -/
structure IsIn (e : Envelope) (ms : List (String × Value)) : Prop where
  id : named .id ms = [.string e.id]
  name : named .name ms = [.string e.name]
  payload : named .payload ms = [] ∧ e.payload = .null ∨
    ∃ v, named .payload ms = [v] ∧ e.payload = v.normal

theorem ofMembers_eq_ok_iff_exists {ms : List (String × Value)} {e : Envelope} :
    ofMembers ms = .ok e ↔
      ∃ d : Draft, (∀ f, (named f ms).map f.kept = d.stored f) ∧ d.finish = .ok e := by
  have hstart (f : Field) : Draft.stored { stage := .memberName } f = [] := by cases f <;> rfl
  unfold ofMembers
  constructor
  · intro h
    cases htaken : ms.foldlM Draft.takeMember { stage := .memberName } with
    | error m =>
        rw [htaken] at h
        cases h
    | ok d =>
        rw [htaken] at h
        obtain ⟨hstored, -, -⟩ := Draft.foldlM_takeMember_eq_ok_iff.1 htaken
        simp only [hstart, List.nil_append] at hstored
        exact ⟨d, hstored, h⟩
  · rintro ⟨d, hstored, hfinish⟩
    have htaken : ms.foldlM Draft.takeMember { stage := .memberName } =
        .ok { d with stage := .memberName, positional := false } := by
      refine Draft.foldlM_takeMember_eq_ok_iff.2 ⟨fun f => ?_, rfl, rfl⟩
      rw [hstart, List.nil_append, hstored]
      cases f <;> rfl
    rw [htaken]
    exact hfinish

theorem ofMembers_eq_ok_iff {ms : List (String × Value)} {e : Envelope} :
    ofMembers ms = .ok e ↔ e.IsIn ms := by
  have hids : (named .id ms).map Field.id.kept = named .id ms := List.map_id' _
  have hnames : (named .name ms).map Field.name.kept = named .name ms := List.map_id' _
  rw [ofMembers_eq_ok_iff_exists]
  constructor
  · rintro ⟨d, hstored, hfinish⟩
    obtain ⟨hid, hname, hpayload⟩ := Draft.finish_eq_ok_iff.1 hfinish
    have hone := hstored .id
    have hother := hstored .name
    have hrest := hstored .payload
    rw [hids, Draft.stored, hid] at hone
    rw [hnames, Draft.stored, hname] at hother
    refine ⟨hone, hother, ?_⟩
    change (named .payload ms).map Value.normal = d.payload.toList at hrest
    cases hd : d.payload with
    | none =>
        rw [hd] at hrest hpayload
        exact .inl ⟨List.map_eq_nil_iff.1 hrest, hpayload.symm⟩
    | some v =>
        rw [hd] at hrest hpayload
        obtain ⟨w, hw, rfl⟩ := List.map_eq_singleton_iff.1 hrest
        exact .inr ⟨w, hw, hpayload.symm⟩
  · rintro ⟨hid, hname, hpayload⟩
    obtain ⟨o, ho, hnull⟩ : ∃ o : Option Value,
        (named .payload ms).map Value.normal = o.toList ∧ o.getD .null = e.payload := by
      rcases hpayload with ⟨hnone, hnull⟩ | ⟨v, hv, hnormal⟩
      · exact ⟨none, by rw [hnone]; rfl, hnull.symm⟩
      · exact ⟨some v.normal, by rw [hv]; rfl, hnormal.symm⟩
    refine ⟨{ id := some e.id, name := some e.name, payload := o }, fun f => ?_,
      Draft.finish_eq_ok_iff.2 ⟨rfl, rfl, hnull⟩⟩
    cases f with
    | id =>
        rw [hids, hid]
        rfl
    | name =>
        rw [hnames, hname]
        rfl
    | payload => exact ho

theorem parse_eq_ok_iff {format : WireFormat} {ms : List (String × Value)} {bs : List UInt8}
    (h : format.Writes ms bs) {e : Envelope} : parse format bs = .ok e ↔ e.IsIn ms := by
  have hanswers := parse_answers h
  rw [← ofMembers_eq_ok_iff]
  generalize parse format bs = x at hanswers ⊢
  generalize ofMembers ms = y at hanswers ⊢
  cases hanswers <;> simp

/-- The order of the known members does not matter to an envelope that is accepted. -/
theorem IsIn.perm {e : Envelope} {ms ms' : List (String × Value)} (h : e.IsIn ms)
    (hperm : (known ms).Perm (known ms')) : e.IsIn ms' := by
  have hnamed (f : Field) : (named f ms).Perm (named f ms') := by
    rw [← named_known f ms, ← named_known f ms']
    exact (hperm.filter _).map _
  refine ⟨List.perm_singleton.1 (h.id ▸ (hnamed .id).symm),
    List.perm_singleton.1 (h.name ▸ (hnamed .name).symm), ?_⟩
  rcases h.payload with ⟨hnone, hnull⟩ | ⟨v, hv, hnormal⟩
  · exact .inl ⟨List.perm_nil.1 (hnone ▸ (hnamed .payload).symm), hnull⟩
  · exact .inr ⟨v, List.perm_singleton.1 (hv ▸ (hnamed .payload).symm), hnormal⟩

end Envelope

namespace Command

open Envelope Text

/-- The command that an object says: its envelope, with an id and a name that are not blank. -/
structure IsIn (c : Command) (ms : List (String × Value)) : Prop where
  envelope : c.envelope.IsIn ms
  id : ¬ IsBlank c.id
  name : ¬ IsBlank c.name
  context : c.context = {}

theorem decode_eq_ok_iff {format : WireFormat} {ms : List (String × Value)} {bs : List UInt8}
    (h : format.Writes ms bs) (c : Command) : decode format bs = .ok c ↔ c.IsIn ms := by
  have hparse : parse format bs = .ok c.envelope ↔ c.envelope.IsIn ms := parse_eq_ok_iff h
  constructor
  · intro hc
    obtain ⟨hread, hcheck, hcontext⟩ := parse_of_decode hc
    obtain ⟨⟨hid, hname⟩, -⟩ := check_eq_ok_iff.1 hcheck
    exact ⟨hparse.1 hread, hid, hname, hcontext⟩
  · rintro ⟨henvelope, hid, hname, hcontext⟩
    rw [decode_of_parse (hparse.2 henvelope) (check_of_not_blank hid hname), ← hcontext]

theorem message_decode_eq {format : WireFormat} {ms ms' : List (String × Value)}
    {bs bs' : List UInt8} (h : format.Writes ms bs) (h' : format.Writes ms' bs')
    (hknown : known ms = known ms') :
    (decode format bs).mapError CodecError.message =
      (decode format bs').mapError CodecError.message := by
  have hsame : ofMembers ms' = ofMembers ms := by
    rw [← ofMembers_known ms', ← hknown, ofMembers_known]
  have hanswers := parse_answers h
  have hanswers' := parse_answers h'
  rw [hsame] at hanswers'
  unfold decode Envelope.decode
  generalize ofMembers ms = answer at hanswers hanswers'
  generalize parse format bs = x at hanswers ⊢
  generalize parse format bs' = x' at hanswers' ⊢
  cases hanswers with
  | ok e =>
      cases hanswers'
      rfl
  | error hlike =>
      cases hanswers' with
      | error hlike' =>
          have hwords := (format.message_refuse hlike).trans (format.message_refuse hlike').symm
          exact congrArg Except.error hwords

theorem IsIn.perm {c : Command} {ms ms' : List (String × Value)} (h : c.IsIn ms)
    (hperm : (known ms).Perm (known ms')) : c.IsIn ms' :=
  ⟨h.envelope.perm hperm, h.id, h.name, h.context⟩

theorem toOption_decode_eq {format : WireFormat} {ms ms' : List (String × Value)}
    {bs bs' : List UInt8} (h : format.Writes ms bs) (h' : format.Writes ms' bs')
    (hperm : (known ms).Perm (known ms')) :
    (decode format bs).toOption = (decode format bs').toOption := by
  have hsame (c : Command) : decode format bs = .ok c ↔ decode format bs' = .ok c := by
    rw [decode_eq_ok_iff h, decode_eq_ok_iff h']
    exact ⟨fun hc => hc.perm hperm, fun hc => hc.perm hperm.symm⟩
  cases hread : decode format bs with
  | ok c => rw [(hsame c).1 hread]
  | error e =>
      cases hread' : decode format bs' with
      | error e' => rfl
      | ok c => exact absurd ((hsame c).2 hread') (by simp [hread])

/-- An object is accepted exactly when it has one id and one name, both strings that are not blank, and
at most one payload, and then these are what is read. The order of its members does not matter, and what
members with other names there are does not even matter to the words in which an object is refused. -/
theorem decode_members {format : WireFormat} {ms : List (String × Value)} {bs : List UInt8}
    (h : format.Writes ms bs) :
    (∀ c, decode format bs = .ok c ↔ c.IsIn ms) ∧
      ∀ ms' bs', format.Writes ms' bs' →
        ((known ms).Perm (known ms') →
          (decode format bs).toOption = (decode format bs').toOption) ∧
        (known ms = known ms' →
          (decode format bs).mapError CodecError.message =
            (decode format bs').mapError CodecError.message) :=
  ⟨decode_eq_ok_iff h, fun _ _ h' => ⟨toOption_decode_eq h h', message_decode_eq h h'⟩⟩

/-- An unknown member comes first and there is no payload. The JSON text has blanks in it; in MsgPack the
headers are longer than they need be and the number is in signed form. -/
theorem decode_members_disordered :
    let ms : List (String × Value) :=
      [("extra", .array [.number (.whole 1)]), ("name", .string "x"), ("id", .string " c")]
    let text : List Char :=
      '\x7b' :: (((Json.quote "extra".toList ++ [' ']) ++ ':' :: ['[', ' ', '1', ']']) ++ ',' ::
        ((Json.quote "name".toList ++ ':' :: Json.quote "x".toList) ++ ',' ::
          ('\n' :: Json.quote "id".toList ++ ':' :: Json.quote " c".toList))) ++ ['\x7d']
    let bytes : List UInt8 :=
      MsgPack.field 0xDE 2 3 ++
        (MsgPack.textBytes "extra" ++
          ((MsgPack.field 0xDD 4 1 ++ (MsgPack.field 0xD1 2 1 ++ [])) ++
          (MsgPack.textBytes "name" ++ (MsgPack.textBytes "x" ++
          (MsgPack.textBytes "id" ++ (MsgPack.textBytes " c" ++ []))))))
    WireFormat.json.Writes ms (Utf8.encode text) ∧
      decode .json (Utf8.encode text) = .ok ⟨" c", "x", .null, {}⟩ ∧
      WireFormat.msgPack.Writes ms bytes ∧
      decode .msgPack bytes = .ok ⟨" c", "x", .null, {}⟩ := by
  intro ms text bytes
  have hone : (Number.whole 1).fits := by decide
  have hintegral : (Value.object ms).Integral :=
    ⟨trivial, ⟨trivial, hone, trivial⟩, trivial, trivial, trivial⟩
  have hin : IsIn ⟨" c", "x", .null, {}⟩ ms :=
    ⟨⟨rfl, rfl, .inl ⟨rfl, rfl⟩⟩, by decide, by decide, rfl⟩
  have hjson : WireFormat.json.Writes ms (Utf8.encode text) := by
    have hblank : Json.Gap [' '] := by decide
    have hline : Json.Gap ['\n'] := by decide
    refine ⟨hintegral, by decide, text, Json.padded_of ⟨_, ?_, rfl⟩, rfl⟩
    refine ⟨_, _, ⟨_, _, ?_, ?_, rfl⟩, ⟨_, _, ⟨_, _, ?_, ?_, rfl⟩, ⟨_, _, ?_, ?_, rfl⟩, rfl⟩, rfl⟩
    · exact ⟨[], _, [' '], Json.gap_nil, Json.quotes_quote "extra", hblank, rfl⟩
    · exact Json.padded_of ⟨_, ⟨[' '], _, [], hblank, rfl, Json.gap_nil, rfl⟩, rfl⟩
    · exact Json.padded_of (Json.quotes_quote "name")
    · exact Json.padded_of (Json.quotes_quote "x")
    · exact ⟨['\n'], _, [], hline, Json.quotes_quote "id", Json.gap_nil, by simp⟩
    · exact Json.padded_of (Json.quotes_quote " c")
  have hmsgPack : WireFormat.msgPack.Writes ms bytes := by
    have htext (s : String) (hs : MsgPack.Fits s) : MsgPack.WrittenText s (MsgPack.textBytes s) :=
      MsgPack.writtenText_textBytes hs
    have hmap : MsgPack.Announces (MsgPack.field 0xDE 2 3) (.map 3) :=
      .number (f := .mapLength) rfl (by decide) (by decide)
    have harray : MsgPack.Announces (MsgPack.field 0xDD 4 1) (.array 1) :=
      .number (f := .arrayLength) rfl (by decide) (by decide)
    have hnumber : MsgPack.Announces (MsgPack.field 0xD1 2 1) (.scalar (.integer 1)) :=
      .number (f := .integer) rfl (by decide) (by decide)
    refine ⟨hintegral, by decide, ⟨_, _, hmap, ?_, rfl⟩⟩
    refine ⟨_, _, htext "extra" (by decide), ⟨_, _, ⟨_, _, harray, ?_, rfl⟩, ?_, rfl⟩, rfl⟩
    · exact ⟨_, _, ⟨_, .signed 1, hnumber⟩, rfl, rfl⟩
    · exact ⟨_, _, htext "name" (by decide), ⟨_, _, htext "x" (by decide),
        ⟨_, _, htext "id" (by decide), ⟨_, _, htext " c" (by decide), rfl, rfl⟩, rfl⟩, rfl⟩, rfl⟩
  exact ⟨hjson, ((decode_members hjson).1 _).2 hin, hmsgPack, ((decode_members hmsgPack).1 _).2 hin⟩

end Command

end CourierDispatch
