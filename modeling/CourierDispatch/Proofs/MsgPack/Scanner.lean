import CourierDispatch.MsgPack.Scanner
import CourierDispatch.Proofs.MsgPack.Written
import CourierDispatch.Proofs.Value.All

/-!
# Scanning the bytes of a value

A scanner that goes over the bytes of a value does to its consumer what offering the value does, in
whichever way the value is written. Nothing marks the end of a container: behind each item `goOn` counts
down what is left of the containers around it.
-/

namespace CourierDispatch.MsgPack

/-- How MsgPack offers values. Containers count whether they are read or not, and every container is
held against a consumer that takes no more. -/
def manner : Manner Fault where
  mismatch := .mismatch
  tooDeep? _ depth := if Scanner.depthLimit ≤ depth then some .tooDeep else none
  surplus? _ := some .tooLong
  skim t := t

theorem manner_limits : manner.Limits Scanner.depthLimit .tooDeep := by
  intro depth
  rfl

/-- What is in the value itself fits into its header. -/
def SizedNode : Value → Prop
  | .number n => n.fits
  | .string s => Fits s
  | .array items => items.length < sizeLimit
  | .object members => members.length < sizeLimit ∧ ∀ m ∈ members, Fits m.1
  | _ => True

def Sized (v : Value) : Prop := v.All SizedNode

section

open Value

theorem writtenText_textBytes {s : String} (hs : Fits s) : WrittenText s (textBytes s) :=
  ⟨_, _, (holds_textHeader hs).announces texts_areRead, rfl, rfl⟩

mutual
/-- What is printed of a value is the value, with every number in its own form. -/
theorem written_print (v : Value) (hv : Sized v) :
    Written (fun n t => t = n.token) v (print v) := by
  match v, hv with
  | .null, _ | .bool true, _ | .bool false, _ => exact .marker rfl
  | .number n, hv => exact ⟨_, rfl, announces_numberBytes hv⟩
  | .string s, hv => exact writtenText_textBytes hv
  | .array items, hv =>
      exact ⟨_, _, (holds_arrayHeader hv.1).announces arrays_areRead,
        writtenItems_printItems items hv.2, rfl⟩
  | .object members, hv =>
      exact ⟨_, _, (holds_mapHeader hv.1.1).announces maps_areRead,
        writtenMembers_printMembers members hv.1.2 hv.2, rfl⟩

theorem writtenItems_printItems (items : List Value) (hv : AllItems SizedNode items) :
    WrittenItems (fun n t => t = n.token) items (printItems items) := by
  match items, hv with
  | [], _ => rfl
  | v :: rest, hv =>
      exact ⟨_, _, written_print v hv.1, writtenItems_printItems rest hv.2, rfl⟩

theorem writtenMembers_printMembers (members : List (String × Value))
    (hk : ∀ m ∈ members, Fits m.1) (hv : AllMembers SizedNode members) :
    WrittenMembers (fun n t => t = n.token) members (printMembers members) := by
  match members, hk, hv with
  | [], _, _ => rfl
  | (k, v) :: rest, hk, hv =>
      obtain ⟨hkey, hrest⟩ := List.forall_mem_cons.1 hk
      exact ⟨_, _, writtenText_textBytes hkey,
        ⟨_, _, written_print v hv.1, writtenMembers_printMembers rest hrest hv.2, rfl⟩,
        List.append_assoc _ _ _⟩
end

end

namespace Scanner

open Value

variable {σ : Type} [Consumer σ]

theorem scan_cons (s : Scanner σ) (b : UInt8) (bs : List UInt8) :
    s.scan (b :: bs) = (s.step b).bind fun s => s.scan bs := rfl

theorem scan_cons_of_step {s s' : Scanner σ} {b : UInt8} (h : s.step b = .ok s')
    (bs : List UInt8) : s.scan (b :: bs) = s'.scan bs := by
  rw [scan_cons, h]
  rfl

theorem accept_eq (c : σ) (t : Token) : accept c t = manner.hand c t := by
  rw [accept, Manner.hand]
  cases Consumer.accept c t <;> rfl

theorem handScalar_eq (c : σ) (t : Token) : manner.handScalar c t = manner.hand c t := by
  rw [Manner.handScalar]
  split <;> rfl

def goOn (frames : List Frame) (rest : List UInt8) (c : σ) : Except Fault (Scanner σ) :=
  (settle c frames).bind fun s => s.scan rest

theorem goOn_last (isMap : Bool) (frames : List Frame) (rest : List UInt8) (c : σ) :
    goOn (⟨isMap, 1⟩ :: frames) rest c =
      (manner.hand c (Frame.closing ⟨isMap, 1⟩)).bind (goOn frames rest) := by
  rw [goOn, settle, if_pos (Nat.le_refl 1), accept_eq]
  cases manner.hand c (Frame.closing ⟨isMap, 1⟩) <;> rfl

theorem goOn_next (isMap : Bool) (n : Nat) (frames : List Frame) (rest : List UInt8) (c : σ) :
    goOn (⟨isMap, n + 2⟩ :: frames) rest c =
      (manner.next isMap false c).bind fun c => scan ⟨.marker, ⟨isMap, n + 1⟩ :: frames, c⟩ rest := by
  have hleft : ¬ n + 2 ≤ 1 := by omega
  rw [goOn, settle, if_neg hleft, Manner.next]
  cases hsated : Consumer.sated c <;> simp [manner, Except.bind]

theorem emit_eq (s : Scanner σ) (t : Token) :
    s.emit t = (manner.hand s.consumer t).bind fun c => settle c s.frames := by
  rw [emit, accept_eq]
  cases manner.hand s.consumer t <;> rfl

/-- What a header announces does not depend on its length. -/
theorem announce_spot (spot spot' : Spot) (frames : List Frame) (c : σ) (i : Item) :
    announce ⟨spot, frames, c⟩ i = announce ⟨spot', frames, c⟩ i := by
  cases i with
  | scalar t => rfl
  | array n => rfl
  | map n => rfl
  | body kind n => cases kind <;> cases n <;> rfl

theorem scan_digits {f : Field} {width : Nat} {digits bs : List UInt8} (hbs : bs ≠ [])
    (hlength : digits.length + bs.length = width) (frames : List Frame) (c : σ)
    (rest : List UInt8) :
    scan ⟨.field f width digits, frames, c⟩ (bs ++ rest) =
      (announce ⟨.marker, frames, c⟩ (f.item width (bigEndian (digits.reverse ++ bs)))).bind
        fun s => s.scan rest := by
  induction bs generalizing digits with
  | nil => exact absurd rfl hbs
  | cons b bs ih =>
      rw [List.length_cons] at hlength
      cases bs with
      | nil =>
          have hstep : step (σ := σ) ⟨.field f width digits, frames, c⟩ b =
              announce ⟨.marker, frames, c⟩ (f.item width (bigEndian (digits.reverse ++ [b]))) := by
            simp only [step]
            rw [if_neg (by simp only [List.length_nil] at hlength; omega), List.reverse_cons]
            exact announce_spot _ _ _ _ _
          rw [List.singleton_append, scan_cons, hstep]
      | cons b' bs =>
          have hstep : step (σ := σ) ⟨.field f width digits, frames, c⟩ b =
              .ok ⟨.field f width (b :: digits), frames, c⟩ := by
            simp only [step]
            rw [if_pos (by simp only [List.length_cons] at hlength; omega)]
          rw [List.cons_append, scan_cons_of_step hstep,
            ih (by simp) (by simp only [List.length_cons] at hlength ⊢; omega),
            List.reverse_cons, List.append_assoc, List.singleton_append]

theorem scan_header {bs : List UInt8} {i : Item} (h : Announces bs i) (frames : List Frame)
    (c : σ) (rest : List UInt8) :
    scan ⟨.marker, frames, c⟩ (bs ++ rest) =
      (announce ⟨.marker, frames, c⟩ i).bind fun s => s.scan rest := by
  cases h with
  | marker h =>
      rw [List.singleton_append, scan_cons]
      simp only [step, h]
  | @number b f width n h hw hn =>
      have hstep : step (σ := σ) ⟨.marker, frames, c⟩ b = .ok ⟨.field f width [], frames, c⟩ := by
        simp only [step, h]
      rw [field, List.cons_append, scan_cons_of_step hstep,
        scan_digits (bytesOf_ne_nil hw n) (by rw [length_bytesOf]; exact Nat.zero_add width),
        List.reverse_nil, List.nil_append, bigEndian_bytesOf hn]

theorem scan_scalar {bs : List UInt8} {t : Token} (h : Announces bs (.scalar t))
    (frames : List Frame) (c : σ) (rest : List UInt8) :
    scan ⟨.marker, frames, c⟩ (bs ++ rest) =
      (manner.handScalar c t).bind (goOn frames rest) := by
  rw [scan_header h, announce, emit_eq, handScalar_eq]
  cases manner.hand c t <;> rfl

theorem scan_content {kind : BodyKind} (hkind : kind ≠ .extension) {content bs : List UInt8}
    (hbs : bs ≠ []) (frames : List Frame) (c : σ) (rest : List UInt8) :
    scan ⟨.body kind bs.length content, frames, c⟩ (bs ++ rest) =
      (manner.hand c (bodyToken (content.reverse ++ bs) kind)).bind (goOn frames rest) := by
  induction bs generalizing content with
  | nil => exact absurd rfl hbs
  | cons b bs ih =>
      cases bs with
      | nil =>
          have hstep : step (σ := σ) ⟨.body kind [b].length content, frames, c⟩ b =
              emit ⟨.body kind 1 content, frames, c⟩
                (bodyToken (content.reverse ++ [b]) kind) := by
            rw [← List.reverse_cons]
            cases kind <;> first | rfl | exact absurd rfl hkind
          rw [List.singleton_append, scan_cons, hstep, emit_eq]
          cases manner.hand c (bodyToken (content.reverse ++ [b]) kind) <;> rfl
      | cons b' bs =>
          have hstep : step (σ := σ) ⟨.body kind (b :: b' :: bs).length content, frames, c⟩ b =
              .ok ⟨.body kind (b' :: bs).length (b :: content), frames, c⟩ := by
            simp [step]
          rw [List.cons_append, scan_cons_of_step hstep, ih (by simp), List.reverse_cons,
            List.append_assoc, List.singleton_append]

theorem scan_body {kind : BodyKind} (hkind : kind ≠ .extension) {header content : List UInt8}
    (h : Announces header (.body kind content.length)) (frames : List Frame) (c : σ)
    (rest : List UInt8) :
    scan ⟨.marker, frames, c⟩ (header ++ content ++ rest) =
      (manner.hand c (bodyToken content kind)).bind (goOn frames rest) := by
  rw [List.append_assoc, scan_header h]
  by_cases hnil : content = []
  · have hempty : announce ⟨.marker, frames, c⟩ (.body kind content.length) =
        emit ⟨.marker, frames, c⟩ (bodyToken content kind) := by
      rw [hnil]
      cases kind <;> first | rfl | exact absurd rfl hkind
    rw [hempty, hnil, emit_eq]
    cases manner.hand c (bodyToken [] kind) <;> rfl
  · have hbody : announce ⟨.marker, frames, c⟩ (.body kind content.length) =
        .ok ⟨.body kind content.length [], frames, c⟩ := by
      obtain ⟨b, bs, rfl⟩ := List.exists_cons_of_ne_nil hnil
      cases kind <;> first | rfl | exact absurd rfl hkind
    rw [hbody]
    exact scan_content hkind hnil frames c rest

theorem bodyToken_bytes (s : String) : bodyToken (Utf8.bytes s) .text = .text s := by
  rw [bodyToken, Utf8.string?_bytes]

theorem scan_writtenText {s : String} {bs : List UInt8} (h : WrittenText s bs)
    (frames : List Frame) (c : σ) (rest : List UInt8) :
    scan ⟨.marker, frames, c⟩ (bs ++ rest) =
      (manner.handScalar c (.text s)).bind (goOn frames rest) := by
  obtain ⟨header, _, hheader, rfl, rfl⟩ := h
  rw [scan_body (by simp) hheader, handScalar_eq, bodyToken_bytes]

/-- A container opens, and an empty one closes at once. -/
theorem openFrame_eq (frames : List Frame) (c : σ) (f : Frame) :
    openFrame ⟨.marker, frames, c⟩ f =
      (manner.enter frames.length c f.opening).bind fun c =>
        if f.left = 0 then (manner.hand c f.closing).bind fun c => settle c frames
        else .ok ⟨.marker, f :: frames, c⟩ := by
  have htooDeep (skims : Bool) : manner.tooDeep? skims frames.length =
      if depthLimit ≤ frames.length then some .tooDeep else none := rfl
  rw [openFrame, Manner.enter, htooDeep]
  by_cases hdepth : depthLimit ≤ frames.length
  · rw [if_pos hdepth, if_pos hdepth]
    rfl
  · rw [if_neg hdepth, if_neg hdepth]
    simp only [accept_eq]
    cases manner.hand c f.opening with
    | error e => rfl
    | ok c =>
        change (if f.left = 0 then _ else _) = if f.left = 0 then _ else _
        cases manner.hand c f.closing <;> rfl

/-- A container goes through from its header to its end, if its items do. -/
theorem scan_container (f : Frame) (frames : List Frame) {header body : List UInt8} {i : Item}
    (h : Announces header i)
    (hopen : ∀ c : σ, announce ⟨.marker, frames, c⟩ i = openFrame ⟨.marker, frames, c⟩ f)
    {k : σ → Except Fault σ}
    (hk : f.left = 0 ∧ body = [] ∧ k = .ok ∨ f.left ≠ 0 ∧ ∀ c rest,
      scan ⟨.marker, f :: frames, c⟩ (body ++ rest) =
        ((k c).bind fun c => manner.hand c f.closing).bind (goOn frames rest))
    (c : σ) (rest : List UInt8) :
    scan ⟨.marker, frames, c⟩ (header ++ body ++ rest) =
      ((manner.enter frames.length c f.opening).bind fun c =>
        (k c).bind fun c => manner.hand c f.closing).bind (goOn frames rest) := by
  rw [List.append_assoc, scan_header h, hopen, openFrame_eq]
  rcases hk with ⟨hleft, rfl, rfl⟩ | ⟨hleft, hscan⟩
  · simp only [hleft, if_true]
    cases manner.enter frames.length c f.opening with
    | error e => rfl
    | ok c =>
        change ((manner.hand c f.closing).bind _).bind _ = (manner.hand c f.closing).bind _
        cases manner.hand c f.closing <;> rfl
  · simp only [hleft, if_false]
    cases manner.enter frames.length c f.opening with
    | error e => rfl
    | ok c => exact hscan c rest

variable {form : Number → Token → Prop}

mutual
/-- Going over the bytes of a value is offering the value to the consumer, with its numbers in the forms
that they are written in. -/
theorem scan_written (v : Value) {bs : List UInt8} (h : Written form v bs) (frames : List Frame) :
    ∃ k : σ → Except Fault σ, manner.Offers form frames.length v k ∧ ∀ c rest,
      scan ⟨.marker, frames, c⟩ (bs ++ rest) = (k c).bind (goOn frames rest) := by
  match v, h with
  | .null, h => exact ⟨_, rfl, scan_scalar h frames⟩
  | .bool b, h => exact ⟨_, rfl, scan_scalar h frames⟩
  | .number n, ⟨t, ht, h⟩ => exact ⟨_, ⟨t, ht, rfl⟩, scan_scalar h frames⟩
  | .string s, h => exact ⟨_, rfl, scan_writtenText h frames⟩
  | .array items, ⟨header, body, hheader, hbody, hbs⟩ =>
      match items, hbody with
      | [], hbody =>
          have hempty := scan_container (σ := σ) ⟨false, 0⟩ frames hheader (fun _ => rfl)
            (.inl ⟨rfl, hbody, rfl⟩)
          exact ⟨_, ⟨_, rfl, rfl⟩, hbs ▸ hempty⟩
      | v :: vs, hbody =>
          obtain ⟨ks, hks, hscan⟩ := scan_items v vs hbody frames
          have hfull := scan_container ⟨false, vs.length + 1⟩ frames hheader (fun _ => rfl)
            (.inr ⟨Nat.succ_ne_zero _, hscan⟩)
          exact ⟨_, ⟨ks, hks, rfl⟩, hbs ▸ hfull⟩
  | .object members, ⟨header, body, hheader, hbody, hbs⟩ =>
      match members, hbody with
      | [], hbody =>
          have hempty := scan_container (σ := σ) ⟨true, 0⟩ frames hheader (fun _ => rfl)
            (.inl ⟨rfl, hbody, rfl⟩)
          exact ⟨_, ⟨_, rfl, rfl⟩, hbs ▸ hempty⟩
      | (k, v) :: ms, hbody =>
          obtain ⟨ks, hks, hscan⟩ := scan_members k v ms hbody frames
          have hfull := scan_container ⟨true, 2 * (ms.length + 1)⟩ frames hheader (fun _ => rfl)
            (.inr ⟨Nat.succ_ne_zero _, hscan⟩)
          exact ⟨_, ⟨ks, hks, rfl⟩, hbs ▸ hfull⟩
termination_by sizeOf v

theorem scan_items (v : Value) (vs : List Value) {bs : List UInt8}
    (h : WrittenItems form (v :: vs) bs) (frames : List Frame) :
    ∃ k : σ → Except Fault σ, manner.OffersItems form (frames.length + 1) (v :: vs) k ∧ ∀ c rest,
      scan ⟨.marker, ⟨false, vs.length + 1⟩ :: frames, c⟩ (bs ++ rest) =
        ((k c).bind fun c => manner.hand c .arrayEnd).bind (goOn frames rest) := by
  match vs, h with
  | [], ⟨as, cs, hv, hvs, hbs⟩ =>
      obtain ⟨kv, hkv, hscan⟩ := scan_written v hv (⟨false, 1⟩ :: frames)
      refine ⟨_, ⟨kv, _, hkv, rfl, rfl⟩, fun c rest => ?_⟩
      rw [hbs, hvs, List.append_nil]
      change scan ⟨.marker, ⟨false, 1⟩ :: frames, c⟩ _ = (((kv c).bind _).bind _).bind _
      rw [hscan]
      cases kv c with
      | error e => rfl
      | ok c => exact goOn_last false frames rest c
  | w :: ws, ⟨as, cs, hv, hvs, hbs⟩ =>
      obtain ⟨kv, hkv, hscan⟩ := scan_written v hv (⟨false, ws.length + 2⟩ :: frames)
      obtain ⟨ks, hks, hrest⟩ := scan_items w ws hvs frames
      refine ⟨_, ⟨kv, ks, hkv, hks, rfl⟩, fun c rest => ?_⟩
      rw [hbs, List.append_assoc]
      change scan ⟨.marker, ⟨false, ws.length + 2⟩ :: frames, c⟩ _ = (((kv c).bind _).bind _).bind _
      rw [hscan]
      cases kv c with
      | error e => rfl
      | ok c =>
          change goOn (⟨false, ws.length + 2⟩ :: frames) _ c =
            (((manner.next false false c).bind _).bind _).bind _
          rw [goOn_next]
          cases manner.next false false c with
          | error e => rfl
          | ok c => exact hrest c rest
termination_by sizeOf (v :: vs)

theorem scan_members (k : String) (v : Value) (ms : List (String × Value)) {bs : List UInt8}
    (h : WrittenMembers form ((k, v) :: ms) bs) (frames : List Frame) :
    ∃ ks : σ → Except Fault σ,
      manner.OffersMembers form (frames.length + 1) ((k, v) :: ms) ks ∧ ∀ c rest,
        scan ⟨.marker, ⟨true, 2 * (ms.length + 1)⟩ :: frames, c⟩ (bs ++ rest) =
          ((ks c).bind fun c => manner.hand c .objectEnd).bind (goOn frames rest) := by
  match ms, h with
  | [], ⟨name, member, hname, ⟨as, cs, hv, hms, hmember⟩, hbs⟩ =>
      obtain ⟨kv, hkv, hscan⟩ := scan_written v hv (⟨true, 1⟩ :: frames)
      refine ⟨_, ⟨kv, _, hkv, rfl, rfl⟩, fun c rest => ?_⟩
      rw [hbs, hmember, hms, List.append_nil, List.append_assoc, scan_writtenText hname]
      cases manner.handScalar c (.text k) with
      | error e => rfl
      | ok c =>
          change goOn (⟨true, 2⟩ :: frames) _ c = (((manner.next true false c).bind _).bind _).bind _
          rw [goOn_next]
          cases manner.next true false c with
          | error e => rfl
          | ok c =>
              change scan ⟨.marker, ⟨true, 1⟩ :: frames, c⟩ _ = (((kv c).bind _).bind _).bind _
              rw [hscan]
              cases kv c with
              | error e => rfl
              | ok c => exact goOn_last true frames rest c
  | (k', w) :: ms, ⟨name, member, hname, ⟨as, cs, hv, hms, hmember⟩, hbs⟩ =>
      obtain ⟨kv, hkv, hscan⟩ := scan_written v hv (⟨true, 2 * ms.length + 1 + 2⟩ :: frames)
      obtain ⟨ks, hks, hrest⟩ := scan_members k' w ms hms frames
      refine ⟨_, ⟨kv, ks, hkv, hks, rfl⟩, fun c rest => ?_⟩
      rw [hbs, hmember, List.append_assoc, List.append_assoc, scan_writtenText hname]
      cases manner.handScalar c (.text k) with
      | error e => rfl
      | ok c =>
          change goOn (⟨true, 2 * (ms.length + 1) + 2⟩ :: frames) _ c =
            (((manner.next true false c).bind _).bind _).bind _
          rw [goOn_next]
          cases manner.next true false c with
          | error e => rfl
          | ok c =>
              change scan ⟨.marker, ⟨true, 2 * ms.length + 1 + 2⟩ :: frames, c⟩ _ =
                (((kv c).bind _).bind _).bind _
              rw [hscan]
              cases kv c with
              | error e => rfl
              | ok c =>
                  change goOn (⟨true, 2 * ms.length + 1 + 2⟩ :: frames) _ c =
                    (((manner.next true false c).bind _).bind _).bind _
                  rw [goOn_next]
                  cases manner.next true false c with
                  | error e => rfl
                  | ok c => exact hrest c rest
termination_by sizeOf ((k, v) :: ms)
end

/-! What a particular consumer makes of an item, and of all items of a container. -/

/-- Inside these containers the bytes are an item that turns one consumer into another. -/
def Takes (frames : List Frame) (bs : List UInt8) (c d : σ) : Prop :=
  ∀ rest, scan ⟨.marker, frames, c⟩ (bs ++ rest) = goOn frames rest d

inductive TakesAll (isMap : Bool) (outer : List Frame) : Nat → List UInt8 → σ → σ → Prop
  | nil (c : σ) : TakesAll isMap outer 0 [] c c
  | cons {n : Nat} {as bs : List UInt8} {c d e : σ} (h : Takes (⟨isMap, n + 1⟩ :: outer) as c d)
    (hd : n ≠ 0 → Consumer.sated d = false) (hrest : TakesAll isMap outer n bs d e) :
    TakesAll isMap outer (n + 1) (as ++ bs) c e

section

variable {frames : List Frame} {c d e : σ} {bs : List UInt8}

theorem takes_scalar {t : Token} (h : Announces bs (.scalar t)) (hd : Consumer.accept c t = .ok d) :
    Takes frames bs c d := by
  intro rest
  rw [scan_scalar h, handScalar_eq, manner.hand_of_accept hd]
  rfl

theorem takes_body {kind : BodyKind} (hkind : kind ≠ .extension) {header content : List UInt8}
    (h : Announces header (.body kind content.length))
    (hd : Consumer.accept c (bodyToken content kind) = .ok d) :
    Takes frames (header ++ content) c d := by
  intro rest
  rw [scan_body hkind h, manner.hand_of_accept hd]
  rfl

theorem TakesAll.scan_eq {isMap : Bool} {n : Nat} (h : TakesAll isMap frames n bs c d) (hn : n ≠ 0)
    (rest : List UInt8) :
    scan ⟨.marker, ⟨isMap, n⟩ :: frames, c⟩ (bs ++ rest) =
      (manner.hand d (Frame.closing ⟨isMap, 1⟩)).bind (goOn frames rest) := by
  induction h with
  | nil c => exact absurd rfl hn
  | @cons n as bs c d e h hd hrest ih =>
      rw [List.append_assoc, h]
      cases n with
      | zero =>
          cases hrest
          exact goOn_last isMap frames rest d
      | succ n =>
          have hnext : manner.next isMap false d = .ok d :=
            manner.next_of_not_sated (hd (Nat.succ_ne_zero n)) isMap false
          rw [goOn_next, hnext]
          exact ih (Nat.succ_ne_zero n)

theorem takes_container {f : Frame} {header body : List UInt8} {i : Item} {c' d' : σ}
    (h : Announces header i)
    (hopen : announce ⟨.marker, frames, c⟩ i = openFrame ⟨.marker, frames, c⟩ f)
    (hf : f.left ≠ 0) (henter : manner.enter frames.length c f.opening = .ok c')
    (hbody : TakesAll f.isMap frames f.left body c' d')
    (hclose : Consumer.accept d' f.closing = .ok d) : Takes frames (header ++ body) c d := by
  intro rest
  rw [List.append_assoc, scan_header h, hopen, openFrame_eq, henter]
  simp only [Except.bind, if_neg hf]
  rw [hbody.scan_eq hf]
  change (manner.hand d' f.closing).bind _ = _
  rw [manner.hand_of_accept hclose]
  rfl

end

/-- Behind a complete value nothing matters. -/
theorem scan_rest (frames : List Frame) (c : σ) (bs : List UInt8) :
    scan ⟨.rest, frames, c⟩ bs = .ok ⟨.rest, frames, c⟩ := by
  induction bs with
  | nil => rfl
  | cons b bs ih =>
      have hstep : step (σ := σ) ⟨.rest, frames, c⟩ b = .ok ⟨.rest, frames, c⟩ := rfl
      rw [scan_cons_of_step hstep, ih]

theorem feed_eq_of_scan {bs : List UInt8} {x : Except Fault σ} {c : σ}
    (h : ∀ rest, scan ⟨.marker, [], c⟩ (bs ++ rest) = x.bind (goOn [] rest)) (rest : List UInt8) :
    feed c (bs ++ rest) = x := by
  rw [feed, start, h]
  cases x with
  | error e => rfl
  | ok c =>
      change (scan ⟨.rest, [], c⟩ rest).bind _ = _
      rw [scan_rest]
      rfl

theorem Takes.feed_eq {bs : List UInt8} {c d : σ} (h : Takes [] bs c d) (rest : List UInt8) :
    feed c (bs ++ rest) = .ok d :=
  feed_eq_of_scan (x := .ok d) h rest

/-- Reading the bytes of a value, whatever comes behind them. -/
theorem feed_written {v : Value} {bs : List UInt8} (h : Written form v bs) :
    ∃ k : σ → Except Fault σ, manner.Offers form 0 v k ∧ ∀ c rest, feed c (bs ++ rest) = k c := by
  obtain ⟨k, hk, hscan⟩ := scan_written (σ := σ) v h []
  exact ⟨k, hk, fun c rest => feed_eq_of_scan (hscan c) rest⟩

theorem feed_print (v : Value) (hv : Sized v) (c : σ) (rest : List UInt8) :
    feed c (print v ++ rest) = manner.offer 0 c v := by
  obtain ⟨k, hk, hfeed⟩ := feed_written (σ := σ) (written_print v hv)
  rw [hfeed, hk.eq_offer fun _ _ h => h]

end Scanner

end CourierDispatch.MsgPack
