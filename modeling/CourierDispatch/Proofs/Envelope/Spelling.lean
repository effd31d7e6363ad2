import CourierDispatch.Proofs.Envelope.Members
import CourierDispatch.Proofs.Envelope.NormalForm
import CourierDispatch.Proofs.MsgPack.Spelling

/-!
# The spellings of an envelope

In MsgPack an envelope may be a map of its fields in any order or an array of them in their own order,
the fields may go by their names or by their numbers, and an id and a name may come as text or as bytes.
Whichever spelling the producer chooses, the same command is read.
-/

namespace CourierDispatch

namespace Envelope

open MsgPack MsgPack.Scanner

/-- The bytes are the text, as text or as bytes. -/
inductive SpeltName (s : String) : List UInt8 → Prop
  | text {bs : List UInt8} (h : SpeltText s bs) : SpeltName s bs
  | bytes {bs : List UInt8} (h : SpeltContent .binaries (Utf8.bytes s) bs) : SpeltName s bs

/-- The bytes are the name of the field or its number. -/
inductive SpeltFieldName (f : Field) : List UInt8 → Prop
  | name {bs : List UInt8} (h : SpeltName f.wireName bs) : SpeltFieldName f bs
  | number {bs : List UInt8} (h : HeaderTable.naturals.Holds f.index bs) : SpeltFieldName f bs

def SpeltField (e : Envelope) : Field → List UInt8 → Prop
  | .id => SpeltName e.id
  | .name => SpeltName e.name
  | .payload => MsgPack.Spelt e.payload

def SpeltItems (e : Envelope) : List Field → List UInt8 → Prop
  | [] => (· = [])
  | f :: fs => Joined (e.SpeltField f) (e.SpeltItems fs)

def SpeltMembers (e : Envelope) : List Field → List UInt8 → Prop
  | [] => (· = [])
  | f :: fs => Joined (SpeltFieldName f) (Joined (e.SpeltField f) (e.SpeltMembers fs))

/-- The bytes are the envelope. -/
inductive Spelt (e : Envelope) : List UInt8 → Prop
  /-- The fields come in any order. -/
  | map {fs : List Field} {header body : List UInt8} (hfs : fs.Perm Field.all)
    (hheader : HeaderTable.maps.Holds 3 header) (hbody : e.SpeltMembers fs body) :
    Spelt e (header ++ body)
  | array {header body : List UInt8} (hheader : HeaderTable.arrays.Holds 3 header)
    (hbody : e.SpeltItems Field.all body) : Spelt e (header ++ body)

/-! What a draft makes of the fields. -/

namespace Draft

theorem textOf_eq_ok {t : Token} {s : String} (h : textOf t = .ok s) :
    t = .text s ∨ ∃ content, t = .bytes content ∧ Utf8.string? content = some s := by
  unfold textOf at h
  split at h
  next =>
    cases h
    exact .inl rfl
  next content =>
    split at h
    next hs =>
      cases h
      exact .inr ⟨content, rfl, hs⟩
    next => cases h
  next => cases h

theorem takes_name {s : String} {bs : List UInt8} (h : SpeltName s bs) {frames : List Frame}
    {d d' : Draft} (hd : ∀ t, textOf t = .ok s → Consumer.accept d t = .ok d') :
    Takes frames bs d d' := by
  cases h with
  | text h =>
      obtain ⟨header, _, hheader, rfl, rfl⟩ := h
      refine takes_body (by simp) (hheader.announces texts_areRead) (hd _ ?_)
      rw [bodyToken_bytes]
      rfl
  | bytes h =>
      obtain ⟨header, _, hheader, rfl, rfl⟩ := h
      refine takes_body (by simp) (hheader.announces binaries_areRead) (hd _ ?_)
      rw [bodyToken, textOf, Utf8.string?_bytes]

def put (d : Draft) (e : Envelope) (f : Field) : Draft :=
  match f with
  | .id => { d with stage := d.following .id, id := some e.id }
  | .name => { d with stage := d.following .name, name := some e.name }
  | .payload => { d with stage := d.following .payload, payload := some e.payload }

theorem accept_fieldName {d : Draft} {f : Field} {t : Token} (hd : d.stage = .memberName)
    (hf : d.has f = false) (ht : Field.ofToken t = .ok (some f)) :
    Consumer.accept d t = .ok { d with stage := .field f } := by
  change d.accept t = _
  unfold accept
  simp only [hd]
  cases t <;> simp_all [acceptName, Field.ofToken]

theorem takes_fieldName {d : Draft} {f : Field} {bs : List UInt8} {frames : List Frame}
    (hd : d.stage = .memberName) (hf : d.has f = false) (h : SpeltFieldName f bs) :
    Takes frames bs d { d with stage := .field f } := by
  have hname : Field.ofName? f.wireName = some f := Field.ofName?_eq_some_iff.2 rfl
  cases h with
  | name h =>
      refine takes_name h fun t ht => accept_fieldName hd hf ?_
      rcases textOf_eq_ok ht with rfl | ⟨content, rfl, hs⟩
      · rw [Field.ofToken, hname]
      · rw [Field.ofToken, hs, Option.bind_some, hname]
  | number h =>
      refine takes_scalar (h.announces naturals_areRead) (accept_fieldName hd hf ?_)
      cases f <;> rfl

theorem takes_field {e : Envelope} {d : Draft} {f : Field} {bs : List UInt8} {frames : List Frame}
    (hd : d.stage = .field f) (hw : e.payload.WellFormed)
    (hdepth : frames.length + e.payload.depth ≤ Scanner.depthLimit) (h : e.SpeltField f bs) :
    Takes frames bs d (d.put e f) := by
  cases f with
  | id =>
      refine takes_name h fun t ht => ?_
      change d.accept t = _
      rcases textOf_eq_ok ht with rfl | ⟨content, rfl, -⟩ <;>
        simp [accept, acceptField, hd, ht, Except.map, put]
  | name =>
      refine takes_name h fun t ht => ?_
      change d.accept t = _
      rcases textOf_eq_ok ht with rfl | ⟨content, rfl, -⟩ <;>
        simp [accept, acceptField, hd, ht, Except.map, put]
  | payload =>
      -- the builder takes the members as they come and ends up with the payload in normal form
      obtain ⟨w, hnormal, hwdepth, hwritten⟩ := MsgPack.Spelt.exists_written h hw
      obtain ⟨k, hk, hscan⟩ := scan_written (σ := Draft) w hwritten frames
      have hform (n : Number) (t : Token) (h : n.Form t) : n.Form t := h
      have htaken : k d = .ok (d.put e .payload) := by
        have hbuilt := (hosts_resume d).offers_eq manner_limits hform
          (Nat.le_trans (Nat.le_add_right _ _) hdepth) .top w hk
        rw [hwdepth, if_pos hdepth, hnormal] at hbuilt
        rw [offers_field_payload hform hd hk]
        exact hbuilt
      intro rest
      rw [hscan, htaken]
      rfl

/-- A draft of an object behind some of the fields. In which order they came does not show. -/
def holding (e : Envelope) (held : List Field) : Draft where
  stage := .memberName
  id := if .id ∈ held then some e.id else none
  name := if .name ∈ held then some e.name else none
  payload := if .payload ∈ held then some e.payload else none

theorem has_holding (e : Envelope) (held : List Field) (f : Field) :
    (holding e held).has f = decide (f ∈ held) := by
  cases f <;> simp only [has, holding] <;> split <;> simp [*]

theorem put_holding (e : Envelope) (held : List Field) (f : Field) :
    ({ holding e held with stage := .field f } : Draft).put e f = holding e (f :: held) := by
  cases f <;> simp [put, holding, following]

/-- The fields are taken in any order, as long as none of them has been taken before. -/
theorem takesAll_members {e : Envelope} (hw : e.payload.WellFormed)
    (hdepth : 1 + e.payload.depth ≤ Scanner.depthLimit) {fs held : List Field} {bs : List UInt8}
    (h : e.SpeltMembers fs bs) (hfs : fs.Nodup) (hnew : ∀ f ∈ fs, f ∉ held) :
    TakesAll true [] (2 * fs.length) bs (holding e held) (holding e (fs.reverse ++ held)) := by
  induction fs generalizing held bs with
  | nil =>
      rw [h]
      exact .nil _
  | cons f fs ih =>
      obtain ⟨name, _, hname, ⟨content, rest, hcontent, hrest, rfl⟩, rfl⟩ := h
      obtain ⟨hf, hfs⟩ := List.nodup_cons.1 hfs
      obtain ⟨hfnew, hnew⟩ := List.forall_mem_cons.1 hnew
      have hhas : (holding e held).has f = false := by rw [has_holding, decide_eq_false hfnew]
      have hnew : ∀ g ∈ fs, g ∉ f :: held := fun g hg => by
        rw [List.mem_cons, not_or]
        exact ⟨fun hgf => hf (hgf ▸ hg), hnew g hg⟩
      rw [List.reverse_cons, List.append_assoc, List.singleton_append]
      refine .cons (takes_fieldName rfl hhas hname) (fun _ => rfl)
        (.cons ?_ (fun _ => rfl) (ih hrest hfs hnew))
      rw [← put_holding]
      exact takes_field rfl hw hdepth hcontent

theorem takes_map {e : Envelope} (hw : e.payload.WellFormed)
    (hdepth : 1 + e.payload.depth ≤ Scanner.depthLimit) {fs : List Field} (hfs : fs.Perm Field.all)
    {header body : List UInt8} (hheader : HeaderTable.maps.Holds 3 header)
    (hbody : e.SpeltMembers fs body) : Takes [] (header ++ body) ({} : Draft) (filled e) := by
  have hnodup : fs.Nodup := hfs.nodup_iff.2 (by decide)
  have hnew : ∀ f ∈ fs, f ∉ ([] : List Field) := fun f _ => List.not_mem_nil
  have hmembers := takesAll_members hw hdepth hbody hnodup hnew
  have hall (f : Field) : f ∈ fs.reverse ++ [] := by
    rw [List.append_nil, List.mem_reverse, hfs.mem_iff]
    cases f <;> decide
  have hholding : holding e (fs.reverse ++ []) =
      { stage := .memberName, id := some e.id, name := some e.name, payload := some e.payload } := by
    simp only [holding, hall, if_true]
  rw [hfs.length_eq, hholding] at hmembers
  exact takes_container (f := ⟨true, 6⟩) (hheader.announces maps_areRead) rfl (by simp) rfl hmembers
    rfl

theorem takes_array {e : Envelope} (hw : e.payload.WellFormed)
    (hdepth : 1 + e.payload.depth ≤ Scanner.depthLimit) {header body : List UInt8}
    (hheader : HeaderTable.arrays.Holds 3 header) (hbody : e.SpeltItems Field.all body) :
    Takes [] (header ++ body) ({} : Draft) { filled e with positional := true } := by
  obtain ⟨id, _, hid, ⟨name, _, hname, ⟨payload, _, hpayload, rfl, rfl⟩, rfl⟩, rfl⟩ := hbody
  have hitems : TakesAll false [] 3 (id ++ (name ++ (payload ++ [])))
      ({ stage := .field .id, positional := true } : Draft)
      { filled e with stage := .full, positional := true } :=
    .cons (takes_field rfl hw hdepth hid) (fun _ => rfl)
      (.cons (takes_field rfl hw hdepth hname) (fun _ => rfl)
        (.cons (takes_field rfl hw hdepth hpayload) (fun h => absurd rfl h) (.nil _)))
  exact takes_container (f := ⟨false, 3⟩) (hheader.announces arrays_areRead) rfl (by simp) rfl hitems
    rfl

end Draft

/-- From any spelling of an envelope the envelope is read. -/
theorem parse_of_spelt {e : Envelope} {bs : List UInt8} (hw : e.payload.WellFormed)
    (hdepth : e.payload.depth ≤ 1022) (h : e.Spelt bs) : parse .msgPack bs = .ok e := by
  have hone : 1 + e.payload.depth ≤ Scanner.depthLimit := by
    rw [Scanner.depthLimit]
    omega
  have hfeed : ∃ d : Draft, MsgPack.feed ({} : Draft) (bs ++ []) = .ok d ∧ d.result? = some e := by
    cases h with
    | map hfs hheader hbody => exact ⟨_, (Draft.takes_map hw hone hfs hheader hbody).feed_eq [], rfl⟩
    | array hheader hbody => exact ⟨_, (Draft.takes_array hw hone hheader hbody).feed_eq [], rfl⟩
  obtain ⟨d, hd, hresult⟩ := hfeed
  rw [List.append_nil] at hd
  rw [parse, WireFormat.feed, hd]
  simp only [Except.mapError, hresult]

theorem spelt_msgPackBytes {e : Envelope} (h : e.Sized) : e.Spelt e.msgPackBytes := by
  have hfield (f : Field) : SpeltFieldName f (textBytes f.wireName) :=
    .name (.text (speltText_textBytes (by cases f <;> decide)))
  have hmembers : e.SpeltMembers Field.all
      (textBytes "id" ++ (textBytes e.id ++ (textBytes "name" ++ (textBytes e.name ++
        (textBytes "payload" ++ (print e.payload ++ [])))))) :=
    ⟨_, _, hfield .id, ⟨_, _, .text (speltText_textBytes h.id), ⟨_, _, hfield .name,
      ⟨_, _, .text (speltText_textBytes h.name), ⟨_, _, hfield .payload,
        ⟨_, _, spelt_print e.payload h.payload, rfl, rfl⟩, rfl⟩, rfl⟩, rfl⟩, rfl⟩, rfl⟩
  have hspelt := Spelt.map (.refl _) (holds_mapHeader (by decide)) hmembers
  simpa [msgPackBytes] using hspelt

end Envelope

namespace Command

/-- A command is read from each of its spellings, whichever header, form of a number, order and way to
name a field the producer has chosen at each place. -/
theorem decode_of_spelt {c : Command} {bs : List UInt8} (hw : c.payload.WellFormed)
    (hdepth : c.payload.depth ≤ 1022) (hid : ¬ Text.IsBlank c.id) (hname : ¬ Text.IsBlank c.name)
    (h : c.envelope.Spelt bs) : decode .msgPack bs = .ok { c with context := {} } :=
  decode_of_parse (Envelope.parse_of_spelt hw hdepth h) (Envelope.check_of_not_blank hid hname)

open MsgPack Envelope in
/-- The members of both objects come in disorder, the payload by its number and the other fields by
names of bytes and of text. The headers are longer than they need be, and so are two of the numbers. The
third one is written in binary32. -/
theorem decode_of_spelt_mixed :
    let numbers : List Value :=
      [.number (.whole 1), .number (.whole (-5)), .number (.double ⟨0x3FE0000000000000⟩)]
    let c : Command := ⟨"c", "x", .object [("a", .array numbers), ("b", .string "x")], {}⟩
    let numberBytes : List UInt8 :=
      [0xD1, 0x00, 0x01, 0xD2, 0xFF, 0xFF, 0xFF, 0xFB, 0xCA, 0x3F, 0x00, 0x00, 0x00]
    let payloadBytes : List UInt8 :=
      [0xDF, 0x00, 0x00, 0x00, 0x02, 0xD9, 0x01, 0x62, 0xDA, 0x00, 0x01, 0x78, 0xA1, 0x61, 0xDC, 0x00,
        0x03] ++ numberBytes
    let bytes : List UInt8 :=
      [0xDE, 0x00, 0x03, 0xCD, 0x00, 0x02] ++ payloadBytes ++
        [0xC4, 0x02, 0x69, 0x64, 0xC5, 0x00, 0x01, 0x63, 0xD9, 0x04, 0x6E, 0x61, 0x6D, 0x65, 0xC4, 0x01,
          0x78]
    decode .msgPack bytes = .ok c := by
  intro numbers c numberBytes payloadBytes bytes
  have hnumbers : MsgPack.SpeltItems numbers numberBytes := by
    have hone := @SpeltNumber.signed 1 0xD1 2 (by decide) (by decide) (by decide)
    have hminus := @SpeltNumber.signed (-5) 0xD2 4 (by decide) (by decide) (by decide)
    have hhalf := @SpeltNumber.single ⟨0x3FE0000000000000⟩ 0x3F000000
      ⟨by decide, by decide, by decide, by decide +kernel⟩
    exact .cons (.number hone) (.cons (.number hminus) (.cons (.number hhalf) .nil))
  have hpayload : MsgPack.Spelt c.payload payloadBytes := by
    have ha : SpeltText "a" [0xA1, 0x61] :=
      ⟨_, _, @HeaderTable.Holds.small .texts 1 (by decide), rfl, rfl⟩
    have hb : SpeltText "b" [0xD9, 0x01, 0x62] :=
      ⟨_, _, @HeaderTable.Holds.wide .texts 1 0xD9 1 (by decide) (by decide), rfl, rfl⟩
    have hx : SpeltText "x" [0xDA, 0x00, 0x01, 0x78] :=
      ⟨_, _, @HeaderTable.Holds.wide .texts 1 0xDA 2 (by decide) (by decide), rfl, rfl⟩
    have harray : MsgPack.Spelt (.array numbers) _ :=
      .array (@HeaderTable.Holds.wide .arrays 3 0xDC 2 (by decide) (by decide)) hnumbers
    have hmembers : MsgPack.SpeltMembers [("b", .string "x"), ("a", .array numbers)] _ :=
      .cons hb (.string hx) (.cons ha harray .nil)
    have hobject : MsgPack.Spelt c.payload _ :=
      .object (.swap _ _ _) (@HeaderTable.Holds.wide .maps 2 0xDF 4 (by decide) (by decide)) hmembers
    exact hobject
  have hpayloadName : SpeltFieldName .payload [0xCD, 0x00, 0x02] :=
    .number (@HeaderTable.Holds.wide .naturals 2 0xCD 2 (by decide) (by decide))
  have hidName : SpeltFieldName .id [0xC4, 0x02, 0x69, 0x64] :=
    .name (.bytes ⟨_, _, @HeaderTable.Holds.wide .binaries 2 0xC4 1 (by decide) (by decide), rfl, rfl⟩)
  have hid : SpeltName "c" [0xC5, 0x00, 0x01, 0x63] :=
    .bytes ⟨_, _, @HeaderTable.Holds.wide .binaries 1 0xC5 2 (by decide) (by decide), rfl, rfl⟩
  have hnameName : SpeltFieldName .name [0xD9, 0x04, 0x6E, 0x61, 0x6D, 0x65] :=
    .name (.text ⟨_, _, @HeaderTable.Holds.wide .texts 4 0xD9 1 (by decide) (by decide), rfl, rfl⟩)
  have hname : SpeltName "x" [0xC4, 0x01, 0x78] :=
    .bytes ⟨_, _, @HeaderTable.Holds.wide .binaries 1 0xC4 1 (by decide) (by decide), rfl, rfl⟩
  have hfields : c.envelope.SpeltMembers [.payload, .id, .name] _ :=
    ⟨_, _, hpayloadName, ⟨_, _, hpayload, ⟨_, _, hidName, ⟨_, _, hid, ⟨_, _, hnameName,
      ⟨_, _, hname, rfl, rfl⟩, rfl⟩, rfl⟩, rfl⟩, rfl⟩, rfl⟩
  have hspelt : c.envelope.Spelt _ :=
    .map (by decide) (@HeaderTable.Holds.wide .maps 3 0xDE 2 (by decide) (by decide)) hfields
  have hone : (Number.whole 1).fits := by decide
  have hminus : (Number.whole (-5)).fits := by decide
  have hhalf : (Number.double ⟨0x3FE0000000000000⟩).fits := by decide
  have hw : c.payload.WellFormed :=
    ⟨by decide, ⟨hone, hminus, hhalf, trivial⟩, trivial, trivial⟩
  exact decode_of_spelt hw (by decide) (by decide) (by decide) hspelt

end Command

end CourierDispatch
