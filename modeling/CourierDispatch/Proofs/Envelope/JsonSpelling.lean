import CourierDispatch.Proofs.Envelope.Acceptance
import CourierDispatch.Proofs.Envelope.Json
import CourierDispatch.Proofs.Value.Rearranged

/-!
# The JSON texts of an envelope

In JSON an envelope may be an object of its fields or an array of them. The members of the object, and of
all objects in the payload, come in any order, there may be blanks between any two tokens, and each
character of a text or of a name may be spelled in more than one way. Whichever text the producer
chooses, the same command is read.
-/

namespace CourierDispatch

namespace Envelope

def toItems (e : Envelope) : Value := .array [.string e.id, .string e.name, e.payload]

/-- The characters are a JSON text of the envelope. -/
inductive SpeltJson (e : Envelope) (cs : List Char) : Prop
  | object {w : Value} (hw : w.Rearranges e.toValue) (hcs : Json.Padded (Json.Written w) cs)
  | array {w : Value} (hw : w.Rearranges e.toItems) (hcs : Json.Padded (Json.Written w) cs)

theorem isIn_fields {e : Envelope} {v : Value} (h : v.normal = e.payload) :
    e.IsIn [(Field.id.wireName, .string e.id), (Field.name.wireName, .string e.name),
      (Field.payload.wireName, v)] :=
  ⟨rfl, rfl, .inr ⟨v, rfl, h.symm⟩⟩

theorem exists_isIn_of_rearranges {e : Envelope} {w : Value} (hp : e.payload.WellFormed)
    (h : w.Rearranges e.toValue) : ∃ ms, w = .object ms ∧ e.IsIn ms := by
  cases h with
  | @object ms _ _ hms hws =>
      obtain _ | ⟨hid, _ | ⟨hname, _ | ⟨hpayload, _ | _⟩⟩⟩ := hws
      cases hid
      cases hname
      exact ⟨ms, rfl, (isIn_fields (hpayload.normal_eq hp)).perm (hms.symm.filter _)⟩

theorem exists_payload_of_rearranges {e : Envelope} {w : Value} (hp : e.payload.WellFormed)
    (h : w.Rearranges e.toItems) :
    ∃ v, w = .array [.string e.id, .string e.name, v] ∧ v.normal = e.payload ∧
      v.depth = e.payload.depth := by
  match h with
  | .array (.cons hid (.cons hname (.cons hpayload .nil))) =>
      cases hid
      cases hname
      exact ⟨_, rfl, hpayload.normal_eq hp, hpayload.depth_eq⟩

namespace Draft

theorem offer_items {ε : Type} {m : Manner ε} {limit : Nat} {fault : ε} (hm : m.Limits limit fault)
    {e : Envelope} {v : Value} (hv : v.normal = e.payload) (hdepth : 1 + v.depth ≤ limit) :
    m.offer 0 ({} : Draft) (.array [.string e.id, .string e.name, v]) =
      .ok { filled e with positional := true } := by
  have hopen : m.enter 0 ({} : Draft) .arrayStart =
      .ok { stage := .field .id, positional := true } := by
    have hskims : Consumer.skims ({} : Draft) = false := rfl
    rw [Manner.enter, hskims, hm 0, if_neg (by omega)]
    rfl
  have hid : m.handScalar ({ stage := .field .id, positional := true } : Draft) (.text e.id) =
      .ok { stage := .field .name, positional := true, id := some e.id } :=
    m.handScalar_of_accept rfl rfl
  have hname : m.handScalar
      ({ stage := .field .name, positional := true, id := some e.id } : Draft) (.text e.name) =
      .ok { stage := .field .payload, positional := true, id := some e.id, name := some e.name } :=
    m.handScalar_of_accept rfl rfl
  have hpayload : m.offer 1
      ({ stage := .field .payload, positional := true, id := some e.id, name := some e.name } : Draft)
      v = .ok { filled e with stage := .full, positional := true } := by
    have hoffers : m.Offers Number.Form 1 v fun d : Draft => m.offer 1 d v :=
      Manner.offers_offer .own 1 v
    have hhosts := hosts_resume
      { stage := .field .payload, positional := true, id := some e.id, name := some e.name }
    have hone : 1 ≤ limit := (Nat.le_add_right 1 _).trans hdepth
    rw [offers_field_payload (fun _ _ h => h) rfl hoffers]
    have hbuilt := hhosts.offers_eq hm (fun _ _ h => h) hone .top v hoffers
    rw [if_pos hdepth, hv] at hbuilt
    exact hbuilt
  have hclose : m.hand ({ filled e with stage := .full, positional := true } : Draft) .arrayEnd =
      .ok { filled e with positional := true } := m.hand_of_accept rfl
  rw [Manner.offer, hopen]
  simp only [Manner.offerItems, Manner.offer, Except.bind, hid, hname, hpayload, next_eq, ne_eq,
    reduceCtorEq, not_false_eq_true]
  exact hclose

end Draft

/-- From any JSON text of an envelope the envelope is read. -/
theorem parse_of_speltJson {e : Envelope} {cs : List Char} (hw : e.payload.WellFormed)
    (hi : e.payload.Integral) (hdepth : e.payload.depth ≤ 126) (h : e.SpeltJson cs) :
    parse .json (Utf8.encode cs) = .ok e := by
  have hone : 1 + e.payload.depth ≤ Json.Scanner.depthLimit := by
    rw [Json.Scanner.depthLimit]
    omega
  cases h with
  | object hv hcs =>
      have hintegral := hv.integral (integral_toValue hi)
      have hsame := hv.depth_eq
      obtain ⟨ms, rfl, hin⟩ := exists_isIn_of_rearranges hw hv
      have hfits : (Value.object ms).depth ≤ WireFormat.json.depthLimit := by
        rw [hsame]
        simp only [toValue, Value.depth, Value.depthOfMembers, WireFormat.depthLimit]
        omega
      have hwrites : WireFormat.json.Writes ms (Utf8.encode cs) :=
        ⟨hintegral, hfits, cs, hcs, rfl⟩
      exact (parse_eq_ok_iff hwrites).2 hin
  | array hv hcs =>
      have hintegral := hv.integral ⟨trivial, trivial, trivial, hi, trivial⟩
      obtain ⟨v, rfl, hnormal, hsame⟩ := exists_payload_of_rearranges hw hv
      have hfeed := Json.Scanner.feed_written hintegral hcs ({} : Draft)
      rw [Draft.offer_items Json.manner_limits hnormal (hsame ▸ hone)] at hfeed
      rw [parse, WireFormat.feed, hfeed]
      rfl

theorem speltJson_jsonText (e : Envelope) : e.SpeltJson e.jsonText :=
  .object (.refl _) (Json.padded_of (Json.written_text e.toValue))

end Envelope

namespace Command

/-- A command is read from each of its JSON texts, wherever there are blanks in it, in whatever order the
members of its objects come, and however its texts and names are spelled, as an object or as an array. -/
theorem decode_of_spelt_json {c : Command} {cs : List Char} (hw : c.payload.WellFormed)
    (hi : c.payload.Integral) (hdepth : c.payload.depth ≤ 126) (hid : ¬ Text.IsBlank c.id)
    (hname : ¬ Text.IsBlank c.name) (h : c.envelope.SpeltJson cs) :
    decode .json (Utf8.encode cs) = .ok { c with context := {} } :=
  decode_of_parse (Envelope.parse_of_speltJson hw hi hdepth h) (Envelope.check_of_not_blank hid hname)

open Json Json.Quoted in
/-- The members of both objects come in disorder, with blanks around them. Names have escapes in them, and
so have a control character, a line feed, a slash and an astral character, as the two halves of a surrogate
pair. The array has the same payload, and other spellings of the id and the name. -/
theorem decode_of_spelt_json_mixed :
    let items : Value := .array [.number (.whole 1), .bool true]
    let c : Command := ⟨"c/1", "x😀", .object [("a", items), ("é\n", .string "\u0007")], {}⟩
    let payload : String := "\x7b \"\\u00E9\\n\":\"\\u0007\" , \"\\u0061\":[1 ,true]\x7d"
    let object : String :=
      "\x7b\"p\\u0061yload\" :" ++ payload ++
        ",\t\"n\\u0061me\":\"x\\uD83d\\uDE00\"\r\n,\"id\":\"c\\/1\"\x7d\n"
    let array : String := " [\"c\\u002f1\",\"\\u0078😀\" ," ++ payload ++ "]"
    decode .json (Utf8.encode object.toList) = .ok c ∧
      decode .json (Utf8.encode array.toList) = .ok c := by
  intro items c payload object array
  have hpad {P : List Char → Prop} (g g' : String) {cs : List Char} (h : P cs)
      (hg : Gap g.toList ∧ Gap g'.toList) : Padded P (g.toList ++ (cs ++ g'.toList)) :=
    ⟨_, cs, _, hg.1, h, hg.2, rfl⟩
  have hraw {d : Char} {ps cs : List Char} (h : SpellsText ps cs)
      (hd : 0x20 ≤ d.toNat ∧ d ≠ '"' ∧ d ≠ '\\') : SpellsText (d :: ps) (d :: cs) :=
    ⟨[d], ps, .raw hd.1 hd.2.1 hd.2.2, h, rfl⟩
  have hnumber {d : Char} (ds : String) {ps cs : List Char} (h : SpellsText ps cs)
      (hd : ds.toList.length = 4 ∧ Hex.number? ds.toList = some d.toNat) :
      SpellsText ('\\' :: 'u' :: ds.toList ++ ps) (d :: cs) :=
    ⟨_, ps, .number hd.1 hd.2, h, rfl⟩
  have hplain (s : String) : SpellsText (s.toList.flatMap Json.escape) s.toList :=
    spellsText_flatMap_escape s.toList
  let w : Value := .object [("é\n", .string "\u0007"), ("a", items)]
  have hw : w.Rearranges c.payload := .object (.swap _ _ _) (.refl _)
  have hpayload : Written w payload.toList := by
    have hline : Quotes "é\n" "\"\\u00E9\\n\"".toList :=
      ⟨_, hnumber "00E9" ⟨_, _, .short (d := 'n') (b := 0x0A) rfl rfl, rfl, rfl⟩ (by decide), rfl⟩
    have hbell : Quotes "\u0007" "\"\\u0007\"".toList := ⟨_, hnumber "0007" rfl (by decide), rfl⟩
    have ha : Quotes "a" "\"\\u0061\"".toList := ⟨_, hnumber "0061" rfl (by decide), rfl⟩
    have hone : Written (.number (.whole 1)) "1".toList := by
      change _ = _
      decide
    have hitems : Written items "[1 ,true]".toList :=
      ⟨_, ⟨_, _, hpad "" " " hone (by decide), padded_of rfl, rfl⟩, rfl⟩
    exact ⟨_, ⟨_, _, ⟨_, _, hpad " " "" hline (by decide), hpad "" " " hbell (by decide), rfl⟩,
      ⟨_, _, hpad " " "" ha (by decide), padded_of hitems, rfl⟩, rfl⟩, by decide⟩
  have hobject : c.envelope.SpeltJson object.toList := by
    have hpayloadName : Quotes "payload" "\"p\\u0061yload\"".toList :=
      ⟨_, hraw (hnumber "0061" (hplain "yload") (by decide)) (by decide), by decide⟩
    have hnameName : Quotes "name" "\"n\\u0061me\"".toList :=
      ⟨_, hraw (hnumber "0061" (hplain "me") (by decide)) (by decide), by decide⟩
    have hhigh : Hex.number? "D83d".toList = some 0xD83D := by decide
    have hlow : Hex.number? "DE00".toList = some 0xDE00 := by decide
    have hname : Quotes "x😀" "\"x\\uD83d\\uDE00\"".toList :=
      ⟨_, hraw ⟨_, _, .pair (by decide) (by decide) hhigh hlow rfl rfl (by decide), rfl, rfl⟩ (by decide),
        by decide⟩
    have hid : Quotes "c/1" "\"c\\/1\"".toList :=
      ⟨_, hraw ⟨_, _, .short (d := '/') (b := 0x2F) rfl rfl, hplain "1", rfl⟩ (by decide), by decide⟩
    have hrearranged : Value.Rearranges
        (.object [("payload", w), ("name", .string "x😀"), ("id", .string "c/1")])
        c.envelope.toValue :=
      .object (List.reverse_perm [_, _, _])
        (.cons (.string "c/1") (.cons (.string "x😀") (.cons hw .nil)))
    have hwritten : Padded
        (Written (.object [("payload", w), ("name", .string "x😀"), ("id", .string "c/1")]))
        object.toList :=
      ⟨[], _, "\n".toList, by decide,
        ⟨_, ⟨_, _, ⟨_, _, hpad "" " " hpayloadName (by decide), padded_of hpayload, rfl⟩,
          ⟨_, _, ⟨_, _, hpad "\t" "" hnameName (by decide), hpad "" "\r\n" hname (by decide), rfl⟩,
            ⟨_, _, padded_of (quotes_quote "id"), padded_of hid, rfl⟩, rfl⟩, rfl⟩, rfl⟩,
        by decide, by decide⟩
    exact .object hrearranged hwritten
  have harray : c.envelope.SpeltJson array.toList := by
    have hid : Quotes "c/1" "\"c\\u002f1\"".toList :=
      ⟨_, hraw (hnumber "002f" (hplain "1") (by decide)) (by decide), by decide⟩
    have hname : Quotes "x😀" "\"\\u0078😀\"".toList :=
      ⟨_, hnumber "0078" (hplain "😀") (by decide), by decide⟩
    have hrearranged : Value.Rearranges (.array [.string "c/1", .string "x😀", w]) c.envelope.toItems :=
      .array (.cons (.string "c/1") (.cons (.string "x😀") (.cons hw .nil)))
    have hwritten : Padded (Written (.array [.string "c/1", .string "x😀", w])) array.toList :=
      ⟨" ".toList, _, [], by decide,
        ⟨_, ⟨_, _, padded_of hid, ⟨_, _, hpad "" " " hname (by decide), padded_of hpayload, rfl⟩, rfl⟩,
          rfl⟩, by decide, by decide⟩
    exact .array hrearranged hwritten
  have hone : (Number.whole 1).fits := by decide
  have hwell : c.payload.WellFormed := ⟨by decide, ⟨hone, trivial, trivial⟩, trivial, trivial⟩
  have hi : c.payload.Integral := ⟨trivial, ⟨trivial, hone, trivial, trivial⟩, trivial, trivial⟩
  constructor
  · exact decode_of_spelt_json hwell hi (by decide) (by decide) (by decide) hobject
  · exact decode_of_spelt_json hwell hi (by decide) (by decide) (by decide) harray

end Command

end CourierDispatch
