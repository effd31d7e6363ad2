import CourierDispatch.Proofs.Envelope.Json
import CourierDispatch.Proofs.Envelope.NormalForm
import CourierDispatch.Proofs.Json.Invariant

/-!
# Commands from one format to the other

For a draft it makes no difference whether its tokens come from JSON or from MsgPack. JSON does not say
how many items a container has, but it has no more of them than there are bytes, so a draft that reads
JSON keeps in step with containers of MsgPack that have room for as many items as there are bytes to
come. What it has taken over can therefore be written to MsgPack. The other way, doubles apart, only
the depth of the payload matters, which JSON limits more.
-/

namespace CourierDispatch

namespace Envelope

open MsgPack

/-- Containers of JSON as containers of MsgPack with room for so many items. -/
def containers (left : Nat) (frames : List Json.Frame) : List MsgPack.Frame :=
  frames.map fun f => ⟨f = .object, left⟩

theorem length_containers (left : Nat) (frames : List Json.Frame) :
    (containers left frames).length = frames.length := List.length_map _

theorem containers_fewer (left : Nat) (frames : List Json.Frame) :
    List.Forall₂ (fun f g => g.left ≤ f.left) (containers (left + 1) frames)
      (containers left frames) := by
  induction frames with
  | nil => exact .nil
  | cons f frames ih => exact .cons (Nat.le_succ left) ih

theorem containers_countDown (left : Nat) (frames : List Json.Frame) :
    List.Forall₂ (fun f g => g.left ≤ f.left) (countDown (containers (left + 1) frames))
      (containers left frames) := by
  cases frames with
  | nil => exact .nil
  | cons f frames => exact .cons (Nat.le_refl left) (containers_fewer left frames)

theorem opening_container (f : Json.Frame) (left : Nat) :
    MsgPack.Frame.opening ⟨f = .object, left⟩ = f.opening := by
  cases f <;> rfl

theorem closing_container (f : Json.Frame) : MsgPack.Frame.closing ⟨f = .object, 0⟩ = f.closing := by
  cases f <;> rfl

/-- What is expected next does not depend on how much is left of the containers, as long as it is not
more. -/
theorem Stage.InStep.fewer {frames frames' : List MsgPack.Frame} {stage : Stage}
    (hleft : List.Forall₂ (fun f g => g.left ≤ f.left) frames frames') (h : stage.InStep frames) :
    stage.InStep frames' := by
  have hlength : frames'.length = frames.length := hleft.length_eq.symm
  cases stage with
  | opening =>
      rw [show frames = [] from h] at hlength
      exact List.eq_nil_of_length_eq_zero hlength
  | payload b => exact Value.Builder.InStep.fewer hleft h
  | complete => exact h.elim
  | memberName | field _ | unknown _ | full => exact hlength.trans h

namespace Draft

variable {left : Nat} {frames : List Json.Frame} {d d' : Draft} {t : Token}

theorem InStep.fewer {frames frames' : List MsgPack.Frame}
    (hleft : List.Forall₂ (fun f g => g.left ≤ f.left) frames frames') (h : d.InStep frames) :
    d.InStep frames' :=
  ⟨h.stage.fewer hleft, h.taken⟩

/-- A draft in step with the containers of JSON, which are not too many unless they belong to an
unknown member. -/
structure InText (left : Nat) (frames : List Json.Frame) (d : Draft) : Prop where
  inStep : d.InStep (containers left frames)
  depth : d.skims = false → frames.length ≤ Json.Scanner.depthLimit

theorem InText.running (h : d.InText (left + 1) frames) (hreads : d.skims = false) :
    Running (containers (left + 1) frames) where
  length_le := by
    have hdepth := h.depth hreads
    rw [length_containers]
    exact hdepth.trans (by decide)
  left_pos f hf := by
    obtain ⟨f', -, rfl⟩ := List.mem_map.1 hf
    exact Nat.succ_pos left

theorem exists_unknown (h : d.skims = true) : ∃ depth, d.stage = .unknown depth := by
  unfold skims at h
  split at h
  next depth hat => exact ⟨depth, hat⟩
  next => cases h

theorem eq_skip_of_accept {depth : Nat} (hat : d.stage = .unknown depth)
    (h : d.accept t = .ok d') : d' = d.skip depth t := by
  unfold accept at h
  rw [hat] at h
  cases h
  rfl

theorem skip_cases (d : Draft) (depth : Nat) (t : Token) :
    (d.skip depth t).stage = .memberName ∨ ∃ n, (d.skip depth t).stage = .unknown n :=
  (ite_eq_or_eq _ _ _).imp_right fun h => ⟨_, h⟩

theorem depth_of_skip {depth : Nat} (h : (d.skip depth t).InStep (containers left frames))
    (hreads : (d.skip depth t).skims = false) : frames.length ≤ Json.Scanner.depthLimit := by
  have hstage := h.stage
  rcases skip_cases d depth t with hat | ⟨n, hat⟩
  · rw [hat] at hstage
    have hone : frames.length = 1 := (length_containers left frames).symm.trans hstage
    rw [hone]
    decide
  · simp [skims, hat] at hreads

theorem item_text (hd : d.InText (left + 1) frames) (ht : t.Carried) (h : d.accept t = .ok d') :
    Json.Behind InText EndsCarried left frames d' := by
  cases hskims : d.skims with
  | false =>
      have hbehind := item_behind (hd.running hskims) hd.inStep ht h
      cases frames with
      | nil => exact hbehind
      | cons f frames =>
          exact ⟨hbehind.fewer (containers_countDown left _), fun _ => hd.depth hskims⟩
  | true =>
      obtain ⟨depth, hat⟩ := exists_unknown hskims
      obtain rfl := eq_skip_of_accept hat h
      have hin : (d.skip depth t).InStep (containers left frames) :=
        inStep_skip_item hat hd.inStep ht
          ((length_containers _ _).trans (length_containers _ _).symm)
      cases frames with
      | nil => exact hin.taken.endsCarried
      | cons f frames => exact ⟨hin, depth_of_skip hin⟩

theorem opening_text {f : Json.Frame} (hleft : left < sizeLimit)
    (hdepth : d.skims = false → frames.length < Json.Scanner.depthLimit)
    (hd : d.InText (left + 1) frames) (h : d.accept f.opening = .ok d') :
    d'.InText left (f :: frames) := by
  have hannounced : MsgPack.Frame.Announced ⟨f = .object, left⟩ := by
    unfold MsgPack.Frame.Announced
    split
    · exact hleft.trans (by decide)
    · exact hleft
  rw [← opening_container f left] at h
  have hin := opening_inStep hannounced hd.inStep h
  refine ⟨hin.fewer (.cons (Nat.le_refl left) (containers_fewer left frames)), fun hreads => ?_⟩
  cases hskims : d.skims with
  | false => exact hdepth hskims
  | true =>
      -- a container in an unknown member does not end it
      obtain ⟨depth, hat⟩ := exists_unknown hskims
      obtain rfl := eq_skip_of_accept hat h
      rw [opening_container] at hreads
      cases f <;> cases hreads

theorem closing_text {f : Json.Frame} (hd : d.InText (left + 1) (f :: frames))
    (h : d.accept f.closing = .ok d') : Json.Behind InText EndsCarried left frames d' := by
  cases hskims : d.skims with
  | false =>
      have hlength : (f :: frames).length ≤ Json.Scanner.depthLimit := hd.depth hskims
      have hroom : (containers (left + 1) frames).length < MsgPack.Scanner.depthLimit := by
        rw [length_containers]
        exact Nat.lt_of_lt_of_le hlength (by decide)
      have hrunning := (hd.running hskims).tail
      have hdone : d.InStep (⟨f = .object, 0⟩ :: containers (left + 1) frames) :=
        hd.inStep.fewer (.cons (Nat.zero_le _) (List.forall₂_refl _))
      rw [← closing_container f] at h
      have hbehind := closing_behind hrunning hroom hdone h
      cases frames with
      | nil => exact hbehind
      | cons f' frames =>
          exact ⟨hbehind.fewer (containers_countDown left _), fun _ => Nat.le_of_succ_le hlength⟩
  | true =>
      obtain ⟨depth, hat⟩ := exists_unknown hskims
      obtain rfl := eq_skip_of_accept hat h
      cases frames with
      | nil =>
          have htaken := hd.inStep.taken
          exact Taken.endsCarried ⟨htaken.id, htaken.name, htaken.payload⟩
      | cons f' frames =>
          have hclosing : f.closing = .arrayEnd ∨ f.closing = .objectEnd := by
            cases f <;> simp [Json.Frame.closing]
          have hin : (d.skip depth f.closing).InStep (containers left (f' :: frames)) :=
            inStep_skip_closing hat hd.inStep hclosing (List.cons_ne_nil _ _)
              ((length_containers _ _).trans (length_containers _ _).symm)
          exact ⟨hin, depth_of_skip hin⟩

theorem tracksText : Json.Tracks InText EndsCarried where
  fewer h := ⟨h.inStep.fewer (containers_fewer _ _), h.depth⟩
  item := item_text
  opening := opening_text
  closing := closing_text

end Draft

/-- What is read from a JSON text that is not too long can be written to MsgPack. -/
theorem carried_of_parse_json {text : List UInt8} {e : Envelope} (hlength : text.length < sizeLimit)
    (h : parse .json text = .ok e) : e.Carried := by
  obtain ⟨d, hfeed, hresult⟩ := exists_feed_of_parse h
  have hopening : Draft.InText text.length [] {} :=
    ⟨⟨rfl, by simp, by simp, by simp⟩, fun _ => Nat.zero_le _⟩
  have hd : d.EndsCarried :=
    Json.Scanner.feed_keeps Draft.tracksText hlength hopening (mapError_eq_ok_iff.1 hfeed)
  exact hd e hresult

end Envelope

namespace Command

/-- A command that was read from MsgPack and has no doubles in its payload is written to JSON and read
back, unless the payload is nested too deep for JSON. -/
theorem decode_json_of_decode_msgPack {bs : List UInt8} {c : Command}
    (h : decode .msgPack bs = .ok c) (hd : c.payload.All Value.NotDouble) :
    decode .json (c.encode .json) =
      if 126 < c.payload.depth then .error (.wire (.json .illFormed)) else .ok c := by
  obtain ⟨hcarried, hcheck, hcontext⟩ := carried_of_decode h
  have hw : c.payload.WellFormed := hcarried.payload.wellFormed
  have hi : c.payload.Integral := Value.integral_of_wellFormed _ hw hd
  have hparse : Envelope.parse .json (c.encode .json) =
      if 126 < c.payload.depth then .error (.json .illFormed) else .ok c.envelope :=
    Envelope.parse_encode_json c.envelope hw hi
  by_cases hdepth : 126 < c.payload.depth
  · rw [if_pos hdepth] at hparse ⊢
    rw [decode, Envelope.decode, hparse]
    rfl
  · rw [if_neg hdepth] at hparse ⊢
    rw [decode_of_parse hparse hcheck, ← hcontext]

/-- A command goes from one format to the other and stays the same. What was read from JSON fits into
MsgPack if the text was shorter than 2^32 bytes. What was read from MsgPack and has no doubles fits
into JSON exactly if its payload is nested up to 126 containers deep. -/
theorem transcoded :
    (∀ (bs : List UInt8) (c : Command), bs.length < MsgPack.sizeLimit → decode .json bs = .ok c →
      decode .msgPack (c.encode .msgPack) = .ok c) ∧
    ∀ (bs : List UInt8) (c : Command), decode .msgPack bs = .ok c →
      c.payload.All Value.NotDouble →
      (decode .json (c.encode .json) = .ok c ↔ c.payload.depth ≤ 126) ∧
      (126 < c.payload.depth → decode .json (c.encode .json) = .error (.wire (.json .illFormed))) := by
  constructor
  · intro bs c hlength hread
    obtain ⟨hparse, hcheck, hcontext⟩ := parse_of_decode hread
    have hcarried := Envelope.carried_of_parse_json hlength hparse
    have hback := decode_encode_of_check hcarried.payload.wellFormed hcarried.sized
      hcarried.depth_le hcheck
    rw [hback, ← hcontext]
  · intro bs c hread hdoubles
    rw [decode_json_of_decode_msgPack hread hdoubles]
    by_cases hdepth : 126 < c.payload.depth
    · rw [if_pos hdepth]
      exact ⟨iff_of_false (by simp) (Nat.not_le.2 hdepth), fun _ => rfl⟩
    · rw [if_neg hdepth]
      exact ⟨iff_of_true rfl (Nat.le_of_not_lt hdepth), fun h => absurd h hdepth⟩

def nested : Nat → Value
  | 0 => .array []
  | n + 1 => .array [nested n]

theorem nested_plain (n : Nat) :
    (nested n).WellFormed ∧ MsgPack.Sized (nested n) ∧ (nested n).All Value.NotDouble ∧
      (nested n).depth = n + 1 := by
  have hzero : 0 < MsgPack.sizeLimit := by decide
  have hone : 1 < MsgPack.sizeLimit := by decide
  induction n with
  | zero => exact ⟨trivial, ⟨hzero, trivial⟩, ⟨trivial, trivial⟩, rfl⟩
  | succ n ih =>
      obtain ⟨hw, hs, hd, hdepth⟩ := ih
      refine ⟨⟨hw, trivial⟩, ⟨hone, hs, trivial⟩, ⟨trivial, hd, trivial⟩, ?_⟩
      rw [nested, Value.depth, Value.depthOfItems, hdepth]
      rfl

theorem decode_nested {n : Nat} (hn : n + 1 ≤ 1022) :
    decode .msgPack (encode .msgPack ⟨"c", "x", nested n, {}⟩) = .ok ⟨"c", "x", nested n, {}⟩ := by
  obtain ⟨hw, hs, -, hdepth⟩ := nested_plain n
  have hid : MsgPack.Fits "c" := by decide
  have hname : MsgPack.Fits "x" := by decide
  have hcheck : (⟨"c", "x", nested n⟩ : Envelope).check = .ok ⟨"c", "x", nested n⟩ := by
    rw [Envelope.check, if_neg, if_neg]
    · exact (by decide : ¬ Text.IsBlank "x")
    · exact (by decide : ¬ Text.IsBlank "c")
  exact decode_encode_of_check (c := ⟨"c", "x", nested n, {}⟩) hw ⟨hid, hname, hs⟩ (hdepth ▸ hn)
    hcheck

/-- The text has an unknown member with a number too large for a double, an escape in the id, a name
that comes twice, and doubles. Of two payloads from MsgPack, one is as deep as JSON allows and the other
one container deeper. -/
theorem transcoded_edges :
    let text := Utf8.bytes
      ("\x7b\"y\":[1e999],\"id\":\"\\u00e9\",\"name\":\"x\"," ++
        "\"payload\":\x7b\"b\":0,\"a\":[1.5,-0],\"b\":1e22\x7d\x7d")
    let bytes : List UInt8 :=
      [0x83, 0xA2, 0x69, 0x64, 0xA2, 0xC3, 0xA9, 0xA4, 0x6E, 0x61, 0x6D, 0x65, 0xA1, 0x78,
        0xA7, 0x70, 0x61, 0x79, 0x6C, 0x6F, 0x61, 0x64, 0x82, 0xA1, 0x61, 0x92,
        0xCB, 0x3F, 0xF8, 0, 0, 0, 0, 0, 0, 0xCB, 0x80, 0, 0, 0, 0, 0, 0, 0,
        0xA1, 0x62, 0xCB, 0x44, 0x80, 0xF0, 0xCF, 0x06, 0x4D, 0xD5, 0x92]
    (∃ c : Command, decode .json text = .ok c ∧ c.encode .msgPack = bytes ∧
      decode .msgPack bytes = .ok c) ∧
    decode .json (encode .json ⟨"c", "x", nested 125, {}⟩) = .ok ⟨"c", "x", nested 125, {}⟩ ∧
    decode .json (encode .json ⟨"c", "x", nested 126, {}⟩) = .error (.wire (.json .illFormed)) := by
  intro text bytes
  have hwritten : (decode .json text).toOption.map (encode .msgPack) = some bytes := by
    decide +kernel
  obtain ⟨c, hc, hbytes⟩ := Option.map_eq_some_iff.1 hwritten
  have hread : decode .json text = .ok c := by
    cases hdecode : decode .json text with
    | error e =>
        rw [hdecode] at hc
        cases hc
    | ok c' =>
        rw [hdecode] at hc
        rw [Option.some.inj hc]
  have hback := transcoded.1 text c (by decide +kernel) hread
  rw [hbytes] at hback
  refine ⟨⟨c, hread, hbytes, hback⟩, ?_, ?_⟩
  · obtain ⟨-, -, hd, hdepth⟩ := nested_plain 125
    exact (transcoded.2 _ _ (decode_nested (by decide)) hd).1.2 hdepth.le
  · obtain ⟨-, -, hd, hdepth⟩ := nested_plain 126
    exact (transcoded.2 _ _ (decode_nested (by decide)) hd).2 (hdepth ▸ by decide)

end Command

end CourierDispatch
