import CourierDispatch.Command
import CourierDispatch.Proofs.Answers
import CourierDispatch.Proofs.Envelope.MsgPack
import CourierDispatch.Proofs.MsgPack.Builder

/-!
# Envelopes that were read from MsgPack

A draft keeps in step with the containers of the scanner: one of them is the envelope itself, and the
others belong to the payload or to an unknown member. So whatever a draft takes over from MsgPack can be
written to MsgPack again.
-/

namespace CourierDispatch

namespace Envelope

open MsgPack

structure Carried (e : Envelope) : Prop where
  id : Fits e.id
  name : Fits e.name
  payload : MsgPack.Carried 1 e.payload

theorem Carried.sized {e : Envelope} (h : e.Carried) : e.Sized := ⟨h.id, h.name, h.payload.sized⟩

theorem Carried.depth_le {e : Envelope} (h : e.Carried) : e.payload.depth ≤ 1022 := by
  have hdepth : 1 + e.payload.depth ≤ 1023 := h.payload.depth
  omega

/-- The containers around the next token, by what is expected of it. Nothing is expected behind the end
of an envelope. -/
def Stage.InStep (frames : List Frame) : Stage → Prop
  | .opening => frames = []
  | .memberName | .field _ | .full => frames.length = 1
  | .payload b => b.InStep 1 frames
  | .unknown depth => frames.length = depth + 1
  | .complete => False

namespace Draft

structure Taken (d : Draft) : Prop where
  id : ∀ s, d.id = some s → Fits s
  name : ∀ s, d.name = some s → Fits s
  payload : ∀ v, d.payload = some v → MsgPack.Carried 1 v

structure InStep (frames : List Frame) (d : Draft) : Prop where
  stage : d.stage.InStep frames
  taken : d.Taken

def EndsCarried (d : Draft) : Prop := ∀ e, d.result? = some e → e.Carried

variable {frames : List Frame} {d d' : Draft} {t : Token}

theorem Taken.endsCarried (h : d.Taken) : d.EndsCarried := by
  intro e he
  unfold result? at he
  split at he
  next hid hname =>
    cases he
    refine ⟨h.id _ hid, h.name _ hname, ?_⟩
    cases hpayload : d.payload with
    | none => exact .of_depth_eq_zero trivial trivial rfl (by decide)
    | some v => exact h.payload v hpayload
  next => cases he

/-- Inside the envelope a draft has to be in step behind an item. -/
theorem behind_of (h : d.Taken) (hstage : frames ≠ [] → d.stage.InStep (countDown frames)) :
    Behind InStep EndsCarried frames d := by
  cases frames with
  | nil => exact h.endsCarried
  | cons f frames => exact ⟨hstage (by simp), h⟩

theorem following_inStep (d : Draft) (f : Field) (h : frames.length = 1) :
    (d.following f).InStep frames := by
  unfold following
  cases d.positional <;> cases f <;> exact h

theorem exists_textOf_of_map {g : String → Draft} (ht : t.Carried)
    (h : (textOf t).map g = .ok d') : ∃ s, Fits s ∧ d' = g s := by
  unfold textOf at h
  split at h
  · cases h
    exact ⟨_, ht, rfl⟩
  · split at h
    next hs =>
      cases h
      exact ⟨_, fits_of_string? hs ht, rfl⟩
    next => cases h
  · cases h

theorem inStep_resume (hd : d.Taken) {b : Value.Builder} (hb : b.InStep 1 frames) :
    (d.resume b).InStep frames := by
  unfold resume
  split
  next v hv =>
    have hdone : frames.length = 1 ∧ MsgPack.Carried 1 v := by
      unfold Value.Builder.result? at hv
      split at hv
      · cases hv
        cases frames <;> exact hb
      · cases hv
    refine ⟨following_inStep d .payload hdone.1, hd.id, hd.name, ?_⟩
    intro v' hv'
    cases hv'
    exact hdone.2
  next => exact ⟨hb, hd.id, hd.name, hd.payload⟩

theorem inStep_start (h : frames.length = 1) : Value.Builder.start.InStep 1 frames := by
  cases frames <;> exact h

theorem inStep_acceptPayload {frames' : List Frame} (hd : d.Taken) {b : Value.Builder}
    (hb : ∀ b', b.accept t = .ok b' → b'.InStep 1 frames') (h : d.acceptPayload b t = .ok d') :
    d'.InStep frames' := by
  unfold acceptPayload at h
  split at h
  next hok =>
    cases h
    exact inStep_resume hd (hb _ hok)
  next => cases h

theorem skip_stage (d : Draft) (depth : Nat) (t : Token) (h : t.Carried) :
    (d.skip depth t).stage = if depth = 0 then .memberName else .unknown depth := by
  cases t <;> first | exact h.elim | rfl

theorem inStep_skip_item {frames' : List Frame} {depth : Nat} (hat : d.stage = .unknown depth)
    (hd : d.InStep frames) (ht : t.Carried) (hlength : frames'.length = frames.length) :
    (d.skip depth t).InStep frames' := by
  obtain ⟨hstage, htaken⟩ := hd
  rw [hat] at hstage
  refine ⟨?_, htaken.id, htaken.name, htaken.payload⟩
  rw [skip_stage d depth t ht]
  split
  next hzero =>
    rw [hzero] at hstage
    exact hlength.trans hstage
  next => exact hlength.trans hstage

theorem inStep_skip_closing {frames' : List Frame} {f : Frame} {depth : Nat}
    (hat : d.stage = .unknown depth) (hd : d.InStep (f :: frames))
    (ht : t = .arrayEnd ∨ t = .objectEnd) (hne : frames ≠ [])
    (hlength : frames'.length = frames.length) : (d.skip depth t).InStep frames' := by
  obtain ⟨hstage, htaken⟩ := hd
  rw [hat] at hstage
  have hdepth : frames.length = depth := Nat.succ.inj hstage
  have hpos : 0 < frames.length := List.length_pos_of_ne_nil hne
  have hskip : (d.skip depth t).stage =
      if depth - 1 = 0 then .memberName else .unknown (depth - 1) := by
    rcases ht with rfl | rfl <;> rfl
  refine ⟨?_, htaken.id, htaken.name, htaken.payload⟩
  rw [hskip]
  split
  · change frames'.length = 1
    omega
  · change frames'.length = depth - 1 + 1
    omega

/-- A draft keeps in step with an item. -/
theorem item_behind (hr : Running frames) (hd : d.InStep frames) (ht : t.Carried)
    (h : d.accept t = .ok d') : Behind InStep EndsCarried frames d' := by
  obtain ⟨hstage, htaken⟩ := hd
  have hlength : (countDown frames).length = frames.length := length_countDown frames
  unfold accept at h
  split at h
  · unfold acceptOpening at h
    split at h
    · exact ht.elim
    · exact ht.elim
    all_goals cases h
  next hat =>
    rw [hat] at hstage
    unfold acceptName at h
    split at h
    · exact ht.elim
    split at h
    · cases h
    · cases h
      exact behind_of ⟨htaken.id, htaken.name, htaken.payload⟩ fun _ => hlength.trans hstage
    · split at h
      · cases h
      · cases h
        exact behind_of ⟨htaken.id, htaken.name, htaken.payload⟩ fun _ => hlength.trans hstage
  next f hat =>
    rw [hat] at hstage
    have hone : (countDown frames).length = 1 := hlength.trans hstage
    unfold acceptField at h
    split at h
    · exact ht.elim
    · exact ht.elim
    · have hin : d'.InStep (countDown frames) := inStep_acceptPayload htaken
        (fun b' => Value.Builder.inStep_item hr (inStep_start hstage) ht) h
      exact behind_of hin.taken fun _ => hin.stage
    · obtain ⟨s, hs, rfl⟩ := exists_textOf_of_map ht h
      refine behind_of ⟨?_, htaken.name, htaken.payload⟩ fun _ => following_inStep d .id hone
      intro s' hs'
      cases hs'
      exact hs
    · obtain ⟨s, hs, rfl⟩ := exists_textOf_of_map ht h
      refine behind_of ⟨htaken.id, ?_, htaken.payload⟩ fun _ => following_inStep d .name hone
      intro s' hs'
      cases hs'
      exact hs
  next b hat =>
    rw [hat] at hstage
    have hin : d'.InStep (countDown frames) := inStep_acceptPayload htaken
      (fun b' => Value.Builder.inStep_item hr hstage ht) h
    exact behind_of hin.taken fun _ => hin.stage
  next depth hat =>
    cases h
    have hin := inStep_skip_item hat ⟨hstage, htaken⟩ ht hlength
    exact behind_of hin.taken fun _ => hin.stage
  · exact ht.elim
  · cases h

theorem opening_inStep {f : Frame} (hf : f.Announced) (hd : d.InStep frames)
    (h : d.accept f.opening = .ok d') : d'.InStep (f :: frames) := by
  obtain ⟨hstage, htaken⟩ := hd
  have hopening : f.opening = .arrayStart ∨ f.opening = .objectStart := by
    unfold Frame.opening
    split <;> simp
  unfold accept at h
  split at h
  next hat =>
    rw [hat] at hstage
    have hone : (f :: frames).length = 1 := by
      rw [show frames = [] from hstage]
      rfl
    rcases hopening with hopen | hopen <;> rw [hopen] at h <;> cases h <;>
      exact ⟨hone, htaken.id, htaken.name, htaken.payload⟩
  next hat => rcases hopening with hopen | hopen <;> rw [hopen] at h <;> cases h
  next g hat =>
    rw [hat] at hstage
    have hpayload (h : d.acceptPayload .start f.opening = .ok d') : d'.InStep (f :: frames) :=
      inStep_acceptPayload htaken
        (fun b' => Value.Builder.inStep_opening hf (inStep_start hstage)) h
    rcases hopening with hopen | hopen <;> rw [hopen] at h hpayload <;> cases g <;>
      first | exact hpayload h | cases h
  next b hat =>
    rw [hat] at hstage
    exact inStep_acceptPayload htaken (fun b' => Value.Builder.inStep_opening hf hstage) h
  next depth hat =>
    rw [hat] at hstage
    have hdeeper : (f :: frames).length = depth + 1 + 1 := congrArg (· + 1) hstage
    rcases hopening with hopen | hopen <;> rw [hopen] at h <;> cases h <;>
      exact ⟨hdeeper, htaken.id, htaken.name, htaken.payload⟩
  next hclose => rcases hopening with hopen | hopen <;> rw [hopen] at hclose <;> cases hclose
  · cases h

/-- The end of a container inside the envelope ends a part of the payload or of an unknown member. At
the end of the envelope itself nothing but what has been taken over matters. -/
theorem closing_behind {isMap : Bool} (hr : Running frames)
    (hl : frames.length < Scanner.depthLimit) (hd : d.InStep (⟨isMap, 0⟩ :: frames))
    (h : d.accept (Frame.closing ⟨isMap, 0⟩) = .ok d') : Behind InStep EndsCarried frames d' := by
  obtain ⟨hstage, htaken⟩ := hd
  have hclosing : Frame.closing ⟨isMap, 0⟩ = .arrayEnd ∨ Frame.closing ⟨isMap, 0⟩ = .objectEnd := by
    cases isMap <;> simp [Frame.closing]
  have hend (hone : (⟨isMap, 0⟩ :: frames : List Frame).length = 1) (hd' : d'.Taken) :
      Behind InStep EndsCarried frames d' := by
    have hnil : frames = [] := List.eq_nil_of_length_eq_zero (Nat.succ.inj hone)
    rw [hnil]
    exact hd'.endsCarried
  unfold accept at h
  split at h
  next hat =>
    rw [hat] at hstage
    cases hstage
  next hat =>
    rw [hat] at hstage
    refine hend hstage ?_
    rcases hclosing with hclose | hclose <;> rw [hclose] at h
    · cases h
    · unfold acceptName close at h
      simp only at h
      split at h <;> cases h
      exact ⟨htaken.id, htaken.name, htaken.payload⟩
  next f hat =>
    rw [hat] at hstage
    refine hend hstage ?_
    have hpayload (h : d.acceptPayload .start (Frame.closing ⟨isMap, 0⟩) = .ok d') : d'.Taken :=
      (inStep_acceptPayload htaken
        (fun b' => Value.Builder.inStep_closing hr hl (inStep_start hstage)) h).taken
    unfold acceptField at h
    split at h
    · cases h
      exact ⟨htaken.id, htaken.name, htaken.payload⟩
    · cases h
    · exact hpayload h
    all_goals rcases hclosing with hclose | hclose <;> rw [hclose] at h <;> cases h
  next b hat =>
    rw [hat] at hstage
    have hin := inStep_acceptPayload htaken
      (fun b' => Value.Builder.inStep_closing hr hl hstage) h
    exact behind_of hin.taken fun _ => hin.stage
  next depth hat =>
    cases h
    refine behind_of ⟨htaken.id, htaken.name, htaken.payload⟩ fun hne => ?_
    exact (inStep_skip_closing hat ⟨hstage, htaken⟩ hclosing hne (length_countDown frames)).stage
  next hat hclose =>
    rw [hat] at hstage
    cases h
    exact hend hstage ⟨htaken.id, htaken.name, htaken.payload⟩
  · cases h

theorem tracks : Tracks InStep EndsCarried where
  item := item_behind
  opening _ hf hd h := opening_inStep hf hd h
  closing := closing_behind

end Draft

theorem exists_feed_of_parse {format : WireFormat} {bs : List UInt8} {e : Envelope}
    (h : parse format bs = .ok e) : ∃ d : Draft, format.feed {} bs = .ok d ∧ d.result? = some e := by
  unfold parse at h
  split at h
  next => cases h
  next d hfeed =>
    split at h
    next e' hresult =>
      cases h
      exact ⟨d, hfeed, hresult⟩
    next => cases h

theorem check_eq_ok_iff {e e' : Envelope} :
    e.check = .ok e' ↔ (¬ Text.IsBlank e.id ∧ ¬ Text.IsBlank e.name) ∧ e = e' := by
  by_cases hid : Text.IsBlank e.id
  · simp [check, hid]
  · by_cases hname : Text.IsBlank e.name
    · simp [check, hid, hname]
    · simp [check, hid, hname]

theorem carried_of_parse {bs : List UInt8} {e : Envelope} (h : parse .msgPack bs = .ok e) :
    e.Carried := by
  obtain ⟨d, hfeed, hresult⟩ := exists_feed_of_parse h
  have hopening : Draft.InStep [] {} := ⟨rfl, by simp, by simp, by simp⟩
  have hd : d.EndsCarried := Scanner.feed_keeps Draft.tracks hopening (mapError_eq_ok_iff.1 hfeed)
  exact hd e hresult

end Envelope

theorem Command.parse_of_decode {format : WireFormat} {bs : List UInt8} {c : Command}
    (h : Command.decode format bs = .ok c) :
    Envelope.parse format bs = .ok c.envelope ∧ c.envelope.check = .ok c.envelope ∧
      c.context = {} := by
  obtain ⟨e, hdecode, rfl⟩ := map_eq_ok_iff.1 h
  unfold Envelope.decode at hdecode
  split at hdecode
  next => cases hdecode
  next e' hparse =>
    obtain ⟨-, rfl⟩ := Envelope.check_eq_ok_iff.1 hdecode
    exact ⟨hparse, hdecode, rfl⟩

/-- A command that was read from MsgPack can be written again, and its id and name are not blank. -/
theorem Command.carried_of_decode {bs : List UInt8} {c : Command}
    (h : Command.decode .msgPack bs = .ok c) :
    c.envelope.Carried ∧ c.envelope.check = .ok c.envelope ∧ c.context = {} := by
  obtain ⟨hparse, hcheck, hcontext⟩ := Command.parse_of_decode h
  exact ⟨Envelope.carried_of_parse hparse, hcheck, hcontext⟩

end CourierDispatch
