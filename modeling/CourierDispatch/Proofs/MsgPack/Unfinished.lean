import CourierDispatch.Proofs.MsgPack.Scanner
import CourierDispatch.Proofs.Via

/-!
# Bytes that stop short

MsgPack says in front of everything how much of it comes, so a scanner knows that a value is complete
with its last byte and not before. Going over the bytes of a value, in whichever way it is written, it
is unfinished in front of each of them.
-/

namespace CourierDispatch.MsgPack.Scanner

open Value

variable {σ : Type} [Consumer σ]

/-- If the bytes ended here, they would stop short. -/
def Unfinished (s : Scanner σ) : Prop := s.finish = .error .cutShort

variable {frames : List Frame} {c : σ} {s' : Scanner σ} {form : Number → Token → Prop}

theorem via_digits {f : Field} {width : Nat} {bs : List UInt8} (hlength : bs.length = width)
    (h : scan ⟨.field f width [], frames, c⟩ bs = .ok s') :
    Via step Unfinished ⟨.field f width [], frames, c⟩ bs s' := by
  refine Via.of_foldlM (fun rest s => rest = [] ∨ ∃ digits,
    s = ⟨.field f width digits, frames, c⟩ ∧ digits.length + rest.length = width) ?_ ?_
    (.inr ⟨[], rfl, by simpa using hlength⟩) h
  · rintro s b bs (hnil | ⟨digits, rfl, -⟩)
    · cases hnil
    · rfl
  · rintro s b bs m (hnil | ⟨digits, rfl, hwidth⟩) hstep
    · cases hnil
    · rw [List.length_cons] at hwidth
      by_cases hlast : bs = []
      · exact .inl hlast
      · have hpos := List.length_pos_of_ne_nil hlast
        simp only [step, if_pos (show digits.length + 1 < width by omega)] at hstep
        cases hstep
        exact .inr ⟨_, rfl, by rw [List.length_cons]; omega⟩

theorem via_content {kind : BodyKind} {bs : List UInt8}
    (h : scan ⟨.body kind bs.length [], frames, c⟩ bs = .ok s') :
    Via step Unfinished ⟨.body kind bs.length [], frames, c⟩ bs s' := by
  refine Via.of_foldlM (fun rest s => rest = [] ∨ ∃ content,
    s = ⟨.body kind rest.length content, frames, c⟩) ?_ ?_ (.inr ⟨[], rfl⟩) h
  · rintro s b bs (hnil | ⟨content, rfl⟩)
    · cases hnil
    · rfl
  · rintro s b bs m (hnil | ⟨content, rfl⟩) hstep
    · cases hnil
    · by_cases hlast : bs = []
      · exact .inl hlast
      · have hpos := List.length_pos_of_ne_nil hlast
        simp only [step, List.length_cons, if_pos (show 1 < bs.length + 1 by omega)] at hstep
        cases hstep
        exact .inr ⟨_, rfl⟩

theorem via_header {bs : List UInt8} {i : Item} (hi : Announces bs i)
    (h : scan ⟨.marker, frames, c⟩ bs = .ok s') :
    Via step Unfinished ⟨.marker, frames, c⟩ bs s' ∧ announce ⟨.marker, frames, c⟩ i = .ok s' := by
  have hannounce : announce ⟨.marker, frames, c⟩ i = .ok s' := by
    have hheader := scan_header hi frames c []
    rw [List.append_nil, h] at hheader
    cases hannounced : announce ⟨.marker, frames, c⟩ i with
    | error e =>
        rw [hannounced] at hheader
        cases hheader
    | ok s =>
        rw [hannounced] at hheader
        exact hheader.symm
  refine ⟨?_, hannounce⟩
  cases hi with
  | marker hmarker =>
      obtain ⟨s, hstep, hrest⟩ := exists_of_foldlM_cons h
      cases hrest
      exact .single rfl hstep
  | @number b f width n hmarker hwidth hn =>
      obtain ⟨s, hstep, hrest⟩ := exists_of_foldlM_cons h
      have hfield : step (σ := σ) ⟨.marker, frames, c⟩ b = .ok ⟨.field f width [], frames, c⟩ := by
        simp only [step, hmarker]
      cases hfield.symm.trans hstep
      exact .cons rfl hfield (via_digits (length_bytesOf width n) hrest)

theorem exists_settle {s : Scanner σ} {bs : List UInt8} {x : Except Fault σ}
    (hx : s.scan (bs ++ []) = x.bind (goOn frames [])) (h : s.scan bs = .ok s') :
    ∃ c, settle c frames = .ok s' := by
  rw [List.append_nil, h] at hx
  cases x with
  | error e => cases hx
  | ok c =>
      change _ = (settle c frames).bind _ at hx
      cases hsettle : settle c frames with
      | error e =>
          rw [hsettle] at hx
          cases hx
      | ok s =>
          rw [hsettle] at hx
          cases hx
          exact ⟨c, hsettle⟩

theorem eq_of_settle_next {isMap : Bool} {n : Nat}
    (h : settle c (⟨isMap, n + 2⟩ :: frames) = .ok s') :
    s' = ⟨.marker, ⟨isMap, n + 1⟩ :: frames, c⟩ := by
  rw [settle, if_neg (show ¬ n + 2 ≤ 1 by omega)] at h
  split at h
  · cases h
  · cases h
    rfl

theorem exists_of_openFrame {f : Frame} (hf : f.left ≠ 0)
    (h : openFrame ⟨.marker, frames, c⟩ f = .ok s') : ∃ c', s' = ⟨.marker, f :: frames, c'⟩ := by
  unfold openFrame at h
  split at h
  · cases h
  split at h
  · cases h
  next c' _ =>
    cases h
    exact ⟨c', rfl⟩

theorem via_writtenText {s : String} {bs : List UInt8} (hs : WrittenText s bs)
    (h : scan ⟨.marker, frames, c⟩ bs = .ok s') : Via step Unfinished ⟨.marker, frames, c⟩ bs s' := by
  obtain ⟨header, content, hheader, rfl, rfl⟩ := hs
  obtain ⟨m, hm, hrest⟩ := exists_of_foldlM_append h
  obtain ⟨hvia, hannounce⟩ := via_header hheader hm
  refine hvia.append ?_
  by_cases hnil : Utf8.bytes s = []
  · rw [hnil] at hrest ⊢
    cases hrest
    exact .nil _
  · obtain ⟨b, bs, hbs⟩ := List.exists_cons_of_ne_nil hnil
    rw [hbs] at hannounce hrest ⊢
    cases hannounce
    exact via_content hrest

mutual
/-- A scanner is unfinished until it has gone over all bytes of a value. -/
theorem via_written (v : Value) {bs : List UInt8} (hv : Written form v bs) {frames : List Frame}
    {c : σ} {s' : Scanner σ} (h : scan ⟨.marker, frames, c⟩ bs = .ok s') :
    Via step Unfinished ⟨.marker, frames, c⟩ bs s' := by
  match v, hv with
  | .null, hv | .bool _, hv => exact (via_header hv h).1
  | .number n, ⟨t, _, hv⟩ => exact (via_header hv h).1
  | .string s, hv => exact via_writtenText hv h
  | .array items, ⟨header, body, hheader, hbody, hbs⟩ =>
      subst hbs
      obtain ⟨m, hm, hrest⟩ := exists_of_foldlM_append h
      obtain ⟨hvia, hannounce⟩ := via_header hheader hm
      match items, hbody with
      | [], hbody =>
          cases hbody
          cases hrest
          exact hvia.append (.nil _)
      | v :: vs, hbody =>
          obtain ⟨c', rfl⟩ := exists_of_openFrame (f := ⟨false, vs.length + 1⟩) (by simp) hannounce
          exact hvia.append (via_items v vs hbody hrest)
  | .object members, ⟨header, body, hheader, hbody, hbs⟩ =>
      subst hbs
      obtain ⟨m, hm, hrest⟩ := exists_of_foldlM_append h
      obtain ⟨hvia, hannounce⟩ := via_header hheader hm
      match members, hbody with
      | [], hbody =>
          cases hbody
          cases hrest
          exact hvia.append (.nil _)
      | (k, v) :: ms, hbody =>
          obtain ⟨c', rfl⟩ :=
            exists_of_openFrame (f := ⟨true, 2 * (ms.length + 1)⟩) (by simp) hannounce
          exact hvia.append (via_members k v ms hbody hrest)
termination_by sizeOf v

theorem via_items (v : Value) (vs : List Value) {bs : List UInt8}
    (hv : WrittenItems form (v :: vs) bs) {frames : List Frame} {c : σ} {s' : Scanner σ}
    (h : scan ⟨.marker, ⟨false, vs.length + 1⟩ :: frames, c⟩ bs = .ok s') :
    Via step Unfinished ⟨.marker, ⟨false, vs.length + 1⟩ :: frames, c⟩ bs s' := by
  match vs, hv with
  | [], ⟨as, cs, hfirst, hothers, hbs⟩ =>
      subst hbs hothers
      rw [List.append_nil] at h ⊢
      exact via_written v hfirst h
  | w :: ws, ⟨as, cs, hfirst, hothers, hbs⟩ =>
      subst hbs
      obtain ⟨m, hm, hrest⟩ := exists_of_foldlM_append h
      obtain ⟨k, -, hscan⟩ := scan_written (σ := σ) v hfirst (⟨false, ws.length + 2⟩ :: frames)
      obtain ⟨c', hsettle⟩ := exists_settle (hscan c []) hm
      cases eq_of_settle_next hsettle
      exact (via_written v hfirst hm).append (via_items w ws hothers hrest)
termination_by sizeOf (v :: vs)

theorem via_members (k : String) (v : Value) (ms : List (String × Value)) {bs : List UInt8}
    (hv : WrittenMembers form ((k, v) :: ms) bs) {frames : List Frame} {c : σ} {s' : Scanner σ}
    (h : scan ⟨.marker, ⟨true, 2 * (ms.length + 1)⟩ :: frames, c⟩ bs = .ok s') :
    Via step Unfinished ⟨.marker, ⟨true, 2 * (ms.length + 1)⟩ :: frames, c⟩ bs s' := by
  match ms, hv with
  | [], ⟨name, member, hname, ⟨as, cs, hfirst, hothers, hmember⟩, hbs⟩ =>
      subst hbs hmember hothers
      rw [List.append_nil] at h ⊢
      obtain ⟨m, hm, hrest⟩ := exists_of_foldlM_append h
      obtain ⟨c', hsettle⟩ := exists_settle (scan_writtenText hname _ c []) hm
      cases eq_of_settle_next (n := 0) hsettle
      exact (via_writtenText hname hm).append (via_written v hfirst hrest)
  | (k', w) :: ms, ⟨name, member, hname, ⟨as, cs, hfirst, hothers, hmember⟩, hbs⟩ =>
      subst hbs hmember
      obtain ⟨m, hm, hbehind⟩ := exists_of_foldlM_append h
      obtain ⟨c', hsettle⟩ := exists_settle (scan_writtenText hname _ c []) hm
      cases eq_of_settle_next (n := 2 * (ms.length + 1)) hsettle
      obtain ⟨m', hm', hrest⟩ := exists_of_foldlM_append hbehind
      obtain ⟨kv, -, hscan⟩ := scan_written (σ := σ) v hfirst (⟨true, 2 * ms.length + 1 + 2⟩ :: frames)
      obtain ⟨c'', hsettle'⟩ := exists_settle (hscan c' []) hm'
      cases eq_of_settle_next (n := 2 * ms.length + 1) hsettle'
      have hvia := (via_written v hfirst hm').append (via_members k' w ms hothers hrest)
      exact (via_writtenText hname hm).append hvia
termination_by sizeOf ((k, v) :: ms)
end

theorem feed_cut {v : Value} {bs p : List UInt8} (hv : Written form v bs) {c c' : σ}
    (h : feed c bs = .ok c') (hp : p <+: bs) (hne : p ≠ bs) : feed c p = .error .cutShort := by
  cases hscan : (start c).scan bs with
  | error e =>
      rw [feed, hscan] at h
      cases h
  | ok s =>
      obtain ⟨m, hm, hmid⟩ := (via_written v hv hscan).exists_mid hp hne
      change (start c).scan p = .ok m at hm
      rw [feed, hm]
      exact hmid

end CourierDispatch.MsgPack.Scanner
