import CourierDispatch.Proofs.MsgPack.Carried

/-!
# Invariants of reading MsgPack

A property that relates the open containers to a consumer is an invariant of the scanner if it survives
each token: an item counts the container around it down, an opening puts a container on top, and a
closing takes off one that has nothing left. Behind the last item nothing is read any more, so another
property may hold there.
-/

namespace CourierDispatch.MsgPack

def Frame.Announced (f : Frame) : Prop :=
  if f.isMap then f.left < 2 * sizeLimit else f.left < sizeLimit

theorem announced_array {n : Nat} (h : n < sizeLimit) : Frame.Announced ⟨false, n⟩ := h

theorem announced_map {n : Nat} (h : n < sizeLimit) : Frame.Announced ⟨true, 2 * n⟩ :=
  Nat.mul_lt_mul_of_pos_left h (by decide)

/-- Containers that are not complete, and not too many of them. -/
structure Running (frames : List Frame) : Prop where
  length_le : frames.length ≤ Scanner.depthLimit
  left_pos : ∀ f ∈ frames, 0 < f.left

theorem Running.tail {f : Frame} {frames : List Frame} (h : Running (f :: frames)) :
    Running frames where
  length_le := Nat.le_of_succ_le h.length_le
  left_pos f' hf' := h.left_pos f' (List.mem_cons_of_mem _ hf')

theorem Running.push {f : Frame} {frames : List Frame} (h : Running frames)
    (hlength : frames.length < Scanner.depthLimit) (hf : 0 < f.left) : Running (f :: frames) where
  length_le := hlength
  left_pos f' hf' := by
    rcases List.mem_cons.1 hf' with rfl | hf'
    · exact hf
    · exact h.left_pos f' hf'

/-- The containers behind an item, which counts as one of the innermost container. -/
def countDown : List Frame → List Frame
  | [] => []
  | f :: frames => { f with left := f.left - 1 } :: frames

@[simp] theorem length_countDown (frames : List Frame) :
    (countDown frames).length = frames.length := by
  cases frames <;> rfl

/-- What holds behind an item: the property of the containers behind it, or that of the end. -/
def Behind {σ : Type} (p : List Frame → σ → Prop) (q : σ → Prop) : List Frame → σ → Prop
  | [], c => q c
  | f :: frames, c => p (countDown (f :: frames)) c

/-- Each token keeps a property of the open containers and the consumer. At the end another property
holds. -/
structure Tracks {σ : Type} [Consumer σ] (p : List Frame → σ → Prop) (q : σ → Prop) : Prop where
  item : ∀ {frames c c' t}, Running frames → p frames c → t.Carried →
    Consumer.accept c t = .ok c' → Behind p q frames c'
  opening : ∀ {frames f c c'}, frames.length < Scanner.depthLimit → f.Announced → p frames c →
    Consumer.accept c f.opening = .ok c' → p (f :: frames) c'
  closing : ∀ {frames isMap c c'}, Running frames → frames.length < Scanner.depthLimit →
    p (⟨isMap, 0⟩ :: frames) c → Consumer.accept c (Frame.closing ⟨isMap, 0⟩) = .ok c' →
    Behind p q frames c'

namespace Scanner

variable {σ : Type} [Consumer σ] {p : List Frame → σ → Prop} {q : σ → Prop}

def SpotCarried : Spot → Prop
  | .field f width digits => digits.length < width ∧ width ≤ f.maxWidth
  | .body kind left content => kind = .extension ∨ 0 < left ∧ left + content.length < sizeLimit
  | _ => True

/-- The consumer has the property that goes with the containers. While the body of an extension is
passed over, the consumer has already taken this item. -/
def ConsumerHas (p : List Frame → σ → Prop) (q : σ → Prop) (s : Scanner σ) : Prop :=
  match s.spot with
  | .rest => q s.consumer
  | .body .extension _ _ => Behind p q s.frames s.consumer
  | _ => p s.frames s.consumer

/-- An invariant of the scanner. -/
structure Keeps (p : List Frame → σ → Prop) (q : σ → Prop) (s : Scanner σ) : Prop where
  running : Running s.frames
  spot : SpotCarried s.spot
  consumer : s.ConsumerHas p q

theorem accept_eq_ok {c c' : σ} {t : Token} (h : accept c t = .ok c') :
    Consumer.accept c t = .ok c' := by
  unfold accept at h
  split at h
  next hok =>
    cases h
    exact hok
  next => cases h

theorem keeps_settle (hp : Tracks p q) {c : σ} {frames : List Frame} {s : Scanner σ}
    (hr : Running frames) (hc : Behind p q frames c) (h : settle c frames = .ok s) :
    s.Keeps p q := by
  induction frames generalizing c with
  | nil =>
      cases h
      exact ⟨hr, trivial, hc⟩
  | cons f outer ih =>
      have hpos : 0 < f.left := hr.left_pos f List.mem_cons_self
      rw [settle] at h
      split at h
      next hlast =>
        split at h
        next hok =>
          have hzero : f.left - 1 = 0 := by omega
          have hdone : p (⟨f.isMap, 0⟩ :: outer) c := by
            rw [← hzero]
            exact hc
          exact ih hr.tail (hp.closing hr.tail hr.length_le hdone (accept_eq_ok hok)) h
        next => cases h
      next hmore =>
        split at h
        · cases h
        · cases h
          refine ⟨hr.tail.push hr.length_le ?_, trivial, hc⟩
          change 0 < f.left - 1
          omega

theorem keeps_emit (hp : Tracks p q) {s s' : Scanner σ} {t : Token} (hr : Running s.frames)
    (hc : p s.frames s.consumer) (ht : t.Carried) (h : s.emit t = .ok s') : s'.Keeps p q := by
  unfold emit at h
  split at h
  next hok => exact keeps_settle hp hr (hp.item hr hc ht (accept_eq_ok hok)) h
  next => cases h

theorem keeps_openFrame (hp : Tracks p q) {s s' : Scanner σ} {f : Frame} (hr : Running s.frames)
    (hc : p s.frames s.consumer) (hf : f.Announced) (h : s.openFrame f = .ok s') :
    s'.Keeps p q := by
  unfold openFrame at h
  split at h
  · cases h
  next hdepth =>
    have hlength : s.frames.length < depthLimit := Nat.lt_of_not_le hdepth
    split at h
    · cases h
    next c hok =>
      have hopen : p (f :: s.frames) c := hp.opening hlength hf hc (accept_eq_ok hok)
      split at h
      next hempty =>
        have hdone : p (⟨f.isMap, 0⟩ :: s.frames) c := by
          rw [← hempty]
          exact hopen
        split at h
        next hok' =>
          exact keeps_settle hp hr (hp.closing hr hlength hdone (accept_eq_ok hok')) h
        next => cases h
      next hmore =>
        cases h
        exact ⟨hr.push hlength (Nat.pos_of_ne_zero hmore), trivial, hopen⟩

theorem keeps_announce (hp : Tracks p q) {s s' : Scanner σ} {i : Item} (hr : Running s.frames)
    (hc : p s.frames s.consumer) (hi : i.Carried) (h : s.announce i = .ok s') : s'.Keeps p q := by
  unfold announce at h
  split at h
  · exact keeps_emit hp hr hc hi h
  · exact keeps_openFrame hp hr hc (announced_array hi) h
  · exact keeps_openFrame hp hr hc (announced_map hi) h
  · have hextension : Token.extension.Carried := trivial
    split at h
    · cases h
    split at h
    next hok =>
      cases h
      exact ⟨hr, .inl rfl, hp.item hr hc hextension (accept_eq_ok hok)⟩
    next => cases h
  · exact keeps_emit hp hr hc (bodyToken_carried _ (by decide)) h
  next kind n hkind hn =>
    cases h
    cases kind with
    | extension => exact (hkind rfl).elim
    | text => exact ⟨hr, .inr ⟨Nat.pos_of_ne_zero hn, hi⟩, hc⟩
    | bytes => exact ⟨hr, .inr ⟨Nat.pos_of_ne_zero hn, hi⟩, hc⟩

theorem keeps_endBody (hp : Tracks p q) {s s' : Scanner σ} {kind : BodyKind} {left : Nat}
    {content bs : List UInt8} (hr : Running s.frames) (hc : s.ConsumerHas p q)
    (hspot : s.spot = .body kind left content)
    (hbs : kind = .extension ∨ bs.length < sizeLimit) (h : s.endBody kind bs = .ok s') :
    s'.Keeps p q := by
  unfold ConsumerHas at hc
  rw [hspot] at hc
  cases kind with
  | extension => exact keeps_settle hp hr hc h
  | text => exact keeps_emit hp hr hc (bodyToken_carried _ (hbs.resolve_left (by simp))) h
  | bytes => exact keeps_emit hp hr hc (bodyToken_carried _ (hbs.resolve_left (by simp))) h

theorem keeps_step (hp : Tracks p q) {s s' : Scanner σ} {b : UInt8} (hs : s.Keeps p q)
    (h : s.step b = .ok s') : s'.Keeps p q := by
  have hspot := hs.spot
  have hc := hs.consumer
  have hr := hs.running
  unfold step at h
  split at h
  · cases h
    exact hs
  next hmarker =>
    have hcons : p s.frames s.consumer := by
      unfold ConsumerHas at hc
      rwa [hmarker] at hc
    split at h
    · cases h
    next i hi => exact keeps_announce hp hr hcons (marker?_carried hi) h
    next f width hf =>
      cases h
      exact ⟨hr, marker?_carried hf, hcons⟩
  next f width digits hfield =>
    have hcons : p s.frames s.consumer := by
      unfold ConsumerHas at hc
      rwa [hfield] at hc
    rw [hfield] at hspot
    split at h
    next hmore =>
      cases h
      exact ⟨hr, ⟨hmore, hspot.2⟩, hcons⟩
    next hlast =>
      have hlength : (b :: digits).reverse.length = width := by
        rw [List.length_reverse, List.length_cons]
        have hlt := hspot.1
        omega
      have hpos : 0 < (b :: digits).reverse.length := by simp
      have hitem := item_carried hpos (hlength ▸ hspot.2)
      rw [hlength] at hitem
      exact keeps_announce hp hr hcons hitem h
  next kind left content hbody =>
    rw [hbody] at hspot
    split at h
    next hmore =>
      cases h
      refine ⟨hr, ?_, ?_⟩
      · refine hspot.imp_right fun hfits => ?_
        rw [List.length_cons]
        omega
      · unfold ConsumerHas at hc ⊢
        rw [hbody] at hc
        cases kind <;> exact hc
    next hlast =>
      refine keeps_endBody hp hr hc hbody ?_ h
      refine hspot.imp_right fun hfits => ?_
      rw [List.length_reverse, List.length_cons]
      omega

theorem keeps_scan (hp : Tracks p q) {s s' : Scanner σ} {bs : List UInt8} (hs : s.Keeps p q)
    (h : s.scan bs = .ok s') : s'.Keeps p q := by
  induction bs generalizing s with
  | nil =>
      cases h
      exact hs
  | cons b bs ih =>
      rw [scan_cons] at h
      cases hstep : s.step b with
      | error e =>
          rw [hstep] at h
          cases h
      | ok mid =>
          rw [hstep] at h
          exact ih (keeps_step hp hs hstep) h

/-- A property that each token keeps holds all the way, and so its end is reached with the property of
the end. -/
theorem feed_keeps (hp : Tracks p q) {c c' : σ} {bs : List UInt8} (hc : p [] c)
    (h : feed c bs = .ok c') : q c' := by
  have hrunning : Running [] := ⟨Nat.zero_le _, by simp⟩
  unfold feed at h
  cases hscan : (start c).scan bs with
  | error e =>
      rw [hscan] at h
      cases h
  | ok s =>
      have hkeeps : s.Keeps p q :=
        keeps_scan hp (s := start c) ⟨hrunning, trivial, hc⟩ hscan
      rw [hscan] at h
      change finish s = .ok c' at h
      unfold finish at h
      split at h
      next hrest =>
        cases h
        have hend := hkeeps.consumer
        unfold ConsumerHas at hend
        rwa [hrest] at hend
      next => cases h

end Scanner

end CourierDispatch.MsgPack
