import CourierDispatch.Proofs.Json.Scanner
import CourierDispatch.Proofs.MsgPack.Carried

/-!
# Invariants of reading JSON

JSON says nowhere how long a text or a container is, but everything in it takes bytes. So a property
that relates the open containers to a consumer may also depend on how many bytes are still to come: a
value or a name takes one of them at least, and so does the end of a container. What is read from fewer
than 2^32 bytes fits into the headers of MsgPack.
-/

namespace CourierDispatch

open MsgPack

namespace Json

/-- How many bytes an unfinished escape has taken up. -/
def Escape.span : Escape → Nat
  | none => 0
  | backslash => 1
  | hex Option.none digits => 2 + digits.length
  | pair _ => 6
  | pairMark _ => 7
  | hex (some _) digits => 8 + digits.length

namespace Quoted

/-- A text fits into a header if all the bytes that are still to come belong to it. -/
def FitsWith (left : Nat) (q : Quoted) : Prop :=
  q.content.length + q.escape.span + left < sizeLimit

variable {left : Nat} {q q' : Quoted} {b : UInt8} {content : List UInt8}

theorem length_encodeScalar_le (n : Nat) : (Utf8.encodeScalar n).length ≤ 4 := by
  unfold Utf8.encodeScalar
  split_ifs <;> simp

theorem fitsWith_push {bs : List UInt8} (hq : q.content.length + bs.length + left < sizeLimit) :
    (q.push bs).FitsWith left := by
  have hlength : (q.push bs).content.length = bs.length + q.content.length := by
    simp [Quoted.push]
  rw [FitsWith, hlength]
  change bs.length + q.content.length + 0 + left < sizeLimit
  omega

/-- The escape of a code unit is longer than the character that it stands for. -/
theorem fitsWith_unit {high : Option Nat} {n : Nat}
    (hq : q.content.length + 6 + left < sizeLimit) (h : q.unit high n = .more q') :
    q'.FitsWith left := by
  have hpush (n : Nat) : (q.push (Utf8.encodeScalar n)).FitsWith left := by
    have hfour := length_encodeScalar_le n
    exact fitsWith_push (by omega)
  unfold unit at h
  split at h
  · cases h
    change q.content.length + 0 + left < sizeLimit
    omega
  split at h
  · split at h
    · cases h
      exact hpush _
    · cases h
  · split at h
    · cases h
      exact hq
    split at h
    · cases h
    · cases h
      exact hpush _

theorem fitsWith_step (hq : q.FitsWith (left + 1)) (h : q.step b = .more q') :
    q'.FitsWith left := by
  obtain ⟨skim, content, escape⟩ := q
  cases escape with
  | none =>
      simp only [FitsWith, Escape.span] at hq
      simp only [step] at h
      split at h
      · cases h
      split at h
      · cases h
        simp only [FitsWith, Escape.span]
        omega
      split at h
      · cases h
      · cases h
        refine fitsWith_push ?_
        simp only [List.length_singleton]
        omega
  | backslash =>
      simp only [FitsWith, Escape.span] at hq
      simp only [step] at h
      split at h
      · cases h
        simp only [FitsWith, Escape.span, List.length_nil]
        omega
      split at h
      · cases h
        refine fitsWith_push ?_
        simp only [List.length_singleton]
        omega
      · cases h
  | hex high digits =>
      simp only [step] at h
      split at h
      · cases h
        cases high <;> simp only [FitsWith, Escape.span, List.length_cons] at hq ⊢ <;> omega
      split at h
      · refine fitsWith_unit ?_ h
        cases high <;> simp only [FitsWith, Escape.span] at hq ⊢ <;> omega
      · cases h
  | pair high =>
      simp only [FitsWith, Escape.span] at hq
      simp only [step] at h
      split at h
      · cases h
        simp only [FitsWith, Escape.span]
        omega
      · cases h
  | pairMark high =>
      simp only [FitsWith, Escape.span] at hq
      simp only [step] at h
      split at h
      · cases h
        simp only [FitsWith, Escape.span, List.length_nil]
        omega
      · cases h

theorem length_lt_of_closed (hq : q.FitsWith left) (h : q.step b = .closed content) :
    content.length < sizeLimit := by
  have hcontent : content = q.content.reverse := by
    unfold step unit at h
    simp only at h
    repeat' split at h
    all_goals cases h
    rfl
  unfold FitsWith at hq
  rw [hcontent, List.length_reverse]
  omega

end Quoted

/-- A number that is read fits into a header. Doubles are always written in eight bytes. -/
theorem token?_carried {n : Numeral} {t : Token} (h : n.token? = some t) : t.Carried := by
  unfold Numeral.token? at h
  split at h
  next m _ _ hwhole =>
    have hm : m < 1 <<< 64 := Numeral.absorb_lt (by decide) hwhole
    split at h
    · cases h
      refine ⟨by omega, Int.ofNat_lt.2 hm⟩
    split at h
    next hnegative =>
      cases h
      simp only [Token.Carried, Number.fits, Nat.reduceShiftLeft] at hnegative ⊢
      omega
    next =>
      cases h
      trivial
  next =>
    obtain ⟨x, -, rfl⟩ := Option.map_eq_some_iff.1 h
    trivial

/-- What holds behind a value: the property of the containers around it, or that of the end. -/
def Behind {σ : Type} (p : Nat → List Frame → σ → Prop) (q : σ → Prop) (left : Nat) :
    List Frame → σ → Prop
  | [], c => q c
  | f :: frames, c => p left (f :: frames) c

/-- Each token uses up one of the bytes that are left and keeps a property of the open containers and
the consumer. At the end another property holds. -/
structure Tracks {σ : Type} [Consumer σ] (p : Nat → List Frame → σ → Prop) (q : σ → Prop) :
    Prop where
  fewer : ∀ {left frames c}, p (left + 1) frames c → p left frames c
  item : ∀ {left frames c c' t}, p (left + 1) frames c → t.Carried → Consumer.accept c t = .ok c' →
    Behind p q left frames c'
  opening : ∀ {left frames f c c'}, left < sizeLimit →
    (Consumer.skims c = false → frames.length < Scanner.depthLimit) → p (left + 1) frames c →
    Consumer.accept c f.opening = .ok c' → p left (f :: frames) c'
  closing : ∀ {left frames f c c'}, p (left + 1) (f :: frames) c →
    Consumer.accept c f.closing = .ok c' → Behind p q left frames c'

theorem Tracks.behind {σ : Type} [Consumer σ] {p : Nat → List Frame → σ → Prop} {q : σ → Prop}
    (hp : Tracks p q) {left : Nat} {frames : List Frame} {c : σ}
    (h : Behind p q (left + 1) frames c) : Behind p q left frames c := by
  cases frames with
  | nil => exact h
  | cons f frames => exact hp.fewer h

namespace Scanner

variable {σ : Type} [Consumer σ] {p : Nat → List Frame → σ → Prop} {q : σ → Prop}

def SpotCarried (left : Nat) (frames : List Frame) : Spot → Prop
  | .firstItem => frames.head? = some .array
  | .name | .firstName | .colon => frames.head? = some .object
  | .word _ t => t.Carried
  | .quoted isName text => text.FitsWith left ∧ (isName → frames.head? = some .object)
  | _ => True

/-- The consumer has the property that goes with the containers. A numeral may end without a byte of its
own, so while it is being read one of its bytes still counts. -/
def ConsumerHas (p : Nat → List Frame → σ → Prop) (q : σ → Prop) (left : Nat) (s : Scanner σ) :
    Prop :=
  match s.spot with
  | .delimiter => Behind p q left s.frames s.consumer
  | .numeral _ _ => p (left + 1) s.frames s.consumer
  | _ => p left s.frames s.consumer

/-- An invariant of the scanner with so many bytes to come. -/
structure Keeps (p : Nat → List Frame → σ → Prop) (q : σ → Prop) (left : Nat) (s : Scanner σ) :
    Prop where
  room : left < sizeLimit
  spot : SpotCarried left s.frames s.spot
  consumer : s.ConsumerHas p q left

variable {left : Nat} {s s' : Scanner σ}

theorem exists_behind_of_emit (hp : Tracks p q) {t : Token} {spot : Spot}
    (hc : p (left + 1) s.frames s.consumer) (ht : t.Carried) (h : s.emit t spot = .ok s') :
    ∃ c, s' = { s with spot, consumer := c } ∧ Behind p q left s.frames c := by
  unfold emit at h
  split at h
  next c hok =>
    cases h
    exact ⟨c, rfl, hp.item hc ht hok⟩
  next => cases h

theorem keeps_emit (hp : Tracks p q) {t : Token} (hroom : left < sizeLimit)
    (hc : p (left + 1) s.frames s.consumer) (ht : t.Carried)
    (h : s.emit t .delimiter = .ok s') : s'.Keeps p q left := by
  obtain ⟨c, rfl, hbehind⟩ := exists_behind_of_emit hp hc ht h
  exact ⟨hroom, trivial, hbehind⟩

theorem keeps_emit_name (hp : Tracks p q) {t : Token} (hroom : left < sizeLimit)
    (hobject : s.frames.head? = some .object) (hc : p (left + 1) s.frames s.consumer)
    (ht : t.Carried) (h : s.emit t .colon = .ok s') : s'.Keeps p q left := by
  obtain ⟨c, rfl, hbehind⟩ := exists_behind_of_emit hp hc ht h
  obtain ⟨outer, houter⟩ := List.head?_eq_some_iff.1 hobject
  refine ⟨hroom, hobject, ?_⟩
  rw [houter] at hbehind
  simp only [ConsumerHas, houter]
  exact hbehind

theorem keeps_openFrame (hp : Tracks p q) {f : Frame} {spot : Spot} (hroom : left < sizeLimit)
    (hspot : f = .array ∧ spot = .firstItem ∨ f = .object ∧ spot = .firstName)
    (hc : p (left + 1) s.frames s.consumer) (h : s.openFrame f spot = .ok s') :
    s'.Keeps p q left := by
  unfold openFrame at h
  split at h
  · cases h
  next hdepth =>
    have hlength (hreads : Consumer.skims s.consumer = false) : s.frames.length < depthLimit := by
      simpa [hreads] using hdepth
    unfold emit at h
    split at h
    next hok =>
      cases h
      have hopen := hp.opening hroom hlength hc hok
      rcases hspot with ⟨rfl, rfl⟩ | ⟨rfl, rfl⟩ <;> exact ⟨hroom, rfl, hopen⟩
    next => cases h

theorem keeps_closeFrame (hp : Tracks p q) {f : Frame} (hroom : left < sizeLimit)
    (hframe : s.frames.head? = some f) (hc : p (left + 1) s.frames s.consumer)
    (h : s.closeFrame f = .ok s') : s'.Keeps p q left := by
  obtain ⟨outer, houter⟩ := List.head?_eq_some_iff.1 hframe
  rw [houter] at hc
  unfold closeFrame emit at h
  split at h
  next hok =>
    cases h
    refine ⟨hroom, trivial, ?_⟩
    simp only [ConsumerHas, houter, List.tail_cons]
    exact hp.closing hc hok
  next => cases h

theorem keeps_beginValue (hp : Tracks p q) {c : Char} (hroom : left < sizeLimit)
    (hc : p (left + 1) s.frames s.consumer) (h : s.beginValue c = .ok s') : s'.Keeps p q left := by
  have hless : p left s.frames s.consumer := hp.fewer hc
  unfold beginValue at h
  split at h
  · cases h
    exact ⟨hroom, trivial, hless⟩
  · cases h
    exact ⟨hroom, trivial, hless⟩
  · cases h
    exact ⟨hroom, trivial, hless⟩
  · cases h
    refine ⟨hroom, ⟨?_, by simp⟩, hless⟩
    simpa [Quoted.FitsWith, Escape.span] using hroom
  · exact keeps_openFrame hp hroom (.inl ⟨rfl, rfl⟩) hc h
  · exact keeps_openFrame hp hroom (.inr ⟨rfl, rfl⟩) hc h
  · split at h
    · cases h
      exact ⟨hroom, trivial, hc⟩
    · cases h

theorem keeps_delimit (hp : Tracks p q) {c : Char} (hroom : left < sizeLimit)
    (hc : Behind p q (left + 1) s.frames s.consumer) (h : s.delimit c = .ok s') :
    s'.Keeps p q left := by
  unfold delimit at h
  split at h
  · cases h
    exact ⟨hroom, trivial, hp.behind hc⟩
  split at h
  next hframes _ =>
    rw [hframes] at hc
    split at h
    · cases h
    · cases h
      refine ⟨hroom, trivial, ?_⟩
      simp only [ConsumerHas, hframes]
      exact hp.fewer hc
  next hframes _ =>
    refine keeps_closeFrame hp hroom (by rw [hframes]; rfl) ?_ h
    rw [hframes] at hc ⊢
    exact hc
  next hframes _ =>
    rw [hframes] at hc
    cases h
    refine ⟨hroom, by rw [hframes]; rfl, ?_⟩
    simp only [ConsumerHas, hframes]
    exact hp.fewer hc
  next hframes _ =>
    refine keeps_closeFrame hp hroom (by rw [hframes]; rfl) ?_ h
    rw [hframes] at hc ⊢
    exact hc
  · cases h

theorem exists_behind_of_endNumeral (hp : Tracks p q) {skim : Bool} {d : Numeral.Draft}
    (hc : p (left + 1) s.frames s.consumer) (h : s.endNumeral skim d = .ok s') :
    ∃ c, s' = { s with spot := .delimiter, consumer := c } ∧ Behind p q left s.frames c := by
  unfold endNumeral at h
  split at h
  · exact exists_behind_of_emit hp hc (t := .skimmed) trivial h
  split at h
  next ht => exact exists_behind_of_emit hp hc (token?_carried ht) h
  next => cases h

theorem keeps_endQuoted (hp : Tracks p q) {isName skim : Bool} {content : List UInt8}
    (hroom : left < sizeLimit) (hname : isName → s.frames.head? = some .object)
    (hc : p (left + 1) s.frames s.consumer) (hcontent : content.length < sizeLimit)
    (h : s.endQuoted isName skim content = .ok s') : s'.Keeps p q left := by
  have hemit {t : Token} (ht : t.Carried)
      (h : s.emit t (if isName then .colon else .delimiter) = .ok s') : s'.Keeps p q left := by
    cases isName with
    | false => exact keeps_emit hp hroom hc ht h
    | true => exact keeps_emit_name hp hroom (hname rfl) hc ht h
  unfold endQuoted at h
  simp only at h
  split at h
  · exact hemit (t := .skimmed) trivial h
  split at h
  next text htext => exact hemit (t := .text text) (fits_of_string? htext hcontent) h
  next => cases h

theorem keeps_beginName (hp : Tracks p q) {skim : Bool} (hroom : left < sizeLimit)
    (hobject : s.frames.head? = some .object) (hc : p (left + 1) s.frames s.consumer) :
    Keeps p q left { s with spot := .quoted true { skim } } := by
  refine ⟨hroom, ⟨?_, fun _ => hobject⟩, hp.fewer hc⟩
  simpa [Quoted.FitsWith, Escape.span] using hroom

theorem keeps_step (hp : Tracks p q) {b : UInt8} (hs : s.Keeps p q (left + 1))
    (h : s.step b = .ok s') : s'.Keeps p q left := by
  obtain ⟨spot, frames, c⟩ := s
  obtain ⟨hmore, hspot, hc⟩ := hs
  have hroom : left < sizeLimit := Nat.lt_of_succ_lt hmore
  cases spot with
  | value =>
      simp only [step] at h
      split at h
      · cases h
        exact ⟨hroom, trivial, hp.fewer hc⟩
      · exact keeps_beginValue hp hroom hc h
  | firstItem =>
      simp only [step] at h
      split at h
      · cases h
        exact ⟨hroom, hspot, hp.fewer hc⟩
      split at h
      · exact keeps_closeFrame hp hroom hspot hc h
      · exact keeps_beginValue hp hroom hc h
  | name =>
      simp only [step] at h
      split at h
      · cases h
        exact ⟨hroom, hspot, hp.fewer hc⟩
      split at h
      · cases h
        exact keeps_beginName hp hroom hspot hc
      · cases h
  | firstName =>
      simp only [step] at h
      split at h
      · cases h
        exact ⟨hroom, hspot, hp.fewer hc⟩
      split at h
      · exact keeps_closeFrame hp hroom hspot hc h
      split at h
      · cases h
        exact keeps_beginName hp hroom hspot hc
      · cases h
  | colon =>
      simp only [step] at h
      split at h
      · cases h
        exact ⟨hroom, hspot, hp.fewer hc⟩
      split at h
      · cases h
        exact ⟨hroom, trivial, hp.fewer hc⟩
      · cases h
  | delimiter => exact keeps_delimit hp hroom hc h
  | word rest t =>
      cases rest with
      | nil => exact keeps_emit hp hroom hc hspot h
      | cons w rest =>
          cases rest with
          | nil =>
              simp only [step] at h
              split at h
              · exact keeps_emit hp hroom hc hspot h
              · cases h
          | cons w' rest =>
              simp only [step] at h
              split at h
              · cases h
                exact ⟨hroom, hspot, hp.fewer hc⟩
              · cases h
  | numeral skim d =>
      simp only [step] at h
      split at h
      · cases h
        exact ⟨hroom, trivial, hp.fewer hc⟩
      · cases h
      · split at h
        next hend =>
          obtain ⟨c', rfl, hbehind⟩ := exists_behind_of_endNumeral hp hc hend
          exact keeps_delimit hp hroom hbehind h
        next => cases h
  | quoted isName text =>
      obtain ⟨hfits, hname⟩ := hspot
      simp only [step] at h
      split at h
      next hstep =>
        cases h
        exact ⟨hroom, ⟨Quoted.fitsWith_step hfits hstep, hname⟩, hp.fewer hc⟩
      next hstep =>
        exact keeps_endQuoted hp hroom hname hc (Quoted.length_lt_of_closed hfits hstep) h
      next => cases h

theorem keeps_scan (hp : Tracks p q) {bs : List UInt8} (hs : s.Keeps p q bs.length)
    (h : s.scan bs = .ok s') : s'.Keeps p q 0 := by
  induction bs generalizing s with
  | nil =>
      cases h
      exact hs
  | cons b bs ih =>
      rw [scan_cons] at h
      cases hstep : s.step b with
      | error e =>
          rw [hstep] at h
          cases h
      | ok mid =>
          rw [hstep] at h
          exact ih (keeps_step hp hs hstep) h

theorem finish_keeps (hp : Tracks p q) {c : σ} (hs : s.Keeps p q 0) (h : s.finish = .ok c) :
    q c := by
  obtain ⟨spot, frames, c'⟩ := s
  obtain ⟨-, -, hc⟩ := hs
  unfold finish at h
  split at h
  next hspot hframes =>
    simp only at hspot hframes
    subst hspot hframes
    cases h
    exact hc
  next _ skim d hspot =>
    simp only at hspot
    subst hspot
    split at h
    next =>
      split at h
      next hend hframes =>
        cases h
        simp only at hframes
        subst hframes
        obtain ⟨c'', rfl, hbehind⟩ := exists_behind_of_endNumeral hp hc hend
        exact hbehind
      all_goals cases h
    next => split at h <;> cases h
  next => cases h

/-- A property that each token keeps holds all the way, if there are not too many bytes, and so its end
is reached with the property of the end. -/
theorem feed_keeps (hp : Tracks p q) {c c' : σ} {text : List UInt8} (hlength : text.length < sizeLimit)
    (hc : p text.length [] c) (h : feed c text = .ok c') : q c' := by
  have hstart : (start c).Keeps p q text.length := ⟨hlength, trivial, hc⟩
  unfold feed at h
  cases hscan : (start c).scan text with
  | error e =>
      rw [hscan] at h
      cases h
  | ok s =>
      rw [hscan] at h
      exact finish_keeps hp (keeps_scan hp hstart hscan) h

end Scanner

end Json

end CourierDispatch
