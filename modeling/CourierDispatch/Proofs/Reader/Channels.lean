import CourierDispatch.Proofs.Reader.Audience

/-!
# The inbox of a running reader

A reader has an inbox exactly while it is running, and then it is that of its latest run. A stop takes
away the inbox of the run that it claims, and no other. What a read brings, whenever it is over, comes
from the run that was the latest one when the read began.
-/

namespace CourierDispatch

namespace Reader

variable {S : Type}

theorem channels_step [MessageSource S] (r : Reader S) (time : Nat) :
    (r.step time).1.channels = r.channels := by
  unfold Reader.step
  split
  next => rfl
  next run _ => cases run.loop.step r.format r.backoff time r.source with
    | mk source loop => cases loop <;> rfl

theorem channels_exit (r : Reader S) : (r.exit.getD r).channels = r.channels := by
  unfold Reader.exit
  split
  next => split <;> rfl
  next => rfl

theorem channels_takeFrom (r : Reader S) (i : Nat) (reportFirst : Bool) :
    (r.takeFrom i reportFirst).1.channels = r.channels := by
  unfold takeFrom
  split <;> rfl

theorem start_of_running {r : Reader S} (h : r.component.control.phase = .running) (time : Nat)
    (asked : Bool) : r.start time asked = .error (.alreadyStarted r.component.label) := by
  simp [Reader.start, Component.start, Lifecycle.start?, h]

end Reader

namespace Audience

variable {S : Type} {format : WireFormat} {w : Audience S}

def decodedBy (format : WireFormat) (w : Audience S) (i : Nat) : List Command :=
  (w.heardBy i).filterMap (ConsumeLoop.command? format)

/-- The commands that reads have got out of the inbox of a run. -/
def receivedBy (w : Audience S) (i : Nat) : List Command :=
  (w.answersOf i).filterMap Except.toOption

/-- A reader whose loops account for their commands. -/
abbrev Orderly (format : WireFormat) (w : Audience S) : Prop :=
  w.Sound format fun l heard answers =>
    l.Accounted (heard.filterMap (ConsumeLoop.command? format)) (answers.filterMap Except.toOption)

/-- What has been received from a run is the beginning of what it has decoded. -/
theorem Sound.received (h : w.Orderly format) (i : Nat) : w.receivedBy i <+: w.decodedBy format i := by
  cases hl : w.loops[i]? with
  | some l =>
      have hlaw := h.laws i l hl
      exact hlaw.prefix
  | none =>
      have hi : w.loops.length ≤ i := List.getElem?_eq_none_iff.1 hl
      rw [receivedBy, h.answersOf_eq_nil hi]
      exact List.nil_prefix

variable [MessageSource S]

theorem commandLaw (S : Type) [MessageSource S] (format : WireFormat) :
    ConsumeLoop.Law S format fun l heard answers =>
      l.Accounted (heard.filterMap (ConsumeLoop.command? format))
        (answers.filterMap Except.toOption) where
  begin := ConsumeLoop.accounted_begin
  step h backoff time s := by
    rw [List.filterMap_append]
    exact h.step format backoff time s
  exit h := h.exit
  take {l _ _} h reportFirst := by
    have hanswer : (l.inbox.take reportFirst).2.toList.filterMap Except.toOption =
        ((l.inbox.take reportFirst).2.bind Except.toOption).toList := by
      cases (l.inbox.take reportFirst).2 with
      | none => rfl
      | some a => cases a <;> rfl
    rw [List.filterMap_append, hanswer]
    exact h.take reportFirst

theorem orderly_run (source : S) (format : WireFormat) (backoff : Backoff) (events : List Event) :
    ((opening source format backoff).run events).Orderly format :=
  (sound_opening source format backoff _).run (commandLaw S format) events

/-- A step leaves the inbox where it is, unless it is a stop that claims its run. -/
theorem Sound.channels_step (h : w.Orderly format) {i : Nat} (hi : w.reader.channels = some i)
    (e : Event) :
    (w.step e).reader.channels = some i ∨
      e = .stop ∧ (w.step e).reader.channels = none ∧ (w.step e).stops = i :: w.stops := by
  have hrunning : w.phase = .running := by
    by_contra hw
    rw [h.channels_eq_none_iff.2 hw] at hi
    cases hi
  cases e with
  | start time asked =>
      left
      have hrefused := Reader.start_of_running hrunning time asked
      simp only [Audience.step, hrefused]
      exact hi
  | stop =>
      have hheld : w.reader.component.control.held = some i := by
        rw [← hi, h.channels, if_pos hrunning]
      simp only [Audience.step]
      split
      next j reader hclaim =>
        obtain ⟨-, hj, -, -, hreader⟩ := Reader.of_claim hclaim w.stops w.joined
        rw [hheld] at hj
        cases hj
        rw [hreader]
        exact .inr ⟨trivial, rfl, rfl⟩
      next => exact .inl hi
  | join k =>
      left
      simp only [Audience.step]
      split <;> exact hi
  | drop k => exact .inl hi
  | cancel => exact .inl hi
  | move time => exact .inl ((Reader.channels_step _ _).trans hi)
  | exit => exact .inl ((Reader.channels_exit _).trans hi)
  | read => exact .inl hi
  | take k reportFirst =>
      left
      simp only [Audience.step, Audience.take]
      split
      next => exact hi
      next j _ =>
        have hsame := w.reader.channels_takeFrom j reportFirst
        cases htake : w.reader.takeFrom j reportFirst with
        | mk reader answer =>
            rw [htake] at hsame
            cases answer <;> exact hsame.trans hi
  | giveUp k =>
      left
      simp only [Audience.step, Audience.giveUp]
      split <;> exact hi

/-- What becomes of a read: it keeps its inbox, and its answer once it has one. -/
structure Follows (v v' : Visit) : Prop where
  inbox : v'.inbox = v.inbox
  answer : v.answer.isSome → v' = v

theorem Follows.refl (v : Visit) : Follows v v := ⟨rfl, fun _ => rfl⟩

theorem Follows.trans {v v' v'' : Visit} (h : Follows v v') (h' : Follows v' v'') : Follows v v'' where
  inbox := h'.inbox.trans h.inbox
  answer hv := by
    have hsame := h.answer hv
    subst hsame
    exact h'.answer hv

theorem exists_follows_set {visits : List Visit} {k i n : Nat} {v : Visit}
    (hk : (visits[k]?).bind Visit.waitsAt? = some i) (hv : visits[n]? = some v)
    (answer : Except ReadError Command) :
    ∃ v', (visits.set k ⟨some i, some answer⟩)[n]? = some v' ∧ Follows v v' := by
  by_cases hkn : k = n
  · subst hkn
    rw [hv, Option.bind_some] at hk
    refine ⟨⟨some i, some answer⟩, ?_, ?_⟩
    · rw [List.getElem?_set_self (List.getElem?_eq_some_iff.1 hv).1]
    · rw [Visit.waitsAt?_eq_some hk]
      exact ⟨rfl, nofun⟩
  · exact ⟨v, by rw [List.getElem?_set_ne hkn, hv], .refl v⟩

theorem visits_step {n : Nat} {v : Visit} (hv : w.visits[n]? = some v) (e : Event) :
    ∃ v', (w.step e).visits[n]? = some v' ∧ Follows v v' := by
  have hsame : ∃ v', w.visits[n]? = some v' ∧ Follows v v' := ⟨v, hv, .refl v⟩
  cases e with
  | start time asked =>
      simp only [Audience.step]
      split <;> exact hsame
  | stop =>
      simp only [Audience.step]
      split <;> exact hsame
  | join k =>
      simp only [Audience.step]
      split <;> exact hsame
  | drop k => exact hsame
  | cancel => exact hsame
  | move time => exact hsame
  | exit => exact hsame
  | read =>
      have hlt := (List.getElem?_eq_some_iff.1 hv).1
      exact ⟨v, (List.getElem?_append_left hlt).trans hv, .refl v⟩
  | take k reportFirst =>
      simp only [Audience.step, Audience.take]
      split
      next => exact hsame
      next i hk =>
        split
        next => exact hsame
        next reader answer _ => exact exists_follows_set hk hv answer
  | giveUp k =>
      simp only [Audience.step, Audience.giveUp]
      split
      next => exact hsame
      next i hk => exact exists_follows_set hk hv _

theorem visits_run {n : Nat} {v : Visit} (hv : w.visits[n]? = some v) (events : List Event) :
    ∃ v', (w.run events).visits[n]? = some v' ∧ Follows v v' := by
  induction events generalizing w v with
  | nil => exact ⟨v, hv, .refl v⟩
  | cons e events ih =>
      obtain ⟨v', hv', hfollows⟩ := visits_step hv e
      obtain ⟨v'', hv'', hfollows'⟩ := ih hv'
      exact ⟨v'', hv'', hfollows.trans hfollows'⟩

/-- The reader has an inbox exactly while it is running, and nobody is given another one. -/
structure InStep (format : WireFormat) (w : Audience S) : Prop where
  running_iff : w.reader.channels.isSome ↔ w.phase = .running
  latest : ∀ i, w.reader.channels = some i → i + 1 = w.loops.length
  /-- A start that succeeds brings the inbox of the run that it adds. -/
  start : ∀ time asked reader, w.reader.start time asked = .ok reader →
    reader.channels = some w.loops.length ∧ reader.component.loops.length = w.loops.length + 1
  /-- Only the stop that claims a run takes its inbox away. -/
  kept : ∀ i, w.reader.channels = some i → ∀ e, (w.step e).reader.channels = some i ∨
    e = .stop ∧ (w.step e).reader.channels = none ∧ (w.step e).stops = i :: w.stops
  closed : w.phase ≠ .running → ∀ reportFirst,
    w.reader.read reportFirst = (w.reader, some (.error .channelClosed))
  /-- What is received from a run are the first commands that it has decoded. -/
  received : ∀ i, w.receivedBy i <+: w.decodedBy format i
  /-- A read that begins now fails unless the reader is running. Whatever happens later, it brings no
  command that is not received from the run that is now the latest. -/
  fresh : ∀ events, ∃ v, ((w.step .read).run events).visits[w.visits.length]? = some v ∧
    (w.phase ≠ .running → v.answer = some (.error .channelClosed)) ∧
    ∀ c, v.answer = some (.ok c) → ∃ i, w.reader.channels = some i ∧ i + 1 = w.loops.length ∧
      c ∈ ((w.step .read).run events).receivedBy i

theorem Sound.fresh (h : w.Orderly format) (events : List Event) :
    ∃ v, ((w.step .read).run events).visits[w.visits.length]? = some v ∧
      (w.phase ≠ .running → v.answer = some (.error .channelClosed)) ∧
      ∀ c, v.answer = some (.ok c) → ∃ i, w.reader.channels = some i ∧ i + 1 = w.loops.length ∧
        c ∈ ((w.step .read).run events).receivedBy i := by
  have hbegins : (w.step .read).visits[w.visits.length]? = some (.begin w.reader.channels) :=
    List.getElem?_concat_length
  obtain ⟨v, hv, hfollows⟩ := visits_run hbegins events
  have hlater := (h.step (commandLaw S format) .read).run (commandLaw S format) events
  refine ⟨v, hv, fun hw => ?_, fun c hc => ?_⟩
  · rw [h.channels_eq_none_iff.2 hw] at hfollows
    rw [hfollows.answer rfl]
    rfl
  · obtain ⟨i, hi, hmem⟩ := (hlater.visits v (List.mem_of_getElem? hv)).answer c hc
    have hinbox : w.reader.channels = some i := by
      rw [← hi, hfollows.inbox]
      cases w.reader.channels <;> rfl
    exact ⟨i, hinbox, h.eq_latest hinbox, List.mem_filterMap.2 ⟨_, hmem, rfl⟩⟩

theorem Sound.inStep (h : w.Orderly format) : w.InStep format where
  running_iff := by
    have hnone := h.channels_eq_none_iff
    cases hchannels : w.reader.channels with
    | none => simpa [hchannels] using hnone
    | some i => simpa [hchannels] using hnone
  latest _ := h.eq_latest
  start time asked reader hstart := by
    obtain ⟨-, -, hloops, hreader⟩ := Reader.of_start hstart w.stops w.joined
    rw [hloops, List.length_append]
    refine ⟨?_, rfl⟩
    rw [hreader, loops, Component.length_loops]
  kept _ hi e := h.channels_step hi e
  closed hw reportFirst := by rw [Reader.read, h.channels_eq_none_iff.2 hw]
  received := h.received
  fresh := h.fresh

/-- A reader that has just been made keeps its inbox in step, whatever is done with it. -/
theorem run_inStep (source : S) (format : WireFormat) (backoff : Backoff) (events : List Event) :
    ((opening source format backoff).run events).InStep format :=
  (orderly_run source format backoff events).inStep

end Audience

end CourierDispatch
