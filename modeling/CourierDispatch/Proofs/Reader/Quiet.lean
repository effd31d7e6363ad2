import CourierDispatch.Proofs.Reader.Channels

/-!
# What reports have no bearing on

While a reader is neither started nor stopped, its latest run hears its source at its own pace. The pace
is set by the moves of the loop and by the commands that are received from it; the reports that wait in
its inbox, that are taken out or dropped, change nothing about what the run hears.

`View` is a run without its reports, `Pulse` is what moves it. However reads come and go, a view goes on
as its pulses say.
-/

namespace CourierDispatch

namespace ConsumeLoop

/-- A loop without its report, and without what is noticed of it. -/
def quiet (l : ConsumeLoop) : ConsumeLoop :=
  { l with inbox := { l.inbox with report := none }, dropped := 0, notices := [] }

theorem quiet_receive_error (format : WireFormat) (backoff : Backoff) (time : Nat)
    (l : ConsumeLoop) (e : BrokerError) :
    (l.receive format backoff time (.error e)).quiet =
      { l.quiet with
        stage := .waiting (time + Backoff.timerMillis (backoff.delay l.failures))
        failures := countUp l.failures } := by
  rcases l with ⟨stage, failures, ⟨command, report, isOpen⟩, dropped, notices⟩
  cases report <;> rfl

theorem quiet_receive_of_decode_error {format : WireFormat} {m : Message} {e : CodecError}
    (h : decode format m = .error e) (backoff : Backoff) (time : Nat) (l : ConsumeLoop) :
    (l.receive format backoff time (.ok m)).quiet =
      { l.quiet with stage := .reading, failures := 0 } := by
  rcases l with ⟨stage, failures, ⟨command, report, isOpen⟩, dropped, notices⟩
  simp only [receive, h]
  cases report <;> rfl

theorem quiet_receive (format : WireFormat) (backoff : Backoff) (time : Nat) (l : ConsumeLoop)
    (x : Except BrokerError Message) :
    (l.quiet.receive format backoff time x).quiet = (l.receive format backoff time x).quiet := by
  cases x with
  | error e =>
      rw [quiet_receive_error, quiet_receive_error]
      rfl
  | ok m =>
      cases hm : decode format m with
      | error e =>
          rw [quiet_receive_of_decode_error hm, quiet_receive_of_decode_error hm]
          rfl
      | ok c =>
          rw [receive_of_decode_ok hm, receive_of_decode_ok hm]
          rfl

theorem hears_quiet {S : Type} [MessageSource S] (l : ConsumeLoop) (s : S) :
    l.quiet.hears s = l.hears s := rfl

/-- Loops that differ in their reports only go on to differ in their reports only. -/
theorem quiet_step {S : Type} [MessageSource S] (format : WireFormat) (backoff : Backoff)
    (time : Nat) (s : S) (l : ConsumeLoop) :
    (l.quiet.step format backoff time s).1 = (l.step format backoff time s).1 ∧
      ((l.quiet.step format backoff time s).2.getD l.quiet).quiet =
        ((l.step format backoff time s).2.getD l).quiet := by
  have hquiet : l.quiet.stage = l.stage := rfl
  unfold step
  rw [hquiet]
  cases l.stage with
  | exited => exact ⟨rfl, rfl⟩
  | reading =>
      rcases MessageSource.poll s with ⟨source, answer⟩
      cases answer with
      | none => exact ⟨rfl, rfl⟩
      | some x => exact ⟨rfl, quiet_receive format backoff time l x⟩
  | waiting due =>
      by_cases hdue : due ≤ time
      · simp only [if_pos hdue]
        exact ⟨trivial, rfl⟩
      · simp only [if_neg hdue]
        exact ⟨trivial, rfl⟩
  | sending c =>
      rcases l with ⟨stage, failures, ⟨command, report, isOpen⟩, dropped, notices⟩
      cases command <;> exact ⟨rfl, rfl⟩

/-- What is taken out of an inbox is its command, or nothing changes but the report. -/
theorem quiet_take (l : ConsumeLoop) (reportFirst : Bool) :
    quiet { l with inbox := (l.inbox.take reportFirst).1 } =
      match (l.inbox.take reportFirst).2 with
      | some (.ok _) => quiet { l with inbox := { l.inbox with command := none } }
      | _ => l.quiet := by
  rcases l with ⟨stage, failures, ⟨command, report, isOpen⟩, dropped, notices⟩
  cases command <;> cases report <;> cases isOpen <;> cases reportFirst <;> rfl

end ConsumeLoop

/-- A run without its reports: its source, its loop and what it has heard. -/
structure View (S : Type) where
  source : S
  loop : ConsumeLoop
  heard : List (Except BrokerError Message)

inductive Pulse
  | move (time : Nat)
  /-- A command is received from it. -/
  | received
deriving DecidableEq

def View.beat {S : Type} [MessageSource S] (format : WireFormat) (backoff : Backoff) (v : View S) :
    Pulse → View S
  | .move time =>
    { source := (v.loop.step format backoff time v.source).1
      loop := ((v.loop.step format backoff time v.source).2.getD v.loop).quiet
      heard := v.heard ++ v.loop.hears v.source }
  | .received => { v with loop := { v.loop with inbox := { v.loop.inbox with command := none } } }

namespace Audience

/-- A step that neither starts the reader nor stops it. -/
def Event.staysOn : Event → Bool
  | .move _ | .read | .take .. | .giveUp _ => true
  | .start .. | .stop | .join _ | .drop _ | .cancel | .exit => false

variable {S : Type} {w : Audience S} {i : Nat}

def view (w : Audience S) (i : Nat) : Option (View S) :=
  (w.loops[i]?).map fun l => ⟨w.reader.source, l.quiet, w.heardBy i⟩

/-- What a step means to a run. -/
def pulse? (w : Audience S) (i : Nat) : Event → Option Pulse
  | .move time => some (.move time)
  | .take k reportFirst =>
    if w.waitsAt? k = some i then
      match (w.reader.takeFrom i reportFirst).2 with
      | some (.ok _) => some .received
      | _ => none
    else none
  | _ => none

theorem view_setLoop (w' : Audience S) {source : S} {j : Nat} {l' : ConsumeLoop}
    (hreader : w'.reader = { w.reader with source, component := w.reader.component.setLoop j l' })
    (heard : List (Except BrokerError Message)) (hheard : w'.heard = w.heard ++ heard.map (Prod.mk j)) :
    w'.view i = (w.loops[i]?).map fun l =>
      if j = i then ⟨source, l'.quiet, w.heardBy i ++ heard⟩
      else ⟨source, l.quiet, w.heardBy i⟩ := by
  have hloops : w'.loops = w.loops.set j l' := by
    rw [loops, hreader]
    exact Component.loops_setLoop _ _ _
  rw [view, hloops, heardBy, hheard, RunLog.of_append, List.getElem?_set', hreader]
  by_cases hij : j = i
  · subst hij
    rw [RunLog.of_tagged_self]
    cases w.loops[j]? <;> simp [heardBy]
  · rw [RunLog.of_tagged_ne hij]
    cases w.loops[i]? <;> simp [hij, heardBy]

theorem reader_take {k j : Nat} (hk : w.waitsAt? k = some j) (reportFirst : Bool) :
    (w.take k reportFirst).reader = (w.reader.takeFrom j reportFirst).1 ∧
      (w.take k reportFirst).heard = w.heard := by
  simp only [Audience.take, hk]
  cases htake : w.reader.takeFrom j reportFirst with
  | mk reader answer => cases answer <;> exact ⟨rfl, rfl⟩

variable [MessageSource S]

def pulses (w : Audience S) (i : Nat) : List Event → List Pulse
  | [] => []
  | e :: events => (w.pulse? i e).toList ++ (w.step e).pulses i events

theorem view_move (hi : i + 1 = w.loops.length) {v : View S} (hv : w.view i = some v) (time : Nat) :
    (w.step (.move time)).view i = some (v.beat w.reader.format w.reader.backoff (.move time)) := by
  obtain ⟨l, hl, rfl⟩ := Option.map_eq_some_iff.1 hv
  obtain ⟨r, hlatest⟩ : ∃ r, w.reader.component.latest? = some r := by
    cases hlatest : w.reader.component.latest? with
    | some r => exact ⟨r, rfl⟩
    | none =>
        rw [Component.latest?, List.getLast?_eq_none_iff] at hlatest
        rw [loops, Component.loops, hlatest] at hi
        cases hi
  obtain ⟨hr, hlast⟩ := getElem?_loops_latest hlatest
  have hindex : w.loops.length - 1 = i := by omega
  rw [hindex, hl] at hr
  cases hr
  have hhears : w.hears = r.loop.hears w.reader.source := by rw [hears, hlatest]
  have hlength : w.reader.component.runs.length = w.loops.length := w.reader.component.length_loops.symm
  have hset := view_setLoop (w := w) (i := i) (w.step (.move time))
    (j := w.reader.component.runs.length - 1) (Reader.step_of_latest? hlatest time)
    (r.loop.hears w.reader.source) (by rw [hlength, ← hhears]; rfl)
  rw [hset, hl, hlength, hindex]
  obtain ⟨hsource, hloop⟩ :=
    r.loop.quiet_step w.reader.format w.reader.backoff time w.reader.source
  simp only [Option.map_some, if_pos, View.beat, hsource, hloop, ConsumeLoop.hears_quiet]

/-- A read that takes something out of an inbox moves its run if it gets a command. -/
theorem view_take {v : View S} (hv : w.view i = some v) (k : Nat) (reportFirst : Bool) :
    (w.take k reportFirst).view i =
      some ((w.pulse? i (.take k reportFirst)).elim v
        (v.beat w.reader.format w.reader.backoff)) := by
  obtain ⟨l, hl, rfl⟩ := Option.map_eq_some_iff.1 hv
  cases hk : w.waitsAt? k with
  | none =>
      have htake : w.take k reportFirst = w := by rw [Audience.take, hk]
      have hpulse : w.pulse? i (.take k reportFirst) = none := by simp [pulse?, hk]
      rw [htake, hpulse]
      exact hv
  | some j =>
      obtain ⟨hreader, hheard⟩ := reader_take hk reportFirst
      cases hj : w.loops[j]? with
      | none =>
          have hij : j ≠ i := by
            rintro rfl
            rw [hl] at hj
            cases hj
          have hsame : (w.reader.takeFrom j reportFirst).1 = w.reader := by
            unfold loops Component.loops at hj
            rw [List.getElem?_map] at hj
            simp [Reader.takeFrom, Reader.loop?, Option.map_eq_none_iff.1 hj]
          have hpulse : w.pulse? i (.take k reportFirst) = none := by simp [pulse?, hk, hij]
          rw [hpulse, view, loops, heardBy, hheard, hreader, hsame]
          exact hv
      | some l' =>
          have htake := Reader.takeFrom_of_loops hj reportFirst
          have hset := view_setLoop (i := i) (w.take k reportFirst)
            (hreader.trans (congrArg Prod.fst htake)) [] (by simp [hheard])
          rw [hset, hl, List.append_nil, Option.map_some, Option.some_inj]
          by_cases hij : j = i
          · subst hij
            rw [hl] at hj
            cases hj
            have hpulse : w.pulse? j (.take k reportFirst) =
                match (l.inbox.take reportFirst).2 with
                | some (.ok _) => some .received
                | _ => none := by
              rw [pulse?, if_pos hk, htake]
            rw [if_pos rfl, l.quiet_take reportFirst, hpulse]
            cases (l.inbox.take reportFirst).2 with
            | none => rfl
            | some a => cases a <;> rfl
          · have hpulse : w.pulse? i (.take k reportFirst) = none := by simp [pulse?, hk, hij]
            rw [if_neg hij, hpulse]
            rfl

theorem view_step (hi : i + 1 = w.loops.length) {v : View S} (hv : w.view i = some v) {e : Event}
    (he : e.staysOn = true) :
    (w.step e).view i =
      some ((w.pulse? i e).elim v (v.beat w.reader.format w.reader.backoff)) := by
  cases e with
  | move time => exact view_move hi hv time
  | read => exact hv
  | take k reportFirst => exact view_take hv k reportFirst
  | giveUp k =>
      simp only [Audience.step, Audience.giveUp]
      split <;> exact hv
  | start | stop | join | drop | cancel | exit => cases he

theorem staysOn_step {e : Event} (he : e.staysOn = true) :
    (w.step e).loops.length = w.loops.length ∧ (w.step e).reader.format = w.reader.format ∧
      (w.step e).reader.backoff = w.reader.backoff := by
  cases e with
  | move time =>
      simp only [Audience.step]
      cases hlatest : w.reader.component.latest? with
      | none =>
          rw [show (w.reader.step time).1 = w.reader by rw [Reader.step, hlatest]]
          exact ⟨rfl, rfl, rfl⟩
      | some r =>
          rw [Reader.step_of_latest? hlatest]
          refine ⟨?_, rfl, rfl⟩
          rw [loops, loops, Component.loops_setLoop, List.length_set]
  | read => exact ⟨rfl, rfl, rfl⟩
  | take k reportFirst =>
      simp only [Audience.step]
      cases hk : w.waitsAt? k with
      | none =>
          rw [Audience.take, hk]
          exact ⟨rfl, rfl, rfl⟩
      | some j =>
          rw [loops, (reader_take hk reportFirst).1, Reader.takeFrom]
          split
          next => exact ⟨rfl, rfl, rfl⟩
          next => exact ⟨by simp [loops, Component.loops], rfl, rfl⟩
  | giveUp k =>
      simp only [Audience.step, Audience.giveUp]
      split <;> exact ⟨rfl, rfl, rfl⟩
  | start | stop | join | drop | cancel | exit => cases he

theorem view_run (hi : i + 1 = w.loops.length) {v : View S} (hv : w.view i = some v)
    {events : List Event} (hevents : ∀ e ∈ events, e.staysOn = true) :
    (w.run events).view i =
      some ((w.pulses i events).foldl (View.beat w.reader.format w.reader.backoff) v) := by
  induction events generalizing w v with
  | nil => exact hv
  | cons e events ih =>
      obtain ⟨he, hevents⟩ := List.forall_mem_cons.1 hevents
      obtain ⟨hlength, hformat, hbackoff⟩ := staysOn_step (w := w) he
      have hrest := ih (hi.trans hlength.symm) (view_step hi hv he) hevents
      rw [hformat, hbackoff] at hrest
      rw [pulses, List.foldl_append]
      change ((w.step e).run events).view i = _
      rw [hrest]
      cases w.pulse? i e <;> rfl

/-- The latest run hears the same, whatever becomes of the reports, if its pulses are the same. -/
theorem heardBy_of_pulses (hi : i + 1 = w.loops.length) {events events' : List Event}
    (hevents : ∀ e ∈ events, e.staysOn = true) (hevents' : ∀ e ∈ events', e.staysOn = true)
    (hpulses : w.pulses i events = w.pulses i events') :
    (w.run events).heardBy i = (w.run events').heardBy i := by
  obtain ⟨l, hl⟩ : ∃ l, w.loops[i]? = some l :=
    ⟨_, List.getElem?_eq_getElem (by omega)⟩
  have hv : w.view i = some ⟨w.reader.source, l.quiet, w.heardBy i⟩ := by rw [view, hl]; rfl
  have hrun := view_run hi hv hevents
  have hrun' := view_run hi hv hevents'
  rw [hpulses] at hrun
  obtain ⟨m, -, hm⟩ := Option.map_eq_some_iff.1 hrun
  obtain ⟨m', -, hm'⟩ := Option.map_eq_some_iff.1 hrun'
  exact congrArg View.heard (hm.trans hm'.symm)

end Audience

end CourierDispatch
