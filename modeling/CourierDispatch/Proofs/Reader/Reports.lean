import CourierDispatch.Proofs.Reader.Quiet
import Mathlib.Algebra.GroupWithZero.Nat

/-!
# What becomes of the failures of a reader

Each failure of a source is reported once: its errors, and its messages that hold no command. A report is
kept in the inbox until it is taken out, or it is dropped and counted, if another one is there. So the
failures that a run has heard are those that reads have brought, in this order, then the one that still
waits in the inbox, and in between those that were dropped.
-/

namespace CourierDispatch

inductive Fate
  | kept
  | dropped
deriving DecidableEq

def reported? : Except ReadError Command → Option ReadError
  | .error (.decode p o e) => some (.decode p o e)
  | .error (.transport e) => some (.transport e)
  | .error .cancelled | .error .channelClosed | .ok _ => none

theorem Inbox.toList_report_take {i : Inbox} (h : ∀ e, i.report = some e → reported? (.error e) = some e)
    (reportFirst : Bool) :
    ((i.take reportFirst).2.bind reported?).toList ++ (i.take reportFirst).1.report.toList =
      i.report.toList := by
  rcases i with ⟨command, report, isOpen⟩
  cases report with
  | none => cases command <;> cases isOpen <;> rfl
  | some e =>
      have he := h e rfl
      have hclosed : reported? (.error .channelClosed) = none := rfl
      have hcommand (c : Command) : reported? (.ok c) = none := rfl
      cases command <;> cases isOpen <;> cases reportFirst <;>
        simp [Inbox.take, he, hclosed, hcommand]

namespace ConsumeLoop

/-- What is reported of something that a source gives, if it is a failure. -/
def failure? (format : WireFormat) : Except BrokerError Message → Option ReadError
  | .error e => some (.transport e)
  | .ok m =>
    match decode format m with
    | .ok _ => none
    | .error e => some (.decode m.partition m.offset e)

theorem reported?_of_failure? {format : WireFormat} {x : Except BrokerError Message} {e : ReadError}
    (h : failure? format x = some e) : reported? (.error e) = some e := by
  unfold failure? at h
  split at h
  next => cases h; rfl
  next =>
    split at h
    next => cases h
    next => cases h; rfl

theorem report_report (l : ConsumeLoop) (e : ReadError) :
    (l.report e).inbox.report = some (l.inbox.report.getD e) := by
  rw [inbox_report]

theorem dropped_report (l : ConsumeLoop) (e : ReadError) :
    (l.report e).dropped = l.dropped + if l.inbox.report.isSome then 1 else 0 := by
  rcases l with ⟨stage, failures, ⟨command, report, isOpen⟩, dropped, notices⟩
  cases report <;> rfl

theorem reports_receive (format : WireFormat) (backoff : Backoff) (time : Nat) (l : ConsumeLoop)
    (x : Except BrokerError Message) :
    (l.receive format backoff time x).inbox.report = l.inbox.report.or (failure? format x) ∧
      (l.receive format backoff time x).dropped =
        l.dropped + if l.inbox.report.isSome ∧ (failure? format x).isSome then 1 else 0 := by
  cases x with
  | error e =>
      simp only [receive, failure?]
      rw [report_report, dropped_report]
      cases hreport : l.inbox.report <;> simp [note, hreport]
  | ok m =>
      cases hm : decode format m with
      | ok c =>
          rw [receive_of_decode_ok hm]
          simp [failure?, hm]
      | error e =>
          simp only [receive, failure?, hm]
          simp only [ask, note]
          rw [report_report, dropped_report]
          cases l.inbox.report <;> simp

/-- A move reports what it hears, if that is a failure, and nothing else. -/
theorem reports_step {S : Type} [MessageSource S] (format : WireFormat) (backoff : Backoff)
    (time : Nat) (s : S) (l : ConsumeLoop) :
    ∃ failed : Option ReadError, (l.hears s).filterMap (failure? format) = failed.toList ∧
      ((l.step format backoff time s).2.getD l).inbox.report = l.inbox.report.or failed ∧
      ((l.step format backoff time s).2.getD l).dropped =
        l.dropped + if l.inbox.report.isSome ∧ failed.isSome then 1 else 0 := by
  unfold step hears
  cases l.stage with
  | exited => exact ⟨none, rfl, by simp⟩
  | reading =>
      rcases MessageSource.poll s with ⟨source, answer⟩
      cases answer with
      | none => exact ⟨none, rfl, by simp⟩
      | some x =>
          refine ⟨failure? format x, ?_, reports_receive format backoff time l x⟩
          cases hx : failure? format x <;> simp [hx]
  | waiting due => by_cases hdue : due ≤ time <;> exact ⟨none, rfl, by simp [hdue, ask, note]⟩
  | sending c =>
      refine ⟨none, rfl, ?_⟩
      simp only [Inbox.send?]
      cases l.inbox.command <;> simp [ask, note]

/-- What has become of the failures that a loop has heard. -/
structure Reported (format : WireFormat) (l : ConsumeLoop)
    (heard : List (Except BrokerError Message)) (answers : List (Except ReadError Command))
    (fates : List (ReadError × Fate)) : Prop where
  all : fates.map Prod.fst = heard.filterMap (failure? format)
  kept : (fates.filter (·.2 = .kept)).map Prod.fst =
    answers.filterMap reported? ++ l.inbox.report.toList
  dropped : (fates.filter (·.2 = .dropped)).length = l.dropped

theorem Reported.waiting {format : WireFormat} {l : ConsumeLoop}
    {heard : List (Except BrokerError Message)} {answers : List (Except ReadError Command)}
    {fates : List (ReadError × Fate)} (h : l.Reported format heard answers fates) (e : ReadError)
    (he : l.inbox.report = some e) : reported? (.error e) = some e := by
  have hkept : e ∈ (fates.filter (·.2 = .kept)).map Prod.fst := by
    rw [h.kept, he]
    exact List.mem_append_right _ (List.mem_singleton_self e)
  obtain ⟨⟨e', fate⟩, hmem, rfl⟩ := List.mem_map.1 hkept
  have hall : e' ∈ heard.filterMap (failure? format) :=
    h.all ▸ List.mem_map_of_mem (List.mem_filter.1 hmem).1
  obtain ⟨x, -, hx⟩ := List.mem_filterMap.1 hall
  exact reported?_of_failure? hx

/-- Every failure that is heard is kept or dropped. -/
theorem reportLaw (S : Type) [MessageSource S] (format : WireFormat) :
    Law S format fun l heard answers => ∃ fates, l.Reported format heard answers fates where
  begin time := ⟨[], rfl, rfl, rfl⟩
  step {l heard answers} h backoff time s := by
    obtain ⟨fates, h⟩ := h
    obtain ⟨failed, hfailed, hreport, hdropped⟩ := l.reports_step format backoff time s
    cases failed with
    | none =>
        refine ⟨fates, ?_, ?_, ?_⟩
        · rw [List.filterMap_append, hfailed, h.all, Option.toList_none, List.append_nil]
        · rw [hreport, h.kept, Option.or_none]
        · rw [hdropped, h.dropped]
          simp
    | some e =>
        cases hwaiting : l.inbox.report with
        | none =>
            refine ⟨fates ++ [(e, .kept)], ?_, ?_, ?_⟩
            · rw [List.filterMap_append, hfailed, List.map_append, h.all]
              rfl
            · rw [hreport, List.filter_append, List.map_append, h.kept, hwaiting]
              simp
            · rw [hdropped, List.filter_append, List.length_append, h.dropped, hwaiting]
              simp
        | some e' =>
            refine ⟨fates ++ [(e, .dropped)], ?_, ?_, ?_⟩
            · rw [List.filterMap_append, hfailed, List.map_append, h.all]
              rfl
            · rw [hreport, List.filter_append, List.map_append, h.kept, hwaiting]
              simp
            · rw [hdropped, List.filter_append, List.length_append, h.dropped, hwaiting]
              simp
  exit h := by
    obtain ⟨fates, h⟩ := h
    exact ⟨fates, h.all, h.kept, h.dropped⟩
  take {l heard answers} h reportFirst := by
    obtain ⟨fates, h⟩ := h
    refine ⟨fates, h.all, ?_, h.dropped⟩
    have hanswer : (l.inbox.take reportFirst).2.toList.filterMap reported? =
        ((l.inbox.take reportFirst).2.bind reported?).toList := by
      cases (l.inbox.take reportFirst).2 with
      | none => rfl
      | some a => cases ha : reported? a <;> simp [ha]
    rw [h.kept, List.filterMap_append, hanswer, List.append_assoc,
      Inbox.toList_report_take h.waiting]

end ConsumeLoop

/-! The count of dropped reports. -/

theorem sum_set {xs : List Nat} {i x : Nat} (h : xs[i]? = some x) (y : Nat) :
    (xs.set i y).sum + x = xs.sum + y := by
  induction xs generalizing i with
  | nil => cases h
  | cons z zs ih =>
      cases i with
      | zero =>
          cases h
          simp only [List.set_cons_zero, List.sum_cons]
          omega
      | succ i =>
          have hzs := ih (i := i) h
          simp only [List.set_cons_succ, List.sum_cons]
          omega

namespace Reader

variable {S : Type} {r q : Reader S}

theorem dropped_eq_sum (r : Reader S) : r.dropped = (r.component.loops.map (·.dropped)).sum := by
  rw [dropped, List.sum_eq_foldl, Component.loops, List.map_map]
  rfl

theorem dropped_of_loops (h : q.component.loops = r.component.loops) : q.dropped = r.dropped := by
  rw [dropped_eq_sum, dropped_eq_sum, h]

theorem dropped_of_setLoop {i : Nat} {l l' : ConsumeLoop} (hl : r.component.loops[i]? = some l)
    (h : q.component = r.component.setLoop i l') : q.dropped + l.dropped = r.dropped + l'.dropped := by
  rw [dropped_eq_sum, dropped_eq_sum, h, Component.loops_setLoop, List.map_set]
  refine sum_set ?_ _
  rw [List.getElem?_map, hl]
  rfl

theorem dropped_exit (r : Reader S) : (r.exit.getD r).dropped = r.dropped := by
  unfold exit
  split
  next l hlatest =>
    split
    next => rfl
    next =>
      have hset := dropped_of_setLoop (q := { r with component := r.component.setLatest l.exit })
        (Component.getElem?_loops_of_latest? hlatest) rfl
      exact Nat.add_right_cancel hset
  next => rfl

theorem dropped_takeFrom (r : Reader S) (i : Nat) (reportFirst : Bool) :
    (r.takeFrom i reportFirst).1.dropped = r.dropped := by
  cases hl : r.component.loops[i]? with
  | none =>
      rw [Component.loops, List.getElem?_map, Option.map_eq_none_iff] at hl
      simp [takeFrom, loop?, hl]
  | some l =>
      have hset := dropped_of_setLoop hl (congrArg (·.1.component) (takeFrom_of_loops hl reportFirst))
      exact Nat.add_right_cancel hset

/-- A move drops a report if there is one in the inbox already, and then it counts it. -/
theorem dropped_step [MessageSource S] (r : Reader S) (time : Nat) :
    (r.step time).1.dropped = r.dropped ∨
      ∃ run, r.component.latest? = some run ∧ run.loop.inbox.report.isSome ∧
        (r.step time).1.dropped = r.dropped + 1 := by
  cases hlatest : r.component.latest? with
  | none =>
      left
      rw [Reader.step, hlatest]
  | some run =>
      have hset := dropped_of_setLoop (q := (r.step time).1)
        (Component.getElem?_loops_of_latest? hlatest)
        (congrArg (·.component) (step_of_latest? hlatest time))
      obtain ⟨failed, -, -, hdropped⟩ :=
        run.loop.reports_step r.format r.backoff time r.source
      rw [hdropped] at hset
      split at hset
      next h => exact .inr ⟨run, rfl, h.1, by omega⟩
      next => exact .inl (by omega)

end Reader

namespace Audience

variable {S : Type} [MessageSource S] {format : WireFormat} {w : Audience S}

/-- A report is dropped only by a move of the latest loop, and only when its inbox holds one. -/
theorem dropped_step (w : Audience S) (e : Event) :
    (w.step e).reader.dropped = w.reader.dropped ∨
      ∃ time run, e = .move time ∧ w.reader.component.latest? = some run ∧
        run.loop.inbox.report.isSome ∧ (w.step e).reader.dropped = w.reader.dropped + 1 := by
  cases e with
  | move time =>
      refine (w.reader.dropped_step time).imp_right ?_
      rintro ⟨run, hlatest, hreport, hdropped⟩
      exact ⟨time, run, rfl, hlatest, hreport, hdropped⟩
  | start time asked =>
      left
      simp only [Audience.step]
      split
      next reader hstart =>
        obtain ⟨-, -, hloops, -⟩ := Reader.of_start hstart w.stops w.joined
        rw [Reader.dropped_eq_sum, Reader.dropped_eq_sum, hloops, List.map_append, List.sum_append]
        rfl
      next => rfl
  | stop =>
      left
      simp only [Audience.step]
      split
      next i reader hclaim =>
        obtain ⟨-, -, -, hloops, -⟩ := Reader.of_claim hclaim w.stops w.joined
        exact Reader.dropped_of_loops hloops
      next => rfl
  | join k =>
      left
      simp only [Audience.step]
      split
      next c _ hjoin =>
        obtain ⟨i, e, -, -, rfl, -⟩ := Callers.exists_of_join hjoin
        rfl
      next => rfl
  | drop k =>
      left
      simp only [Audience.step, Callers.drop]
      split <;> rfl
  | cancel => exact .inl (Reader.dropped_of_loops (Component.loops_askAll _))
  | exit => exact .inl (Reader.dropped_exit _)
  | read => exact .inl rfl
  | take k reportFirst =>
      left
      simp only [Audience.step]
      cases hk : w.waitsAt? k with
      | none => rw [Audience.take, hk]
      | some i =>
          rw [(reader_take hk reportFirst).1]
          exact w.reader.dropped_takeFrom i reportFirst
  | giveUp k =>
      left
      simp only [Audience.step, Audience.giveUp]
      split <;> rfl

theorem script_step (w : Audience Script) (e : Event) :
    (w.step e).heard.map Prod.snd ++ (w.step e).reader.source.rest =
      w.heard.map Prod.snd ++ w.reader.source.rest := by
  cases e with
  | move time =>
      simp only [Audience.step]
      rw [List.map_append, RunLog.map_snd_tagged, List.append_assoc]
      congr 1
      cases hlatest : w.reader.component.latest? with
      | none => rw [hears, Reader.step, hlatest]; rfl
      | some run =>
          rw [hears, Reader.step_of_latest? hlatest, hlatest]
          dsimp only
          rw [← ConsumeLoop.heard_eq_hears]
          exact run.loop.rest_step _ _ _ _
  | start time asked =>
      simp only [Audience.step]
      split
      next reader hstart =>
        obtain ⟨-, -, -, hreader⟩ := Reader.of_start hstart w.stops w.joined
        rw [hreader]
      next => rfl
  | stop =>
      simp only [Audience.step]
      split
      next i reader hclaim =>
        obtain ⟨-, -, -, -, hreader⟩ := Reader.of_claim hclaim w.stops w.joined
        rw [hreader]
      next => rfl
  | join k =>
      simp only [Audience.step]
      split <;> rfl
  | drop k => rfl
  | cancel => rfl
  | exit =>
      simp only [Audience.step, Reader.exit]
      split
      next => split <;> rfl
      next => rfl
  | read => rfl
  | take k reportFirst =>
      simp only [Audience.step]
      cases hk : w.waitsAt? k with
      | none => rw [Audience.take, hk]
      | some i =>
          obtain ⟨hreader, hheard⟩ := reader_take hk reportFirst
          rw [hreader, hheard, Reader.takeFrom]
          split <;> rfl
  | giveUp k =>
      simp only [Audience.step, Audience.giveUp]
      split <;> rfl

theorem script_run (w : Audience Script) (events : List Event) :
    (w.run events).heard.map Prod.snd ++ (w.run events).reader.source.rest =
      w.heard.map Prod.snd ++ w.reader.source.rest := by
  induction events generalizing w with
  | nil => rfl
  | cons e events ih => exact (ih (w.step e)).trans (script_step w e)

/-- What becomes of the failures of a script, and of its commands. -/
structure Accountable (script : List (Except BrokerError Message)) (format : WireFormat)
    (w : Audience Script) : Prop where
  /-- The runs hear the script from its beginning on, one run after the other. -/
  heard : w.heard.map Prod.snd <+: script
  inOrder : w.heard.Pairwise fun e e' => e.1 ≤ e'.1
  /-- Until a run is asked to end, each failure that it has heard was brought by a read, waits in the
  inbox, or was dropped and counted. -/
  reported : ∀ (i : Nat) (l : ConsumeLoop), w.reader.component.runs[i]? = some ⟨false, l⟩ →
    ∃ fates, l.Reported format (w.heardBy i) (w.answersOf i) fates
  /-- The count of dropped reports goes up by one if there is a report in the inbox, or not at all. -/
  full : ∀ e, (w.step e).reader.dropped = w.reader.dropped ∨
    ∃ time run, e = .move time ∧ w.reader.component.latest? = some run ∧
      run.loop.inbox.report.isSome ∧ (w.step e).reader.dropped = w.reader.dropped + 1
  /-- The commands that a run has heard are offered to its inbox, one after the other. -/
  offered : ∀ i l, w.loops[i]? = some l → l.hasExited = false →
    w.decodedBy format i = w.receivedBy i ++ (l.inbox.command.toList ++ l.blocked.toList)
  /-- While the reader is neither started nor stopped, the commands that are offered depend on when
  the loop moves and when commands are received, and not on the reports. -/
  free : ∀ i events events', i + 1 = w.loops.length → (∀ e ∈ events, e.staysOn = true) →
    (∀ e ∈ events', e.staysOn = true) → w.pulses i events = w.pulses i events' →
    (w.run events).decodedBy format i = (w.run events').decodedBy format i

/-- Whatever its users do, a reader of a script accounts for the failures in it. -/
theorem run_accountable (script : List (Except BrokerError Message)) (format : WireFormat)
    (backoff : Backoff) (events : List Event) :
    ((opening ⟨script⟩ format backoff).run events).Accountable script format where
  heard := ⟨_, script_run (opening ⟨script⟩ format backoff) events⟩
  inOrder := (orderly_run _ format backoff events).heard.sorted
  reported i l hl := by
    have hsound := (sound_opening (⟨script⟩ : Script) format backoff _).run
      (ConsumeLoop.reportLaw Script format) events
    refine hsound.laws i l ?_
    rw [loops, Component.loops, List.getElem?_map, hl]
    rfl
  full := dropped_step _
  offered i l hl := ((orderly_run _ format backoff events).laws i l hl).eq_of_hasExited
  free i _ _ hi hevents hevents' hpulses := by
    rw [decodedBy, decodedBy, heardBy_of_pulses hi hevents hevents' hpulses]

end Audience

end CourierDispatch
