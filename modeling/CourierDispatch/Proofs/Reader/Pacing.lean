import CourierDispatch.Proofs.Pacing
import CourierDispatch.Proofs.Reader.ConsumeLoop

/-!
# How long a consume loop waits

A consume loop waits after each read that fails. It counts how many have failed since it has last heard
a message, or since it began, and the count decides how long it waits. It rests at no other time. All
this is so whatever becomes of its source and of its inbox, and at whatever times it has its turns.
-/

namespace CourierDispatch

namespace ConsumeLoop

variable {S : Type} [MessageSource S]

/-- A message ends a streak of failures, also one that holds no command. -/
def effect : Except BrokerError Message → Effect
  | .ok _ => .clears
  | .error _ => .fails

def pace (l : ConsumeLoop) : Pace :=
  match l.stage with
  | .waiting due => .waiting due
  | .exited => .ended
  | _ => .awake

def isReading (l : ConsumeLoop) : Bool :=
  match l.stage with
  | .reading => true
  | _ => false

def isWaiting (l : ConsumeLoop) : Bool :=
  match l.stage with
  | .waiting _ => true
  | _ => false

def heard? (source : S) (l : ConsumeLoop) : Option (Except BrokerError Message) :=
  match l.stage with
  | .reading => (MessageSource.poll source).2
  | _ => none

/-- What a turn of a loop shows: what it hears, and then whether it asks, or whether it goes on
waiting. -/
def moments (format : WireFormat) (backoff : Backoff) (time : Nat) (source : S) (l : ConsumeLoop) :
    List (Moment (Except BrokerError Message)) :=
  let next? := (l.step format backoff time source).2
  Moment.ofTurn time (l.heard? source) (next?.isNone && l.isWaiting) (next?.any isReading)

theorem failures_report (l : ConsumeLoop) (e : ReadError) : (l.report e).failures = l.failures := by
  unfold report
  split <;> rfl

variable {format : WireFormat} {backoff : Backoff} {time : Nat}

theorem beats_failure (format : WireFormat) (l : ConsumeLoop) (e : BrokerError) :
    Moment.Beats effect backoff l.failures .awake
      (Moment.ofTurn time (some (.error e)) false (l.receive format backoff time (.error e)).isReading)
      (l.receive format backoff time (.error e)).failures
      (l.receive format backoff time (.error e)).pace := by
  have hfailures : (l.receive format backoff time (.error e)).failures = countUp l.failures :=
    failures_report _ _
  rw [hfailures]
  exact .next .none (.fails rfl)

/-- A message makes the loop forget the failures. If it holds no command the loop asks at once. -/
theorem beats_message (format : WireFormat) (l : ConsumeLoop) (m : Message) :
    Moment.Beats effect backoff l.failures .awake
      (Moment.ofTurn time (some (.ok m)) false (l.receive format backoff time (.ok m)).isReading)
      (l.receive format backoff time (.ok m)).failures
      (l.receive format backoff time (.ok m)).pace := by
  have hheard : Moment.Beats effect backoff l.failures .awake [.hears time (.ok m)] 0 .awake :=
    .next .none (.clears rfl)
  cases hm : decode format m with
  | ok c =>
      rw [receive_of_decode_ok hm]
      exact hheard
  | error e =>
      have hfailures : (l.receive format backoff time (.ok m)).failures = 0 := by
        unfold receive
        dsimp only
        rw [hm]
        exact failures_report _ _
      rw [hfailures, pace, isReading, (receive_of_decode_error hm backoff time l).1]
      exact hheard.next (.asks nofun nofun)

/-- A turn keeps count of the failures, and waits after each of them. -/
theorem beats_step (source : S) (l : ConsumeLoop) :
    Moment.Beats effect backoff l.failures l.pace (l.moments format backoff time source)
      ((l.step format backoff time source).2.getD l).failures
      ((l.step format backoff time source).2.getD l).pace := by
  rcases l with ⟨stage, failures, inbox, dropped, notices⟩
  cases stage with
  | exited => exact .none
  | waiting due =>
      by_cases hdue : due ≤ time
      · simp only [moments, step, if_pos hdue]
        refine .next .none (.asks nofun fun due' h => ?_)
        cases h
        exact hdue
      · simp only [moments, step, if_neg hdue]
        exact .next .none (.rests hdue)
  | sending c =>
      simp only [moments, step]
      cases inbox.send? c with
      | none => exact .none
      | some inbox => exact .next .none (.asks nofun nofun)
  | reading =>
      simp only [moments, heard?, step]
      cases (MessageSource.poll source).2 with
      | none => exact .none
      | some answer =>
          cases answer with
          | error e => exact beats_failure format ⟨.reading, failures, inbox, dropped, notices⟩ e
          | ok m => exact beats_message format ⟨.reading, failures, inbox, dropped, notices⟩ m

theorem moments_of_waiting {l : ConsumeLoop} {due : Nat} (h : l.pace = .waiting due) (source : S) :
    l.moments format backoff time source = [if due ≤ time then .asks time else .rests time] := by
  rcases l with ⟨stage, failures, inbox, dropped, notices⟩
  cases stage with
  | waiting due' =>
      cases h
      by_cases hdue : due ≤ time
      · simp only [moments, step, if_pos hdue]
        rfl
      · simp only [moments, step, if_neg hdue]
        rfl
  | reading => cases h
  | sending => cases h
  | exited => cases h

end ConsumeLoop

structure WatchedReader (S : Type) where
  source : S
  loop : ConsumeLoop
  log : List (Moment (Except BrokerError Message)) := []

namespace WatchedReader

inductive Event (S : Type)
  | turn (time : Nat)
  | source (s : S)
  /-- Something is taken out of the inbox, or it is closed. -/
  | inbox (i : Inbox)
  | ends

variable {S : Type} [MessageSource S] (format : WireFormat) (backoff : Backoff)

def step (w : WatchedReader S) : Event S → WatchedReader S
  | .turn time =>
    let (source, loop?) := w.loop.step format backoff time w.source
    ⟨source, loop?.getD w.loop, w.loop.moments format backoff time w.source ++ w.log⟩
  | .source source => { w with source }
  | .inbox inbox => { w with loop := { w.loop with inbox } }
  | .ends => { w with loop := w.loop.exit }

def run (w : WatchedReader S) (events : List (Event S)) : WatchedReader S :=
  events.foldl (step format backoff) w

def InPace (w : WatchedReader S) : Prop :=
  Moment.InPace ConsumeLoop.effect backoff w.log w.loop.failures w.loop.pace

variable {format backoff} {w : WatchedReader S}

theorem InPace.step (h : w.InPace backoff) (e : Event S) : (w.step format backoff e).InPace backoff := by
  cases e with
  | turn time => exact Moment.InPace.beats h (w.loop.beats_step w.source)
  | source => exact h
  | inbox => exact h
  | ends => exact Moment.InPace.beats h (.ends .none)

theorem InPace.run (h : w.InPace backoff) (events : List (Event S)) :
    (w.run format backoff events).InPace backoff := by
  induction events generalizing w with
  | nil => exact h
  | cons e events ih => exact ih (h.step e)

/-- Every wait of a consume loop is as long as the failures before it say, whatever has happened since
the loop began. -/
theorem run_punctual (format : WireFormat) (backoff : Backoff) (source : S) (time : Nat)
    (events : List (Event S)) :
    let w := run format backoff ⟨source, .begin time, []⟩ events
    Moment.Punctual ConsumeLoop.effect backoff w.log (w.loop.pace = .ended)
      fun time => (w.step format backoff (.turn time)).log := by
  intro w
  have h : w.InPace backoff :=
    InPace.run (w := ⟨source, .begin time, []⟩) Moment.inPace_nil events
  refine Moment.InPace.punctual h fun due hdue time => ?_
  change w.loop.moments format backoff time w.source ++ w.log = _
  rw [ConsumeLoop.moments_of_waiting hdue]
  rfl

end WatchedReader

end CourierDispatch
