import CourierDispatch.Proofs.Pacing
import CourierDispatch.Proofs.Processor.Moves
import CourierDispatch.Proofs.Reader.Pacing

/-!
# How long a dispatch loop waits

A dispatch loop waits after each read that finds the reader stopped. It counts how many have done so since
it has last heard a command, or since it began, and the count decides how long it waits. Other errors
leave the count alone and make it wait for nothing. All this is so whatever becomes of the reader and of
the writer.
-/

namespace CourierDispatch

namespace DispatchLoop

variable {H W : Type}

/-- Only a command ends a streak of failures, and only a reader that is stopped makes it longer. -/
def effect : Except ReadError Command → Effect
  | .ok _ => .clears
  | .error .channelClosed => .fails
  | .error _ => .passes

def pace (l : DispatchLoop H W) : Pace :=
  match l.stage with
  | .idling due => .waiting due
  | .exited => .ended
  | _ => .awake

def isAsking (l : DispatchLoop H W) : Bool :=
  match l.stage with
  | .next => true
  | _ => false

def isIdling (l : DispatchLoop H W) : Bool :=
  match l.stage with
  | .idling _ => true
  | _ => false

variable {b : Backoff} {count time : Nat} {l : DispatchLoop H W}

/-- A turn at which nothing is heard leaves the count alone, whether or not the loop goes on to the next
read. -/
theorem beats_quiet (asks : Bool) :
    Moment.Beats effect b count .awake (Moment.ofTurn time none false asks) count .awake := by
  cases asks with
  | false => exact .none
  | true => exact .next .none (.asks nofun nofun)

/-- What a read brings instead of a command makes the loop wait if the reader is stopped. -/
theorem beats_readFailed (e : ReadError) :
    Moment.Beats effect b l.idle .awake
      (Moment.ofTurn time (some (.error e)) false (l.readFailed b time e).isAsking)
      (l.readFailed b time e).idle (l.readFailed b time e).pace := by
  cases e with
  | channelClosed =>
      -- only the first of a streak is noted
      have hidle : (l.readFailed b time .channelClosed).idle = countUp l.idle ∧
          (l.readFailed b time .channelClosed).pace =
            .waiting (time + Backoff.timerMillis (b.delay l.idle)) := by
        unfold readFailed
        dsimp only
        split <;> exact ⟨rfl, rfl⟩
      rw [hidle.1, hidle.2]
      exact .next .none (.fails rfl)
  | cancelled => exact .ends (.next .none (.passes rfl))
  | decode partition offset source =>
      exact .next (.next .none (.passes rfl)) (.asks nofun nofun)
  | transport source => exact .next (.next .none (.passes rfl)) (.asks nofun nofun)

theorem beats_handled (c : Command) (outcome : Outcome) :
    Moment.Beats effect b l.idle .awake (Moment.ofTurn time none false (l.handled c outcome).isAsking)
      (l.handled c outcome).idle (l.handled c outcome).pace := by
  rcases outcome with e | _ | r
  · exact beats_quiet true
  · exact beats_quiet true
  · exact beats_quiet false

theorem beats_written (retry : Retry) (c : Command) (r : Result) (retries : Nat)
    (answer : Except WriteError Unit) :
    Moment.Beats effect b l.idle .awake
      (Moment.ofTurn time none false (l.written retry time c r retries answer).isAsking)
      (l.written retry time c r retries answer).idle
      (l.written retry time c r retries answer).pace := by
  cases answer with
  | ok => exact beats_quiet true
  | error e =>
      unfold written
      dsimp only
      split
      next => exact beats_quiet false
      next => exact beats_quiet true

end DispatchLoop

namespace Desk

variable {S H K : Type}

def heard? (d : Desk S H K) (reportFirst : Bool) (l : DispatchLoop H (Writer K)) :
    Option (Except ReadError Command) :=
  match l.stage with
  | .next => if d.reader.channels = none then some (.error .channelClosed) else none
  | .reading i => (d.reader.takeFrom i reportFirst).2
  | _ => none

variable [Service H] [MessageSink K]

/-- What a turn of the dispatch loop shows: what it hears, and then whether it goes on to the next read,
or whether it goes on waiting. -/
def moments (d : Desk S H K) (time : Nat) (reportFirst : Bool) :
    List (Moment (Except ReadError Command)) :=
  match d.processor.component.latestLoop? with
  | none => []
  | some l =>
    let next? := (d.step time reportFirst).bind (·.processor.component.latestLoop?)
    Moment.ofTurn time (d.heard? reportFirst l) (next?.isNone && l.isIdling) (next?.any (·.isAsking))

variable {d d' : Desk S H K} {time : Nat} {reportFirst : Bool} {l l' : DispatchLoop H (Writer K)}

theorem moments_of_step (hl : d.processor.component.latestLoop? = some l)
    (h : d.step time reportFirst = some d')
    (hl' : d'.processor.component.latestLoop? = some l') :
    d.moments time reportFirst =
      Moment.ofTurn time (d.heard? reportFirst l) false l'.isAsking := by
  simp only [moments, hl, h, Option.bind_some, hl']
  rfl

theorem beats_of_stay (hl : d.processor.component.latestLoop? = some l)
    (h : d.step time reportFirst = none) :
    Moment.Beats DispatchLoop.effect d.processor.idleBackoff l.idle l.pace
      (d.moments time reportFirst) l.idle l.pace := by
  have hmoments : d.moments time reportFirst =
      Moment.ofTurn time (d.heard? reportFirst l) l.isIdling false := by
    simp only [moments, hl, h]
    rfl
  obtain ⟨asked, hlatest⟩ := Component.exists_latest? hl
  rw [hmoments, heard?, DispatchLoop.pace, DispatchLoop.isIdling]
  rw [step, hlatest] at h
  dsimp only at h
  cases hstage : l.stage with
  | next =>
      rw [hstage] at h
      cases hchannels : d.reader.channels <;> simp [hchannels] at h
  | reading i =>
      rw [hstage] at h
      rcases htake : d.reader.takeFrom i reportFirst with ⟨reader, _ | e | c⟩
      · simp only [htake]
        exact .none
      · simp [htake] at h
      · simp [htake] at h
  | idling due =>
      rw [hstage] at h
      refine .next .none (.rests fun hdue => ?_)
      simp [hdue] at h
  | handling | publishing | writing | pausing | exited => exact .none

/-- A turn of the dispatch loop keeps count of the reads that find the reader stopped, and waits after
each of them. -/
theorem beats_of_step (hl : d.processor.component.latestLoop? = some l)
    (h : d.step time reportFirst = some d') :
    d'.processor.idleBackoff = d.processor.idleBackoff ∧ ∃ l',
      d'.processor.component.latestLoop? = some l' ∧
      Moment.Beats DispatchLoop.effect d.processor.idleBackoff l.idle l.pace
        (d.moments time reportFirst) l'.idle l'.pace := by
  have hset (l' : DispatchLoop H (Writer K)) :
      (d.processor.component.setLatest l').latestLoop? = some l' :=
    Component.latestLoop?_setLatest hl l'
  have hmoments {l' : DispatchLoop H (Writer K)}
      (hl' : d'.processor.component.latestLoop? = some l') := moments_of_step hl h hl'
  have hmove := move_of_step hl h
  generalize d.next? reportFirst = command? at hmove
  cases hmove with
  | shut hstage hchannels =>
      refine ⟨rfl, _, hset _, ?_⟩
      rw [hmoments (hset _), heard?, DispatchLoop.pace, hstage]
      simp only [hchannels, if_true]
      exact DispatchLoop.beats_readFailed _
  | opened i hstage hchannels =>
      refine ⟨rfl, _, hset _, ?_⟩
      rw [hmoments (hset _), heard?, DispatchLoop.pace, hstage]
      simp only [hchannels]
      exact DispatchLoop.beats_quiet false
  | command i reader c hstage htake =>
      refine ⟨rfl, _, hset _, ?_⟩
      rw [hmoments (hset _), heard?, DispatchLoop.pace, hstage]
      simp only [htake]
      exact .next .none (.clears rfl)
  | report i reader e hstage htake =>
      refine ⟨rfl, _, hset _, ?_⟩
      rw [hmoments (hset _), heard?, DispatchLoop.pace, hstage]
      simp only [htake]
      exact DispatchLoop.beats_readFailed e
  | rested due hstage hdue =>
      refine ⟨rfl, _, hset _, ?_⟩
      rw [hmoments (hset _), heard?, DispatchLoop.pace, hstage]
      refine .next .none (.asks nofun fun due' h => ?_)
      cases h
      exact hdue
  | answered c due finish hstage hdue =>
      refine ⟨rfl, _, hset _, ?_⟩
      rw [hmoments (hset _), heard?, DispatchLoop.pace, hstage]
      exact DispatchLoop.beats_handled c _
  | publishes c r retries hstage =>
      refine ⟨rfl, _, hset _, ?_⟩
      rw [hmoments (hset _), heard?, DispatchLoop.pace, hstage]
      dsimp only
      split <;> exact DispatchLoop.beats_quiet false
  | wrote c r retries due finish hstage hdue =>
      refine ⟨rfl, _, hset _, ?_⟩
      rw [hmoments (hset _), heard?, DispatchLoop.pace, hstage]
      exact DispatchLoop.beats_written _ c r retries _
  | paused c r retries due hstage hdue =>
      refine ⟨rfl, _, hset _, ?_⟩
      rw [hmoments (hset _), heard?, DispatchLoop.pace, hstage]
      exact DispatchLoop.beats_quiet false

theorem moments_of_waiting (hl : d.processor.component.latestLoop? = some l) {due : Nat}
    (hdue : l.pace = .waiting due) :
    d.moments time reportFirst = [if due ≤ time then .asks time else .rests time] := by
  obtain ⟨asked, hlatest⟩ := Component.exists_latest? hl
  have hstage : l.stage = .idling due := by
    unfold DispatchLoop.pace at hdue
    split at hdue <;> cases hdue
    assumption
  by_cases hle : due ≤ time
  · have hset : (d.setLoop { l with stage := .next }).processor.component.latestLoop? =
        some { l with stage := .next } := Component.latestLoop?_setLatest hl _
    have hstep : d.step time reportFirst = some (d.setLoop { l with stage := .next }) := by
      simp only [step, hlatest, hstage, if_pos hle]
    rw [moments_of_step hl hstep hset, heard?, hstage, if_pos hle]
    rfl
  · have hstep : d.step time reportFirst = none := by
      simp only [step, hlatest, hstage, if_neg hle]
    simp only [moments, hl, hstep, heard?, DispatchLoop.isIdling, hstage, if_neg hle]
    rfl

end Desk

/-- A desk, and what its dispatch loop has been through, the latest first. -/
structure WatchedDesk (S H K : Type) where
  desk : Desk S H K
  log : List (Moment (Except ReadError Command)) := []

namespace WatchedDesk

inductive Event (S K : Type)
  | turn (time : Nat) (reportFirst : Bool)
  /-- The reader moves, or is started or stopped. -/
  | reader (r : Reader S)
  /-- The writer is closed, or its sink is another one. -/
  | writer (w : Writer K)
  /-- The loop is asked to end. -/
  | ask
  | ends

variable {S H K : Type}

def begin (d : Desk S H K) (asked : Bool) : WatchedDesk S H K :=
  let component := d.processor.component
  let runs := component.runs ++ [⟨asked, {}⟩]
  ⟨{ d with processor := { d.processor with component := { component with runs } } }, []⟩

def pace? (w : WatchedDesk S H K) : Option Pace :=
  w.desk.processor.component.latestLoop?.map DispatchLoop.pace

/-- The loop has counted the failures of its log, and waits when the log says so. -/
structure InPace (b : Backoff) (w : WatchedDesk S H K) (l : DispatchLoop H (Writer K)) : Prop where
  loop : w.desk.processor.component.latestLoop? = some l
  idleBackoff : w.desk.processor.idleBackoff = b
  inPace : Moment.InPace DispatchLoop.effect b w.log l.idle l.pace

variable {b : Backoff} {w : WatchedDesk S H K} {l : DispatchLoop H (Writer K)}

theorem inPace_begin (d : Desk S H K) (asked : Bool) :
    InPace d.processor.idleBackoff (begin d asked) {} :=
  ⟨by simp [begin, Component.latestLoop?, Component.latest?], rfl, Moment.inPace_nil⟩

variable [Service H] [MessageSink K]

def step (w : WatchedDesk S H K) : Event S K → WatchedDesk S H K
  | .turn time reportFirst =>
    ⟨(w.desk.step time reportFirst).getD w.desk, w.desk.moments time reportFirst ++ w.log⟩
  | .reader reader => { w with desk := { w.desk with reader } }
  | .writer writer => { w with desk := { w.desk with writer } }
  | .ask =>
    let component := w.desk.processor.component.askAll
    { w with desk := { w.desk with processor := { w.desk.processor with component } } }
  | .ends => { w with desk := { w.desk with processor := w.desk.processor.exit.getD w.desk.processor } }

def run (w : WatchedDesk S H K) (events : List (Event S K)) : WatchedDesk S H K := events.foldl step w

theorem InPace.turn (h : w.InPace b l) (time : Nat) (reportFirst : Bool) :
    ∃ l', (w.step (.turn time reportFirst)).InPace b l' := by
  obtain ⟨hl, rfl, hpace⟩ := h
  cases hstep : w.desk.step time reportFirst with
  | none =>
      have hdesk : (w.step (.turn time reportFirst)).desk = w.desk := by
        rw [step, hstep, Option.getD_none]
      refine ⟨l, ?_, ?_, hpace.beats (Desk.beats_of_stay hl hstep)⟩
      · rw [hdesk]
        exact hl
      · rw [hdesk]
  | some d =>
      obtain ⟨hidle, l', hl', hbeats⟩ := Desk.beats_of_step hl hstep
      have hdesk : (w.step (.turn time reportFirst)).desk = d := by
        rw [step, hstep, Option.getD_some]
      refine ⟨l', ?_, ?_, hpace.beats hbeats⟩
      · rw [hdesk]
        exact hl'
      · rw [hdesk]
        exact hidle

theorem InPace.ends (h : w.InPace b l) : ∃ l', (w.step .ends).InPace b l' := by
  cases hexit : w.desk.processor.exit with
  | none =>
      refine ⟨l, ?_⟩
      rw [step, hexit, Option.getD_none]
      exact h
  | some processor =>
      obtain ⟨l', hlatest, -, rfl⟩ := Processor.exists_of_exit hexit
      have hl : l = l' := Option.some_inj.1 (h.loop.symm.trans (Component.latestLoop?_of_latest? hlatest))
      subst hl
      refine ⟨l.exit, ?_⟩
      rw [step, hexit, Option.getD_some]
      exact ⟨Component.latestLoop?_setLatest h.loop _, h.idleBackoff, h.inPace.beats (.ends .none)⟩

theorem InPace.step (h : w.InPace b l) (e : Event S K) : ∃ l', (w.step e).InPace b l' := by
  cases e with
  | turn time reportFirst => exact h.turn time reportFirst
  | reader => exact ⟨l, h.loop, h.idleBackoff, h.inPace⟩
  | writer => exact ⟨l, h.loop, h.idleBackoff, h.inPace⟩
  | ask =>
      refine ⟨l, ?_, h.idleBackoff, h.inPace⟩
      change w.desk.processor.component.askAll.latestLoop? = some l
      rw [Component.latestLoop?_eq, Component.loops_askAll, ← Component.latestLoop?_eq]
      exact h.loop
  | ends => exact h.ends

theorem InPace.run (h : w.InPace b l) (events : List (Event S K)) :
    ∃ l', (w.run events).InPace b l' := by
  induction events generalizing w l with
  | nil => exact ⟨l, h⟩
  | cons e events ih =>
      obtain ⟨l', h'⟩ := h.step e
      exact ih h'

/-- Every wait of a dispatch loop is as long as the failures before it say, whatever has happened since
the loop began. -/
theorem run_punctual (d : Desk S H K) (asked : Bool) (events : List (Event S K)) :
    let w := run (begin d asked) events
    ∀ reportFirst, Moment.Punctual DispatchLoop.effect d.processor.idleBackoff w.log
      (w.pace? = some .ended) fun time => (w.step (.turn time reportFirst)).log := by
  intro w reportFirst
  obtain ⟨l, hl, -, hpace⟩ := (inPace_begin d asked).run events
  have hended : w.pace? = some .ended ↔ l.pace = .ended := by
    rw [pace?, hl, Option.map_some, Option.some_inj]
  rw [hended]
  refine hpace.punctual fun due hdue time => ?_
  change w.desk.moments time reportFirst ++ w.log = _
  rw [Desk.moments_of_waiting hl hdue]
  rfl

end WatchedDesk

/-- The first failure of a streak is followed by the first delay, the next one by a longer delay. -/
example : Moment.wait? DispatchLoop.effect .standard
    [.hears 50 (.error .channelClosed), .asks 50, .hears 0 (.error .channelClosed)] =
      some (50, 100 * Backoff.millisecond) := by
  decide +kernel

/-- Both loops wait after each failure for as long as the streak that it belongs to says, and never at
other times. The consume loop does so after failed reads, until it hears a message, the dispatch loop
after reads that find the reader stopped, until it hears a command. -/
theorem loops_punctual {S T H K : Type} [MessageSource S] [Service H] [MessageSink K]
    (format : WireFormat) (backoff : Backoff) (source : S) (time : Nat)
    (readerEvents : List (WatchedReader.Event S))
    (d : Desk T H K) (asked : Bool) (deskEvents : List (WatchedDesk.Event T K)) :
    let r := WatchedReader.run format backoff ⟨source, .begin time, []⟩ readerEvents
    let w := WatchedDesk.run (.begin d asked) deskEvents
    Moment.Punctual ConsumeLoop.effect backoff r.log (r.loop.pace = .ended)
        (fun time => (r.step format backoff (.turn time)).log) ∧
      ∀ reportFirst, Moment.Punctual DispatchLoop.effect d.processor.idleBackoff w.log
        (w.pace? = some .ended) fun time => (w.step (.turn time reportFirst)).log :=
  ⟨WatchedReader.run_punctual format backoff source time readerEvents,
    WatchedDesk.run_punctual d asked deskEvents⟩

end CourierDispatch
