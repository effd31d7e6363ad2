import CourierDispatch.Proofs.Answers
import CourierDispatch.Writer

/-!
# What a writer hands to its sink

A writer is asked to write and to close, one demand after the other. The sink is handed every result up
to the first close in a message of its own, then it is closed, and from then on it is left alone. Of the
writer nothing ever changes but the sink, and that a close has closed it. What becomes of a demand is
therefore settled by whether a close came before it and by what the sink answers.
-/

namespace CourierDispatch

namespace Writer

inductive Demand
  | write (r : Option Result)
  | close

def Demand.isClose : Demand → Bool
  | write _ => false
  | close => true

inductive Handed
  | batch (messages : List Outbound)
  | close
deriving DecidableEq

def outbound (topic : String) (format : WireFormat) (r : Result) : Outbound where
  topic := topic
  key := some (Utf8.bytes r.id.toText)
  value := r.encode format
  headers := r.context.toHeaders

/-- What the demands up to the first close hand to the sink. -/
def handed (topic : String) (format : WireFormat) : List Demand → List Handed
  | [] => []
  | .write none :: ds => handed topic format ds
  | .write (some r) :: ds => .batch [outbound topic format r] :: handed topic format ds
  | .close :: _ => [.close]

theorem count_close_handed_le (topic : String) (format : WireFormat) (ds : List Demand) :
    (handed topic format ds).count .close ≤ 1 := by
  induction ds with
  | nil => exact Nat.zero_le 1
  | cons d ds ih =>
      match d with
      | .write none => exact ih
      | .write (some r) => rwa [handed, List.count_cons_of_ne (by nofun)]
      | .close => exact Nat.le_refl 1

theorem handed_cons (topic : String) (format : WireFormat) (d : Demand) (ds : List Demand) :
    handed topic format (d :: ds) =
      handed topic format [d] ++ if d.isClose then [] else handed topic format ds := by
  match d with
  | .write none => rfl
  | .write (some r) => rfl
  | .close => rfl

variable {K : Type}

/-- A sink that keeps record of what it is handed, the latest last. -/
structure Recorder (K : Type) where
  inner : K
  record : List Handed

def recording (w : Writer K) (record : List Handed) : Writer (Recorder K) where
  sink := ⟨w.sink, record⟩
  topic := w.topic
  format := w.format
  closed := w.closed

variable [MessageSink K]

instance : MessageSink (Recorder K) where
  write s batch :=
    (MessageSink.write s.inner batch).within { s with record := s.record ++ [.batch batch] }
      Recorder.inner (fun inner s => { s with inner }) id
  close s :=
    let (inner, r) := MessageSink.close s.inner
    (⟨inner, s.record ++ [.close]⟩, r)

def step (w : Writer K) : Demand → Writer K × Except WriteError Unit
  | .write r => (w.write r).run
  | .close => w.close

def run (w : Writer K) (ds : List Demand) : Writer K × List (Except WriteError Unit) := inTurn step w ds

/-- What becomes of a demand and of the sink, when a close came before and when none did. -/
inductive Fate (topic : String) (format : WireFormat) (sink : K) :
    Bool → Demand → K → Except WriteError Unit → Prop
  | nothing (closed : Bool) : Fate topic format sink closed (.write none) sink (.ok ())
  | refused (d : Demand) (h : d ≠ .write none) :
      Fate topic format sink true d sink (.error .closed)
  | written (r : Result) {sink' : K} {a : Except BrokerError Unit}
      (h : (MessageSink.write sink [outbound topic format r]).run = (sink', a)) :
      Fate topic format sink false (.write (some r)) sink' (a.mapError .publish)
  | closed {sink' : K} {a : Except BrokerError Unit} (h : MessageSink.close sink = (sink', a)) :
      Fate topic format sink false .close sink' (a.mapError .publish)

variable {w : Writer K}

theorem run_cons (d : Demand) (ds : List Demand) :
    w.run (d :: ds) = (((w.step d).1.run ds).1, (w.step d).2 :: ((w.step d).1.run ds).2) :=
  rfl

theorem run_concat_fst (ds : List Demand) (d : Demand) :
    (w.run (ds ++ [d])).1 = ((w.run ds).1.step d).1 := by
  rw [run, inTurn_append]
  rfl

/-- A demand changes nothing of the writer but its sink, and a close closes it. What becomes of the
demand is its fate. -/
theorem step_cases (d : Demand) :
    ∃ sink, (w.step d).1 = { w with sink, closed := w.closed || d.isClose } ∧
      Fate w.topic w.format w.sink w.closed d sink (w.step d).2 := by
  obtain ⟨sink, topic, format, closed⟩ := w
  match d, closed with
  | .write none, closed =>
      refine ⟨sink, ?_, .nothing closed⟩
      rw [Demand.isClose, Bool.or_false]
      rfl
  | .write (some r), true => exact ⟨sink, rfl, .refused _ nofun⟩
  | .write (some r), false => exact ⟨_, rfl, .written r rfl⟩
  | .close, true => exact ⟨sink, rfl, .refused _ nofun⟩
  | .close, false => exact ⟨_, rfl, .closed rfl⟩

theorem run_own (ds : List Demand) :
    (w.run ds).1 = { w with sink := (w.run ds).1.sink, closed := w.closed || ds.any Demand.isClose } := by
  induction ds generalizing w with
  | nil => simp [run, inTurn]
  | cons d ds ih =>
      obtain ⟨sink, hstep, -⟩ := w.step_cases d
      rw [run_cons, ih, hstep]
      simp [Bool.or_assoc]

theorem step_recording (record : List Handed) (d : Demand) :
    (w.recording record).step d =
      ((w.step d).1.recording
          (record ++ if w.closed then [] else handed w.topic w.format [d]), (w.step d).2) := by
  obtain ⟨sink, topic, format, closed⟩ := w
  match d, closed with
  | .write none, true => simp [step, write, recording, Call.run, Call.now]
  | .write none, false => simp [step, write, recording, Call.run, Call.now, handed]
  | .write (some r), true => simp [step, write, recording, Call.run, Call.now]
  | .write (some r), false => rfl
  | .close, true => simp [step, close, recording]
  | .close, false => rfl

/-- The record grows by what the demands hand to the sink, and makes no other difference. -/
theorem run_recording (record : List Handed) (ds : List Demand) :
    (w.recording record).run ds =
      ((w.run ds).1.recording
          (record ++ if w.closed then [] else handed w.topic w.format ds), (w.run ds).2) := by
  induction ds generalizing w record with
  | nil => simp [run, inTurn, handed]
  | cons d ds ih =>
      obtain ⟨sink, hstep, -⟩ := w.step_cases d
      rw [run_cons, step_recording, ih, run_cons, hstep, handed_cons _ _ _ ds]
      cases w.closed <;> simp

theorem topic_run (ds : List Demand) : (w.run ds).1.topic = w.topic := by
  rw [run_own]

theorem format_run (ds : List Demand) : (w.run ds).1.format = w.format := by
  rw [run_own]

theorem closed_run (ds : List Demand) :
    (w.run ds).1.closed = (w.closed || ds.any Demand.isClose) := by
  rw [run_own]

/-- A demand is answered in its place, whatever comes after it. -/
theorem run_fate (before : List Demand) (d : Demand) (after : List Demand) :
    ∃ a, (w.run (before ++ d :: after)).2[before.length]? = some a ∧
      Fate w.topic w.format (w.run before).1.sink (w.closed || before.any Demand.isClose) d
        (w.run (before ++ [d])).1.sink a := by
  obtain ⟨sink, hstep, hfate⟩ := (w.run before).1.step_cases d
  rw [topic_run, format_run, closed_run] at hfate
  refine ⟨((w.run before).1.step d).2, getElem?_inTurn w before d after, ?_⟩
  rw [run_concat_fst, hstep]
  exact hfate

def opened (sink : K) (topic : String) (format : WireFormat) : Writer K := { sink, topic, format }

/-- What a writer owes to its sink and to those who ask it. -/
structure Protocol (sink : K) (topic : String) (format : WireFormat) (ds : List Demand) : Prop where
  /-- The record shows what the sink is handed. It makes no other difference. -/
  hands : (opened (⟨sink, []⟩ : Recorder K) topic format).run ds =
    (((opened sink topic format).run ds).1.recording (handed topic format ds),
      ((opened sink topic format).run ds).2)
  /-- The sink is closed once or not at all. -/
  closes : (handed topic format ds).count .close ≤ 1
  /-- The writer is closed if there was a close, whatever the sink made of it. -/
  own : ∃ sink', ((opened sink topic format).run ds).1 =
    { sink := sink', topic, format, closed := ds.any Demand.isClose }
  /-- A write changes the sink and nothing else. -/
  keeps : ∀ r, ∃ sink', ((opened sink topic format).run (ds ++ [.write r])).1 =
    { ((opened sink topic format).run ds).1 with sink := sink' }
  /-- Every demand has the fate that whatever came before it leaves to it. -/
  fate : ∀ before d after, ds = before ++ d :: after →
    ∃ a, ((opened sink topic format).run ds).2[before.length]? = some a ∧
      Fate topic format ((opened sink topic format).run before).1.sink (before.any Demand.isClose) d
        ((opened sink topic format).run (before ++ [d])).1.sink a

/-- Every writer keeps the protocol, whatever its sink is and whatever it is asked for. -/
theorem protocol (sink : K) (topic : String) (format : WireFormat) (ds : List Demand) :
    Protocol sink topic format ds where
  hands := run_recording (w := opened sink topic format) [] ds
  closes := count_close_handed_le topic format ds
  own := ⟨_, run_own ds⟩
  keeps r := by
    obtain ⟨sink', hstep, -⟩ := ((opened sink topic format).run ds).1.step_cases (.write r)
    rw [run_concat_fst, hstep, Demand.isClose, Bool.or_false]
    exact ⟨sink', rfl⟩
  fate before d after hds := by
    subst hds
    exact run_fate before d after

end Writer

end CourierDispatch
