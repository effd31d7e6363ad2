import CourierDispatch.Broker.MemoryTopic
import CourierDispatch.Pipeline
import CourierDispatch.Proofs.Ledger

/-!
# What happens to a running pipeline

Messages arrive, the loops move, and time passes, in any order. Where a command and a report wait for
the processor, it may take either. The turns that a pipeline gives its loops are one such order, so
what holds in every order holds however a pipeline is driven.
-/

namespace CourierDispatch

namespace Desk

variable {S H K : Type} [Service H] [MessageSink K]

/-- Makes a move of the dispatch loop, with a choice between a command and a report. -/
def turnWith (d : Desk S H K) (time : Nat) (reportFirst : Bool) : Desk S H K × Bool :=
  match d.processor.exit with
  | some processor => ({ d with processor }, true)
  | none =>
    match d.step time reportFirst with
    | some d => (d, true)
    | none => (d, false)

end Desk

/-- What may happen to a running pipeline. -/
inductive Event
  /-- A message arrives at the source. -/
  | arrive (key : Option (List UInt8)) (l : Letter)
  /-- The consume loop may move. -/
  | reader
  /-- The dispatch loop may move. -/
  | processor (reportFirst : Bool)
  | pass (millis : Nat)
deriving DecidableEq, Repr

def Event.letter? : Event → Option Letter
  | arrive _ l => some l
  | _ => none

def arrivals (events : List Event) : List Letter := events.filterMap Event.letter?

theorem arrivals_append (es es' : List Event) :
    arrivals (es ++ es') = arrivals es ++ arrivals es' :=
  List.filterMap_append

namespace Pipeline

variable {H K : Type}

theorem time_putBehind (p : Pipeline MemoryTopic H K) (t : Turn) (moved : Bool) :
    (p.putBehind t moved).time = p.time := by
  cases moved <;> rfl

theorem nextDue?_bounds {p : Pipeline MemoryTopic H K} {limit t : Nat}
    (h : p.nextDue? limit = some t) : p.time < t ∧ t ≤ limit := by
  have hmem := List.min?_mem h
  simpa using (List.mem_filter.1 hmem).2

variable [Service H] [MessageSink K]

def occur (p : Pipeline MemoryTopic H K) : Event → Pipeline MemoryTopic H K
  | .arrive key l => p.setSource (p.desk.reader.source.publish key l.value l.headers).1
  | .reader => (p.move .reader).1
  | .processor reportFirst =>
    let (desk, moved) := p.desk.turnWith p.time reportFirst
    { p with desk }.putBehind .processor moved
  | .pass millis => { p with time := p.time + millis }

def run (p : Pipeline MemoryTopic H K) (events : List Event) : Pipeline MemoryTopic H K :=
  events.foldl occur p

theorem run_cons (p : Pipeline MemoryTopic H K) (e : Event) (events : List Event) :
    p.run (e :: events) = (p.occur e).run events := rfl

theorem run_append (p : Pipeline MemoryTopic H K) (es es' : List Event) :
    p.run (es ++ es') = (p.run es).run es' :=
  List.foldl_append

/-- A pipeline gets to be another one without any message arriving. -/
def Reaches (p q : Pipeline MemoryTopic H K) : Prop :=
  ∃ events, arrivals events = [] ∧ p.run events = q

theorem Reaches.refl (p : Pipeline MemoryTopic H K) : p.Reaches p := ⟨[], rfl, rfl⟩

theorem Reaches.trans {p q r : Pipeline MemoryTopic H K} (hpq : p.Reaches q)
    (hqr : q.Reaches r) : p.Reaches r := by
  obtain ⟨es, hes, rfl⟩ := hpq
  obtain ⟨es', hes', rfl⟩ := hqr
  refine ⟨es ++ es', ?_, run_append p es es'⟩
  rw [arrivals_append, hes, hes']
  rfl

theorem reaches_occur (p : Pipeline MemoryTopic H K) {e : Event} (he : e.letter? = none) :
    p.Reaches (p.occur e) :=
  ⟨[e], List.filterMap_cons_none he, rfl⟩

theorem reaches_move (p : Pipeline MemoryTopic H K) (t : Turn) : p.Reaches (p.move t).1 := by
  cases t with
  | reader => exact reaches_occur p (e := .reader) rfl
  | processor => exact reaches_occur p (e := .processor false) rfl

theorem reaches_time (p : Pipeline MemoryTopic H K) {time : Nat} (h : p.time ≤ time) :
    p.Reaches { p with time } := by
  have hpass := reaches_occur p (e := .pass (time - p.time)) rfl
  rw [occur, Nat.add_sub_cancel' h] at hpass
  exact hpass

theorem reaches_takeTurns (n : Nat) (t : Turn) (stuck : Bool) (p : Pipeline MemoryTopic H K) :
    p.Reaches (p.takeTurns n t stuck) := by
  induction n generalizing t stuck p with
  | zero => exact .refl p
  | succ n ih =>
      have hmove := reaches_move p t
      rw [takeTurns]
      rcases hpt : p.move t with ⟨p', moved⟩
      rw [hpt] at hmove
      cases moved with
      | true => exact hmove.trans (ih t false p')
      | false =>
          cases stuck with
          | true => exact hmove
          | false => exact hmove.trans (ih t.other true p')

theorem time_takeTurns (n : Nat) (t : Turn) (stuck : Bool) (p : Pipeline MemoryTopic H K) :
    (p.takeTurns n t stuck).time = p.time := by
  induction n generalizing t stuck p with
  | zero => rfl
  | succ n ih =>
      have hmove : (p.move t).1.time = p.time := by
        cases t <;> exact time_putBehind _ _ _
      rw [takeTurns]
      rcases hpt : p.move t with ⟨p', moved⟩
      rw [hpt] at hmove
      cases moved with
      | true => exact (ih t false p').trans hmove
      | false =>
          cases stuck with
          | true => exact hmove
          | false => exact (ih t.other true p').trans hmove

/-- Letting time pass moment by moment is one order of events. -/
theorem reaches_advanceTo {limit : Nat} (n : Nat) {p : Pipeline MemoryTopic H K}
    (h : p.time ≤ limit) : p.Reaches (p.advanceTo limit n) := by
  induction n generalizing p with
  | zero => exact .refl p
  | succ n ih =>
      rw [advanceTo]
      cases hdue : p.nextDue? limit with
      | none => exact (reaches_time p h).trans (reaches_takeTurns _ _ _ _)
      | some t =>
          obtain ⟨hlt, hle⟩ := nextDue?_bounds hdue
          have hwake : p.Reaches (p.wake t) :=
            (reaches_time p (Nat.le_of_lt hlt)).trans (reaches_takeTurns _ _ _ _)
          refine hwake.trans (ih ?_)
          rw [wake, time_takeTurns]
          exact hle

theorem reaches_advance (p : Pipeline MemoryTopic H K) (millis : Nat) :
    p.Reaches (p.advance millis) := by
  refine (reaches_takeTurns patience .reader false p).trans (reaches_advanceTo _ ?_)
  rw [time_takeTurns]
  exact Nat.le_add_right _ _

end Pipeline

end CourierDispatch
