import CourierDispatch.Processor
import CourierDispatch.Proofs.Component.Loops

/-!
# The moves of a dispatch loop

`Desk.Move` lists all that a dispatch loop can do in one move: what it finds before it, the command that
it takes up, and what becomes of the desk. What is to hold of every move is shown for each of these cases.
A start, a claim and an end have their lemmas first.
-/

namespace CourierDispatch

namespace Processor

variable {H W : Type} {p p' : Processor H W}

theorem exists_of_start {asked : Bool} (h : p.start asked = .ok p') :
    ∃ component, p.component.start ⟨asked, {}⟩ = .ok component ∧ p' = { p with component } := by
  unfold start at h
  split at h
  next component hcomponent =>
    cases h
    exact ⟨component, hcomponent, rfl⟩
  next => cases h

theorem exists_of_claim {i : Nat} (h : p.claim = .ok (i, p')) :
    ∃ component, p.component.claim = .ok (i, component) ∧ p' = { p with component } := by
  unfold claim at h
  split at h
  next j component hcomponent =>
    cases h
    exact ⟨component, hcomponent, rfl⟩
  next => cases h

theorem exists_of_exit (h : p.exit = some p') :
    ∃ l, p.component.latest? = some ⟨true, l⟩ ∧ l.mayExit = true ∧ p' = p.setLoop l.exit := by
  unfold exit at h
  split at h
  next l hlatest =>
    split at h
    next hexit =>
      cases h
      exact ⟨l, hlatest, hexit, rfl⟩
    next => cases h
  next => cases h

end Processor

namespace Reader

variable {S : Type}

theorem isRunning_of_start {r r' : Reader S} {time : Nat} {asked : Bool}
    (h : r.start time asked = .ok r') : r'.isRunning = true := by
  unfold start at h
  split at h
  next component hcomponent =>
    cases h
    exact (Component.latestLoop?_of_start hcomponent).2
  next => cases h

theorem isRunning_takeFrom (r : Reader S) (i : Nat) (reportFirst : Bool) :
    (r.takeFrom i reportFirst).1.isRunning = r.isRunning := by
  unfold takeFrom
  split <;> rfl

theorem isRunning_step [MessageSource S] (r : Reader S) (time : Nat) :
    (r.step time).1.isRunning = r.isRunning := by
  unfold step
  split
  next => rfl
  next => split <;> rfl

end Reader

namespace Desk

variable {S H K : Type}

def next? (d : Desk S H K) (reportFirst : Bool) : Option Command :=
  d.processor.component.latestLoop?.bind fun l =>
    match l.stage with
    | .reading i => (d.reader.takeFrom i reportFirst).2.bind Except.toOption
    | _ => none

/-- A loop that does not end where it is takes up no command there. -/
theorem next?_of_mayExit {d : Desk S H K} {l : DispatchLoop H (Writer K)}
    (hl : d.processor.component.latestLoop? = some l)
    (h : l.mayExit = false) (reportFirst : Bool) : d.next? reportFirst = none := by
  rw [next?, hl, Option.bind_some]
  unfold DispatchLoop.mayExit at h
  cases hstage : l.stage with
  | reading i => simp [hstage] at h
  | _ => rfl

variable [Service H] [MessageSink K]

/-- What a move of the dispatch loop `l` takes up and makes of a desk. -/
inductive Move (d : Desk S H K) (time : Nat) (reportFirst : Bool) (l : DispatchLoop H (Writer K)) :
    Option Command → Desk S H K → Prop
  /-- The reader is stopped. -/
  | shut (hstage : l.stage = .next) (hchannels : d.reader.channels = none) :
      Move d time reportFirst l none
        (d.setLoop (l.readFailed d.processor.idleBackoff time .channelClosed))
  | opened (i : Nat) (hstage : l.stage = .next) (hchannels : d.reader.channels = some i) :
      Move d time reportFirst l none (d.setLoop { l with stage := .reading i })
  | command (i : Nat) (reader : Reader S) (c : Command) (hstage : l.stage = .reading i)
      (htake : d.reader.takeFrom i reportFirst = (reader, some (.ok c))) :
      Move d time reportFirst l (some c) ({ d with reader }.handle time l c)
  | report (i : Nat) (reader : Reader S) (e : ReadError) (hstage : l.stage = .reading i)
      (htake : d.reader.takeFrom i reportFirst = (reader, some (.error e))) :
      Move d time reportFirst l none
        ({ d with reader }.setLoop (l.readFailed d.processor.idleBackoff time e))
  | rested (due : Nat) (hstage : l.stage = .idling due) (hdue : due ≤ time) :
      Move d time reportFirst l none (d.setLoop { l with stage := .next })
  | answered (c : Command) (due : Option Nat) (finish : H → H × Outcome)
      (hstage : l.stage = .handling c due finish) (hdue : DispatchLoop.isDue due time) :
      Move d time reportFirst l none
        ({ d with processor := { d.processor with handler := (finish d.processor.handler).1 } }.setLoop
          (l.handled c (finish d.processor.handler).2))
  | publishes (c : Command) (r : Result) (retries : Nat) (hstage : l.stage = .publishing c r retries) :
      Move d time reportFirst l none (d.publish time l c r retries)
  | wrote (c : Command) (r : Result) (retries : Nat) (due : Option Nat)
      (finish : Writer K → Writer K × Except WriteError Unit)
      (hstage : l.stage = .writing c r retries due finish) (hdue : DispatchLoop.isDue due time) :
      Move d time reportFirst l none
        ({ d with writer := (finish d.writer).1 }.setLoop
          (l.written d.processor.retry time c r retries (finish d.writer).2))
  | paused (c : Command) (r : Result) (retries due : Nat)
      (hstage : l.stage = .pausing c r retries due) (hdue : due ≤ time) :
      Move d time reportFirst l none (d.setLoop { l with stage := .publishing c r retries })

variable {d d' : Desk S H K} {time : Nat} {reportFirst : Bool} {l : DispatchLoop H (Writer K)}

theorem move_of_step (hl : d.processor.component.latestLoop? = some l)
    (h : d.step time reportFirst = some d') :
    Move d time reportFirst l (d.next? reportFirst) d' := by
  obtain ⟨asked, hlatest⟩ := Component.exists_latest? hl
  rw [next?, hl, Option.bind_some]
  rw [step, hlatest] at h
  dsimp only at h
  split at h
  next => cases h
  next hstage =>
    rw [hstage]
    split at h
    next hchannels =>
      cases h
      exact .shut hstage hchannels
    next i hchannels =>
      cases h
      exact .opened i hstage hchannels
  next i hstage =>
    rw [hstage]
    dsimp only
    split at h
    next => cases h
    next reader c htake =>
      cases h
      rw [htake]
      exact .command i reader c hstage htake
    next reader e htake =>
      cases h
      rw [htake]
      exact .report i reader e hstage htake
  next due hstage =>
    rw [hstage]
    split at h
    next hdue =>
      cases h
      exact .rested due hstage hdue
    next => cases h
  next c due finish hstage =>
    rw [hstage]
    split at h
    next hdue =>
      cases h
      exact .answered c due finish hstage hdue
    next => cases h
  next c r retries hstage =>
    rw [hstage]
    cases h
    exact .publishes c r retries hstage
  next c r retries due finish hstage =>
    rw [hstage]
    split at h
    next hdue =>
      cases h
      exact .wrote c r retries due finish hstage hdue
    next => cases h
  next c r retries due hstage =>
    rw [hstage]
    split at h
    next hdue =>
      cases h
      exact .paused c r retries due hstage hdue
    next => cases h

theorem step_of_latestLoop? (h : d.processor.component.latestLoop? = none) :
    d.step time reportFirst = none := by
  have hlatest := Option.map_eq_none_iff.1 h
  rw [step, hlatest]

theorem isRunning_of_step (h : d.step time reportFirst = some d') :
    d'.processor.isRunning = d.processor.isRunning ∧ d'.reader.isRunning = d.reader.isRunning := by
  cases hl : d.processor.component.latestLoop? with
  | none =>
      rw [step_of_latestLoop? hl] at h
      cases h
  | some l =>
      have htaken {i : Nat} {reader : Reader S} {answer : Option (Except ReadError Command)}
          (htake : d.reader.takeFrom i reportFirst = (reader, answer)) :
          reader.isRunning = d.reader.isRunning := by
        rw [← d.reader.isRunning_takeFrom i reportFirst, htake]
      have hmove := move_of_step hl h
      generalize d.next? reportFirst = command? at hmove
      cases hmove with
      | command _ _ _ _ htake => exact ⟨rfl, htaken htake⟩
      | report _ _ _ _ htake => exact ⟨rfl, htaken htake⟩
      | _ => exact ⟨rfl, rfl⟩

theorem next?_of_step (h : d.step time reportFirst = none) : d.next? reportFirst = none := by
  cases hl : d.processor.component.latestLoop? with
  | none => rw [next?, hl, Option.bind_none]
  | some l =>
      obtain ⟨asked, hlatest⟩ := Component.exists_latest? hl
      rw [next?, hl, Option.bind_some]
      cases hstage : l.stage with
      | reading i =>
          simp only [step, hlatest, hstage] at h
          rcases htake : d.reader.takeFrom i reportFirst with ⟨reader, _ | e | c⟩
          · simp [htake]
          · simp [htake] at h
          · simp [htake] at h
      | _ => rfl

end Desk

end CourierDispatch
