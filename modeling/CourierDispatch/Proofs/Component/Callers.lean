import CourierDispatch.Proofs.Component.Loops
import Mathlib.Data.List.Range

/-!
# Callers of a component

Any number of callers start and stop a component while its runs go on. A stop in progress holds the
activation that it has claimed, until the run has ended and is joined, or until the stop is dropped and
gives the activation back. `Callers` is a component with its stops in progress, `Callers.step` lets one
of the callers or one of the runs take a step.
-/

namespace CourierDispatch

variable {α γ : Type} [Loop α γ]

structure Callers (α : Type) where
  component : Component α
  /-- The activations that stops in progress hold. -/
  stops : List Nat := []
  /-- The runs that have been joined, the first one first. -/
  joined : List Nat := []
deriving Repr

namespace Callers

inductive Event (α : Type)
  | start (r : Run α)
  /-- A stop claims the activation. -/
  | stop
  /-- A run goes on, or comes to its end. -/
  | move (i : Nat) (loop : α)
  /-- All runs are asked to end. -/
  | cancel
  /-- A stop in progress finds its run at the end. -/
  | join (k : Nat)
  /-- A stop in progress is dropped. -/
  | drop (k : Nat)

def phase (w : Callers α) : Phase := w.component.control.phase

def held (w : Callers α) : Option Nat := w.component.control.held

def start (w : Callers α) (r : Run α) : Except LifecycleError (Callers α) :=
  (w.component.start r).map fun component => { w with component }

def stop (w : Callers α) : Except LifecycleError (Callers α) :=
  w.component.claim.map fun (i, component) => { w with component, stops := i :: w.stops }

/-- A run that has ended does not go on. -/
def move (w : Callers α) (i : Nat) (loop : α) : Callers α :=
  match w.component.ending? i with
  | none => { w with component := w.component.setLoop i loop }
  | some _ => w

/-- Joins the run of a stop, if it has ended: the component is stopped and the stop answers. -/
def join (w : Callers α) (k : Nat) : Option (Callers α × Except LifecycleError γ) :=
  (w.stops[k]?).bind fun i =>
    (w.component.ending? i).map fun e =>
      (⟨w.component.finish, w.stops.eraseIdx k, w.joined ++ [i]⟩, e.answer w.component.label)

def drop (w : Callers α) (k : Nat) : Callers α :=
  match w.stops[k]? with
  | some i => { w with component := w.component.giveBack i, stops := w.stops.eraseIdx k }
  | none => w

/-- Takes a step. A call that fails changes nothing, nor does a stop whose run has not ended. -/
def step (w : Callers α) : Event α → Callers α
  | .start r => (w.start r).toOption.getD w
  | .stop => w.stop.toOption.getD w
  | .move i loop => w.move i loop
  | .cancel => { w with component := w.component.askAll }
  | .join k => ((w.join k).map Prod.fst).getD w
  | .drop k => w.drop k

def run (w : Callers α) (events : List (Event α)) : Callers α := events.foldl step w

/-- Who has the activation when there are `runs` of them and `n` are joined: nobody, the component, or a
stop in progress. -/
inductive Custody (n runs : Nat) : Lifecycle Nat → (stops : List Nat) → Prop
  | stopped (h : runs = n) : Custody n runs ⟨.stopped, none⟩ []
  | running (h : runs = n + 1) : Custody n runs ⟨.running, some n⟩ []
  /-- The last stop has been dropped. -/
  | abandoned (h : runs = n + 1) : Custody n runs ⟨.stopping, some n⟩ []
  | claimed (h : runs = n + 1) : Custody n runs ⟨.stopping, none⟩ [n]

namespace Custody

variable {n runs i k : Nat} {l l' : Lifecycle Nat} {stops : List Nat}

theorem start (h : Custody n runs l stops) (hl : l.start? runs = some l') :
    Custody n (runs + 1) l' stops := by
  cases h with
  | stopped h =>
      cases hl
      rw [h]
      exact .running rfl
  | running => cases hl
  | abandoned => cases hl
  | claimed => cases hl

theorem claim (h : Custody n runs l stops) (hl : l.claim? = some (i, l')) :
    Custody n runs l' (i :: stops) := by
  cases h with
  | stopped => cases hl
  | running h =>
      cases hl
      exact .claimed h
  | abandoned h =>
      cases hl
      exact .claimed h
  | claimed => cases hl

theorem of_stop (h : Custody n runs l stops) (hi : stops[k]? = some i) :
    l = ⟨.stopping, none⟩ ∧ i = n ∧ stops.eraseIdx k = [] ∧ runs = n + 1 := by
  cases h with
  | stopped => cases hi
  | running => cases hi
  | abandoned => cases hi
  | claimed h =>
      cases k with
      | zero =>
          cases hi
          exact ⟨rfl, rfl, rfl, h⟩
      | succ k => cases hi

theorem finish (h : Custody n runs l stops) (hi : stops[k]? = some i) :
    Custody (n + 1) runs l.finish (stops.eraseIdx k) := by
  obtain ⟨rfl, -, herase, hruns⟩ := h.of_stop hi
  rw [herase]
  exact .stopped hruns

theorem giveBack (h : Custody n runs l stops) (hi : stops[k]? = some i) :
    Custody n runs (l.giveBack i) (stops.eraseIdx k) := by
  obtain ⟨rfl, rfl, herase, hruns⟩ := h.of_stop hi
  rw [herase]
  exact .abandoned hruns

theorem runs_eq (h : Custody n runs l stops) :
    runs = n + if l.phase = .stopped then 0 else 1 := by
  cases h with
  | stopped h => exact h
  | running h => exact h
  | abandoned h => exact h
  | claimed h => exact h

theorem of_running (h : Custody n runs l stops) (hl : l.phase = .running) :
    l.held.isSome ∧ stops = [] := by
  cases h with
  | running => exact ⟨rfl, rfl⟩
  | stopped => cases hl
  | abandoned => cases hl
  | claimed => cases hl

/-- While the component is running, it holds the activation of the latest run. -/
theorem held_of_running (h : Custody n runs l stops) (hl : l.phase = .running) :
    ∃ i, l.held = some i ∧ runs = i + 1 := by
  cases h with
  | running h => exact ⟨n, rfl, h⟩
  | stopped => cases hl
  | abandoned => cases hl
  | claimed => cases hl

theorem of_stopping (h : Custody n runs l stops) (hl : l.phase = .stopping) :
    l.held.isSome ∧ stops = [] ∨ l.held = none ∧ ∃ i, stops = [i] := by
  cases h with
  | abandoned => exact .inl ⟨rfl, rfl⟩
  | claimed => exact .inr ⟨rfl, n, rfl⟩
  | stopped => cases hl
  | running => cases hl

theorem claim?_eq_none_iff (h : Custody n runs l stops) :
    l.claim? = none ↔ l.phase = .stopped ∨ stops ≠ [] := by
  cases h with
  | stopped => exact iff_of_true rfl (.inl rfl)
  | running => exact iff_of_false nofun (by simp)
  | abandoned => exact iff_of_false nofun (by simp)
  | claimed => exact iff_of_true rfl (.inr (by simp))

end Custody

/-- All runs but the one that is activated are joined, each of them once, and have ended. -/
structure Tidy (w : Callers α) : Prop where
  custody : Custody w.joined.length w.component.runs.length w.component.control w.stops
  joined : w.joined = List.range w.joined.length
  ended : ∀ i ∈ w.joined, (w.component.ending? i).isSome

variable {w w' : Callers α}

theorem tidy_new (label : String) : Tidy (⟨{ label }, [], []⟩ : Callers α) :=
  ⟨.stopped rfl, rfl, by simp⟩

theorem Tidy.of_loops (h : w.Tidy) {component : Component α}
    (hcontrol : component.control = w.component.control)
    (hlength : component.loops.length = w.component.loops.length)
    (hended : ∀ i, (w.component.ending? i).isSome → (component.ending? i).isSome) :
    Tidy { w with component } where
  custody := by
    have hcustody := h.custody
    rw [← Component.length_loops, ← hlength, Component.length_loops, ← hcontrol] at hcustody
    exact hcustody
  joined := h.joined
  ended i hi := hended i (h.ended i hi)

theorem Tidy.start (h : w.Tidy) {r : Run α} (hw : w.start r = .ok w') : w'.Tidy := by
  unfold Callers.start Component.start at hw
  cases hl : w.component.control.start? w.component.runs.length with
  | none =>
      rw [hl] at hw
      cases hw
  | some control =>
      rw [hl] at hw
      cases hw
      refine ⟨?_, h.joined, fun i hi => ?_⟩
      · change Custody _ (w.component.runs ++ [r]).length control w.stops
        rw [List.length_append]
        exact h.custody.start hl
      · have hended := h.ended i hi
        obtain ⟨e, he⟩ := Option.isSome_iff_exists.1 hended
        obtain ⟨loop, hloop, -⟩ := Option.bind_eq_some_iff.1 he
        have hlt := (List.getElem?_eq_some_iff.1 hloop).1
        change ((Component.loops { w.component with control, runs := _ })[i]?.bind _).isSome
        rw [Component.loops_append, List.getElem?_append_left hlt]
        exact hended

theorem Tidy.stop (h : w.Tidy) (hw : w.stop = .ok w') : w'.Tidy := by
  unfold Callers.stop Component.claim at hw
  cases hl : w.component.control.claim? with
  | none =>
      rw [hl] at hw
      cases hw
  | some claimed =>
      obtain ⟨i, control⟩ := claimed
      rw [hl] at hw
      cases hw
      refine ⟨?_, h.joined, fun j hj => ?_⟩
      · change Custody _ (List.modify w.component.runs i _).length control (i :: w.stops)
        rw [List.length_modify]
        exact h.custody.claim hl
      · have hended := h.ended j hj
        rw [Component.ending?] at hended ⊢
        rw [Component.loops_ask]
        exact hended

theorem Tidy.setLoop (h : w.Tidy) {i : Nat} {loop : α}
    (hloop : ∀ l, w.component.loops[i]? = some l →
      (Loop.ending? l).isSome → (Loop.ending? loop).isSome) :
    Tidy { w with component := w.component.setLoop i loop } := by
  refine h.of_loops rfl (by simp) fun j hj => ?_
  rw [Component.ending?] at hj ⊢
  rw [Component.loops_setLoop, List.getElem?_set']
  by_cases hij : i = j
  · subst hij
    cases hl : w.component.loops[i]? with
    | none =>
        rw [hl] at hj
        cases hj
    | some l =>
        rw [hl] at hj
        simpa using hloop l hl hj
  · simpa [hij] using hj

theorem Tidy.move (h : w.Tidy) (i : Nat) (loop : α) : (w.move i loop).Tidy := by
  unfold Callers.move
  split
  next hi =>
    refine h.setLoop fun l hl hended => ?_
    rw [Component.ending?, hl, Option.bind_some] at hi
    rw [hi] at hended
    cases hended
  next => exact h

theorem Tidy.cancel (h : w.Tidy) : Tidy { w with component := w.component.askAll } := by
  refine h.of_loops rfl (by simp) fun i hi => ?_
  rw [Component.ending?, Component.loops_askAll]
  exact hi

theorem exists_of_join {k : Nat} {a : Except LifecycleError γ} (h : w.join k = some (w', a)) :
    ∃ i e, w.stops[k]? = some i ∧ w.component.ending? i = some e ∧
      w' = ⟨w.component.finish, w.stops.eraseIdx k, w.joined ++ [i]⟩ ∧
      a = e.answer w.component.label := by
  obtain ⟨i, hi, hmap⟩ := Option.bind_eq_some_iff.1 h
  obtain ⟨e, he, hpair⟩ := Option.map_eq_some_iff.1 hmap
  cases hpair
  exact ⟨i, e, hi, he, rfl, rfl⟩

theorem Tidy.join (h : w.Tidy) {k : Nat} {a : Except LifecycleError γ}
    (hw : w.join k = some (w', a)) : w'.Tidy := by
  obtain ⟨i, e, hi, he, rfl, -⟩ := exists_of_join hw
  obtain ⟨-, rfl, -, -⟩ := h.custody.of_stop hi
  refine ⟨?_, ?_, ?_⟩
  · change Custody (w.joined ++ [w.joined.length]).length _ _ _
    rw [List.length_append]
    exact h.custody.finish hi
  · change w.joined ++ [w.joined.length] = List.range (w.joined ++ [w.joined.length]).length
    rw [List.length_append, List.length_singleton, List.range_succ, ← h.joined]
  · intro j hj
    rcases List.mem_append.1 hj with hj | hj
    · exact h.ended j hj
    · rw [List.mem_singleton.1 hj]
      exact Option.isSome_of_mem he

theorem Tidy.drop (h : w.Tidy) (k : Nat) : (w.drop k).Tidy := by
  unfold Callers.drop
  split
  next i hi => exact ⟨h.custody.giveBack hi, h.joined, h.ended⟩
  next => exact h

theorem Tidy.step (h : w.Tidy) (e : Event α) : (w.step e).Tidy := by
  cases e with
  | start r =>
      change ((Callers.start w r).toOption.getD w).Tidy
      cases hw : Callers.start w r with
      | error e => exact h
      | ok w' => exact h.start hw
  | stop =>
      change ((Callers.stop w).toOption.getD w).Tidy
      cases hw : Callers.stop w with
      | error e => exact h
      | ok w' => exact h.stop hw
  | move i loop => exact h.move i loop
  | cancel => exact h.cancel
  | join k =>
      change (((Callers.join w k).map Prod.fst).getD w).Tidy
      cases hw : Callers.join w k with
      | none => exact h
      | some answer => exact h.join hw
  | drop k => exact h.drop k

theorem Tidy.run (h : w.Tidy) (events : List (Event α)) : (w.run events).Tidy := by
  induction events generalizing w with
  | nil => exact h
  | cons e events ih => exact ih (h.step e)

/-- What callers can rely on. -/
structure SingleActivation (w : Callers α) : Prop where
  /-- Runs are joined in the order in which they were started, and none twice. -/
  joined : w.joined = List.range w.joined.length
  /-- One run at most has been started and not joined, and this while the component is not stopped. -/
  unjoined : w.component.runs.length = w.joined.length + if w.phase = .stopped then 0 else 1
  ended : ∀ i ∈ w.joined, (w.component.ending? i).isSome
  start_iff : ∀ r, (∃ w', w.start r = .ok w') ↔ w.phase = .stopped
  start_refused : ∀ r, w.phase ≠ .stopped →
    w.start r = .error (.alreadyStarted w.component.label) ∧ w.step (.start r) = w
  running : w.phase = .running → w.held.isSome ∧ w.stops = []
  /-- The component has the activation, or exactly one stop in progress has it. -/
  stopping : w.phase = .stopping →
    w.held.isSome ∧ w.stops = [] ∨ w.held = none ∧ ∃ i, w.stops = [i]
  stop_iff : w.stop = .error (.notRunning w.component.label) ↔ w.phase = .stopped ∨ w.stops ≠ []
  stop_refused : w.phase = .stopped ∨ w.stops ≠ [] → w.step .stop = w
  /-- A stop that joins its run leaves the component stopped, and answers with the ending of the run
  that was started last. -/
  join : ∀ k w' a, w.join k = some (w', a) →
    w'.phase = .stopped ∧ ∃ r e, w.component.latest? = some r ∧ Loop.ending? r.loop = some e ∧
      a = e.answer w.component.label

theorem start_iff (w : Callers α) (r : Run α) :
    (∃ w', w.start r = .ok w') ↔ w.phase = .stopped := by
  unfold start Component.start Lifecycle.start? phase
  cases hphase : w.component.control.phase <;> simp [Except.map]

theorem start_refused (w : Callers α) (r : Run α) (hphase : w.phase ≠ .stopped) :
    w.start r = .error (.alreadyStarted w.component.label) ∧ w.step (.start r) = w := by
  have hstart : w.start r = .error (.alreadyStarted w.component.label) := by
    unfold start Component.start Lifecycle.start?
    unfold phase at hphase
    cases hp : w.component.control.phase with
    | stopped => exact absurd hp hphase
    | running => rfl
    | stopping => rfl
  refine ⟨hstart, ?_⟩
  change (Callers.start w r).toOption.getD w = w
  rw [hstart]
  rfl

theorem Tidy.stop_iff (h : w.Tidy) :
    w.stop = .error (.notRunning w.component.label) ↔ w.phase = .stopped ∨ w.stops ≠ [] := by
  rw [phase, ← h.custody.claim?_eq_none_iff]
  unfold Callers.stop Component.claim
  cases w.component.control.claim? <;> simp [Except.map]

theorem Tidy.stop_refused (h : w.Tidy) (hw : w.phase = .stopped ∨ w.stops ≠ []) :
    w.step .stop = w := by
  change (Callers.stop w).toOption.getD w = w
  rw [h.stop_iff.2 hw]
  rfl

theorem Tidy.latest_of_join (h : w.Tidy) {k : Nat} {a : Except LifecycleError γ}
    (hw : w.join k = some (w', a)) :
    w'.phase = .stopped ∧ ∃ r e, w.component.latest? = some r ∧ Loop.ending? r.loop = some e ∧
      a = e.answer w.component.label := by
  obtain ⟨i, e, hi, he, rfl, ha⟩ := exists_of_join hw
  obtain ⟨-, rfl, -, hruns⟩ := h.custody.of_stop hi
  obtain ⟨loop, hloop, hending⟩ := Option.bind_eq_some_iff.1 he
  rw [Component.loops, List.getElem?_map] at hloop
  obtain ⟨r, hr, rfl⟩ := Option.map_eq_some_iff.1 hloop
  refine ⟨rfl, r, e, ?_, hending, ha⟩
  rw [Component.latest?, List.getLast?_eq_getElem?, hruns]
  exact hr

theorem Tidy.singleActivation (h : w.Tidy) : w.SingleActivation where
  joined := h.joined
  unjoined := h.custody.runs_eq
  ended := h.ended
  start_iff := w.start_iff
  start_refused := w.start_refused
  running := h.custody.of_running
  stopping := h.custody.of_stopping
  stop_iff := h.stop_iff
  stop_refused := h.stop_refused
  join _ _ _ hw := h.latest_of_join hw

/-- Whatever the callers do and however the runs go on, there is one activation at most. -/
theorem run_singleActivation (label : String) (events : List (Event α)) :
    SingleActivation (run ⟨{ label }, [], []⟩ events) :=
  ((tidy_new label).run events).singleActivation

/-- A stop is dropped, then the run panics, and a later stop finds out. -/
example :
    let events : List (Event (Option (Ending Unit))) :=
      [.start ⟨false, none⟩, .stop, .drop 0, .move 0 (some .panic), .stop]
    ((run ⟨{ label := "reader" }, [], []⟩ events).join 0).map Prod.snd =
      some (.error (.panicked "reader")) := by
  rfl

end Callers

end CourierDispatch
