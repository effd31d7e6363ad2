import CourierDispatch.Proofs.Answers
import CourierDispatch.Proofs.Keyed
import CourierDispatch.Proofs.Service.Layers
import CourierDispatch.Simulation.Scripted
import Mathlib.Algebra.BigOperators.Group.Finset.Piecewise

/-!
# What the layers answer and count

Commands are handled one after the other by the layers around a service of which nothing is known. A call
that ends in time is what it would be without the layers. Any other is given up when its time is over,
and the answer tells the limit. Each call is counted once, under the name of its command and the outcome
that the layers answer, so the counters of commands gain as much as there were calls.
-/

namespace CourierDispatch

/-! The counters. -/

def Counter.countsCommands : Counter → Bool
  | commands _ _ => true
  | durations => false

namespace Counts

variable {m : Counts} {j k : Counter}

def ofCommands (m : Counts) : Finset Counter :=
  (m.map Prod.fst).toFinset.filter fun k => k.countsCommands

/-- What the counters of commands add up to. -/
def total (m : Counts) : Nat := ∑ k ∈ m.ofCommands, m.get k

theorem mem_ofCommands : k ∈ m.ofCommands ↔ k ∈ m.map Prod.fst ∧ k.countsCommands = true := by
  rw [ofCommands, Finset.mem_filter, List.mem_toFinset]

theorem get_cons (n : Nat) : get k ((j, n) :: m) = if k = j then n else get k m := by
  rw [get, List.lookup_cons]
  by_cases h : k = j
  · rw [if_pos h, beq_iff_eq.2 h]
    rfl
  · rw [if_neg h, beq_eq_false_iff_ne.2 h]
    rfl

theorem get_eq_zero (h : k ∉ m.map Prod.fst) : get k m = 0 := by
  rw [get, Option.not_isSome_iff_eq_none.1 fun hsome => h (lookup_isSome_iff_mem_keys.1 hsome)]
  rfl

theorem get_bump (m : Counts) (j k : Counter) :
    get k (bump j m) = get k m + if k = j then 1 else 0 := by
  induction m with
  | nil =>
      rw [bump, get_cons]
      split <;> rfl
  | cons e m ih =>
      obtain ⟨i, n⟩ := e
      rw [bump]
      split
      next hij =>
        subst hij
        rw [get_cons, get_cons]
        split <;> rfl
      next hij =>
        rw [get_cons, get_cons, ih]
        split
        next hki => rw [if_neg (hki ▸ hij), Nat.add_zero]
        next => rfl

theorem mem_keys_bump : k ∈ (bump j m).map Prod.fst ↔ k = j ∨ k ∈ m.map Prod.fst := by
  induction m with
  | nil => rw [bump, List.map_singleton, List.mem_singleton, List.map_nil, or_iff_left List.not_mem_nil]
  | cons e m ih =>
      obtain ⟨i, n⟩ := e
      rw [bump]
      split
      next hij => rw [List.map_cons, List.map_cons, List.mem_cons, ← hij, or_self_left]
      next hij => rw [List.map_cons, List.mem_cons, ih, List.map_cons, List.mem_cons, or_left_comm]

/-- A counter of commands adds what it gains to the total, and the others add nothing to it. -/
theorem total_bump (m : Counts) (j : Counter) :
    (bump j m).total = m.total + if j.countsCommands then 1 else 0 := by
  by_cases hj : j.countsCommands = true
  · have hkeys : (bump j m).ofCommands = insert j m.ofCommands := by
      ext k
      rw [mem_ofCommands, mem_keys_bump, Finset.mem_insert, mem_ofCommands, or_and_right]
      exact or_congr_left (and_iff_left_of_imp fun hk => hk ▸ hj)
    have hnew : j ∉ m.ofCommands → get j m = 0 := fun h =>
      get_eq_zero fun hk => h (mem_ofCommands.2 ⟨hk, hj⟩)
    rw [if_pos hj]
    calc (bump j m).total
        = ∑ k ∈ insert j m.ofCommands, (get k m + if k = j then 1 else 0) := by
          rw [total, hkeys]
          exact Finset.sum_congr rfl fun k _ => get_bump m j k
      _ = ∑ k ∈ insert j m.ofCommands, get k m + 1 := by
          rw [Finset.sum_add_distrib, Finset.sum_ite_eq', if_pos (Finset.mem_insert_self j _)]
      _ = m.total + 1 := by
          rw [Finset.sum_insert_of_eq_zero_if_notMem hnew]
          rfl
  · have hkeys : (bump j m).ofCommands = m.ofCommands := by
      ext k
      rw [mem_ofCommands, mem_keys_bump, mem_ofCommands, or_and_right]
      exact or_iff_right fun hk => hj (hk.1 ▸ hk.2)
    rw [if_neg hj, total, hkeys, Nat.add_zero]
    refine Finset.sum_congr rfl fun k hk => ?_
    have hkj : k ≠ j := fun h => hj (h ▸ (mem_ofCommands.1 hk).2)
    rw [get_bump, if_neg hkj, Nat.add_zero]

end Counts

/-! The layers. -/

namespace Stack

/-- A command that has been handled: the call of the service inside, and the call of the layers. -/
structure Handled (S : Type) where
  command : Command
  inner : Call S Outcome
  outer : Call (Stack S) Outcome

namespace Handled

variable {S : Type}

def outcome (h : Handled S) : Outcome := h.outer.run.2

def left (h : Handled S) : S := h.outer.run.1.inner.inner

/-- From outside, and to the service inside, it is as if this had been the call. -/
structure Shows (h : Handled S) (r : Call S Outcome) : Prop where
  latency : h.outer.latency = r.latency
  outcome : h.outcome = r.run.2
  left : h.left = r.run.1

/-- What comes of a call under a time limit. -/
structure Bounded (h : Handled S) (timeout : Nat) : Prop where
  /-- The limit holds, whatever the call inside does. -/
  ends : ∃ ms, h.outer.latency = some ms ∧ ms ≤ timeout
  /-- A call that ends in time is what it would be without the layers. -/
  inTime : ∀ ms, h.inner.latency = some ms → ms ≤ timeout → h.Shows h.inner
  /-- Any other is given up when the time is over. -/
  late : h.inner.Late timeout →
    h.outer.latency = some timeout ∧ h.outcome = .error (.timeout (Timed.told timeout)) ∧
      h.left = h.inner.begun

end Handled

variable {S : Type} [Service S]

/-- Handles a command while nothing else happens. -/
def handle (s : Stack S) (c : Command) : Stack S × Handled S :=
  ((Service.call s c).run.1, ⟨c, Service.call s.inner.inner c, Service.call s c⟩)

def handleAll (s : Stack S) (cs : List Command) : Stack S × List (Handled S) := inTurn handle s cs

variable {s : Stack S}

theorem handleAll_cons (c : Command) (cs : List Command) :
    s.handleAll (c :: cs) =
      (((s.handle c).1.handleAll cs).1, (s.handle c).2 :: ((s.handle c).1.handleAll cs).2) :=
  rfl

theorem timeout_handle (c : Command) : (s.handle c).1.inner.timeout = s.inner.timeout := rfl

/-- The layers show what the limit makes of the call inside. -/
theorem shows_handle (c : Command) :
    (s.handle c).2.Shows (Timed.limit s.inner.timeout (s.handle c).2.inner) :=
  ⟨rfl, rfl, rfl⟩

theorem handle_inTime (c : Command) {ms : Nat} (h : (s.handle c).2.inner.latency = some ms)
    (hms : ms ≤ s.inner.timeout) : (s.handle c).2.Shows (s.handle c).2.inner := by
  have hshows := s.shows_handle c
  rwa [Timed.limit_inTime h hms] at hshows

theorem handle_late (c : Command) (h : (s.handle c).2.inner.Late s.inner.timeout) :
    (s.handle c).2.outer.latency = some s.inner.timeout ∧
      (s.handle c).2.outcome = .error (.timeout (Timed.told s.inner.timeout)) ∧
      (s.handle c).2.left = (s.handle c).2.inner.begun := by
  have hshows := s.shows_handle c
  rw [Timed.limit_late h] at hshows
  exact ⟨hshows.latency, hshows.outcome, hshows.left⟩

theorem bounded_handle (c : Command) : (s.handle c).2.Bounded s.inner.timeout where
  ends := by
    rcases (s.handle c).2.inner.inTime_or_late s.inner.timeout with ⟨ms, hlatency, hms⟩ | hlate
    · exact ⟨ms, (handle_inTime c hlatency hms).latency.trans hlatency, hms⟩
    · exact ⟨s.inner.timeout, (handle_late c hlate).1, Nat.le_refl _⟩
  inTime _ := handle_inTime c
  late := handle_late c

/-- What is counted is the outcome that the layers answer. -/
theorem counts_handle (c : Command) :
    (s.handle c).1.counts = Metered.count c (s.handle c).2.outcome s.counts :=
  rfl

/-- A call is counted under the name of its command and the label of its outcome, and nowhere else. -/
theorem get_counts_handle (c : Command) (name label : String) :
    (s.handle c).1.counts.get (.commands name label) =
      s.counts.get (.commands name label) +
        if c.name = name ∧ (s.handle c).2.outcome.label = label then 1 else 0 := by
  have hother : Counter.commands name label ≠ .durations := nofun
  rw [counts_handle, Metered.count, Counts.get_bump, Counts.get_bump, if_neg hother, Nat.add_zero]
  simp only [Counter.commands.injEq, eq_comm]

theorem total_counts_handle (c : Command) :
    (s.handle c).1.counts.total = s.counts.total + 1 := by
  rw [counts_handle, Metered.count, Counts.total_bump, Counts.total_bump]
  rfl

/-- What the layers owe to those who have commands handled. -/
structure Measured (s : Stack S) (cs : List Command) : Prop where
  /-- Every command is handled, in its turn. -/
  commands : (s.handleAll cs).2.map Handled.command = cs
  bounded : ∀ h ∈ (s.handleAll cs).2, h.Bounded s.inner.timeout
  /-- The limit is told as it is, if 64 bits hold it. -/
  told : s.inner.timeout < 1 <<< 64 → Timed.told s.inner.timeout = s.inner.timeout
  /-- A counter of commands gains as much as there are calls with its name and its label. -/
  counted : ∀ name label, (s.handleAll cs).1.counts.get (.commands name label) =
    s.counts.get (.commands name label) +
      (s.handleAll cs).2.countP fun h => h.command.name = name ∧ h.outcome.label = label
  /-- Together these counters gain as much as there are calls; -/
  total : (s.handleAll cs).1.counts.total = s.counts.total + cs.length
  /-- those of new layers add up to the number of calls. -/
  fresh : ∀ timeout inner, s = stack timeout inner → (s.handleAll cs).1.counts.total = cs.length

theorem commands_handleAll (cs : List Command) : (s.handleAll cs).2.map Handled.command = cs := by
  induction cs generalizing s with
  | nil => rfl
  | cons c cs ih =>
      rw [handleAll_cons, List.map_cons, ih]
      rfl

theorem bounded_handleAll (cs : List Command) :
    ∀ h ∈ (s.handleAll cs).2, h.Bounded s.inner.timeout := by
  induction cs generalizing s with
  | nil => exact List.forall_mem_nil _
  | cons c cs ih =>
      rw [handleAll_cons]
      refine List.forall_mem_cons.2 ⟨bounded_handle c, ?_⟩
      rw [← timeout_handle c]
      exact ih

theorem counted_handleAll (cs : List Command) (name label : String) :
    (s.handleAll cs).1.counts.get (.commands name label) =
      s.counts.get (.commands name label) +
        (s.handleAll cs).2.countP fun h => h.command.name = name ∧ h.outcome.label = label := by
  induction cs generalizing s with
  | nil => rfl
  | cons c cs ih =>
      rw [handleAll_cons, ih, get_counts_handle, List.countP_cons, Nat.add_assoc, Nat.add_comm (ite _ _ _)]
      simp only [decide_eq_true_eq]
      rfl

theorem total_handleAll (cs : List Command) :
    (s.handleAll cs).1.counts.total = s.counts.total + cs.length := by
  induction cs generalizing s with
  | nil => rfl
  | cons c cs ih =>
      rw [handleAll_cons, ih, total_counts_handle, List.length_cons, Nat.add_assoc, Nat.add_comm 1]

/-- The layers bound and count the calls of every service and alter nothing. -/
theorem handleAll_measured (s : Stack S) (cs : List Command) : s.Measured cs where
  commands := commands_handleAll cs
  bounded := bounded_handleAll cs
  told := Timed.told_eq
  counted := counted_handleAll cs
  total := total_handleAll cs
  fresh timeout inner hs := by
    rw [total_handleAll, hs]
    exact Nat.zero_add _

/-- The last moment is in time, and what comes later is counted as a time-out. -/
example :
    let couriers : Simulation.ScriptedCouriers := { script := [⟨100, .none⟩, ⟨101, .none⟩] }
    let h := stack 100 (⟨couriers, .counting 0⟩ : Dispatcher Simulation.ScriptedCouriers)
    let c : Command := ⟨"c1", CommandKind.unassignCourier.wireName, .object [("orderID", .string "o1")], {}⟩
    let (s, handled) := h.handleAll [c, c, { c with name := "other" }]
    handled.map (fun h => (h.outer.latency, h.outcome.label)) =
        [(some 100, "no_result"), (some 100, "timeout"), (some 0, "unrecognized")] ∧
      s.counts.get (.commands c.name "timeout") = 1 ∧ s.counts.total = 3 := by
  decide

end Stack

end CourierDispatch
