import CourierDispatch.Proofs.Dispatcher

/-!
# Layers around a service

A call that ends in time is let through by the time limit, and any other is given up, so below a time
limit every call comes to an end. A call that ends at once is always in time, and counting does not change
its answer. So the layered dispatcher of a pool goes by a ledger as well.
-/

namespace CourierDispatch

namespace Call

variable {σ α : Type} {c : Call σ α} {millis : Nat}

/-- The call does not end within so many milliseconds: it ends later, or never. -/
def Late (c : Call σ α) (millis : Nat) : Prop := ∀ ms, c.latency = some ms → millis < ms

theorem endsWithin_iff : c.endsWithin millis = true ↔ ∃ ms, c.latency = some ms ∧ ms ≤ millis := by
  unfold endsWithin
  split
  next ms hms => simp [hms]
  next hnone => simp [hnone]

theorem inTime_or_late (c : Call σ α) (millis : Nat) :
    (∃ ms, c.latency = some ms ∧ ms ≤ millis) ∨ c.Late millis := by
  by_cases h : ∃ ms, c.latency = some ms ∧ ms ≤ millis
  · exact .inl h
  · exact .inr fun ms hms => Nat.lt_of_not_le fun hle => h ⟨ms, hms, hle⟩

end Call

namespace Timed

section

variable {S : Type} {c : Call S Outcome} {timeout ms : Nat}

theorem told_eq (h : timeout < 1 <<< 64) : told timeout = timeout :=
  Nat.min_eq_left (Nat.le_sub_one_of_lt h)

theorem limit_inTime (h : c.latency = some ms) (hms : ms ≤ timeout) : limit timeout c = c :=
  if_pos (Call.endsWithin_iff.2 ⟨ms, h, hms⟩)

theorem limit_late (h : c.Late timeout) :
    limit timeout c =
      { latency := some timeout, begun := c.begun
        finish := fun s => (s, .error (.timeout (told timeout))) } := by
  refine if_neg fun hends => ?_
  obtain ⟨ms, hlatency, hms⟩ := Call.endsWithin_iff.1 hends
  exact absurd hms (Nat.not_le.2 (h ms hlatency))

theorem limit_now (timeout : Nat) (s : S) (o : Outcome) : limit timeout (.now s o) = .now s o :=
  limit_inTime rfl (Nat.zero_le timeout)

end

end Timed

/-- All calls of a service come to an end. -/
def Service.Prompt (S : Type) [Service S] : Prop :=
  ∀ (s : S) (c : Command), (Service.call s c).latency.isSome

theorem Timed.prompt (S : Type) [Service S] : Service.Prompt (Timed S) := by
  intro s c
  change (limit s.timeout (Service.call s.inner c)).latency.isSome
  rcases (Service.call s.inner c).inTime_or_late s.timeout with ⟨ms, hlatency, hms⟩ | hlate
  · rw [limit_inTime hlatency hms, hlatency]
    rfl
  · rw [limit_late hlate]
    rfl

namespace Stack

theorem prompt (S : Type) [Service S] : Service.Prompt (Stack S) :=
  fun s c => Timed.prompt S s.inner c

section Calls

variable {S : Type} [Service S] {h : Stack S} {c : Command} {s : S} {o : Outcome}

theorem timed_call (hc : Service.call h.inner.inner c = .now s o) :
    Service.call h.inner c = .now { h.inner with inner := s } o := by
  change (Timed.limit h.inner.timeout (Service.call h.inner.inner c)).within h.inner Timed.inner
    (fun inner s => { s with inner }) id = _
  rw [hc, Timed.limit_now]
  rfl

theorem latency_call (hc : Service.call h.inner.inner c = .now s o) :
    (Service.call h c).latency = some 0 := by
  change (Service.call h.inner c).latency = some 0
  rw [timed_call hc]
  rfl

theorem begun_call (hc : Service.call h.inner.inner c = .now s o) :
    (Service.call h c).begun.inner.inner = s := by
  change (Service.call h.inner c).begun.inner = s
  rw [timed_call hc]
  rfl

theorem finish_call (hc : Service.call h.inner.inner c = .now s o) (h' : Stack S) :
    ((Service.call h c).finish h').1.inner = h'.inner ∧ ((Service.call h c).finish h').2 = o := by
  change ((Service.call h.inner c).finish h'.inner).1 = h'.inner ∧
    ((Service.call h.inner c).finish h'.inner).2 = o
  rw [timed_call hc]
  exact ⟨rfl, rfl⟩

end Calls

def ledger (h : Stack (Dispatcher Pool.Drawing)) : Ledger :=
  ⟨h.inner.inner.useCases.pool, h.inner.inner.useCases.draws, h.inner.inner.ids⟩

theorem ledger_stack (timeout : Nat) (b : Ledger) :
    ledger (stack timeout (Dispatcher.ofLedger b)) = b := rfl

theorem latency_call_ledger (h : Stack (Dispatcher Pool.Drawing)) (c : Command) :
    (Service.call h c).latency = some 0 := by
  obtain ⟨o, ho, -⟩ := Dispatcher.handle_ofLedger h.ledger c
  exact latency_call ho

theorem ledger_begun (h : Stack (Dispatcher Pool.Drawing)) (c : Command) :
    ledger (Service.call h c).begun = (h.ledger.handle c).1 := by
  obtain ⟨o, ho, -⟩ := Dispatcher.handle_ofLedger h.ledger c
  rw [ledger, begun_call ho]
  rfl

/-- The end of the handling leaves the ledger alone, whatever has become of it since. -/
theorem ledger_finish (h h' : Stack (Dispatcher Pool.Drawing)) (c : Command) :
    ledger ((Service.call h c).finish h').1 = h'.ledger := by
  obtain ⟨o, ho, -⟩ := Dispatcher.handle_ofLedger h.ledger c
  rw [ledger, (finish_call ho h').1]
  rfl

theorem results_finish (h h' : Stack (Dispatcher Pool.Drawing)) (c : Command) :
    ((Service.call h c).finish h').2.results = (h.ledger.handle c).2.map Reply.result := by
  obtain ⟨o, ho, hresults⟩ := Dispatcher.handle_ofLedger h.ledger c
  rw [(finish_call ho h').2]
  exact hresults

end Stack

end CourierDispatch
