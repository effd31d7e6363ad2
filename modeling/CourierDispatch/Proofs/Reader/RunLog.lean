import Mathlib.Data.List.Range

/-!
# Logs by run

A log says of everything in it which run it belongs to. If it is kept in the order of the runs, it is
what is said of the first run, then what is said of the second run, and so on.
-/

namespace CourierDispatch

/-- What has happened, each time with the index of a run. -/
abbrev RunLog (α : Type) := List (Nat × α)

namespace RunLog

variable {α : Type} {log : RunLog α} {n i j : Nat} {x : α}

/-- What a log says of a run. -/
def of (log : RunLog α) (i : Nat) : List α := (log.filter fun e => e.1 = i).map Prod.snd

theorem of_append (log log' : RunLog α) (i : Nat) : of (log ++ log') i = of log i ++ of log' i := by
  simp [of]

theorem of_tagged_self (i : Nat) (xs : List α) : of (xs.map (Prod.mk i)) i = xs := by
  simp [of, List.filter_map, Function.comp_def]

theorem of_tagged_ne (h : i ≠ j) (xs : List α) : of (xs.map (Prod.mk i)) j = [] := by
  simp [of, List.filter_map, Function.comp_def, h]

theorem map_snd_tagged (i : Nat) (xs : List α) : (xs.map (Prod.mk i)).map Prod.snd = xs := by
  simp [Function.comp_def]

theorem of_eq_nil (h : ∀ e ∈ log, e.1 ≠ i) : of log i = [] := by
  rw [of, List.filter_eq_nil_iff.2 fun e he => by simpa using h e he, List.map_nil]

/-- The log is in the order of the runs, of which there are `n`. -/
structure InOrder (n : Nat) (log : RunLog α) : Prop where
  sorted : log.Pairwise fun e e' => e.1 ≤ e'.1
  below : ∀ e ∈ log, e.1 < n

theorem inOrder_nil (n : Nat) : InOrder n ([] : RunLog α) := ⟨.nil, by simp⟩

theorem InOrder.mono (h : InOrder n log) {m : Nat} (hm : n ≤ m) : InOrder m log :=
  ⟨h.sorted, fun e he => Nat.lt_of_lt_of_le (h.below e he) hm⟩

/-- What happens in a run is put down behind what has happened in it and in earlier ones. -/
theorem InOrder.append_tagged (h : InOrder n log) (hi : i < n) {xs : List α}
    (hle : xs = [] ∨ ∀ e ∈ log, e.1 ≤ i) : InOrder n (log ++ xs.map (Prod.mk i)) where
  sorted := by
    refine List.pairwise_append.2 ⟨h.sorted, ?_, ?_⟩
    · exact List.pairwise_map.2 (List.pairwise_of_forall fun _ _ => Nat.le_refl i)
    · intro e he e' he'
      obtain ⟨x, hx, rfl⟩ := List.mem_map.1 he'
      rcases hle with hnone | hle
      · rw [hnone] at hx
        cases hx
      · exact hle e he
  below e he := by
    rcases List.mem_append.1 he with he | he
    · exact h.below e he
    · obtain ⟨x, -, rfl⟩ := List.mem_map.1 he
      exact hi

theorem filter_lt_append_filter_le (h : log.Pairwise fun e e' => e.1 ≤ e'.1) (n : Nat) :
    log.filter (fun e => e.1 < n) ++ log.filter (fun e => n ≤ e.1) = log := by
  induction log with
  | nil => rfl
  | cons e log ih =>
      obtain ⟨hfirst, hlog⟩ := List.pairwise_cons.1 h
      by_cases hn : e.1 < n
      · simp [hn, ih hlog]
      · have hle : n ≤ e.1 := Nat.not_lt.1 hn
        have hnone : log.filter (fun e => e.1 < n) = [] := by
          rw [List.filter_eq_nil_iff]
          intro e' he'
          have hle' := hfirst e' he'
          simp only [decide_eq_true_eq]
          omega
        have hall : log.filter (fun e => n ≤ e.1) = log := by
          rw [List.filter_eq_self]
          intro e' he'
          have hle' := hfirst e' he'
          simp only [decide_eq_true_eq]
          omega
        simp [hn, hle, hnone, hall]

/-- A log is what it says of the runs, one after the other. -/
theorem InOrder.map_snd (h : InOrder n log) : log.map Prod.snd = (List.range n).flatMap (of log) := by
  induction n generalizing log with
  | zero =>
      cases log with
      | nil => rfl
      | cons e log => exact absurd (h.below e List.mem_cons_self) (Nat.not_lt_zero _)
  | succ n ih =>
      have hearlier : InOrder n (log.filter fun e => e.1 < n) :=
        ⟨h.sorted.filter _, fun e he => by simpa using (List.mem_filter.1 he).2⟩
      have hof : (List.range n).flatMap (of (log.filter fun e => e.1 < n)) =
          (List.range n).flatMap (of log) := by
        refine List.flatMap_congr fun i hi => ?_
        have hi : i < n := List.mem_range.1 hi
        rw [of, of, List.filter_filter]
        congr 1
        refine List.filter_congr fun e he => ?_
        simp only [← Bool.decide_and, decide_eq_decide]
        omega
      have hlast : (log.filter fun e => n ≤ e.1).map Prod.snd = of log n := by
        rw [of]
        congr 1
        refine List.filter_congr fun e he => ?_
        have hlt := h.below e he
        simp only [decide_eq_decide]
        omega
      calc log.map Prod.snd
          = (log.filter (fun e => e.1 < n) ++ log.filter (fun e => n ≤ e.1)).map Prod.snd := by
            rw [filter_lt_append_filter_le h.sorted]
        _ = (List.range n).flatMap (of log) ++ of log n := by
            rw [List.map_append, ih hearlier, hof, hlast]
        _ = (List.range (n + 1)).flatMap (of log) := by
            rw [List.range_succ, List.flatMap_append, List.flatMap_singleton]

end RunLog

end CourierDispatch
