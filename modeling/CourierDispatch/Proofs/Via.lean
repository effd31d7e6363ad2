import Mathlib.Data.List.Basic

/-!
# Runs through states with a property

A run of a step function over a list goes from state to state. `Via` says of a run that all states but
the last one have a property. Runs are put together from parts, and what is reached by a proper prefix
of the list is one of the states in between.
-/

namespace CourierDispatch

/-- A run from one state to another, each step of which starts from a state with the property. -/
inductive Via {α β ε : Type} (step : α → β → Except ε α) (mid : α → Prop) :
    α → List β → α → Prop
  | nil (s : α) : Via step mid s [] s
  | cons {s s' s'' : α} {b : β} {bs : List β} (hmid : mid s) (hstep : step s b = .ok s')
      (hrest : Via step mid s' bs s'') : Via step mid s (b :: bs) s''

theorem exists_of_foldlM_append {α β ε : Type} {step : α → β → Except ε α} {s s'' : α}
    {bs cs : List β} (h : (bs ++ cs).foldlM step s = .ok s'') :
    ∃ s', bs.foldlM step s = .ok s' ∧ cs.foldlM step s' = .ok s'' := by
  rw [List.foldlM_append] at h
  cases hbs : bs.foldlM step s with
  | error e =>
      rw [hbs] at h
      cases h
  | ok s' =>
      rw [hbs] at h
      exact ⟨s', rfl, h⟩

theorem exists_of_foldlM_cons {α β ε : Type} {step : α → β → Except ε α} {s s'' : α} {b : β}
    {bs : List β} (h : (b :: bs).foldlM step s = .ok s'') :
    ∃ s', step s b = .ok s' ∧ bs.foldlM step s' = .ok s'' := by
  rw [List.foldlM_cons] at h
  cases hstep : step s b with
  | error e =>
      rw [hstep] at h
      cases h
  | ok s' =>
      rw [hstep] at h
      exact ⟨s', rfl, h⟩

namespace Via

variable {α β ε : Type} {step : α → β → Except ε α} {mid : α → Prop} {s s' s'' : α} {b : β}
  {bs cs p : List β}

theorem single (hmid : mid s) (hstep : step s b = .ok s') : Via step mid s [b] s' :=
  .cons hmid hstep (.nil s')

/-- A run may begin in any state from which its first step leads to the same. -/
theorem change_start {t : α} (hmid : mid t) (hfirst : step t b = step s b)
    (h : Via step mid s (b :: bs) s') : Via step mid t (b :: bs) s' := by
  cases h with
  | cons _ hstep hrest => exact .cons hmid (hfirst.trans hstep) hrest

theorem foldlM_eq (h : Via step mid s bs s') : bs.foldlM step s = .ok s' := by
  induction h with
  | nil s => rfl
  | cons _ hstep _ ih =>
      rw [List.foldlM_cons, hstep]
      exact ih

theorem append (h : Via step mid s bs s') (h' : Via step mid s' cs s'') :
    Via step mid s (bs ++ cs) s'' := by
  induction h with
  | nil s => exact h'
  | cons hmid hstep _ ih => exact .cons hmid hstep (ih h')

/-- A run all of whose states are known, each by what is still to come. -/
theorem of_foldlM (known : List β → α → Prop) (hmid : ∀ s b bs, known (b :: bs) s → mid s)
    (hstep : ∀ s b bs s', known (b :: bs) s → step s b = .ok s' → known bs s')
    (hs : known bs s) (h : bs.foldlM step s = .ok s') : Via step mid s bs s' := by
  induction bs generalizing s with
  | nil =>
      cases h
      exact .nil _
  | cons b bs ih =>
      obtain ⟨m, hm, hrest⟩ := exists_of_foldlM_cons h
      exact .cons (hmid s b bs hs) hm (ih (hstep s b bs m hs hm) hrest)

theorem exists_mid (h : Via step mid s bs s') (hp : p <+: bs) (hne : p ≠ bs) :
    ∃ m, p.foldlM step s = .ok m ∧ mid m := by
  induction h generalizing p with
  | nil s => exact absurd (List.prefix_nil.1 hp) hne
  | @cons s s' s'' b bs hmid hstep _ ih =>
      cases p with
      | nil => exact ⟨s, rfl, hmid⟩
      | cons a p =>
          obtain ⟨rfl, hrest⟩ := List.cons_prefix_cons.1 hp
          obtain ⟨m, hm, hmid'⟩ := ih hrest fun h => hne (congrArg (a :: ·) h)
          refine ⟨m, ?_, hmid'⟩
          rw [List.foldlM_cons, hstep]
          exact hm

end Via

end CourierDispatch
