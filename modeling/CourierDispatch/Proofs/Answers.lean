import Mathlib.Data.List.Basic

/-!
# Answers

An answer that is made of another one is a success if the other is. Whatever has a state and answers to
each step can be taken through a list of steps; what it answers in one place does not depend on the steps
that come later.
-/

namespace CourierDispatch

section

variable {ε α β : Type} {x : Except ε α} {b : β}

theorem map_eq_ok_iff {f : α → β} : x.map f = .ok b ↔ ∃ a, x = .ok a ∧ f a = b := by
  cases x <;> simp [Except.map]

theorem mapError_eq_ok_iff {δ : Type} {f : ε → δ} {a : α} :
    x.mapError f = .ok a ↔ x = .ok a := by
  cases x <;> simp [Except.mapError]

theorem bind_eq_ok_iff {f : α → Except ε β} : x.bind f = .ok b ↔ ∃ a, x = .ok a ∧ f a = .ok b := by
  cases x <;> simp [Except.bind]

end

section

variable {σ α β : Type} {step : σ → α → σ × β}

/-- What the steps make of a state, with the answer to each. -/
def inTurn (step : σ → α → σ × β) (s : σ) : List α → σ × List β
  | [] => (s, [])
  | a :: as =>
    let (s, b) := step s a
    let (s, bs) := inTurn step s as
    (s, b :: bs)

theorem inTurn_cons (s : σ) (a : α) (as : List α) :
    inTurn step s (a :: as) =
      ((inTurn step (step s a).1 as).1, (step s a).2 :: (inTurn step (step s a).1 as).2) :=
  rfl

theorem inTurn_append (s : σ) (as as' : List α) :
    inTurn step s (as ++ as') =
      ((inTurn step (inTurn step s as).1 as').1,
        (inTurn step s as).2 ++ (inTurn step (inTurn step s as).1 as').2) := by
  induction as generalizing s with
  | nil => rfl
  | cons a as ih => rw [List.cons_append, inTurn_cons, inTurn_cons, ih, List.cons_append]

theorem length_inTurn (s : σ) (as : List α) : (inTurn step s as).2.length = as.length := by
  induction as generalizing s with
  | nil => rfl
  | cons a as ih => rw [inTurn_cons, List.length_cons, List.length_cons, ih]

theorem getElem?_inTurn (s : σ) (before : List α) (a : α) (after : List α) :
    (inTurn step s (before ++ a :: after)).2[before.length]? =
      some (step (inTurn step s before).1 a).2 := by
  rw [inTurn_append, inTurn_cons, List.getElem?_append_right (Nat.le_of_eq (length_inTurn s before)),
    length_inTurn, Nat.sub_self, List.getElem?_cons_zero]

end

end CourierDispatch
