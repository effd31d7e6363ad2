import CourierDispatch.Keyed
import Mathlib.Data.List.Nodup
import Mathlib.Data.Prod.Basic
import Mathlib.Data.String.Basic

/-!
# Keyed lists

If no key occurs twice, looking up finds every entry. A keyed list stays one when an entry is put in its
place. The entries of a keyed list make it up again, in whatever order they arrive.
-/

namespace CourierDispatch

theorem lookup_filter_ne {α β : Type} [DecidableEq α] (l : List (α × β)) (a b : α) :
    (l.filter (·.1 ≠ a)).lookup b = if b = a then none else l.lookup b := by
  induction l with
  | nil => simp
  | cons e l ih =>
      by_cases he : e.1 = a
      · rw [List.filter_cons_of_neg (by simp [he]), ih]
        by_cases hb : b = a
        · simp [hb]
        · have hbe : (b == e.1) = false := by simp [he, hb]
          rw [if_neg hb, if_neg hb, List.lookup_cons, hbe]
      · rw [List.filter_cons_of_pos (by simp [he]), List.lookup_cons, List.lookup_cons, ih]
        by_cases hb : b = e.1
        · simp [hb, he]
        · have hbe : (b == e.1) = false := by simp [hb]
          rw [hbe]

section Lookup

variable {α β : Type} [DecidableEq α] {l : List (α × β)} {a : α}

theorem lookup_isSome_iff_mem_keys : (l.lookup a).isSome ↔ a ∈ l.map Prod.fst := by
  simp only [List.lookup_isSome_iff, List.mem_map, beq_iff_eq]
  simp only [eq_comm]

theorem not_mem_keys_of_lookup_eq_none (h : l.lookup a = none) : a ∉ l.map Prod.fst := by
  rw [← lookup_isSome_iff_mem_keys, h]
  simp

theorem lookup_eq_some_iff_mem {b : β} (h : (l.map Prod.fst).Nodup) :
    l.lookup a = some b ↔ (a, b) ∈ l := by
  constructor
  · intro hab
    obtain ⟨before, after, rfl, -⟩ := List.lookup_eq_some_iff.1 hab
    exact List.mem_append_right _ List.mem_cons_self
  · intro hab
    obtain ⟨before, after, rfl⟩ := List.append_of_mem hab
    refine List.lookup_eq_some_iff.2 ⟨before, after, rfl, ?_⟩
    intro e he
    rw [List.map_append, List.nodup_append] at h
    have hne := h.2.2 e.1 (List.mem_map_of_mem he) a (List.mem_map_of_mem List.mem_cons_self)
    simpa using Ne.symm hne

end Lookup

namespace Keyed

theorem nodup_keys {κ α : Type} [LinearOrder κ] {xs : List (κ × α)} (h : Sorted xs) :
    (xs.map Prod.fst).Nodup :=
  List.pairwise_map.2 (h.imp fun hlt => ne_of_lt hlt)

section

variable {κ α : Type} [LT κ] [DecidableLT κ] {key : κ} {x : α} {xs : List (κ × α)}

theorem mem_insert {e : κ × α} (h : e ∈ insert key x xs) : e = (key, x) ∨ e ∈ xs := by
  induction xs with
  | nil => exact .inl (List.mem_singleton.1 h)
  | cons e' xs ih =>
      rw [insert] at h
      split at h
      · exact List.mem_cons.1 h
      split at h
      · rcases List.mem_cons.1 h with rfl | h
        · exact .inr List.mem_cons_self
        · exact (ih h).imp_right (List.mem_cons_of_mem _)
      · rcases List.mem_cons.1 h with rfl | h
        · exact .inl rfl
        · exact .inr (List.mem_cons_of_mem _ h)

theorem length_insert_le : (insert key x xs).length ≤ xs.length + 1 := by
  induction xs with
  | nil => exact Nat.le_refl 1
  | cons e xs ih =>
      rw [insert]
      split
      · exact Nat.le_refl _
      split
      · exact Nat.succ_le_succ ih
      · exact Nat.le_succ _

end

theorem sorted_insert {κ α : Type} [LinearOrder κ] {key : κ} {x : α} {xs : List (κ × α)}
    (h : Sorted xs) : Sorted (insert key x xs) := by
  induction xs with
  | nil => exact List.pairwise_singleton _ _
  | cons e xs ih =>
      obtain ⟨hfirst, hrest⟩ := List.pairwise_cons.1 h
      rw [insert]
      split
      next hbefore =>
        refine List.pairwise_cons.2 ⟨?_, h⟩
        intro e' he'
        rcases List.mem_cons.1 he' with rfl | he'
        · exact hbefore
        · exact lt_trans hbefore (hfirst e' he')
      next hbefore =>
        split
        next hbehind =>
          refine List.pairwise_cons.2 ⟨?_, ih hrest⟩
          intro e' he'
          rcases mem_insert he' with rfl | he'
          · exact hbehind
          · exact hfirst e' he'
        next hbehind =>
          have hkey : key = e.1 := le_antisymm (not_lt.1 hbehind) (not_lt.1 hbefore)
          exact List.pairwise_cons.2 ⟨fun e' he' => hkey ▸ hfirst e' he', hrest⟩

/-! The order in which entries arrive. -/

section

variable {κ α : Type} [LinearOrder κ] {key : κ} {x : α} {xs ys before : List (κ × α)}

theorem perm_insert (h : ∀ e ∈ xs, e.1 ≠ key) : (insert key x xs).Perm ((key, x) :: xs) := by
  induction xs with
  | nil => exact .refl _
  | cons e xs ih =>
      obtain ⟨hne, hrest⟩ := List.forall_mem_cons.1 h
      rw [insert]
      split
      next => exact .refl _
      next hbefore =>
        split
        next => exact ((ih hrest).cons e).trans (.swap _ _ _)
        next hbehind => exact absurd (le_antisymm (not_lt.1 hbefore) (not_lt.1 hbehind)) hne

theorem sorted_foldl_insert (h : Sorted before) :
    Sorted (xs.foldl (fun m e => insert e.1 e.2 m) before) := by
  induction xs generalizing before with
  | nil => exact h
  | cons e xs ih => exact ih (sorted_insert h)

theorem perm_foldl_insert (h : (before ++ xs).Pairwise fun a b => a.1 ≠ b.1) :
    (xs.foldl (fun m e => insert e.1 e.2 m) before).Perm (before ++ xs) := by
  induction xs generalizing before with
  | nil => exact .of_eq (List.append_nil before).symm
  | cons e xs ih =>
      have hput : (insert e.1 e.2 before).Perm (before ++ [e]) := by
        have hne : ∀ e' ∈ before, e'.1 ≠ e.1 := fun e' he' =>
          (List.pairwise_append.1 h).2.2 e' he' e List.mem_cons_self
        exact (perm_insert hne).trans (List.perm_append_singleton e before).symm
      have hall : (insert e.1 e.2 before ++ xs).Perm (before ++ e :: xs) := by
        simpa using hput.append_right xs
      exact (ih ((hall.pairwise_iff Ne.symm).2 h)).trans hall

/-- In whatever order the entries of a keyed list arrive, they make up this list. -/
theorem ofList_of_perm (h : Sorted xs) (hp : ys.Perm xs) : ofList ys = xs := by
  have hne : ([] ++ ys : List (κ × α)).Pairwise fun a b => a.1 ≠ b.1 :=
    (hp.pairwise_iff Ne.symm).2 (h.imp fun hlt => ne_of_lt hlt)
  have hperm : (ofList ys).Perm xs := (perm_foldl_insert hne).trans hp
  have hsorted : Sorted (ofList ys) := sorted_foldl_insert List.Pairwise.nil
  exact hperm.eq_of_pairwise (fun _ _ _ _ hab hba => absurd hba (lt_asymm hab)) hsorted h

theorem ofList_of_sorted (h : Sorted xs) : ofList xs = xs := ofList_of_perm h (.refl xs)

end

end Keyed

end CourierDispatch
