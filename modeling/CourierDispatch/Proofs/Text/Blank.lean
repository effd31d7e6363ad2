import CourierDispatch.Text.Blank
import Mathlib.Data.List.DropRight

/-!
# Trimmed text

`trim` takes the blanks off both ends of a text and nothing else, so what it leaves is trimmed, and a
trimmed text stays as it is.
-/

namespace CourierDispatch.Text

structure Trimmed (cs : List Char) : Prop where
  head : ∀ hne : cs ≠ [], isBlank (cs.head hne) = false
  last : ∀ hne : cs ≠ [], isBlank (cs.getLast hne) = false

theorem trim_prefix_trimStart (cs : List Char) : trim cs <+: trimStart cs :=
  List.rdropWhile_prefix isBlank (trimStart cs)

theorem mem_of_mem_trim {cs : List Char} {c : Char} (h : c ∈ trim cs) : c ∈ cs :=
  (List.dropWhile_sublist isBlank).mem ((trim_prefix_trimStart cs).mem h)

theorem trimmed_trim (cs : List Char) : Trimmed (trim cs) where
  head hne := by
    rw [(trim_prefix_trimStart cs).head hne]
    exact List.head_dropWhile_not isBlank _
  last hne := by
    have hlast := List.rdropWhile_last_not isBlank (trimStart cs) hne
    exact Bool.eq_false_iff.2 hlast

theorem trim_of_trimmed {cs : List Char} (h : Trimmed cs) : trim cs = cs := by
  have hstart : trimStart cs = cs := by
    cases cs with
    | nil => rfl
    | cons c cs =>
        have hc : ¬ isBlank c = true := Bool.eq_false_iff.1 (h.head (List.cons_ne_nil c cs))
        exact List.dropWhile_cons_of_neg hc
  have hend : cs.rdropWhile isBlank = cs :=
    List.rdropWhile_eq_self_iff.2 fun hne => Bool.eq_false_iff.1 (h.last hne)
  change (trimStart cs).rdropWhile isBlank = cs
  rw [hstart, hend]

end CourierDispatch.Text
