import CourierDispatch.Text.Cut
import Mathlib.Data.List.TakeWhile

/-!
# Pieces of joined text

A text that was put together from pieces without separators comes apart into just these pieces, and no
other text comes apart into them. The same holds of a text that is cut at its first separator.
-/

namespace CourierDispatch.Text

theorem pieces_of_notMem {sep : Char} {cs : List Char} (h : sep ∉ cs) :
    pieces sep cs = [cs] := by
  induction cs with
  | nil => rfl
  | cons c cs ih =>
      rw [List.mem_cons, not_or] at h
      rw [pieces, if_neg (Ne.symm h.1), ih h.2]

theorem pieces_append_cons {sep : Char} {cs : List Char} (h : sep ∉ cs) (ds : List Char) :
    pieces sep (cs ++ sep :: ds) = cs :: pieces sep ds := by
  induction cs with
  | nil => simp [pieces]
  | cons c cs ih =>
      rw [List.mem_cons, not_or] at h
      rw [List.cons_append, pieces, if_neg (Ne.symm h.1), ih h.2]

theorem pieces_ne_nil (sep : Char) (cs : List Char) : pieces sep cs ≠ [] := by
  cases cs with
  | nil => simp [pieces]
  | cons c cs =>
      rw [pieces]
      split
      · simp
      · split <;> simp

theorem intercalate_pieces (sep : Char) (cs : List Char) :
    [sep].intercalate (pieces sep cs) = cs := by
  induction cs with
  | nil => rfl
  | cons c cs ih =>
      rw [pieces]
      split
      next h =>
        obtain ⟨p, ps, hps⟩ := List.exists_cons_of_ne_nil (pieces_ne_nil sep cs)
        rw [hps] at ih ⊢
        rw [List.intercalate_cons_cons, ih, h]
        rfl
      next =>
        split
        next hps => exact absurd hps (pieces_ne_nil sep cs)
        next p ps hps =>
          rw [hps] at ih
          cases ps with
          | nil => simpa using ih
          | cons q qs =>
              rw [List.intercalate_cons_cons] at ih ⊢
              simp [← ih]

theorem notMem_of_mem_pieces {sep : Char} {cs p : List Char} (h : p ∈ pieces sep cs) :
    sep ∉ p := by
  induction cs generalizing p with
  | nil =>
      cases List.mem_singleton.1 h
      exact List.not_mem_nil
  | cons c cs ih =>
      rw [pieces] at h
      split at h
      next =>
        rcases List.mem_cons.1 h with rfl | h
        · exact List.not_mem_nil
        · exact ih h
      next hc =>
        split at h
        next =>
          cases List.mem_singleton.1 h
          simpa using Ne.symm hc
        next q qs hqs =>
          rcases List.mem_cons.1 h with rfl | h
          · rw [List.mem_cons, not_or]
            exact ⟨Ne.symm hc, ih (hqs ▸ List.mem_cons_self)⟩
          · exact ih (hqs ▸ List.mem_cons_of_mem _ h)

theorem before_of_notMem {sep : Char} {cs : List Char} (h : sep ∉ cs) : before sep cs = cs :=
  List.takeWhile_eq_self_iff.2 fun c hc => decide_eq_true fun he : c = sep => h (he ▸ hc)

theorem mem_of_mem_before {sep c : Char} {cs : List Char} (h : c ∈ before sep cs) : c ∈ cs :=
  (List.takeWhile_sublist _).mem h

theorem notMem_before (sep : Char) (cs : List Char) : sep ∉ before sep cs := by
  intro h
  simpa using List.mem_takeWhile_imp h

theorem cut?_eq_some_iff {sep : Char} {cs as bs : List Char} :
    cut? sep cs = some (as, bs) ↔ sep ∉ as ∧ cs = as ++ sep :: bs := by
  induction cs generalizing as with
  | nil => simp [cut?]
  | cons c cs ih =>
      rw [cut?]
      split
      next hc =>
        subst hc
        cases as with
        | nil => simp
        | cons a as => simp +contextual
      next hc =>
        rw [Option.map_eq_some_iff]
        cases as with
        | nil => simp [hc]
        | cons a as =>
            constructor
            · rintro ⟨⟨as', bs'⟩, hcut, heq⟩
              cases heq
              obtain ⟨hnot, rfl⟩ := ih.1 hcut
              exact ⟨by simp [Ne.symm hc, hnot], rfl⟩
            · rintro ⟨hnot, heq⟩
              cases heq
              exact ⟨(as, bs), ih.2 ⟨fun h => hnot (List.mem_cons_of_mem _ h), rfl⟩, rfl⟩

end CourierDispatch.Text
