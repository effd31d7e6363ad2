import CourierDispatch.Proofs.Text.Cut
import CourierDispatch.Proofs.Text.Hex
import CourierDispatch.Uuid

/-!
# The text of a UUID

A UUID is read back from the text that it is written as.
-/

namespace CourierDispatch.Uuid

theorem hyphen_notMem_take_drop {cs : List Char} (h : '-' ∉ cs) (m n : Nat) :
    '-' ∉ (cs.drop m).take n :=
  fun hmem => h (List.mem_of_mem_drop (List.mem_of_mem_take hmem))

theorem grouped_groups (cs : List Char) :
    grouped groups cs =
      cs.take 8 ++ '-' :: ((cs.drop 8).take 4 ++ '-' :: ((cs.drop 12).take 4 ++
        '-' :: ((cs.drop 16).take 4 ++ '-' :: cs.drop 20))) := by
  simp only [groups, grouped, List.drop_drop]

theorem pieces_grouped {cs : List Char} (h : '-' ∉ cs) :
    Text.pieces '-' (grouped groups cs) =
      [cs.take 8, (cs.drop 8).take 4, (cs.drop 12).take 4, (cs.drop 16).take 4, cs.drop 20] := by
  have hpart := hyphen_notMem_take_drop h
  rw [grouped_groups, Text.pieces_append_cons (by simpa using hpart 0 8),
    Text.pieces_append_cons (hpart 8 4), Text.pieces_append_cons (hpart 12 4),
    Text.pieces_append_cons (hpart 16 4),
    Text.pieces_of_notMem fun hmem => h (List.mem_of_mem_drop hmem)]

theorem ofGroups?_grouped {cs : List Char} (h : '-' ∉ cs) (hlen : cs.length = 32) :
    ofGroups? (grouped groups cs) = ofDigits? cs := by
  have hlens : (Text.pieces '-' (grouped groups cs)).map List.length = groups := by
    rw [pieces_grouped h]
    simp [hlen, groups]
  have hflat : (Text.pieces '-' (grouped groups cs)).flatten = cs := by
    rw [pieces_grouped h]
    have hpart (m n : Nat) : (cs.drop m).take n ++ cs.drop (m + n) = cs.drop m := by
      rw [← List.drop_drop, List.take_append_drop]
    simp only [List.flatten_cons, List.flatten_nil, List.append_nil]
    rw [hpart 16 4, hpart 12 4, hpart 8 4, List.take_append_drop]
  rw [ofGroups?, if_pos hlens, hflat]

theorem ofDigits?_digits (u : Uuid) : ofDigits? (Hex.digits 32 u.bits.toNat) = some u := by
  have hlt : u.bits.toNat < Nat.pow 16 32 := u.bits.isLt
  rw [ofDigits?, if_pos (Hex.length_digits _ _), Hex.number?_digits hlt]
  simp

theorem length_grouped {cs : List Char} (hlen : cs.length = 32) :
    (grouped groups cs).length = 36 := by
  rw [grouped_groups]
  simp [hlen]

/-- No digit can be taken for the beginning of one of the other spellings. -/
theorem not_braced_not_named {d : Char} (hd : d.toLower ∈ Hex.alphabet) (cs : List Char) :
    braced? (d :: cs) = none ∧ named? (d :: cs) = none := by
  constructor
  · unfold braced?
    split
    next heq =>
      rw [(List.cons.inj heq).1] at hd
      exact absurd hd (by decide)
    next => rfl
  · rw [named?, if_neg]
    intro heq
    rw [(List.cons.inj heq).1] at hd
    exact absurd hd (by decide)

theorem exists_toText_eq_cons (u : Uuid) :
    ∃ n < 16, ∃ cs, u.toText.toList = Hex.digit n :: cs := by
  obtain ⟨n, hn, ds, hds⟩ := Hex.digits_eq_cons 31 u.bits.toNat
  refine ⟨n, hn, (grouped groups (Hex.digits 32 u.bits.toNat)).tail, ?_⟩
  rw [toText, String.toList_ofList, grouped_groups, hds]
  rfl

theorem length_toText (u : Uuid) : u.toText.toList.length = 36 := by
  rw [toText, String.toList_ofList]
  exact length_grouped (Hex.length_digits 32 u.bits.toNat)

theorem ofText?_toText (u : Uuid) : ofText? u.toText = some u := by
  have hread : ofGroups? u.toText.toList = some u := by
    rw [toText, String.toList_ofList, ofGroups?_grouped (Hex.hyphen_notMem_digits _ _)
      (Hex.length_digits _ _), ofDigits?_digits]
  have h36 := length_toText u
  obtain ⟨n, hn, cs, hcs⟩ := exists_toText_eq_cons u
  have hlower : ∀ n < 16, (Hex.digit n).toLower ∈ Hex.alphabet := by decide
  obtain ⟨hbraced, hnamed⟩ := not_braced_not_named (hlower n hn) cs
  rw [← hcs] at hbraced hnamed
  rw [ofText?]
  simp only [hbraced, hnamed]
  rw [if_neg (by omega), hread]

end CourierDispatch.Uuid
