import CourierDispatch.Text.Hex
import Mathlib.Data.List.Induction

/-!
# Hexadecimal digits there and back

`number?` reads the number that `digits` writes, as long as it fits into so many digits. It reads nothing
else but the same digits in capitals.
-/

namespace CourierDispatch.Hex

theorem digit?_digit : ∀ n < 16, digit? (digit n) = some n := by decide

theorem digit_ne_hyphen : ∀ n < 16, digit n ≠ '-' := by decide

/-- The last digit counts once, the ones before it sixteen times as much. -/
theorem number?_append_singleton (cs : List Char) (c : Char) :
    number? (cs ++ [c]) =
      (number? cs).bind fun n => (digit? c).map (n * 16 + ·) := by
  unfold number?
  rw [List.foldlM_append]
  cases h : List.foldlM (fun n c => (digit? c).map (n * 16 + ·)) 0 cs with
  | none => rfl
  | some n => cases hd : digit? c <;> simp [hd]

theorem length_digits (width n : Nat) : (digits width n).length = width := by
  induction width generalizing n with
  | zero => rfl
  | succ width ih => rw [digits, List.length_append, ih]; rfl

theorem digits_eq_cons (width n : Nat) :
    ∃ d < 16, ∃ ds, digits (width + 1) n = digit d :: ds := by
  induction width generalizing n with
  | zero => exact ⟨n % 16, Nat.mod_lt _ (by decide), [], rfl⟩
  | succ width ih =>
      obtain ⟨d, hd, ds, hds⟩ := ih (n / 16)
      rw [digits, hds]
      exact ⟨d, hd, _, rfl⟩

theorem hyphen_notMem_digits (width n : Nat) : '-' ∉ digits width n := by
  induction width generalizing n with
  | zero => simp [digits]
  | succ width ih =>
      have hlt : n % 16 < 16 := Nat.mod_lt _ (by decide)
      have hne := digit_ne_hyphen (n % 16) hlt
      simp [digits, ih, hne.symm]

theorem number?_digits {width n : Nat} (h : n < Nat.pow 16 width) :
    number? (digits width n) = some n := by
  induction width generalizing n with
  | zero =>
      have hn : n = 0 := Nat.lt_one_iff.1 h
      rw [hn]
      rfl
  | succ width ih =>
      have hdiv : n / 16 < Nat.pow 16 width :=
        (Nat.div_lt_iff_lt_mul (by decide)).2 h
      have hlt : n % 16 < 16 := Nat.mod_lt _ (by decide)
      rw [digits, number?_append_singleton, ih hdiv, digit?_digit _ hlt]
      simp only [Option.bind_some, Option.map_some, Option.some.injEq]
      omega

theorem toNat_lt_of_digit? {c : Char} {d : Nat} (h : digit? c = some d) : c.toNat < 0x80 := by
  have hle {b : Char} (hb : c ≤ b) (hlt : b.toNat < 0x80) : c.toNat < 0x80 :=
    Nat.lt_of_le_of_lt hb hlt
  unfold digit? at h
  split at h
  next hc => exact hle hc.2 (by decide)
  split at h
  next hc => exact hle hc.2 (by decide)
  split at h
  next hc => exact hle hc.2 (by decide)
  next => cases h

theorem toNat_lt_of_number? {cs : List Char} {n : Nat} (h : number? cs = some n) :
    ∀ c ∈ cs, c.toNat < 0x80 := by
  unfold number? at h
  generalize 0 = m at h
  induction cs generalizing m with
  | nil => simp
  | cons d cs ih =>
      rw [List.foldlM_cons] at h
      obtain ⟨k, hk, hrest⟩ := Option.bind_eq_some_iff.1 h
      obtain ⟨x, hx, -⟩ := Option.map_eq_some_iff.1 hk
      exact List.forall_mem_cons.2 ⟨toNat_lt_of_digit? hx, ih k hrest⟩

/-! Letter case. -/

def alphabet : List Char := "0123456789abcdef".toList

theorem digit_mem_alphabet : ∀ n < 16, digit n ∈ alphabet := by decide

/-- What can be checked of each character of ASCII. -/
@[elab_as_elim]
theorem of_ascii {P : Char → Prop} (c : Char) (hc : c.toNat < 0x80)
    (h : ∀ n < 0x80, P (Char.ofNat n)) : P c :=
  Char.ofNat_toNat c ▸ h c.toNat hc

theorem toLower_eq_self {c : Char} (h : 0x80 ≤ c.toNat) : c.toLower = c := by
  refine dif_neg ?_
  rintro ⟨-, hle⟩
  have hZ : c.toNat ≤ 'Z'.toNat := hle
  exact absurd (Nat.le_trans h hZ) (by decide)

theorem toLower_eq_zero_iff {c : Char} : c.toLower = '0' ↔ c = '0' := by
  by_cases h : c.toNat < 0x80
  · refine of_ascii c h ?_
    decide
  · rw [toLower_eq_self (Nat.le_of_not_lt h)]

theorem digit?_toLower (c : Char) : digit? c.toLower = digit? c := by
  by_cases h : c.toNat < 0x80
  · refine of_ascii c h ?_
    decide
  · rw [toLower_eq_self (Nat.le_of_not_lt h)]

theorem toLower_of_digit? {c : Char} {d : Nat} (h : digit? c = some d) :
    d < 16 ∧ c.toLower = digit d := by
  have hc : ∀ d, digit? c = some d → d < 16 ∧ c.toLower = digit d := by
    refine of_ascii c (toNat_lt_of_digit? h) ?_
    decide
  exact hc d h

theorem toLower_of_mem_alphabet {c : Char} (h : c ∈ alphabet) : c.toLower = c := by
  have hall : alphabet.all (fun c => c.toLower = c) = true := by decide
  exact of_decide_eq_true (List.all_eq_true.1 hall c h)

theorem isDigit_of_mem_alphabet {c : Char} (h : c ∈ alphabet) : isDigit c = true := by
  have hall : alphabet.all isDigit = true := by decide
  exact List.all_eq_true.1 hall c h

theorem isDigit_iff {c : Char} : isDigit c = true ↔ c.toLower ∈ alphabet := by
  constructor
  · intro h
    obtain ⟨d, hd⟩ := Option.isSome_iff_exists.1 h
    obtain ⟨hlt, hlower⟩ := toLower_of_digit? hd
    exact hlower ▸ digit_mem_alphabet d hlt
  · intro h
    rw [isDigit, ← digit?_toLower]
    exact isDigit_of_mem_alphabet h

theorem number?_map_toLower (cs : List Char) : number? (cs.map Char.toLower) = number? cs := by
  rw [number?, List.foldlM_map]
  simp only [digit?_toLower]
  rfl

theorem exists_number? {cs : List Char} (h : ∀ c ∈ cs, c.toLower ∈ alphabet) :
    ∃ n, number? cs = some n := by
  induction cs using List.reverseRecOn with
  | nil => exact ⟨0, rfl⟩
  | append_singleton cs c ih =>
      rw [List.forall_mem_append, List.forall_mem_singleton] at h
      obtain ⟨n, hn⟩ := ih h.1
      obtain ⟨d, hd⟩ := Option.isSome_iff_exists.1 (isDigit_iff.2 h.2)
      exact ⟨n * 16 + d, by rw [number?_append_singleton, hn, Option.bind_some, hd]; rfl⟩

/-- What is read as a number are its digits, in either letter case. -/
theorem number?_eq_some_iff {cs : List Char} {n : Nat} :
    number? cs = some n ↔
      n < Nat.pow 16 cs.length ∧ cs.map Char.toLower = digits cs.length n := by
  constructor
  · intro h
    induction cs using List.reverseRecOn generalizing n with
    | nil =>
        cases h
        exact ⟨Nat.one_pos, rfl⟩
    | append_singleton cs c ih =>
        rw [number?_append_singleton] at h
        obtain ⟨m, hm, hlast⟩ := Option.bind_eq_some_iff.1 h
        obtain ⟨d, hd, rfl⟩ := Option.map_eq_some_iff.1 hlast
        obtain ⟨hlt, hfront⟩ := ih hm
        obtain ⟨hsmall, hlower⟩ := toLower_of_digit? hd
        rw [List.length_append, List.length_singleton, List.map_append, hfront, digits]
        have hdiv : (m * 16 + d) / 16 = m := by omega
        have hmod : (m * 16 + d) % 16 = d := by omega
        refine ⟨?_, by rw [hdiv, hmod, ← hlower]; rfl⟩
        change _ < Nat.pow 16 cs.length * 16
        omega
  · rintro ⟨hlt, hdigits⟩
    rw [← number?_map_toLower, hdigits, number?_digits hlt]

end CourierDispatch.Hex
