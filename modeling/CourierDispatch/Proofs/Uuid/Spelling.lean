import CourierDispatch.Proofs.Uuid

/-!
# The spellings of a UUID

A UUID is read from its 32 digits in four spellings, with the digits in either letter case: without
hyphens, in five groups, in groups with braces around them, and in groups behind `urn:uuid:`. No other
text is read, so the digits decide which UUID it is.
-/

namespace CourierDispatch.Uuid

/-- The digits in groups of eight, four, four, four and twelve. -/
def hyphenated (ds : List Char) : List Char :=
  ds.take 8 ++ '-' :: ((ds.drop 8).take 4 ++ '-' :: ((ds.drop 12).take 4 ++
    '-' :: ((ds.drop 16).take 4 ++ '-' :: ds.drop 20)))

inductive Spelling (ds : List Char) : List Char → Prop
  | plain : Spelling ds ds
  | hyphens : Spelling ds (hyphenated ds)
  | braces : Spelling ds ('\x7b' :: (hyphenated ds ++ ['\x7d']))
  | urn {front : List Char} (h : front.map Char.toLower = "urn:uuid:".toList) :
    Spelling ds (front ++ hyphenated ds)

/-- The 32 digits of the UUID, each in either letter case. -/
def HasDigits (u : Uuid) (ds : List Char) : Prop :=
  ds.map Char.toLower = Hex.digits 32 u.bits.toNat

def Spelt (u : Uuid) (s : String) : Prop := ∃ ds, u.HasDigits ds ∧ Spelling ds s.toList

variable {u : Uuid} {ds cs : List Char}

theorem HasDigits.length (h : u.HasDigits ds) : ds.length = 32 := by
  have hlength := congrArg List.length h
  rwa [List.length_map, Hex.length_digits] at hlength

theorem HasDigits.hyphen_notMem (h : u.HasDigits ds) : '-' ∉ ds := by
  intro hmem
  have hlower : '-' ∈ ds.map Char.toLower := List.mem_map.2 ⟨'-', hmem, by decide⟩
  rw [h] at hlower
  exact Hex.hyphen_notMem_digits _ _ hlower

theorem ofDigits?_eq_some_iff : ofDigits? cs = some u ↔ u.HasDigits cs := by
  constructor
  · intro h
    unfold ofDigits? at h
    split at h
    next hlength =>
      obtain ⟨n, hn, rfl⟩ := Option.map_eq_some_iff.1 h
      obtain ⟨hlt, hdigits⟩ := Hex.number?_eq_some_iff.1 hn
      rw [hlength] at hlt hdigits
      rw [HasDigits, hdigits, BitVec.toNat_ofNat, Nat.mod_eq_of_lt hlt]
    next => cases h
  · intro h
    have hnumber : Hex.number? cs = some u.bits.toNat := by
      refine Hex.number?_eq_some_iff.2 ?_
      rw [h.length]
      exact ⟨u.bits.isLt, h⟩
    rw [ofDigits?, if_pos h.length, hnumber]
    simp

theorem hyphenated_flatten_pieces (h : (Text.pieces '-' cs).map List.length = groups) :
    hyphenated (Text.pieces '-' cs).flatten = cs := by
  have hback := Text.intercalate_pieces '-' cs
  match hps : Text.pieces '-' cs with
  | [a, b, c, d, e] =>
      rw [hps] at h hback
      simp only [groups, List.map_cons, List.map_nil, List.cons.injEq, and_true] at h
      obtain ⟨ha, hb, hc, hd, -⟩ := h
      rw [← hback, hyphenated]
      simp [List.drop_append, List.drop_eq_nil_of_le, ha, hb, hc, hd]
  | [] | [_] | [_, _] | [_, _, _] | [_, _, _, _] | _ :: _ :: _ :: _ :: _ :: _ :: _ =>
      simp [hps, groups] at h

theorem ofGroups?_eq_some_iff :
    ofGroups? cs = some u ↔ ∃ ds, u.HasDigits ds ∧ cs = hyphenated ds := by
  constructor
  · intro h
    simp only [ofGroups?] at h
    split at h
    next hlengths =>
      exact ⟨_, ofDigits?_eq_some_iff.1 h, (hyphenated_flatten_pieces hlengths).symm⟩
    next => cases h
  · rintro ⟨ds, hds, rfl⟩
    have hgrouped : hyphenated ds = grouped groups ds := (grouped_groups ds).symm
    rw [hgrouped, ofGroups?_grouped hds.hyphen_notMem hds.length, ofDigits?_eq_some_iff.2 hds]

theorem length_hyphenated (h : u.HasDigits ds) : (hyphenated ds).length = 36 := by
  rw [← length_grouped h.length, grouped_groups, hyphenated]

/-- The first digit tells the spellings with something in front from those without. -/
theorem HasDigits.exists_cons (h : u.HasDigits ds) :
    ∃ d rest, ds = d :: rest ∧ d.toLower ∈ Hex.alphabet := by
  obtain ⟨n, hn, digits, hdigits⟩ := Hex.digits_eq_cons 31 u.bits.toNat
  have hmap := h.trans hdigits
  obtain ⟨d, rest, rfl, hd, -⟩ := List.map_eq_cons_iff.1 hmap
  exact ⟨d, rest, rfl, hd ▸ Hex.digit_mem_alphabet n hn⟩

theorem braced?_eq_some_iff {inner : List Char} :
    braced? cs = some inner ↔ cs = '\x7b' :: (inner ++ ['\x7d']) := by
  constructor
  · intro h
    unfold braced? at h
    split at h
    next rest =>
      split at h
      next hlast =>
        cases h
        obtain ⟨front, rfl⟩ := List.getLast?_eq_some_iff.1 hlast
        rw [List.dropLast_concat]
      next => cases h
    next => cases h
  · rintro rfl
    simp [braced?]

theorem named?_eq_some_iff {inner : List Char} :
    named? cs = some inner ↔
      ∃ front, front.map Char.toLower = "urn:uuid:".toList ∧ cs = front ++ inner := by
  constructor
  · intro h
    unfold named? at h
    split at h
    next hfront =>
      cases h
      exact ⟨cs.take urn.length, hfront, (List.take_append_drop _ _).symm⟩
    next => cases h
  · rintro ⟨front, hfront, rfl⟩
    have hurn : front.map Char.toLower = urn := hfront
    have hlength : front.length = urn.length := by rw [← hurn, List.length_map]
    rw [named?, List.take_left' hlength, List.drop_left' hlength, if_pos hurn]

/-- What stands in front of the groups tells the spellings apart. -/
theorem ofText?_eq_some_iff {s : String} : ofText? s = some u ↔ u.Spelt s := by
  constructor
  · intro h
    simp only [ofText?] at h
    split at h
    next inner _ hbraced =>
      obtain ⟨ds, hds, rfl⟩ := ofGroups?_eq_some_iff.1 h
      exact ⟨ds, hds, braced?_eq_some_iff.1 hbraced ▸ .braces⟩
    next inner _ hnamed =>
      obtain ⟨ds, hds, rfl⟩ := ofGroups?_eq_some_iff.1 h
      obtain ⟨front, hfront, hs⟩ := named?_eq_some_iff.1 hnamed
      exact ⟨ds, hds, hs ▸ .urn hfront⟩
    next =>
      split at h
      next => exact ⟨_, ofDigits?_eq_some_iff.1 h, .plain⟩
      next =>
        obtain ⟨ds, hds, hs⟩ := ofGroups?_eq_some_iff.1 h
        exact ⟨ds, hds, hs ▸ .hyphens⟩
  · rintro ⟨ds, hds, hs⟩
    have hgroups : ofGroups? (hyphenated ds) = some u := ofGroups?_eq_some_iff.2 ⟨ds, hds, rfl⟩
    obtain ⟨d, rest, hcons, hd⟩ := hds.exists_cons
    simp only [ofText?]
    generalize s.toList = cs at hs
    cases hs with
    | plain =>
        obtain ⟨hbraced, hnamed⟩ := not_braced_not_named hd rest
        rw [← hcons] at hbraced hnamed
        simp only [hbraced, hnamed]
        rw [if_pos hds.length, ofDigits?_eq_some_iff.2 hds]
    | hyphens =>
        have h36 := length_hyphenated hds
        obtain ⟨hbraced, hnamed⟩ := not_braced_not_named hd (hyphenated ds).tail
        have hhead : d :: (hyphenated ds).tail = hyphenated ds := by
          rw [hcons]
          rfl
        rw [hhead] at hbraced hnamed
        simp only [hbraced, hnamed]
        rw [if_neg (by omega), hgroups]
    | braces =>
        have hbraced : braced? ('\x7b' :: (hyphenated ds ++ ['\x7d'])) = some (hyphenated ds) :=
          braced?_eq_some_iff.2 rfl
        simp only [hbraced]
        exact hgroups
    | @urn front hfront =>
        have hbraced : braced? (front ++ hyphenated ds) = none := by
          cases hb : braced? (front ++ hyphenated ds) with
          | none => rfl
          | some inner =>
              have hbrace := braced?_eq_some_iff.1 hb
              cases front with
              | nil => cases hfront
              | cons c front =>
                  rw [(List.cons.inj hbrace).1] at hfront
                  exact absurd (List.cons.inj hfront).1 (by decide)
        have hnamed : named? (front ++ hyphenated ds) = some (hyphenated ds) :=
          named?_eq_some_iff.2 ⟨front, hfront, rfl⟩
        simp only [hbraced, hnamed]
        exact hgroups

/-- The digits decide which UUID it is, whatever their letter case and their spelling. -/
theorem exists_spelt (hlength : ds.length = 32) (hdigits : ∀ d ∈ ds, d.toLower ∈ Hex.alphabet) :
    ∃ u : Uuid, ∀ (ds' : List Char) (s : String), ds'.map Char.toLower = ds.map Char.toLower →
      Spelling ds' s.toList → u.Spelt s := by
  obtain ⟨n, hn⟩ := Hex.exists_number? hdigits
  obtain ⟨hlt, hlower⟩ := Hex.number?_eq_some_iff.1 hn
  rw [hlength] at hlt hlower
  refine ⟨⟨BitVec.ofNat 128 n⟩, fun ds' s hsame hs => ⟨ds', ?_, hs⟩⟩
  rw [HasDigits, hsame, hlower, BitVec.toNat_ofNat, Nat.mod_eq_of_lt hlt]

end CourierDispatch.Uuid
