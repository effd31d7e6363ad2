import CourierDispatch.MsgPack.Printer
import CourierDispatch.Proofs.Numeric.Double
import CourierDispatch.Proofs.Text.Utf8
import CourierDispatch.Proofs.Value.Offer
import Mathlib.Tactic.SplitIfs

/-!
# Headers there and back

`Announces bs i` says that the bytes are a header and what it announces. A number or a length goes into
more than one header. A `HeaderTable` lists those that the format has for one kind, and whichever
is chosen, it announces the number that it holds. The headers that are written are from this table, as
long as the number fits into 64 or the length into 32 bits.
-/

namespace CourierDispatch.MsgPack

/-- How many bytes a text may have, and how many items a container. -/
def sizeLimit : Nat := 1 <<< 32

def Fits (s : String) : Prop := (Utf8.bytes s).length < sizeLimit

instance (s : String) : Decidable (Fits s) := inferInstanceAs (Decidable (_ < _))

theorem bigEndian_append_singleton (bs : List UInt8) (b : UInt8) :
    bigEndian (bs ++ [b]) = bigEndian bs * 256 + b.toNat := by
  rw [bigEndian, List.foldl_append]
  rfl

theorem length_bytesOf (width n : Nat) : (bytesOf width n).length = width := by
  induction width generalizing n with
  | zero => rfl
  | succ width ih =>
      rw [bytesOf, List.length_append, ih]
      rfl

theorem bigEndian_bytesOf {width n : Nat} (h : n < Nat.pow 256 width) :
    bigEndian (bytesOf width n) = n := by
  induction width generalizing n with
  | zero =>
      have hn : n = 0 := Nat.lt_one_iff.1 h
      rw [hn]
      rfl
  | succ width ih =>
      have hdiv : n / 256 < Nat.pow 256 width := (Nat.div_lt_iff_lt_mul (by decide)).2 h
      have hmod : n % 256 < 256 := Nat.mod_lt _ (by decide)
      rw [bytesOf, bigEndian_append_singleton, ih hdiv, Utf8.toNat_toUInt8 hmod]
      omega

theorem bytesOf_ne_nil {width : Nat} (h : 0 < width) (n : Nat) : bytesOf width n ≠ [] := by
  intro hnil
  have hlength := length_bytesOf width n
  rw [hnil] at hlength
  exact absurd hlength (Nat.ne_of_lt h)

/-- The bytes are a header that announces an item. -/
inductive Announces : List UInt8 → Item → Prop
  | marker {b : UInt8} {i : Item} (h : marker? b = some (.item i)) : Announces [b] i
  | number {b : UInt8} {f : Field} {width n : Nat} (h : marker? b = some (.field f width))
      (hw : 0 < width) (hn : n < Nat.pow 256 width) : Announces (field b width n) (f.item width n)

/-- The headers for the numbers or lengths of one kind. A number below `small` is part of the marker,
which counts up from `base`. Behind the wide markers stand so many bytes of the number. -/
structure HeaderTable where
  base : Nat
  small : Nat
  wide : List (UInt8 × Nat)

namespace HeaderTable

def naturals : HeaderTable := ⟨0x00, 128, [(0xCC, 1), (0xCD, 2), (0xCE, 4), (0xCF, 8)]⟩

def texts : HeaderTable := ⟨0xA0, 32, [(0xD9, 1), (0xDA, 2), (0xDB, 4)]⟩

def binaries : HeaderTable := ⟨0, 0, [(0xC4, 1), (0xC5, 2), (0xC6, 4)]⟩

def arrays : HeaderTable := ⟨0x90, 16, [(0xDC, 2), (0xDD, 4)]⟩

def maps : HeaderTable := ⟨0x80, 16, [(0xDE, 2), (0xDF, 4)]⟩

/-- The bytes are a header that holds the number. -/
inductive Holds (h : HeaderTable) (n : Nat) : List UInt8 → Prop
  | small (hn : n < h.small) : Holds h n [(h.base + n).toUInt8]
  | wide {marker : UInt8} {width : Nat} (hm : (marker, width) ∈ h.wide)
    (hn : n < Nat.pow 256 width) : Holds h n (field marker width n)

end HeaderTable

/-- The headers are read as those of the items of a kind. -/
structure HeaderTable.AreRead (h : HeaderTable) (f : Field) (item : Nat → Item) : Prop where
  small : ∀ n < h.small, marker? (h.base + n).toUInt8 = some (.item (item n))
  wide : ∀ m ∈ h.wide, marker? m.1 = some (.field f m.2) ∧ 0 < m.2
  item : ∀ width n, f.item width n = item n

theorem HeaderTable.Holds.announces {h : HeaderTable} {n : Nat} {bs : List UInt8} (hn : h.Holds n bs)
    {f : Field} {item : Nat → Item} (hr : h.AreRead f item) : Announces bs (item n) := by
  cases hn with
  | small hn => exact .marker (hr.small n hn)
  | wide hm hn =>
      obtain ⟨hmarker, hwidth⟩ := hr.wide _ hm
      rw [← hr.item]
      exact .number hmarker hwidth hn

theorem naturals_areRead : HeaderTable.naturals.AreRead .natural fun n => .scalar (.natural n) :=
  ⟨by decide, by decide, fun _ _ => rfl⟩

theorem texts_areRead : HeaderTable.texts.AreRead (.length .text) (.body .text) :=
  ⟨by decide, by decide, fun _ _ => rfl⟩

theorem binaries_areRead : HeaderTable.binaries.AreRead (.length .bytes) (.body .bytes) :=
  ⟨by decide, by decide, fun _ _ => rfl⟩

theorem arrays_areRead : HeaderTable.arrays.AreRead .arrayLength .array :=
  ⟨by decide, by decide, fun _ _ => rfl⟩

theorem maps_areRead : HeaderTable.maps.AreRead .mapLength .map :=
  ⟨by decide, by decide, fun _ _ => rfl⟩

/-- The markers of whole numbers in two's complement, and their widths. -/
def signedMarkers : List (UInt8 × Nat) := [(0xD0, 1), (0xD1, 2), (0xD2, 4), (0xD3, 8)]

/-- The bytes are the number. A whole number may have any width that can hold it, without or with a
sign, and a double may be written as a binary32 number of the same value. -/
inductive SpeltNumber : Number → List UInt8 → Prop
  | natural {n : Nat} {bs : List UInt8} (h : HeaderTable.naturals.Holds n bs) :
    SpeltNumber (.whole n) bs
  | negative {n : Nat} (hpos : 0 < n) (hle : n ≤ 32) :
    SpeltNumber (.whole (-(n : Int))) [(0x100 - n).toUInt8]
  | signed {n : Int} {marker : UInt8} {width : Nat} (hm : (marker, width) ∈ signedMarkers)
    (hlow : -((1 <<< (8 * width - 1) : Nat) : Int) ≤ n) (hhigh : n < (1 <<< (8 * width - 1) : Nat)) :
    SpeltNumber (.whole n) (field marker width (n % (1 <<< (8 * width) : Nat)).toNat)
  | double (x : Double) : SpeltNumber (.double x) (field 0xCB 8 x.bits.toNat)
  | single {x : Double} {s : Nat} (hs : x.IsSingle s) : SpeltNumber (.double x) (field 0xCA 4 s)

theorem marker?_negative :
    ∀ n < 0x20, marker? (0x100 - (n + 1)).toUInt8 =
      some (.item (.scalar (.integer (-(n + 1 : Nat))))) := by
  decide

/-- A number in two's complement is read with its sign. -/
theorem item_twosComplement {width : Nat} (hw : 0 < width) {n : Int}
    (hlow : -((1 <<< (8 * width - 1) : Nat) : Int) ≤ n) (hhigh : n < (1 <<< (8 * width - 1) : Nat)) :
    Field.integer.item width (n % (1 <<< (8 * width) : Nat)).toNat = .scalar (.integer n) := by
  obtain ⟨k, hk⟩ : ∃ k, 8 * width = k + 1 := ⟨8 * width - 1, by omega⟩
  rw [hk, Nat.add_sub_cancel] at hlow hhigh
  have hmod : n % ((1 <<< (k + 1) : Nat) : Int) = if n < 0 then n + (2 * 1 <<< k : Nat) else n := by
    rw [Nat.shiftLeft_succ]
    split
    next hneg =>
      rw [← Int.add_emod_right, Int.emod_eq_of_lt (by omega) (by omega)]
    next hneg => exact Int.emod_eq_of_lt (by omega) (by omega)
  rw [Field.item, hk, Nat.add_sub_cancel, hmod, Nat.shiftLeft_succ]
  by_cases hneg : n < 0
  · rw [if_pos hneg, if_neg (by omega), Int.toNat_of_nonneg (by omega), Int.add_sub_cancel]
  · rw [if_neg hneg, if_pos (by omega), Int.toNat_of_nonneg (by omega)]

theorem signedMarkers_areRead :
    ∀ m ∈ signedMarkers, marker? m.1 = some (.field .integer m.2) ∧ 0 < m.2 ∧
      1 <<< (8 * m.2) = Nat.pow 256 m.2 := by
  decide

/-- A number is announced in its own form, or in signed form although it is not negative. -/
theorem SpeltNumber.announces {n : Number} {bs : List UInt8} (h : SpeltNumber n bs) (hn : n.fits) :
    ∃ t, n.Form t ∧ Announces bs (.scalar t) := by
  cases h with
  | @natural n bs h =>
      have htoken : (Number.whole n).token = .natural n := by simp [Number.token]
      exact ⟨.natural n, htoken ▸ .own _, h.announces naturals_areRead⟩
  | @negative n hpos hle =>
      obtain ⟨m, rfl⟩ := Nat.exists_eq_add_of_le' hpos
      exact ⟨_, .signed _, .marker (marker?_negative m hle)⟩
  | @signed n marker width hm hlow hhigh =>
      obtain ⟨hmarker, hwidth, hpow⟩ := signedMarkers_areRead _ hm
      have hpos : (0 : Int) < (1 <<< (8 * width) : Nat) := by
        rw [Nat.one_shiftLeft]
        exact Int.natCast_pos.2 (Nat.two_pow_pos _)
      have hlt : (n % (1 <<< (8 * width) : Nat)).toNat < Nat.pow 256 width := by
        rw [← hpow]
        exact (Int.toNat_lt (Int.emod_nonneg _ (ne_of_gt hpos))).2 (Int.emod_lt_of_pos _ hpos)
      refine ⟨_, .signed n, ?_⟩
      rw [← item_twosComplement hwidth hlow hhigh]
      exact .number hmarker hwidth hlt
  | double x =>
      have hitem : Field.double.item 8 x.bits.toNat = .scalar (.float x) := by simp [Field.item]
      refine ⟨.float x, .own (.double x), ?_⟩
      rw [← hitem]
      exact .number rfl (by decide) x.bits.toNat_lt
  | @single x s hs =>
      have hitem : Field.single.item 4 s = .scalar (.float x) := by
        rw [Field.item, Double.ofSingle_of_isSingle hn hs]
      refine ⟨.float x, .own (.double x), ?_⟩
      rw [← hitem]
      exact .number rfl (by decide) hs.lt

/-! The headers that are written. -/

theorem holds_naturalBytes {n : Nat} (h : n < 1 <<< 64) :
    HeaderTable.naturals.Holds n (naturalBytes n) := by
  unfold naturalBytes
  split_ifs with h1 h2 h3 h4
  · have hsmall : HeaderTable.naturals.Holds n [(0x00 + n).toUInt8] := .small h1
    rwa [Nat.zero_add] at hsmall
  · exact .wide (by decide) h2
  · exact .wide (by decide) h3
  · exact .wide (by decide) h4
  · exact .wide (by decide) h

theorem shortLength_of_lt {n : Nat} (h : n < sizeLimit) : shortLength n = n := Nat.mod_eq_of_lt h

theorem holds_textHeader {n : Nat} (h : n < sizeLimit) :
    HeaderTable.texts.Holds n (textHeader n) := by
  simp only [textHeader, shortLength_of_lt h]
  split_ifs with h1 h2 h3
  · exact .small h1
  · exact .wide (by decide) h2
  · exact .wide (by decide) h3
  · exact .wide (by decide) h

theorem holds_arrayHeader {n : Nat} (h : n < sizeLimit) :
    HeaderTable.arrays.Holds n (arrayHeader n) := by
  simp only [arrayHeader, shortLength_of_lt h]
  split_ifs with h1 h2
  · exact .small h1
  · exact .wide (by decide) h2
  · exact .wide (by decide) h

theorem holds_mapHeader {n : Nat} (h : n < sizeLimit) :
    HeaderTable.maps.Holds n (mapHeader n) := by
  simp only [mapHeader, shortLength_of_lt h]
  split_ifs with h1 h2
  · exact .small h1
  · exact .wide (by decide) h2
  · exact .wide (by decide) h

/-- The shortest text that is too long for its header. -/
def overlong : String := String.ofList (List.replicate sizeLimit 'a')

theorem bytes_overlong : Utf8.bytes overlong = List.replicate sizeLimit 0x61 := by
  rw [Utf8.bytes, overlong, String.toList_ofList]
  induction sizeLimit with
  | zero => rfl
  | succ n ih =>
      rw [List.replicate_succ, Utf8.encode_cons, ih, List.replicate_succ]
      rfl

theorem length_bytes_overlong : (Utf8.bytes overlong).length = sizeLimit := by
  rw [bytes_overlong, List.length_replicate]

/-- The text has the header of an empty one. -/
theorem textBytes_overlong :
    textBytes overlong = 0xA0 :: 0x61 :: List.replicate (sizeLimit - 1) 0x61 := by
  have hpos : sizeLimit = sizeLimit - 1 + 1 := by decide
  rw [textBytes, length_bytes_overlong, bytes_overlong]
  nth_rewrite 2 [hpos]
  rw [List.replicate_succ]
  rfl

theorem speltNumber_negativeBytes {n : Nat} (hn : 0 < n) (h : n ≤ 1 <<< 63) :
    SpeltNumber (.whole (-(n : Int))) (negativeBytes n) := by
  have hlong {b : UInt8} (width : Nat) (hb : (b, width) ∈ signedMarkers)
      (hh : n ≤ 1 <<< (8 * width - 1)) :
      SpeltNumber (.whole (-(n : Int))) (field b width (1 <<< (8 * width) - n)) := by
    have hhalf : 1 <<< (8 * width - 1) ≤ 1 <<< (8 * width) := by
      rw [Nat.one_shiftLeft, Nat.one_shiftLeft]
      exact Nat.pow_le_pow_right (by decide) (Nat.sub_le _ _)
    have hmod : (-(n : Int) % (1 <<< (8 * width) : Nat)).toNat = 1 <<< (8 * width) - n := by
      rw [← Int.add_emod_right, Int.emod_eq_of_lt (by omega) (by omega)]
      omega
    rw [← hmod]
    exact .signed hb (by omega) (by omega)
  unfold negativeBytes
  split_ifs with h1 h2 h3 h4
  · exact .negative hn h1
  · exact hlong 1 (by decide) h2
  · exact hlong 2 (by decide) h3
  · exact hlong 4 (by decide) h4
  · exact hlong 8 (by decide) h

theorem speltNumber_numberBytes {n : Number} (h : n.fits) : SpeltNumber n (numberBytes n) := by
  cases n with
  | whole n =>
      obtain ⟨hlow, hhigh⟩ := h
      by_cases hn : n < 0
      · have habs : n = -(n.natAbs : Int) := by omega
        rw [numberBytes, if_pos hn]
        nth_rewrite 1 [habs]
        exact speltNumber_negativeBytes (by omega) (by omega)
      · have habs : n = (n.natAbs : Int) := by omega
        rw [numberBytes, if_neg hn]
        nth_rewrite 1 [habs]
        exact .natural (holds_naturalBytes (by omega))
  | double x => exact .double x

theorem announces_numberBytes {n : Number} (h : n.fits) :
    Announces (numberBytes n) (.scalar n.token) := by
  have hspelt := speltNumber_numberBytes h
  cases n with
  | whole n =>
      by_cases hn : n < 0
      · obtain ⟨t, ht, hbs⟩ := hspelt.announces h
        cases ht with
        | own => exact hbs
        | signed =>
            rw [Number.token, if_pos hn]
            exact hbs
      · have habs : n.toNat = n.natAbs := by omega
        have hlt : n.natAbs < 1 <<< 64 := by
          have hhigh := h.2
          omega
        rw [numberBytes, if_neg hn, Number.token, if_neg hn, habs]
        exact (holds_naturalBytes hlt).announces naturals_areRead
  | double x =>
      obtain ⟨t, ht, hbs⟩ := hspelt.announces h
      cases ht
      exact hbs

end CourierDispatch.MsgPack
