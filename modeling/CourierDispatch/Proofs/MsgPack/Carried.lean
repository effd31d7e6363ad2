import CourierDispatch.Proofs.MsgPack.Scanner
import Mathlib.Data.List.Induction

/-!
# What MsgPack carries

A value is carried inside some containers if it can be written there and comes back. A header has at most
eight bytes for a number and at most four for a length, so whatever a header says is carried again.
-/

namespace CourierDispatch

namespace MsgPack

/-- A value that can be written inside so many containers and comes back. -/
structure Carried (level : Nat) (v : Value) : Prop where
  wellFormed : v.WellFormed
  sized : Sized v
  depth : level + v.depth ≤ Scanner.depthLimit

structure CarriedMember (level : Nat) (m : String × Value) : Prop where
  name : Fits m.1
  value : Carried level m.2

variable {level : Nat}

theorem Carried.of_depth_eq_zero {v : Value} (hw : v.WellFormed) (hs : Sized v)
    (hv : v.depth = 0) (hl : level ≤ Scanner.depthLimit) : Carried level v :=
  ⟨hw, hs, by omega⟩

theorem carried_array {items : List Value} (hl : level < Scanner.depthLimit)
    (hlength : items.length < sizeLimit) (h : ∀ v ∈ items, Carried (level + 1) v) :
    Carried level (.array items) where
  wellFormed := Value.wellFormedItems_iff.2 fun v hv => (h v hv).wellFormed
  sized := ⟨hlength, Value.allItems_iff.2 fun v hv => (h v hv).sized⟩
  depth := by
    have hdepth : Value.depthOfItems items ≤ Scanner.depthLimit - (level + 1) :=
      Value.depthOfItems_le_iff.2 fun v hv => Nat.le_sub_of_add_le' (h v hv).depth
    rw [Value.depth]
    omega

theorem carried_object {members : List (String × Value)} (hl : level < Scanner.depthLimit)
    (hsorted : Keyed.Sorted members) (hlength : members.length < sizeLimit)
    (h : ∀ m ∈ members, CarriedMember (level + 1) m) : Carried level (.object members) where
  wellFormed := ⟨hsorted, Value.wellFormedMembers_iff.2 fun m hm => (h m hm).value.wellFormed⟩
  sized :=
    ⟨⟨hlength, fun m hm => (h m hm).name⟩, Value.allMembers_iff.2 fun m hm => (h m hm).value.sized⟩
  depth := by
    have hdepth : Value.depthOfMembers members ≤ Scanner.depthLimit - (level + 1) :=
      Value.depthOfMembers_le_iff.2 fun m hm => Nat.le_sub_of_add_le' (h m hm).value.depth
    rw [Value.depth]
    omega

end MsgPack

open MsgPack

/-- The token is an item of its own, and what it says is carried. -/
def Token.Carried : Token → Prop
  | natural n => (Number.whole n).fits
  | integer n => (Number.whole n).fits
  | text s => Fits s
  | bytes content => content.length < sizeLimit
  | arrayStart | arrayEnd | objectStart | objectEnd => False
  | _ => True

instance : DecidablePred Token.Carried
  | .natural n => inferInstanceAs (Decidable (Number.whole n).fits)
  | .integer n => inferInstanceAs (Decidable (Number.whole n).fits)
  | .text s => inferInstanceAs (Decidable (Fits s))
  | .bytes _ => inferInstanceAs (Decidable (_ < _))
  | .arrayStart | .arrayEnd | .objectStart | .objectEnd => inferInstanceAs (Decidable False)
  | .null | .bool _ | .float _ | .brokenText _ | .extension | .skimmed =>
    inferInstanceAs (Decidable True)

theorem Token.Carried.scalar {t : Token} {v : Value} {level : Nat} (ht : t.Carried)
    (h : Value.Builder.scalar? t = some v) (hl : level ≤ Scanner.depthLimit) :
    MsgPack.Carried level v := by
  cases t <;> simp only [Value.Builder.scalar?, Option.some.injEq, reduceCtorEq] at h <;> subst h
  case float x =>
    split
    next hx => exact .of_depth_eq_zero hx hx rfl hl
    next => exact .of_depth_eq_zero trivial trivial rfl hl
  case natural n => exact .of_depth_eq_zero ht ht rfl hl
  case integer n => exact .of_depth_eq_zero ht ht rfl hl
  case text s => exact .of_depth_eq_zero trivial ht rfl hl
  all_goals exact .of_depth_eq_zero trivial trivial rfl hl

namespace MsgPack

theorem fits_of_string? {content : List UInt8} {s : String} (h : Utf8.string? content = some s)
    (hlength : content.length < sizeLimit) : Fits s := by
  rw [Fits, Utf8.bytes_of_string? h]
  exact hlength

/-- Numbers and lengths in what a header announces are carried. -/
def Item.Carried : Item → Prop
  | scalar t => t.Carried
  | body .extension _ => True
  | body _ n | array n | map n => n < sizeLimit

instance : DecidablePred Item.Carried
  | .scalar t => inferInstanceAs (Decidable t.Carried)
  | .body .extension _ => inferInstanceAs (Decidable True)
  | .body .text _ | .body .bytes _ | .array _ | .map _ => inferInstanceAs (Decidable (_ < _))

/-- How many bytes the number of a header may have. -/
def Field.maxWidth : Field → Nat
  | natural | integer | single | double => 8
  | length _ | arrayLength | mapLength => 4

def Marker.Carried : Marker → Prop
  | item i => i.Carried
  | field f width => 0 < width ∧ width ≤ f.maxWidth

instance : DecidablePred Marker.Carried
  | .item i => inferInstanceAs (Decidable i.Carried)
  | .field _ _ => inferInstanceAs (Decidable (_ ∧ _))

theorem marker?_carried {b : UInt8} {m : Marker} (h : marker? b = some m) : m.Carried := by
  have hall : ∀ n < 256, (marker? n.toUInt8).all (fun m => decide m.Carried) = true := by
    decide +kernel
  have hb := hall b.toNat b.toNat_lt
  rw [← Utf8.eq_toUInt8_of_toNat rfl, h] at hb
  exact of_decide_eq_true hb

theorem bigEndian_lt (bs : List UInt8) : bigEndian bs < Nat.pow 256 bs.length := by
  induction bs using List.reverseRecOn with
  | nil => exact Nat.one_pos
  | append_singleton bs b ih =>
      have hb : b.toNat < 256 := b.toNat_lt
      rw [bigEndian_append_singleton, List.length_append]
      change _ < Nat.pow 256 bs.length * 256
      omega

theorem integer_fits {width n : Nat} (hw : 0 < width) (hle : width ≤ 8)
    (hn : n < Nat.pow 256 width) :
    (Number.whole
      (if n < 1 <<< (8 * width - 1) then n else (n : Int) - (1 <<< (8 * width) : Nat))).fits := by
  have hpow : Nat.pow 256 width = 1 <<< (8 * width) := by
    rw [Nat.one_shiftLeft, Nat.pow_mul]
    rfl
  obtain ⟨k, hk⟩ : ∃ k, 8 * width = k + 1 := ⟨8 * width - 1, by omega⟩
  have hhalf : 1 <<< k ≤ 1 <<< 63 := by
    rw [Nat.one_shiftLeft, Nat.one_shiftLeft]
    exact Nat.pow_le_pow_right (by decide) (by omega)
  rw [hpow, hk, Nat.shiftLeft_succ] at hn
  rw [hk, Nat.add_sub_cancel, Nat.shiftLeft_succ]
  simp only [Nat.reduceShiftLeft] at hhalf
  simp only [Number.fits, Nat.reduceShiftLeft]
  split <;> omega

/-- What the number of a header says is carried, if it has no more bytes than it may have. -/
theorem item_carried {f : Field} {bs : List UInt8} (hpos : 0 < bs.length)
    (hle : bs.length ≤ f.maxWidth) : (f.item bs.length (bigEndian bs)).Carried := by
  have hlt := bigEndian_lt bs
  have hsize (h : bs.length ≤ 4) : bigEndian bs < sizeLimit :=
    Nat.lt_of_lt_of_le hlt (Nat.pow_le_pow_right (by decide) h)
  cases f with
  | natural =>
      have hn : bigEndian bs < 1 <<< 64 :=
        Nat.lt_of_lt_of_le hlt (Nat.pow_le_pow_right (by decide) hle)
      refine ⟨by omega, ?_⟩
      exact Int.ofNat_lt.2 hn
  | integer => exact integer_fits hpos hle hlt
  | single => trivial
  | double => trivial
  | length kind =>
      cases kind with
      | text => exact hsize hle
      | bytes => exact hsize hle
      | extension => trivial
  | arrayLength => exact hsize hle
  | mapLength => exact hsize hle

theorem bodyToken_carried {content : List UInt8} (kind : BodyKind)
    (h : content.length < sizeLimit) : (Scanner.bodyToken content kind).Carried := by
  cases kind with
  | text =>
      rw [Scanner.bodyToken]
      split
      next s hs => exact fits_of_string? hs h
      next => trivial
  | bytes => exact h
  | extension => trivial

end MsgPack

end CourierDispatch
