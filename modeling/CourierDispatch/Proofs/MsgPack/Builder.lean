import CourierDispatch.Proofs.Keyed
import CourierDispatch.Proofs.MsgPack.Invariant
import CourierDispatch.Value.Builder
import Mathlib.Data.List.Forall2

/-!
# Building values from MsgPack

While a value is built, each of its open containers is a container of the scanner. What has been put into
it and what is left of it add up to no more than was announced, and whatever is inside is carried. So the
value that is built in the end is carried too.
-/

namespace CourierDispatch.Value

open MsgPack

/-- Members that an object may have, with their order and their places. -/
structure CarriedMembers (level room : Nat) (members : List (String × Value)) : Prop where
  sorted : Keyed.Sorted members
  room : 2 * members.length + room < 2 * sizeLimit
  each : ∀ m ∈ members, CarriedMember level m

/-- The containers around a place are those of the scanner, down to `base` of them around the value. -/
def Place.InStep (base : Nat) : List Frame → Place → Prop
  | frames, .top => frames.length = base
  | f :: frames, .item before outer =>
    before.length + f.left < sizeLimit ∧ (∀ v ∈ before, Carried (frames.length + 1) v) ∧
      outer.InStep base frames
  | f :: frames, .member members key outer =>
    CarriedMembers (frames.length + 1) (f.left + 1) members ∧ Fits key ∧ outer.InStep base frames
  | [], _ => False

theorem CarriedMembers.fewer {level room room' : Nat} {members : List (String × Value)}
    (h : CarriedMembers level room members) (hroom : room' ≤ room) :
    CarriedMembers level room' members where
  sorted := h.sorted
  room := by
    have hlt := h.room
    omega
  each := h.each

theorem Place.InStep.fewer {base : Nat} {frames frames' : List Frame} {place : Place}
    (hleft : List.Forall₂ (fun f g => g.left ≤ f.left) frames frames')
    (h : place.InStep base frames) : place.InStep base frames' := by
  induction place generalizing frames frames' with
  | top =>
      have hbase : frames.length = base := by cases frames <;> exact h
      have hbase' : frames'.length = base := hleft.length_eq.symm.trans hbase
      cases frames' <;> exact hbase'
  | item before outer ih =>
      cases hleft with
      | nil => exact h.elim
      | cons hf hframes =>
          obtain ⟨hroom, hbefore, houter⟩ := h
          refine ⟨by omega, ?_, ih hframes houter⟩
          rw [← hframes.length_eq]
          exact hbefore
  | member members key outer ih =>
      cases hleft with
      | nil => exact h.elim
      | cons hf hframes =>
          obtain ⟨hmembers, hkey, houter⟩ := h
          refine ⟨?_, hkey, ih hframes houter⟩
          rw [← hframes.length_eq]
          exact hmembers.fewer (Nat.add_le_add_right hf 1)

namespace Builder

def InStep (base : Nat) : List Frame → Builder → Prop
  | frames, value place => place.InStep base frames
  | f :: frames, name members place =>
    CarriedMembers (frames.length + 1) f.left members ∧ place.InStep base frames
  | [], name _ _ => False
  | frames, done v => frames.length = base ∧ Carried base v

variable {base : Nat} {frames : List Frame} {b b' : Builder}

theorem InStep.fewer {frames' : List Frame}
    (hleft : List.Forall₂ (fun f g => g.left ≤ f.left) frames frames') (h : b.InStep base frames) :
    b.InStep base frames' := by
  cases b with
  | value place =>
      have hplace : place.InStep base frames := by cases frames <;> exact h
      have hplace' := hplace.fewer hleft
      cases frames' <;> exact hplace'
  | name members place =>
      cases hleft with
      | nil => exact h.elim
      | cons hf hframes =>
          obtain ⟨hmembers, hplace⟩ := h
          refine ⟨?_, hplace.fewer hframes⟩
          rw [← hframes.length_eq]
          exact hmembers.fewer hf
  | done v =>
      have hdone : frames.length = base ∧ Carried base v := by cases frames <;> exact h
      have hdone' : frames'.length = base ∧ Carried base v :=
        ⟨hleft.length_eq.symm.trans hdone.1, hdone.2⟩
      cases frames' <;> exact hdone'

theorem inStep_put {v : Value} {place : Place} (hr : Running frames)
    (hv : Carried frames.length v) (hp : place.InStep base frames) :
    (put v place).InStep base (countDown frames) := by
  cases place with
  | top =>
      have hbase : frames.length = base := by cases frames <;> exact hp
      have hdone : (countDown frames).length = base ∧ Carried base v :=
        ⟨(length_countDown frames).trans hbase, hbase ▸ hv⟩
      cases frames <;> exact hdone
  | item before outer =>
      cases frames with
      | nil => exact hp.elim
      | cons f frames =>
          have hpos := hr.left_pos f List.mem_cons_self
          obtain ⟨hroom, hbefore, houter⟩ := hp
          refine ⟨?_, ?_, houter⟩
          · rw [List.length_cons]
            change before.length + 1 + (f.left - 1) < sizeLimit
            omega
          · intro v' hv'
            rcases List.mem_cons.1 hv' with rfl | hv'
            · exact hv
            · exact hbefore v' hv'
  | member members key outer =>
      cases frames with
      | nil => exact hp.elim
      | cons f frames =>
          have hpos := hr.left_pos f List.mem_cons_self
          obtain ⟨hmembers, hkey, houter⟩ := hp
          refine ⟨⟨Keyed.sorted_insert hmembers.sorted, ?_, ?_⟩, houter⟩
          · have hlength : (Keyed.insert key v members).length ≤ members.length + 1 :=
              Keyed.length_insert_le
            have hroom := hmembers.room
            change 2 * (Keyed.insert key v members).length + (f.left - 1) < 2 * sizeLimit
            omega
          · intro m hm
            rcases Keyed.mem_insert hm with rfl | hm
            · exact ⟨hkey, hv⟩
            · exact hmembers.each m hm

theorem inStep_name {f : Frame} {members : List (String × Value)} {place : Place} {key : String}
    (hf : 0 < f.left) (hmembers : CarriedMembers (frames.length + 1) f.left members)
    (hkey : Fits key) (hp : place.InStep base frames) :
    (value (.member members key place)).InStep base (countDown (f :: frames)) := by
  refine ⟨⟨hmembers.sorted, ?_, hmembers.each⟩, hkey, hp⟩
  have hroom := hmembers.room
  change 2 * members.length + (f.left - 1 + 1) < 2 * sizeLimit
  omega

theorem inStep_item (hr : Running frames) {t : Token} (hb : b.InStep base frames) (ht : t.Carried)
    (h : b.accept t = .ok b') : b'.InStep base (countDown frames) := by
  cases b with
  | done v => cases h
  | value place =>
      have hplace : place.InStep base frames := by cases frames <;> exact hb
      change acceptValue place t = _ at h
      unfold acceptValue at h
      split at h
      · exact ht.elim
      · exact ht.elim
      · exact ht.elim
      · split at h
        next v hv =>
          cases h
          exact inStep_put hr (ht.scalar hv hr.length_le) hplace
        next => cases h
  | name members place =>
      cases frames with
      | nil => exact hb.elim
      | cons f frames =>
          have hpos := hr.left_pos f List.mem_cons_self
          obtain ⟨hmembers, hplace⟩ := hb
          change acceptName members place t = _ at h
          unfold acceptName at h
          split at h
          · exact ht.elim
          · cases h
            exact inStep_name hpos hmembers ht hplace
          · split at h
            next hs =>
              cases h
              exact inStep_name hpos hmembers (fits_of_string? hs ht) hplace
            next => cases h
          · cases h
          · cases h

theorem inStep_opening {f : Frame} (hf : f.Announced) (hb : b.InStep base frames)
    (h : b.accept f.opening = .ok b') : b'.InStep base (f :: frames) := by
  obtain ⟨isMap, left⟩ := f
  cases b with
  | done v => cases isMap <;> cases h
  | value place =>
      have hplace : place.InStep base frames := by cases frames <;> exact hb
      cases isMap with
      | false =>
          cases h
          refine ⟨?_, by simp, hplace⟩
          change [].length + left < sizeLimit
          rw [List.length_nil, Nat.zero_add]
          exact hf
      | true =>
          cases h
          refine ⟨⟨List.Pairwise.nil, ?_, by simp⟩, hplace⟩
          rw [List.length_nil, Nat.mul_zero, Nat.zero_add]
          exact hf
  | name members place => cases isMap <;> cases members <;> cases h

/-- A container that is complete becomes an item of the one around it. -/
theorem inStep_closing {isMap : Bool} (hr : Running frames) (hl : frames.length < Scanner.depthLimit)
    (hb : b.InStep base (⟨isMap, 0⟩ :: frames))
    (h : b.accept (Frame.closing ⟨isMap, 0⟩) = .ok b') : b'.InStep base (countDown frames) := by
  cases b with
  | done v => cases isMap <;> cases h
  | value place =>
      cases isMap with
      | true => cases place <;> cases h
      | false =>
          cases place with
          | top => cases h
          | member members key outer => cases h
          | item before outer =>
              cases h
              obtain ⟨hroom, hbefore, houter⟩ := hb
              refine inStep_put hr (carried_array hl ?_ ?_) houter
              · rw [List.length_reverse]
                exact hroom
              · intro v hv
                exact hbefore v (List.mem_reverse.1 hv)
  | name members place =>
      cases isMap with
      | false => cases members <;> cases h
      | true =>
          cases h
          obtain ⟨hmembers, hplace⟩ := hb
          have hroom := hmembers.room
          exact inStep_put hr (carried_object hl hmembers.sorted (by omega) hmembers.each) hplace

end Builder

end CourierDispatch.Value
