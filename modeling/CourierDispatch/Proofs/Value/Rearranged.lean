import CourierDispatch.Proofs.Value.All
import CourierDispatch.Proofs.Value.Normal

/-!
# Members in another order

Whoever writes an object down may put its members in any order, at every level. `w.Rearranges v` says
that `w` is `v` in such an order. What is kept of it is `v`, if the members of `v` are in the order of
their names.
-/

namespace CourierDispatch.Value

mutual
/-- The value is the other one with the members of objects in any order. -/
inductive Rearranges : Value → Value → Prop
  | null : Rearranges .null .null
  | bool (b : Bool) : Rearranges (.bool b) (.bool b)
  | number (n : Number) : Rearranges (.number n) (.number n)
  | string (s : String) : Rearranges (.string s) (.string s)
  | array {ws vs : List Value} (h : RearrangesItems ws vs) : Rearranges (.array ws) (.array vs)
  | object {ms ws vs : List (String × Value)} (hms : ms.Perm ws) (h : RearrangesMembers ws vs) :
      Rearranges (.object ms) (.object vs)

inductive RearrangesItems : List Value → List Value → Prop
  | nil : RearrangesItems [] []
  | cons {w v : Value} {ws vs : List Value} (hv : Rearranges w v) (hvs : RearrangesItems ws vs) :
      RearrangesItems (w :: ws) (v :: vs)

inductive RearrangesMembers : List (String × Value) → List (String × Value) → Prop
  | nil : RearrangesMembers [] []
  | cons {k : String} {w v : Value} {ws vs : List (String × Value)} (hv : Rearranges w v)
      (hvs : RearrangesMembers ws vs) : RearrangesMembers ((k, w) :: ws) ((k, v) :: vs)
end

mutual
theorem Rearranges.refl (v : Value) : v.Rearranges v := by
  match v with
  | .null => exact .null
  | .bool b => exact .bool b
  | .number n => exact .number n
  | .string s => exact .string s
  | .array items => exact .array (RearrangesItems.refl items)
  | .object members => exact .object (.refl _) (RearrangesMembers.refl members)

theorem RearrangesItems.refl (vs : List Value) : RearrangesItems vs vs := by
  match vs with
  | [] => exact .nil
  | v :: vs => exact .cons (Rearranges.refl v) (RearrangesItems.refl vs)

theorem RearrangesMembers.refl (vs : List (String × Value)) : RearrangesMembers vs vs := by
  match vs with
  | [] => exact .nil
  | (_, v) :: vs => exact .cons (Rearranges.refl v) (RearrangesMembers.refl vs)
end

mutual
theorem Rearranges.depth_eq {w v : Value} (h : w.Rearranges v) : w.depth = v.depth := by
  match h with
  | .null | .bool _ | .number _ | .string _ => rfl
  | .array h => exact congrArg (· + 1) h.depth_eq
  | .object hms h => exact congrArg (· + 1) ((depthOfMembers_perm hms).trans h.depth_eq)

theorem RearrangesItems.depth_eq {ws vs : List Value} (h : RearrangesItems ws vs) :
    depthOfItems ws = depthOfItems vs := by
  match h with
  | .nil => rfl
  | .cons hv hvs => exact congrArg₂ max hv.depth_eq hvs.depth_eq

theorem RearrangesMembers.depth_eq {ws vs : List (String × Value)} (h : RearrangesMembers ws vs) :
    depthOfMembers ws = depthOfMembers vs := by
  match h with
  | .nil => rfl
  | .cons hv hvs => exact congrArg₂ max hv.depth_eq hvs.depth_eq
end

mutual
theorem Rearranges.integral {w v : Value} (h : w.Rearranges v) (hv : v.Integral) : w.Integral := by
  match h with
  | .null | .bool _ | .number _ | .string _ => exact hv
  | .array h => exact ⟨trivial, h.integral hv.2⟩
  | .object hms h =>
      refine ⟨trivial, allMembers_iff.2 fun m hm => ?_⟩
      exact allMembers_iff.1 (h.integral hv.2) m (hms.mem_iff.1 hm)

theorem RearrangesItems.integral {ws vs : List Value} (h : RearrangesItems ws vs)
    (hvs : AllItems IntegralNode vs) : AllItems IntegralNode ws := by
  match h with
  | .nil => trivial
  | .cons hfirst hrest => exact ⟨hfirst.integral hvs.1, hrest.integral hvs.2⟩

theorem RearrangesMembers.integral {ws vs : List (String × Value)} (h : RearrangesMembers ws vs)
    (hvs : AllMembers IntegralNode vs) : AllMembers IntegralNode ws := by
  match h with
  | .nil => trivial
  | .cons hfirst hrest => exact ⟨hfirst.integral hvs.1, hrest.integral hvs.2⟩
end

theorem normalMembers_perm {ms ws : List (String × Value)} (h : ms.Perm ws) :
    (normalMembers ms).Perm (normalMembers ws) := by
  have hmap (l : List (String × Value)) : normalMembers l = l.map fun m => (m.1, m.2.normal) := by
    induction l with
    | nil => rfl
    | cons m l ih => rw [normalMembers, ih, List.map_cons]
  rw [hmap, hmap]
  exact h.map _

mutual
/-- The order of the members is not kept. -/
theorem Rearranges.normal_eq {w v : Value} (h : w.Rearranges v) (hv : v.WellFormed) :
    w.normal = v := by
  match h with
  | .null | .bool _ | .string _ => rfl
  | .number _ => exact normal_of_wellFormed _ hv
  | .array h => rw [normal, h.normal_eq hv]
  | .object hms h =>
      have hperm := normalMembers_perm hms
      rw [h.normal_eq hv.2] at hperm
      exact congrArg Value.object (Keyed.ofList_of_perm hv.1 hperm)

theorem RearrangesItems.normal_eq {ws vs : List Value} (h : RearrangesItems ws vs)
    (hvs : WellFormedItems vs) : normalItems ws = vs := by
  match h with
  | .nil => rfl
  | .cons hfirst hrest => rw [normalItems, hfirst.normal_eq hvs.1, hrest.normal_eq hvs.2]

theorem RearrangesMembers.normal_eq {ws vs : List (String × Value)} (h : RearrangesMembers ws vs)
    (hvs : WellFormedMembers vs) : normalMembers ws = vs := by
  match h with
  | .nil => rfl
  | .cons hfirst hrest => rw [normalMembers, hfirst.normal_eq hvs.1, hrest.normal_eq hvs.2]
end

end CourierDispatch.Value
