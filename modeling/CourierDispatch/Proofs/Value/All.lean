import CourierDispatch.Value

/-!
# Properties of all parts of a value

`Value.All p` says that a property holds of a value and of everything inside it.
-/

namespace CourierDispatch

def Number.IsInteger : Number → Prop
  | whole n => (Number.whole n).fits
  | double _ => False

namespace Value

mutual
/-- The value and all values inside it have a property. -/
def All (p : Value → Prop) : Value → Prop
  | .array items => p (.array items) ∧ AllItems p items
  | .object members => p (.object members) ∧ AllMembers p members
  | v => p v

def AllItems (p : Value → Prop) : List Value → Prop
  | [] => True
  | v :: rest => All p v ∧ AllItems p rest

def AllMembers (p : Value → Prop) : List (String × Value) → Prop
  | [] => True
  | (_, v) :: rest => All p v ∧ AllMembers p rest
end

theorem allItems_iff {p : Value → Prop} {items : List Value} :
    AllItems p items ↔ ∀ v ∈ items, v.All p := by
  induction items with
  | nil => simp [AllItems]
  | cons v items ih => simp [AllItems, ih]

theorem allMembers_iff {p : Value → Prop} {members : List (String × Value)} :
    AllMembers p members ↔ ∀ m ∈ members, m.2.All p := by
  induction members with
  | nil => simp [AllMembers]
  | cons m members ih => simp [AllMembers, ih]

mutual
theorem All.imp {p q : Value → Prop} (h : ∀ v, p v → q v) (v : Value) (hv : v.All p) : v.All q := by
  match v, hv with
  | .null, hv | .bool _, hv | .number _, hv | .string _, hv => exact h _ hv
  | .array items, hv => exact ⟨h _ hv.1, AllItems.imp h items hv.2⟩
  | .object members, hv => exact ⟨h _ hv.1, AllMembers.imp h members hv.2⟩

theorem AllItems.imp {p q : Value → Prop} (h : ∀ v, p v → q v) (items : List Value)
    (hv : AllItems p items) : AllItems q items := by
  match items, hv with
  | [], _ => trivial
  | v :: rest, hv => exact ⟨All.imp h v hv.1, AllItems.imp h rest hv.2⟩

theorem AllMembers.imp {p q : Value → Prop} (h : ∀ v, p v → q v)
    (members : List (String × Value)) (hv : AllMembers p members) : AllMembers q members := by
  match members, hv with
  | [], _ => trivial
  | (_, v) :: rest, hv => exact ⟨All.imp h v hv.1, AllMembers.imp h rest hv.2⟩
end

theorem wellFormedItems_iff {items : List Value} :
    WellFormedItems items ↔ ∀ v ∈ items, v.WellFormed := by
  induction items with
  | nil => simp [WellFormedItems]
  | cons v items ih => simp [WellFormedItems, ih]

theorem wellFormedMembers_iff {members : List (String × Value)} :
    WellFormedMembers members ↔ ∀ m ∈ members, m.2.WellFormed := by
  induction members with
  | nil => simp [WellFormedMembers]
  | cons m members ih => simp [WellFormedMembers, ih]

theorem depthOfItems_le_iff {items : List Value} {n : Nat} :
    depthOfItems items ≤ n ↔ ∀ v ∈ items, v.depth ≤ n := by
  induction items with
  | nil => simp [depthOfItems]
  | cons v items ih => rw [depthOfItems, Nat.max_le, ih, List.forall_mem_cons]

theorem depthOfMembers_le_iff {members : List (String × Value)} {n : Nat} :
    depthOfMembers members ≤ n ↔ ∀ m ∈ members, m.2.depth ≤ n := by
  induction members with
  | nil => simp [depthOfMembers]
  | cons m members ih => rw [depthOfMembers, Nat.max_le, ih, List.forall_mem_cons]

theorem depthOfMembers_perm {ms members : List (String × Value)} (h : ms.Perm members) :
    depthOfMembers ms = depthOfMembers members := by
  have hle {xs ys : List (String × Value)} (h : xs.Perm ys) : depthOfMembers xs ≤ depthOfMembers ys :=
    depthOfMembers_le_iff.2 fun m hm => depthOfMembers_le_iff.1 (Nat.le_refl _) m (h.mem_iff.1 hm)
  exact Nat.le_antisymm (hle h) (hle h.symm)

def IntegralNode : Value → Prop
  | .number n => n.IsInteger
  | _ => True

/-- All numbers of the value are whole numbers of 64 bits. -/
def Integral (v : Value) : Prop := v.All IntegralNode

theorem Integral.fits {v : Value} (hv : v.Integral) (n : Number) (hn : v = .number n) : n.fits := by
  subst hn
  cases n with
  | whole n => exact hv
  | double x => exact hv.elim

def NotDouble : Value → Prop
  | .number (.double _) => False
  | _ => True

mutual
/-- Without doubles, the numbers of a well-formed value are whole numbers of 64 bits. -/
theorem integral_of_wellFormed (v : Value) (hw : v.WellFormed) (hd : v.All NotDouble) :
    v.Integral := by
  match v, hw, hd with
  | .null, _, _ | .bool _, _, _ | .string _, _, _ => trivial
  | .number (.whole n), hw, _ => exact hw
  | .array items, hw, hd => exact ⟨trivial, integralItems_of_wellFormed items hw hd.2⟩
  | .object members, hw, hd => exact ⟨trivial, integralMembers_of_wellFormed members hw.2 hd.2⟩

theorem integralItems_of_wellFormed (items : List Value) (hw : WellFormedItems items)
    (hd : AllItems NotDouble items) : AllItems IntegralNode items := by
  match items, hw, hd with
  | [], _, _ => trivial
  | v :: rest, hw, hd =>
      exact ⟨integral_of_wellFormed v hw.1 hd.1, integralItems_of_wellFormed rest hw.2 hd.2⟩

theorem integralMembers_of_wellFormed (members : List (String × Value))
    (hw : WellFormedMembers members) (hd : AllMembers NotDouble members) :
    AllMembers IntegralNode members := by
  match members, hw, hd with
  | [], _, _ => trivial
  | (_, v) :: rest, hw, hd =>
      exact ⟨integral_of_wellFormed v hw.1 hd.1, integralMembers_of_wellFormed rest hw.2 hd.2⟩
end

end Value

end CourierDispatch
