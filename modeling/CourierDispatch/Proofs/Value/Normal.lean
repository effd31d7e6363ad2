import CourierDispatch.Proofs.Keyed
import CourierDispatch.Value

/-!
# What is kept of a value

The members of an object may come in any order, and a name may come twice. Of a value that is read, the
members are kept by name, of two with the same name the later one, and a double that is not finite
becomes null. `Value.normal` is what is kept; of a well-formed value it is all of it.
-/

namespace CourierDispatch

namespace Value

mutual
def normal : Value → Value
  | .number (.double x) => if x.isFinite then .number (.double x) else .null
  | .array items => .array (normalItems items)
  | .object members => .object (Keyed.ofList (normalMembers members))
  | v => v

def normalItems : List Value → List Value
  | [] => []
  | v :: rest => v.normal :: normalItems rest

def normalMembers : List (String × Value) → List (String × Value)
  | [] => []
  | (k, v) :: rest => (k, v.normal) :: normalMembers rest
end

mutual
theorem normal_of_wellFormed (v : Value) (hv : v.WellFormed) : v.normal = v := by
  match v, hv with
  | .null, _ | .bool _, _ | .string _, _ | .number (.whole _), _ => rfl
  | .number (.double x), hv =>
      have hx : x.isFinite = true := hv
      rw [normal, if_pos hx]
  | .array items, hv => rw [normal, normalItems_of_wellFormed items hv]
  | .object members, hv =>
      rw [normal, normalMembers_of_wellFormed members hv.2, Keyed.ofList_of_sorted hv.1]

theorem normalItems_of_wellFormed (items : List Value) (hv : WellFormedItems items) :
    normalItems items = items := by
  match items, hv with
  | [], _ => rfl
  | v :: rest, hv =>
      rw [normalItems, normal_of_wellFormed v hv.1, normalItems_of_wellFormed rest hv.2]

theorem normalMembers_of_wellFormed (members : List (String × Value))
    (hv : WellFormedMembers members) : normalMembers members = members := by
  match members, hv with
  | [], _ => rfl
  | (k, v) :: rest, hv =>
      rw [normalMembers, normal_of_wellFormed v hv.1, normalMembers_of_wellFormed rest hv.2]
end

theorem length_normalItems (items : List Value) : (normalItems items).length = items.length := by
  induction items with
  | nil => rfl
  | cons v items ih => rw [normalItems, List.length_cons, ih, List.length_cons]

theorem length_normalMembers (members : List (String × Value)) :
    (normalMembers members).length = members.length := by
  induction members with
  | nil => rfl
  | cons m members ih => rw [normalMembers, List.length_cons, ih, List.length_cons]

end Value

end CourierDispatch
