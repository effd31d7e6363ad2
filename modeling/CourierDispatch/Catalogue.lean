/-!
# The catalogue of names

The commands that are understood and the results that are published form two closed lists. A name is
either the wire name of one of them or unknown.
-/

namespace CourierDispatch

/-- The version of the catalogue, raised whenever a name is added or removed. -/
def catalogueVersion : Nat := 1

structure UnknownName where
  name : String
deriving DecidableEq, Repr

def UnknownName.message (e : UnknownName) : String := s!"unrecognized name: {e.name}"

inductive CommandKind
  /-- Pick an idle courier for an order. -/
  | assignCourier
  /-- Release the courier of an order. -/
  | unassignCourier
deriving DecidableEq, Repr

namespace CommandKind

def all : List CommandKind := [assignCourier, unassignCourier]

def wireName : CommandKind → String
  | assignCourier => "create_order.assign_courier"
  | unassignCourier => "create_order.unassign_courier"

def ofName? (s : String) : Option CommandKind := all.find? (·.wireName = s)

theorem mem_all (k : CommandKind) : k ∈ all := by cases k <;> decide

end CommandKind

inductive ResultKind
  | courierAssigned
  | courierAssignmentFailed
  | courierUnassigned
deriving DecidableEq, Repr

namespace ResultKind

def all : List ResultKind := [courierAssigned, courierAssignmentFailed, courierUnassigned]

def wireName : ResultKind → String
  | courierAssigned => "courier.courier_assigned"
  | courierAssignmentFailed => "courier.courier_assignment_failed"
  | courierUnassigned => "courier.courier_unassigned"

def ofName? (s : String) : Option ResultKind := all.find? (·.wireName = s)

theorem mem_all (k : ResultKind) : k ∈ all := by cases k <;> decide

end ResultKind

end CourierDispatch
