import CourierDispatch.Call
import CourierDispatch.Context
import CourierDispatch.Details

/-!
# Use cases

What a command asks for is done by a collaborator, the use cases. They may take their time, and their
state may change with each call. A failure for want of couriers is an answer that gets published; any
other failure is internal.
-/

namespace CourierDispatch

inductive UseCaseError
  | noEligibleCourier (order : OrderId)
  | internal (text : String)
deriving DecidableEq, Repr

def UseCaseError.message : UseCaseError → String
  | noEligibleCourier o => s!"no eligible courier for order {o.text}"
  | internal text => text

class UseCases (U : Type) where
  /-- Books a courier for the order. -/
  assign : U → Context → OrderId → Call U (Except UseCaseError CourierId)
  /-- Releases the courier of the order, if it has one. -/
  unassign : U → Context → OrderId → Call U (Except UseCaseError (Option CourierId))

end CourierDispatch
