import CourierDispatch.Draws
import CourierDispatch.Service

/-!
# The dispatcher

The dispatcher looks up what a command asks for, reads its payload, calls the use case, and makes a
result of the answer. A command with an unknown name or a payload of another shape never reaches the
use cases.
-/

namespace CourierDispatch

/-- Use cases and the random numbers that make the ids of results. -/
structure Dispatcher (U : Type) where
  useCases : U
  ids : Draws

namespace Dispatcher

variable {U : Type} [UseCases U]

/-- The details that a command of a kind carries. -/
def requestType : CommandKind → DetailsType
  | .assignCourier => .assignCourier
  | .unassignCourier => .unassignCourier

def orderOf : Details → OrderId
  | .assignCourier o | .unassignCourier o | .courierAssigned o _ | .courierAssignmentFailed o
  | .courierUnassigned o _ => o

def request (kind : CommandKind) (c : Command) : Except HandleError OrderId :=
  match c.details (requestType kind) with
  | .ok d => .ok (orderOf d)
  | .error e => .error (.malformedPayload kind e)

def answer (draw : Nat) (kind : CommandKind) (c : Command) (result : ResultKind) (d : Details) :
    Outcome :=
  match Result.ofDatum (.random draw) result d.toDatum c.context with
  | .ok r => .ok (some r)
  | .error e => .error (.result kind e)

def assigned (draw : Nat) (c : Command) (o : OrderId) : Except UseCaseError CourierId → Outcome
  | .ok k => answer draw .assignCourier c .courierAssigned (.courierAssigned o k)
  | .error (.noEligibleCourier failed) =>
    answer draw .assignCourier c .courierAssignmentFailed (.courierAssignmentFailed failed)
  | .error e => .error (.useCase .assignCourier e)

def unassigned (draw : Nat) (c : Command) (o : OrderId) :
    Except UseCaseError (Option CourierId) → Outcome
  | .ok (some k) => answer draw .unassignCourier c .courierUnassigned (.courierUnassigned o k)
  | .ok none => .ok none
  | .error e => .error (.useCase .unassignCourier e)

def handle (d : Dispatcher U) (c : Command) : Call (Dispatcher U) Outcome :=
  match c.kind? with
  | none => .now d (.error (.unrecognized c.name))
  | some kind =>
    match request kind c with
    | .error e => .now d (.error e)
    | .ok o =>
      match kind with
      | .assignCourier =>
        (UseCases.assign d.useCases c.context o).within ⟨d.useCases, d.ids.rest⟩ useCases
          (fun u d => { d with useCases := u }) (assigned d.ids.next c o)
      | .unassignCourier =>
        (UseCases.unassign d.useCases c.context o).within ⟨d.useCases, d.ids.rest⟩ useCases
          (fun u d => { d with useCases := u }) (unassigned d.ids.next c o)

instance : Service (Dispatcher U) := ⟨handle⟩

end Dispatcher

end CourierDispatch
