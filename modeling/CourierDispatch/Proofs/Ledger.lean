import CourierDispatch.Command
import CourierDispatch.Pool

/-!
# What messages should lead to

This is what a pipeline should publish, told without loops, inboxes and time. Messages are gone through
in their order. Each either asks for something or is skipped, and what it asks for is done on a pool of
couriers. The picks among idle couriers and the ids of replies are left to streams of draws.
-/

namespace CourierDispatch

/-- What a message says: its value and its headers. -/
structure Letter where
  value : List UInt8
  headers : Headers
deriving DecidableEq, Repr

inductive Request
  | assign (o : OrderId)
  | release (o : OrderId)
deriving DecidableEq, Repr

def Request.order : Request → OrderId
  | assign o | release o => o

/-- The request of a command, if its name is in the catalogue and its payload is of the type that goes
with the name. -/
def Command.request? (c : Command) : Option Request :=
  match CommandKind.ofName? c.name with
  | none => none
  | some .assignCourier =>
    match DetailsType.assignCourier.read c.payload with
    | .ok (.assignCourier o) => some (.assign o)
    | _ => none
  | some .unassignCourier =>
    match DetailsType.unassignCourier.read c.payload with
    | .ok (.unassignCourier o) => some (.release o)
    | _ => none

namespace Letter

def request? (format : WireFormat) (l : Letter) : Option Request :=
  match Command.decode format l.value with
  | .ok c => c.request?
  | .error _ => none

def command? (format : WireFormat) (l : Letter) : Option Command :=
  match Command.decode format l.value with
  | .ok c => some { c with context := Context.ofHeaders l.headers }
  | .error _ => none

end Letter

inductive Answer
  | assigned (o : OrderId) (k : CourierId)
  | failed (o : OrderId)
  | unassigned (o : OrderId) (k : CourierId)
deriving DecidableEq, Repr

namespace Answer

def kind : Answer → ResultKind
  | assigned _ _ => .courierAssigned
  | failed _ => .courierAssignmentFailed
  | unassigned _ _ => .courierUnassigned

def details : Answer → Details
  | assigned o k => .courierAssigned o k
  | failed o => .courierAssignmentFailed o
  | unassigned o k => .courierUnassigned o k

def order : Answer → OrderId
  | assigned o _ | failed o | unassigned o _ => o

def courier? : Answer → Option CourierId
  | assigned _ k | unassigned _ k => some k
  | failed _ => none

end Answer

/-- An answer with its id, and the context of the message that it answers. -/
structure Reply where
  id : Uuid
  answer : Answer
  context : Context

/-- A pool of couriers and what is left to chance. -/
structure Ledger where
  pool : Pool
  /-- The picks among idle couriers. -/
  draws : Draws
  /-- The ids of replies. -/
  ids : Draws

namespace Ledger

/-- Does what is asked for. Releasing an order without a courier is not answered. -/
def serve (b : Ledger) (ctx : Context) : Request → Ledger × List Reply
  | .assign o =>
    match b.pool.assign b.draws.next o with
    | (pool, .ok k) =>
      (⟨pool, b.draws.rest, b.ids.rest⟩, [⟨.random b.ids.next, .assigned o k, ctx⟩])
    | (pool, .error _) =>
      (⟨pool, b.draws.rest, b.ids.rest⟩, [⟨.random b.ids.next, .failed o, ctx⟩])
  | .release o =>
    match b.pool.release o with
    | (pool, some k) => (⟨pool, b.draws, b.ids.rest⟩, [⟨.random b.ids.next, .unassigned o k, ctx⟩])
    | (pool, none) => (⟨pool, b.draws, b.ids.rest⟩, [])

/-- Takes a message, which is skipped unless it asks for something. -/
def take (format : WireFormat) (b : Ledger) (l : Letter) : Ledger × List Reply :=
  match l.request? format with
  | some r => b.serve (Context.ofHeaders l.headers) r
  | none => (b, [])

def takeAll (format : WireFormat) (b : Ledger) : List Letter → Ledger × List Reply
  | [] => (b, [])
  | l :: rest =>
    let first := b.take format l
    let others := first.1.takeAll format rest
    (others.1, first.2 ++ others.2)

def replies (format : WireFormat) (b : Ledger) (ls : List Letter) : List Reply :=
  (b.takeAll format ls).2

def handle (b : Ledger) (c : Command) : Ledger × List Reply :=
  match c.request? with
  | some r => b.serve c.context r
  | none => (b, [])

def handleAll (b : Ledger) : List Command → Ledger × List Reply
  | [] => (b, [])
  | c :: rest =>
    let first := b.handle c
    let others := first.1.handleAll rest
    (others.1, first.2 ++ others.2)

/-- Only the commands of messages matter. -/
theorem takeAll_eq_handleAll (format : WireFormat) (b : Ledger) (ls : List Letter) :
    b.takeAll format ls = b.handleAll (ls.filterMap (·.command? format)) := by
  induction ls generalizing b with
  | nil => rfl
  | cons l ls ih =>
      rw [takeAll, ih]
      cases h : Command.decode format l.value with
      | error e =>
          have hcommand : l.command? format = none := by simp [Letter.command?, h]
          have htake : b.take format l = (b, []) := by simp [take, Letter.request?, h]
          rw [List.filterMap_cons_none hcommand, htake]
          rfl
      | ok c =>
          have hcommand : l.command? format =
              some { c with context := Context.ofHeaders l.headers } := by
            simp [Letter.command?, h]
          have htake : b.take format l =
              b.handle { c with context := Context.ofHeaders l.headers } := by
            simp [take, handle, Letter.request?, h, Command.request?]
          rw [List.filterMap_cons_some hcommand, htake]
          rfl

theorem order_of_mem_serve {b : Ledger} {ctx : Context} {r : Request} {reply : Reply}
    (h : reply ∈ (b.serve ctx r).2) : reply.answer.order = r.order := by
  unfold serve at h
  split at h
  · split at h
    · rw [List.mem_singleton.1 h]
      rfl
    · rw [List.mem_singleton.1 h]
      rfl
  · split at h
    · rw [List.mem_singleton.1 h]
      rfl
    · cases h

theorem exists_request_of_mem_replies {format : WireFormat} {b : Ledger} {ls : List Letter}
    {reply : Reply} (h : reply ∈ b.replies format ls) :
    ∃ l ∈ ls, ∃ r, l.request? format = some r ∧ reply.answer.order = r.order := by
  unfold replies at h
  induction ls generalizing b with
  | nil => cases h
  | cons l ls ih =>
      rcases List.mem_append.1 h with h | h
      · unfold take at h
        split at h
        next r hr => exact ⟨l, List.mem_cons_self, r, hr, order_of_mem_serve h⟩
        next => cases h
      · obtain ⟨l', hl', r, hr⟩ := ih h
        exact ⟨l', List.mem_cons_of_mem _ hl', r, hr⟩

theorem handleAll_append (b : Ledger) (cs ds : List Command) :
    b.handleAll (cs ++ ds) =
      (((b.handleAll cs).1.handleAll ds).1,
        (b.handleAll cs).2 ++ ((b.handleAll cs).1.handleAll ds).2) := by
  induction cs generalizing b with
  | nil => rfl
  | cons c cs ih =>
      rw [List.cons_append, handleAll, ih]
      simp [handleAll]

end Ledger

end CourierDispatch
