import CourierDispatch.Draws
import CourierDispatch.UseCases

/-!
# The courier pool

A roster of couriers and the orders they serve. A courier serves one order at a time, and an order
keeps its courier until it is released, so a repeated booking changes nothing. `assignments` and `busy`
are kept as inverses of each other.
-/

namespace CourierDispatch

structure Pool where
  /-- The couriers in the order in which they joined. -/
  roster : List CourierId
  /-- The courier of each order that has one. -/
  assignments : List (OrderId × CourierId)
  /-- The order of each courier that has one. -/
  busy : List (CourierId × OrderId)
deriving DecidableEq, Repr

namespace Pool

def empty : Pool := ⟨[], [], []⟩

/-- Adds a courier to the roster, unless it is there already. -/
def add (p : Pool) (k : CourierId) : Pool :=
  if k ∈ p.roster then p else { p with roster := p.roster ++ [k] }

def ofRoster (ks : List CourierId) : Pool := ks.foldl add empty

def size (p : Pool) : Nat := p.roster.length

def assignment? (p : Pool) (o : OrderId) : Option CourierId := p.assignments.lookup o

/-- The couriers without an order. -/
def idle (p : Pool) : List CourierId := p.roster.filter fun k => (p.busy.lookup k).isNone

def pick? (p : Pool) (draw : Nat) : Option CourierId := p.idle[draw % p.idle.length]?

def book (p : Pool) (o : OrderId) (k : CourierId) : Pool :=
  { p with assignments := (o, k) :: p.assignments, busy := (k, o) :: p.busy }

/-- Books a courier for an order, picked by a random number if the order has none yet. -/
def assign (p : Pool) (draw : Nat) (o : OrderId) : Pool × Except UseCaseError CourierId :=
  match p.assignment? o with
  | some k => (p, .ok k)
  | none =>
    match p.pick? draw with
    | some k => (p.book o k, .ok k)
    | none => (p, .error (.noEligibleCourier o))

def release (p : Pool) (o : OrderId) : Pool × Option CourierId :=
  match p.assignment? o with
  | none => (p, none)
  | some k =>
    ({ p with
        assignments := p.assignments.filter (·.1 ≠ o)
        busy := p.busy.filter (·.1 ≠ k) }, some k)

structure Drawing where
  pool : Pool
  draws : Draws

instance : UseCases Drawing where
  assign d _ o :=
    let (pool, r) := d.pool.assign d.draws.next o
    .now ⟨pool, d.draws.rest⟩ r
  unassign d _ o :=
    let (pool, r) := d.pool.release o
    .now { d with pool } (.ok r)

end Pool

end CourierDispatch
