import CourierDispatch.Keyed
import CourierDispatch.Service

/-!
# Layers around a service

`Timed` bounds how long a call may take, and `Metered` counts how calls end. A metered service around a
timed one counts time-outs as well.
-/

namespace CourierDispatch

/-- A service whose calls end after so many milliseconds at the latest. -/
structure Timed (S : Type) where
  inner : S
  timeout : Nat

namespace Timed

variable {S : Type}

/-- What an error says of the limit: the milliseconds are told in 64 bits and stay at the top. -/
def told (timeout : Nat) : Nat := min timeout (1 <<< 64 - 1)

/-- A call that does not end in time is given up, and an error is the answer. -/
def limit (timeout : Nat) (c : Call S Outcome) : Call S Outcome :=
  if c.endsWithin timeout then c
  else
    { latency := some timeout, begun := c.begun
      finish := fun s => (s, .error (.timeout (told timeout))) }

instance [Service S] : Service (Timed S) where
  call s c :=
    (limit s.timeout (Service.call s.inner c)).within s inner (fun inner s => { s with inner }) id

end Timed

inductive Counter
  /-- Commands with this name and outcome. -/
  | commands (name outcome : String)
  /-- Measured durations. -/
  | durations
deriving DecidableEq, Repr

abbrev Counts := List (Counter × Nat)

namespace Counts

def bump (k : Counter) : Counts → Counts
  | [] => [(k, 1)]
  | (j, n) :: rest => if j = k then (j, n + 1) :: rest else (j, n) :: bump k rest

def get (k : Counter) (m : Counts) : Nat := (m.lookup k).getD 0

end Counts

/-- The record of one call: the command, and how it ended unless it was abandoned. -/
structure Span where
  commandId : String
  command : String
  traceId : Option String
  outcome : Option String := none
deriving DecidableEq, Repr

/-- A service whose calls are counted and recorded, the latest call first. -/
structure Metered (S : Type) where
  inner : S
  counts : Counts := []
  spans : List Span := []

namespace Metered

variable {S : Type}

def opened (c : Command) : Span :=
  { commandId := c.id, command := c.name, traceId := c.context.traceId }

def closeSpan (label : String) : List Span → List Span
  | [] => []
  | s :: rest => { s with outcome := some label } :: rest

def count (c : Command) (o : Outcome) (m : Counts) : Counts :=
  (m.bump (.commands c.name o.label)).bump .durations

/-- What the end of a call makes of the records. -/
def settle (c : Command) (s : Metered S) (inner : S) (o : Outcome) : Metered S :=
  { inner, counts := count c o s.counts, spans := closeSpan o.label s.spans }

instance [Service S] : Service (Metered S) where
  call s c :=
    let r := Service.call s.inner c
    { latency := r.latency
      begun := { s with inner := r.begun, spans := opened c :: s.spans }
      finish := fun s =>
        let (inner, o) := r.finish s.inner
        (settle c s inner o, o) }

end Metered

abbrev Stack (S : Type) := Metered (Timed S)

def stack {S : Type} (timeout : Nat) (inner : S) : Stack S := { inner := { inner, timeout } }

end CourierDispatch
