import CourierDispatch.Broker

/-!
# Topics in memory

A topic in memory is a source and a sink at once: what is published to it can be read from it, in the
same order and with offsets from 0 on. A closed topic takes and gives nothing any more.
-/

namespace CourierDispatch

/-- A topic with the messages that have not been read yet. -/
structure MemoryTopic where
  name : String
  queue : List Message := []
  /-- How many messages have been published. -/
  published : Nat := 0
  closed : Bool := false
deriving DecidableEq, Repr

namespace MemoryTopic

def stamp (t : MemoryTopic) (key : Option (List UInt8)) (value : List UInt8) (headers : Headers) :
    Message :=
  { topic := t.name, partition := 0, offset := t.published, key, value, headers }

def publish (t : MemoryTopic) (key : Option (List UInt8)) (value : List UInt8)
    (headers : Headers) : MemoryTopic × Except BrokerError Nat :=
  if t.closed then (t, .error .closed)
  else
    ({ t with queue := t.queue ++ [t.stamp key value headers], published := t.published + 1 },
      .ok t.published)

/-- Publishes messages one after the other, up to the first error. -/
def publishAll (t : MemoryTopic) : List Outbound → MemoryTopic × Except BrokerError Unit
  | [] => (t, .ok ())
  | m :: rest =>
    match t.publish m.key m.value m.headers with
    | (t, .ok _) => publishAll t rest
    | (t, .error e) => (t, .error e)

def write (t : MemoryTopic) (batch : List Outbound) : MemoryTopic × Except BrokerError Unit :=
  match stray? t.name batch with
  | some m => (t, .error (.unknownTopic m.topic))
  | none => t.publishAll batch

def poll (t : MemoryTopic) : MemoryTopic × Option (Except BrokerError Message) :=
  if t.closed then (t, some (.error .closed))
  else
    match t.queue with
    | [] => (t, none)
    | m :: rest => ({ t with queue := rest }, some (.ok m))

def drain (t : MemoryTopic) : MemoryTopic × List Message := ({ t with queue := [] }, t.queue)

def close (t : MemoryTopic) : MemoryTopic := { t with closed := true }

instance : MessageSource MemoryTopic := ⟨poll⟩

instance : MessageSink MemoryTopic where
  write t batch := { begun := t, finish := fun t => t.write batch }
  close t := (t.close, .ok ())

end MemoryTopic

end CourierDispatch
