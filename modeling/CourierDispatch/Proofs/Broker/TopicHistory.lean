import CourierDispatch.Proofs.Broker.AtomicSink

/-!
# The history of a topic in memory

Messages are published to a topic one by one and in batches, they are read and drained, and the topic
is closed from either side. `TopicHistory` is a topic with what it has accepted and what it has given
away. Whatever is called, each accepted message is given away once or still there, in the order in
which the messages were accepted, under its place in this order.
-/

namespace CourierDispatch

/-- The message that a topic makes of what it accepts in the place `offset`. -/
def Outbound.numbered (m : Outbound) (offset : Nat) : Message :=
  { topic := m.topic, partition := 0, offset, key := m.key, value := m.value, headers := m.headers }

def numberedFrom (first : Nat) (ms : List Outbound) : List Message :=
  ms.mapIdx fun i m => m.numbered (first + i)

theorem numberedFrom_append (first : Nat) (ms ms' : List Outbound) :
    numberedFrom first (ms ++ ms') =
      numberedFrom first ms ++ numberedFrom (first + ms.length) ms' := by
  simp [numberedFrom, List.mapIdx_append, Nat.add_assoc, Nat.add_comm ms.length]

namespace MemoryTopic

variable {t : MemoryTopic} {batch : List Outbound}

def extend (t : MemoryTopic) (ms : List Outbound) : MemoryTopic :=
  { t with queue := t.queue ++ numberedFrom t.published ms, published := t.published + ms.length }

theorem extend_nil (t : MemoryTopic) : t.extend [] = t := by
  simp [extend, numberedFrom]

theorem extend_cons (t : MemoryTopic) (m : Outbound) (ms : List Outbound) :
    t.extend (m :: ms) = (t.extend [m]).extend ms := by
  simp [extend, numberedFrom, Nat.add_assoc, Nat.add_comm 1]

theorem publish_eq_extend (h : t.closed = false) (key : Option (List UInt8)) (value : List UInt8)
    (headers : Headers) :
    t.publish key value headers = (t.extend [⟨t.name, key, value, headers⟩], .ok t.published) := by
  rw [publish_of_open h]
  rfl

theorem publish_of_closed (h : t.closed = true) (key : Option (List UInt8)) (value : List UInt8)
    (headers : Headers) : t.publish key value headers = (t, .error .closed) :=
  if_pos h

theorem publishAll_eq_extend (h : t.closed = false) (hb : ∀ m ∈ batch, m.topic = t.name) :
    t.publishAll batch = (t.extend batch, .ok ()) := by
  induction batch generalizing t with
  | nil => rw [extend_nil, publishAll]
  | cons m rest ih =>
      obtain ⟨hm, hrest⟩ := List.forall_mem_cons.1 hb
      have hfirst : t.publish m.key m.value m.headers = (t.extend [m], .ok t.published) := by
        rw [publish_eq_extend h, ← hm]
      rw [extend_cons, publishAll, hfirst]
      exact ih h hrest

/-- A batch is written as a whole: it is addressed to the topic, and there is nothing in it or the topic
is open. -/
theorem write_eq_extend (hb : ∀ m ∈ batch, m.topic = t.name) (h : batch = [] ∨ t.closed = false) :
    t.write batch = (t.extend batch, .ok ()) := by
  rw [write, stray?_eq_none hb]
  rcases h with rfl | hopen
  · rw [extend_nil]
    rfl
  · exact publishAll_eq_extend hopen hb

theorem write_refused (h : (∃ m ∈ batch, m.topic ≠ t.name) ∨ batch ≠ [] ∧ t.closed = true) :
    ∃ e, t.write batch = (t, .error e) := by
  unfold write
  cases hstray : stray? t.name batch with
  | some m => exact ⟨.unknownTopic m.topic, rfl⟩
  | none =>
      rcases h with ⟨m, hm, htopic⟩ | ⟨hne, hclosed⟩
      · rw [stray?, List.find?_eq_none] at hstray
        exact absurd (by simpa using hstray m hm) htopic
      · obtain ⟨m, rest, rfl⟩ := List.exists_cons_of_ne_nil hne
        refine ⟨.closed, ?_⟩
        rw [publishAll, publish_of_closed hclosed]

theorem write_cases (t : MemoryTopic) (batch : List Outbound) :
    ((∀ m ∈ batch, m.topic = t.name) ∧ (batch = [] ∨ t.closed = false) ∧
      t.write batch = (t.extend batch, .ok ())) ∨
    ∃ e, t.write batch = (t, .error e) := by
  by_cases hstray : ∃ m ∈ batch, m.topic ≠ t.name
  · exact .inr (write_refused (.inl hstray))
  · have hb : ∀ m ∈ batch, m.topic = t.name := by simpa using hstray
    by_cases hempty : batch = []
    · exact .inl ⟨hb, .inl hempty, write_eq_extend hb (.inl hempty)⟩
    · cases hclosed : t.closed with
      | false => exact .inl ⟨hb, .inr rfl, write_eq_extend hb (.inr hclosed)⟩
      | true => exact .inr (write_refused (.inr ⟨hempty, hclosed⟩))

/-- A read. If the topic is closed and still holds messages, neither of the two comes first by right:
`queueFirst` decides. -/
def read (queueFirst : Bool) (t : MemoryTopic) : MemoryTopic × Option (Except BrokerError Message) :=
  match queueFirst, t.queue with
  | true, m :: rest => ({ t with queue := rest }, some (.ok m))
  | _, _ => t.poll

theorem read_cases (queueFirst : Bool) (t : MemoryTopic) :
    (∃ m rest, t.queue = m :: rest ∧
      t.read queueFirst = ({ t with queue := rest }, some (.ok m))) ∨
    (t.read queueFirst = (t, none) ∧ t.queue = []) ∨
    (t.read queueFirst = (t, some (.error .closed)) ∧ t.closed = true) := by
  rcases t with ⟨name, queue, published, closed⟩
  cases queue with
  | nil => cases queueFirst <;> cases closed <;> simp [read, poll]
  | cons m rest =>
      cases closed with
      | false => exact .inl ⟨m, rest, rfl, by cases queueFirst <;> rfl⟩
      | true =>
          cases queueFirst with
          | false => exact .inr (.inr ⟨rfl, rfl⟩)
          | true => exact .inl ⟨m, rest, rfl, rfl⟩

end MemoryTopic

/-- A topic with what it has accepted and what it has given away. -/
structure TopicHistory where
  topic : MemoryTopic
  accepted : List Outbound := []
  given : List Message := []

namespace TopicHistory

inductive Call
  | publish (key : Option (List UInt8)) (value : List UInt8) (headers : Headers)
  | write (batch : List Outbound)
  | read (queueFirst : Bool)
  | drain
  | closeSource
  | closeSink

/-- Makes a call. What has been accepted and given away is what the answers say. -/
def step (h : TopicHistory) : Call → TopicHistory
  | .publish key value headers =>
    let (topic, answer) := h.topic.publish key value headers
    { h with
      topic
      accepted := h.accepted ++
        CourierDispatch.accepted [⟨h.topic.name, key, value, headers⟩] (answer.map fun _ => ()) }
  | .write batch =>
    let (topic, answer) := h.topic.write batch
    { h with topic, accepted := h.accepted ++ CourierDispatch.accepted batch answer }
  | .read queueFirst =>
    let (topic, answer) := h.topic.read queueFirst
    { h with topic, given := h.given ++ (answer.bind Except.toOption).toList }
  | .drain =>
    let (topic, messages) := h.topic.drain
    { h with topic, given := h.given ++ messages }
  | .closeSource => { h with topic := h.topic.close }
  | .closeSink => { h with topic := (MessageSink.close h.topic).1 }

def run (h : TopicHistory) (calls : List Call) : TopicHistory := calls.foldl step h

variable {name : String} {h : TopicHistory}

def extend (h : TopicHistory) (ms : List Outbound) : TopicHistory :=
  { h with topic := h.topic.extend ms, accepted := h.accepted ++ ms }

theorem step_publish_of_open (hopen : h.topic.closed = false) (key : Option (List UInt8))
    (value : List UInt8) (headers : Headers) :
    h.step (.publish key value headers) = h.extend [⟨h.topic.name, key, value, headers⟩] := by
  simp only [step, MemoryTopic.publish_eq_extend hopen]
  rfl

theorem step_publish_of_closed (hclosed : h.topic.closed = true) (key : Option (List UInt8))
    (value : List UInt8) (headers : Headers) : h.step (.publish key value headers) = h := by
  simp only [step, MemoryTopic.publish_of_closed hclosed, Except.map, CourierDispatch.accepted,
    List.append_nil]

theorem step_write_of_ok {batch : List Outbound}
    (hwrite : h.topic.write batch = (h.topic.extend batch, .ok ())) :
    h.step (.write batch) = h.extend batch := by
  simp only [step, hwrite]
  rfl

theorem step_write_of_error {batch : List Outbound} {e : BrokerError}
    (hwrite : h.topic.write batch = (h.topic, .error e)) : h.step (.write batch) = h := by
  simp only [step, hwrite, CourierDispatch.accepted, List.append_nil]

/-- Each message that has been accepted is given away or still there, under its place. -/
structure Numbered (name : String) (h : TopicHistory) : Prop where
  log : h.given ++ h.topic.queue = numberedFrom 0 h.accepted
  published : h.topic.published = h.accepted.length
  named : h.topic.name = name
  addressed : ∀ m ∈ h.accepted, m.topic = name

theorem numbered_new (name : String) : Numbered name ⟨{ name }, [], []⟩ := ⟨rfl, rfl, rfl, nofun⟩

theorem Numbered.extend (hn : h.Numbered name) {ms : List Outbound}
    (hms : ∀ m ∈ ms, m.topic = h.topic.name) : (h.extend ms).Numbered name where
  log := by
    change h.given ++ (h.topic.queue ++ numberedFrom h.topic.published ms) = _
    rw [← List.append_assoc, hn.log, hn.published, TopicHistory.extend, numberedFrom_append,
      Nat.zero_add]
  published := by
    change h.topic.published + ms.length = (h.accepted ++ ms).length
    rw [hn.published, List.length_append]
  named := hn.named
  addressed m hm := by
    rcases List.mem_append.1 hm with hm | hm
    · exact hn.addressed m hm
    · rw [hms m hm, hn.named]

theorem Numbered.give (hn : h.Numbered name) {messages queue : List Message}
    (hqueue : h.topic.queue = messages ++ queue) :
    Numbered name { h with topic := { h.topic with queue }, given := h.given ++ messages } where
  log := by
    rw [← hn.log, hqueue, List.append_assoc]
  published := hn.published
  named := hn.named
  addressed := hn.addressed

theorem Numbered.close (hn : h.Numbered name) : Numbered name { h with topic := h.topic.close } :=
  ⟨hn.log, hn.published, hn.named, hn.addressed⟩

theorem Numbered.step (hn : h.Numbered name) (c : Call) : (h.step c).Numbered name := by
  cases c with
  | publish key value headers =>
      cases hclosed : h.topic.closed with
      | false =>
          rw [step_publish_of_open hclosed]
          exact hn.extend (by simp)
      | true =>
          rw [step_publish_of_closed hclosed]
          exact hn
  | write batch =>
      rcases h.topic.write_cases batch with ⟨hb, -, hwrite⟩ | ⟨e, hwrite⟩
      · rw [step_write_of_ok hwrite]
        exact hn.extend hb
      · rw [step_write_of_error hwrite]
        exact hn
  | read queueFirst =>
      rcases h.topic.read_cases queueFirst with ⟨m, rest, hqueue, hread⟩ | ⟨hread, -⟩ | ⟨hread, -⟩
      · simp only [TopicHistory.step, hread]
        exact hn.give hqueue
      · simp only [TopicHistory.step, hread]
        exact hn.give (List.nil_append _).symm
      · simp only [TopicHistory.step, hread]
        exact hn.give (List.nil_append _).symm
  | drain => exact hn.give (List.append_nil _).symm
  | closeSource => exact hn.close
  | closeSink => exact hn.close

theorem Numbered.run (hn : h.Numbered name) (calls : List Call) : (h.run calls).Numbered name := by
  induction calls generalizing h with
  | nil => exact hn
  | cons c calls ih => exact ih (hn.step c)

theorem step_of_closed (hclosed : h.topic.closed = true) (c : Call) :
    (h.step c).topic.closed = true ∧ (h.step c).accepted = h.accepted := by
  cases c with
  | publish key value headers =>
      rw [step_publish_of_closed hclosed]
      exact ⟨hclosed, rfl⟩
  | write batch =>
      rcases h.topic.write_cases batch with ⟨-, hbatch, hwrite⟩ | ⟨e, hwrite⟩
      · obtain rfl : batch = [] := hbatch.resolve_right (by simp [hclosed])
        rw [step_write_of_ok hwrite]
        exact ⟨hclosed, List.append_nil _⟩
      · rw [step_write_of_error hwrite]
        exact ⟨hclosed, rfl⟩
  | read queueFirst =>
      rcases h.topic.read_cases queueFirst with ⟨m, rest, hqueue, hread⟩ | ⟨hread, -⟩ | ⟨hread, -⟩ <;>
        simp only [TopicHistory.step, hread] <;> exact ⟨hclosed, trivial⟩
  | drain => exact ⟨hclosed, rfl⟩
  | closeSource => exact ⟨rfl, rfl⟩
  | closeSink => exact ⟨rfl, rfl⟩

theorem accepted_run_of_closed (hclosed : h.topic.closed = true) (calls : List Call) :
    (h.run calls).accepted = h.accepted := by
  induction calls generalizing h with
  | nil => rfl
  | cons c calls ih =>
      obtain ⟨hstays, hsame⟩ := step_of_closed hclosed c
      exact (ih hstays).trans hsame

/-- What those who use a topic can rely on. -/
structure ExactlyOnce (name : String) (h : TopicHistory) : Prop where
  /-- What has been given away, and then what is still there, is what has been accepted, in this order
  and numbered from 0 on. -/
  log : h.given ++ h.topic.queue = h.accepted.mapIdx fun i m => m.numbered i
  published : h.topic.published = h.accepted.length
  /-- An open topic accepts a message that is published, and answers with its number. -/
  publish_open : h.topic.closed = false → ∀ key value headers,
    (h.topic.publish key value headers).2 = .ok h.accepted.length ∧
      (h.step (.publish key value headers)).accepted = h.accepted ++ [⟨name, key, value, headers⟩]
  publish_closed : h.topic.closed = true → ∀ key value headers,
    (h.topic.publish key value headers).2 = .error .closed ∧ h.step (.publish key value headers) = h
  /-- A batch is accepted as a whole and in its order, -/
  write_taken : ∀ batch, (∀ m ∈ batch, m.topic = name) → batch = [] ∨ h.topic.closed = false →
    (h.topic.write batch).2 = .ok () ∧ (h.step (.write batch)).accepted = h.accepted ++ batch
  /-- or it is refused and changes nothing. -/
  write_refused : ∀ batch, (∃ m ∈ batch, m.topic ≠ name) ∨ batch ≠ [] ∧ h.topic.closed = true →
    ∃ e, (h.topic.write batch).2 = .error e ∧ h.step (.write batch) = h
  /-- Once it has been closed, the topic accepts nothing any more. -/
  closed : ∀ c, c = .closeSource ∨ c = .closeSink → ∀ later,
    ((h.step c).run later).accepted = h.accepted

theorem Numbered.exactlyOnce (hn : h.Numbered name) : h.ExactlyOnce name where
  log := by
    rw [hn.log]
    simp only [numberedFrom, Nat.zero_add]
  published := hn.published
  publish_open hopen key value headers := by
    rw [MemoryTopic.publish_eq_extend hopen, step_publish_of_open hopen, hn.published, hn.named]
    exact ⟨rfl, rfl⟩
  publish_closed hclosed key value headers := by
    rw [MemoryTopic.publish_of_closed hclosed]
    exact ⟨rfl, step_publish_of_closed hclosed key value headers⟩
  write_taken batch hb hopen := by
    rw [← hn.named] at hb
    have hwrite := MemoryTopic.write_eq_extend hb hopen
    rw [step_write_of_ok hwrite, hwrite]
    exact ⟨rfl, rfl⟩
  write_refused batch hb := by
    rw [← hn.named] at hb
    obtain ⟨e, hwrite⟩ := MemoryTopic.write_refused hb
    exact ⟨e, by rw [hwrite], step_write_of_error hwrite⟩
  closed c hc later := by
    rcases hc with rfl | rfl <;> exact accepted_run_of_closed rfl later

/-- Whatever is done with a new topic, it keeps every message that it accepts, once and in order. -/
theorem run_exactlyOnce (name : String) (calls : List Call) :
    ExactlyOnce name (run ⟨{ name }, [], []⟩ calls) :=
  ((numbered_new name).run calls).exactlyOnce

/-- A batch with a stray message and one that comes too late leave no gap in the numbers. -/
example :
    let m (value : List UInt8) (topic : String) : Outbound := ⟨topic, none, value, []⟩
    let h := run ⟨{ name := "results" }, [], []⟩
      [.write [m [1] "results", m [2] "elsewhere"], .publish none [3] [], .write [m [4] "results"],
        .read false, .closeSink, .write [m [5] "results"], .drain]
    h.given.map (fun m => (m.offset, m.value)) = [(0, [3]), (1, [4])] ∧ h.topic.published = 2 := by
  decide

end TopicHistory

end CourierDispatch
