import CourierDispatch.Proofs.Pipeline.Progress

/-!
# Launching a pipeline

A launch is all that a pipeline begins with: its settings, its topics, its couriers, and what is left to
chance. However the pipeline is driven afterwards, it has published the first of the replies that a
ledger gives to the messages received, and all of them when it is drained.
-/

namespace CourierDispatch

/-- What a pipeline begins with. -/
structure Launch (K : Type) where
  config : Config
  source : MemoryTopic
  sink : K
  roster : List CourierId
  /-- The picks among idle couriers. -/
  draws : Draws
  /-- The ids of results. -/
  ids : Draws

namespace Launch

variable {K : Type} (s : Launch K)

def ledger : Ledger := ⟨.ofRoster s.roster, s.draws, s.ids⟩

def pipeline : Pipeline MemoryTopic Couriers K :=
  (Pipeline.ofConfig s.config s.source s.sink (.ofLedger s.ledger)).start.1

/-- The messages that were there before the start and those that arrive later. -/
def received (events : List Event) : List Letter :=
  s.source.queue.map Message.letter ++ arrivals events

def replies (events : List Event) : List Reply :=
  s.ledger.replies s.config.format (s.received events)

def answers (ls : List Letter) : List Answer :=
  (s.ledger.replies s.config.format ls).map Reply.answer

def opening : Floor Couriers K := .opening s.config s.source s.sink (.ofLedger s.ledger)

theorem desk_pipeline : s.pipeline.desk = s.opening.desk s.config :=
  Floor.desk_start s.config s.source s.sink _

variable [MessageSink K] [AcceptingSink K]

/-- The source is open, and the sink takes the messages of results. -/
structure Ready : Prop where
  source : s.source.closed = false
  sink : AcceptingSink.Ready s.config.resultTopic s.sink

variable {s}

theorem opening_serving (hs : s.Ready) : s.opening.Serving s.config where
  source := hs.source
  reader := .reading
  inbox := rfl
  report _ h := by cases h
  processor := .next
  sink := hs.sink

theorem opening_account :
    s.opening.account s.config =
      ((s.ledger.takeAll s.config.format (s.received [])).1,
        AcceptingSink.taken s.sink ++
          (s.replies []).map fun reply => s.config.message reply.result) := by
  have hpending : s.opening.pending s.config =
      (s.received []).filterMap (·.command? s.config.format) := by
    simp only [received, arrivals, List.filterMap_nil, List.append_nil, List.filterMap_map]
    rfl
  have hledger : s.opening.handler.ledger = s.ledger := Stack.ledger_stack _ _
  have hheld : s.opening.held = [] := rfl
  rw [Floor.account, hpending, hledger, ← Ledger.takeAll_eq_handleAll, hheld, List.nil_append,
    List.map_map]
  rfl

end Launch

namespace Pipeline

/-- What the sink has taken so far. -/
def published {H K : Type} [MessageSink K] [AcceptingSink K] (p : Pipeline MemoryTopic H K) :
    List Outbound :=
  AcceptingSink.taken p.desk.writer.sink

def pool {K : Type} (p : Pipeline MemoryTopic Couriers K) : Pool :=
  p.desk.processor.handler.ledger.pool

end Pipeline

namespace Launch

variable {K : Type} [MessageSink K] [AcceptingSink K] {s : Launch K}

/-- A run ends with the account of a ledger that has taken all messages received. -/
theorem run_account (hs : s.Ready) (events : List Event) :
    ∃ g : Floor Couriers K, (s.pipeline.run events).desk = g.desk s.config ∧ g.Serving s.config ∧
      AcceptingSink.taken s.sink <+: AcceptingSink.taken g.sink ∧
      g.account s.config =
        ((s.ledger.takeAll s.config.format (s.received events)).1,
          AcceptingSink.taken s.sink ++
            (s.replies events).map fun reply => s.config.message reply.result) := by
  obtain ⟨g, hdesk, hserving, htaken, haccount⟩ :=
    Floor.run_serving s.desk_pipeline (opening_serving hs) events
  refine ⟨g, hdesk, hserving, htaken, ?_⟩
  have hreceived : s.received events = s.received [] ++ arrivals events := by
    simp [received, arrivals]
  rw [haccount, opening_account]
  simp only [replies, Ledger.replies, hreceived, Ledger.takeAll_append, Config.publish,
    List.map_append, List.append_assoc]

/-- A pipeline that has been launched goes on running, and it can be drained after every run. -/
theorem run_drains (hs : s.Ready) (events : List Event) :
    (s.pipeline.run events).isRunning = true ∧
      ∃ q, (s.pipeline.run events).Reaches q ∧ q.Drained := by
  obtain ⟨g, hdesk, hserving, -⟩ := run_account hs events
  refine ⟨?_, Floor.exists_drained hdesk hserving⟩
  rw [Pipeline.isRunning, hdesk]
  rfl

theorem exists_moves (hs : s.Ready) (events : List Event) :
    ∃ moves, s.received (events ++ moves) = s.received events ∧
      (s.pipeline.run (events ++ moves)).Drained := by
  obtain ⟨-, q, ⟨moves, hmoves, rfl⟩, hdrained⟩ := run_drains hs events
  rw [← Pipeline.run_append] at hdrained
  refine ⟨moves, ?_, hdrained⟩
  rw [received, arrivals_append, hmoves, List.append_nil]
  rfl

/-- What has been published comes from the first of the replies. A drained pipeline has published all
of them, and its pool is the one of the ledger. -/
theorem run_published (hs : s.Ready) (events : List Event) :
    ∃ rs, rs <+: s.replies events ∧
      (s.pipeline.run events).published =
        AcceptingSink.taken s.sink ++ rs.map (fun reply => s.config.message reply.result) ∧
      ((s.pipeline.run events).Drained →
        rs = s.replies events ∧
          (s.pipeline.run events).pool =
            (s.ledger.takeAll s.config.format (s.received events)).1.pool) := by
  obtain ⟨g, hdesk, -, ⟨ms, hms⟩, haccount⟩ := run_account hs events
  have hpublished : (s.pipeline.run events).published = AcceptingSink.taken s.sink ++ ms := by
    rw [Pipeline.published, hdesk]
    exact hms.symm
  have hpool : (s.pipeline.run events).pool = g.handler.ledger.pool := by
    rw [Pipeline.pool, hdesk]
    rfl
  rw [Floor.account, Prod.mk.injEq, ← hms, List.append_assoc] at haccount
  obtain ⟨hledger, hmessages⟩ := haccount
  have hmessages := List.append_cancel_left hmessages
  -- what has not been published yet stands behind the messages that have
  have hpart : ms = ((s.replies events).take ms.length).map
      (fun reply => s.config.message reply.result) := by
    rw [List.map_take, ← hmessages, List.take_left]
  refine ⟨(s.replies events).take ms.length, List.take_prefix _ _, by rw [hpublished, ← hpart], ?_⟩
  intro hdrained
  obtain ⟨hpending, hheld⟩ := Floor.pending_held_of_drained hdesk hdrained
  rw [hpending, hheld] at hmessages
  rw [hpending] at hledger
  have hall : ms = (s.replies events).map (fun reply => s.config.message reply.result) := by
    simpa [Ledger.handleAll] using hmessages
  constructor
  · rw [hall, List.length_map, List.take_length]
  · rw [hpool, ← hledger]
    rfl

end Launch

end CourierDispatch
