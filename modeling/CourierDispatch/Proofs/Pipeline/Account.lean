import CourierDispatch.Proofs.Pipeline.Floor
import CourierDispatch.Proofs.Reader.ConsumeLoop

/-!
# The account of a running pipeline

At every moment a message that has arrived is in one place: in the source, in the consume loop, in the
inbox, in the dispatch loop, or its reply has been published. `Floor.account` adds all of it up: what
has been published, what will be published for the command in hand, and what the ledger of the handler
makes of the commands that still wait. No move of a loop changes the account, and a message that arrives
changes it like a ledger.
-/

namespace CourierDispatch

/-- What handles the commands of a pipeline over a pool. -/
abbrev Couriers := Stack (Dispatcher Pool.Drawing)

namespace Floor

open ConsumeLoop

variable {K : Type} [MessageSink K] [AcceptingSink K] (config : Config)

/-- Where the dispatch loop may be while nothing fails, and what its calls are about. -/
inductive AtWork : DispatchStage Couriers (Writer K) → Prop
  | next : AtWork .next
  | reading : AtWork (.reading 0)
  | handling (h : Couriers) (c : Command) (due : Nat) :
      AtWork (.handling c (some due) (Service.call h c).finish)
  | publishing (c : Command) (r : Result) : AtWork (.publishing c r 0)
  | writing {sink : K} (hs : AcceptingSink.Ready config.resultTopic sink) (c : Command)
      (r : Result) (due : Nat) :
      AtWork (.writing c r 0 (some due) ((config.writer sink).write (some r)).finish)

/-- Where the consume loop may be while the source does not fail. -/
inductive Consuming : ConsumeStage → Prop
  | reading : Consuming .reading
  | sending (c : Command) : Consuming (.sending c)

/-- Nothing has failed so far. -/
structure Serving (f : Floor Couriers K) : Prop where
  source : f.source.closed = false
  reader : Consuming f.reader.stage
  inbox : f.reader.inbox.isOpen = true
  report : ∀ e, f.reader.inbox.report = some e → ∃ p o x, e = .decode p o x
  processor : AtWork config f.processor.stage
  sink : AcceptingSink.Ready config.resultTopic f.sink

def sending (f : Floor Couriers K) : List Command :=
  match f.reader.stage with
  | .sending c => [c]
  | _ => []

/-- The commands that wait, in the order in which they will be handled. -/
def pending (f : Floor Couriers K) : List Command :=
  f.reader.inbox.command.toList ++ (f.sending ++
    f.source.queue.filterMap fun m => m.letter.command? config.format)

def held (f : Floor Couriers K) : List Result :=
  match f.processor.stage with
  | .handling _ _ finish => (finish f.handler).2.results
  | .publishing _ r _ | .writing _ r _ _ _ => [r]
  | _ => []

/-- The ledger when all commands that wait have been handled, and all messages then published. -/
def account (f : Floor Couriers K) : Ledger × List Outbound :=
  let others := f.handler.ledger.handleAll (f.pending config)
  (others.1, AcceptingSink.taken f.sink ++
    (f.held ++ others.2.map Reply.result).map config.message)

/-- How much a stage of the dispatch loop has still to do. -/
def DispatchStage.effort : DispatchStage Couriers (Writer K) → Nat
  | .handling _ _ _ => 4
  | .publishing _ _ _ => 3
  | .writing _ _ _ _ _ => 2
  | .next => 1
  | _ => 0

/-- A bound on the moves that are left while no further message arrives. -/
def backlog (f : Floor Couriers K) : Nat :=
  10 * f.source.queue.length + 8 * f.sending.length + 7 * f.reader.inbox.command.toList.length +
    2 * f.reader.inbox.report.toList.length + DispatchStage.effort f.processor.stage

/-- A move that nothing has failed in: the account stays, nothing published is taken back, and there is
less to do. -/
structure Advances (f g : Floor Couriers K) : Prop where
  serving : g.Serving config
  account : g.account config = f.account config
  backlog : g.backlog < f.backlog
  taken : AcceptingSink.taken f.sink <+: AcceptingSink.taken g.sink

variable {config} {f : Floor Couriers K}

theorem account_congr {g : Floor Couriers K} (hhandler : g.handler.ledger = f.handler.ledger)
    (hpending : g.pending config = f.pending config) (hheld : g.held = f.held)
    (hsink : AcceptingSink.taken g.sink = AcceptingSink.taken f.sink) :
    g.account config = f.account config := by
  simp only [account, hhandler, hpending, hheld, hsink]

theorem consume_message (hf : f.Serving config) {time : Nat} {m : Message} {rest : List Message}
    (hstage : f.reader.stage = .reading) (hqueue : f.source.queue = m :: rest) :
    Advances config f (f.consume config time) := by
  have hpoll : MessageSource.poll f.source = ({ f.source with queue := rest }, some (.ok m)) :=
    MemoryTopic.poll_cons hf.source hqueue
  have hstep : f.reader.step config.format config.readBackoff time f.source =
      ({ f.source with queue := rest },
        some (f.reader.receive config.format config.readBackoff time (.ok m))) := by
    simp only [ConsumeLoop.step, hstage, hpoll, Option.map_some]
  rw [consume_of_step config hstep, Option.getD_some]
  cases hdecode : decode config.format m with
  | ok c =>
      have hcommand := command?_of_decode_ok hdecode
      rw [receive_of_decode_ok hdecode]
      refine ⟨⟨hf.source, .sending c, hf.inbox, hf.report, hf.processor, hf.sink⟩,
        account_congr rfl ?_ rfl rfl, ?_, List.prefix_rfl⟩
      · simp [pending, sending, hstage, hqueue, hcommand]
      · simp only [backlog, sending, hstage, hqueue, List.length_cons, List.length_nil]
        omega
  | error e =>
      have hcommand := command?_of_decode_error hdecode
      obtain ⟨hstage', hinbox⟩ :=
        receive_of_decode_error hdecode config.readBackoff time f.reader
      refine ⟨⟨hf.source, ?_, ?_, ?_, hf.processor, hf.sink⟩, account_congr rfl ?_ rfl rfl, ?_,
        List.prefix_rfl⟩
      · rw [hstage']
        exact .reading
      · rw [hinbox]
        exact hf.inbox
      · intro e' he'
        rw [hinbox] at he'
        cases hreport : f.reader.inbox.report with
        | none =>
            rw [hreport] at he'
            exact ⟨_, _, _, (Option.some.inj he').symm⟩
        | some e'' =>
            rw [hreport] at he'
            exact hf.report e' (hreport.trans he')
      · simp [pending, sending, hstage, hqueue, hcommand, hstage', hinbox]
      · simp only [backlog, sending, hstage, hqueue, hstage', hinbox, List.length_cons,
          Option.toList_some, List.length_nil]
        omega

theorem consume_command (hf : f.Serving config) {time : Nat} {c : Command}
    (hstage : f.reader.stage = .sending c) (hroom : f.reader.inbox.command = none) :
    Advances config f (f.consume config time) := by
  have hstep : f.reader.step config.format config.readBackoff time f.source =
      (f.source, some ({ f.reader with
        inbox := { f.reader.inbox with command := some c } }.ask time)) := by
    simp only [ConsumeLoop.step, hstage, Inbox.send?, hroom, Option.map_some]
  rw [consume_of_step config hstep, Option.getD_some]
  refine ⟨⟨hf.source, .reading, hf.inbox, hf.report, hf.processor, hf.sink⟩,
    account_congr rfl ?_ rfl rfl, ?_, List.prefix_rfl⟩
  · simp [pending, sending, hstage, hroom, ask, note]
  · simp only [backlog, sending, hstage, hroom, ask, note, List.length_cons, Option.toList_some,
      Option.toList_none, List.length_nil]
    omega

theorem consume_advances (hf : f.Serving config) (time : Nat) :
    f.consume config time = f ∨ Advances config f (f.consume config time) := by
  have hstill (h : f.reader.step config.format config.readBackoff time f.source =
      (f.source, none)) : f.consume config time = f := by
    rw [consume_of_step config h]
    rfl
  cases hreader : f.reader.stage with
  | reading =>
      cases hqueue : f.source.queue with
      | nil =>
          have hpoll : MessageSource.poll f.source = (f.source, none) :=
            MemoryTopic.poll_nil hf.source hqueue
          refine .inl (hstill ?_)
          simp only [ConsumeLoop.step, hreader, hpoll, Option.map_none]
      | cons m rest => exact .inr (consume_message hf hreader hqueue)
  | sending c =>
      cases hroom : f.reader.inbox.command with
      | none => exact .inr (consume_command hf hreader hroom)
      | some c' =>
          refine .inl (hstill ?_)
          simp only [ConsumeLoop.step, hreader, Inbox.send?, hroom, Option.map_none]
  | _ =>
      have hconsuming := hf.reader
      rw [hreader] at hconsuming
      cases hconsuming

variable {time : Nat} {reportFirst : Bool}

/-- The ledger changes when a command is taken up, and from then on its reply is in hand. -/
theorem handle_advances (hf : f.Serving config) {c : Command} {inbox : Inbox}
    (hstage : f.processor.stage = .reading 0) (hcommand : f.reader.inbox.command = some c)
    (hinbox : inbox = { f.reader.inbox with command := none }) :
    Advances config f (handle time c { f with reader := { f.reader with inbox } }) := by
  subst hinbox
  have hledger := Stack.ledger_begun f.handler c
  have hresults := Stack.results_finish f.handler (Service.call f.handler c).begun c
  refine ⟨⟨hf.source, hf.reader, hf.inbox, hf.report, ?_, hf.sink⟩, ?_, ?_, List.prefix_rfl⟩
  · simp only [handle, Stack.latency_call_ledger, Option.map_some]
    exact .handling _ _ _
  · let waiting := f.sending ++
      f.source.queue.filterMap fun m => m.letter.command? config.format
    let b := (f.handler.ledger.handle c).1
    have hheld : f.held = [] := by simp only [held, hstage]
    have hpending : f.pending config = c :: waiting := by
      simp only [pending, hcommand, Option.toList_some, List.singleton_append, waiting]
    have hlater : (handle time c { f with
        reader := { f.reader with inbox := { f.reader.inbox with command := none } }
      }).account config =
        ((b.handleAll waiting).1, AcceptingSink.taken f.sink ++
          ((f.handler.ledger.handle c).2.map Reply.result ++
            (b.handleAll waiting).2.map Reply.result).map config.message) := by
      simp only [b]
      rw [← hledger, ← hresults]
      rfl
    rw [hlater, account, hheld, hpending, Ledger.handleAll]
    simp only [List.nil_append, List.map_append, b]
  · simp only [backlog, handle, sending, DispatchStage.effort, hstage, hcommand,
      Option.toList_some, Option.toList_none, List.length_cons, List.length_nil]
    omega

theorem handled_advances (hf : f.Serving config) {h : Couriers} {c : Command} {due : Nat}
    (hstage : f.processor.stage = .handling c (some due) (Service.call h c).finish) :
    Advances config f { f with
      handler := ((Service.call h c).finish f.handler).1
      processor := f.processor.handled c ((Service.call h c).finish f.handler).2 } := by
  have hheld : f.held = ((Service.call h c).finish f.handler).2.results := by
    simp only [held, hstage]
  have hledger := Stack.ledger_finish h f.handler c
  have hbacklog {l : DispatchLoop Couriers (Writer K)} (hl : DispatchStage.effort l.stage < 4) :
      backlog { f with
        handler := ((Service.call h c).finish f.handler).1, processor := l } < f.backlog := by
    simp only [backlog, sending, hstage, DispatchStage.effort] at hl ⊢
    omega
  rcases hr : ((Service.call h c).finish f.handler).2 with e | _ | result
  · rw [hr] at hheld
    exact ⟨⟨hf.source, hf.reader, hf.inbox, hf.report, .next, hf.sink⟩,
      account_congr hledger rfl hheld.symm rfl, hbacklog (by decide : 1 < 4), List.prefix_rfl⟩
  · rw [hr] at hheld
    exact ⟨⟨hf.source, hf.reader, hf.inbox, hf.report, .next, hf.sink⟩,
      account_congr hledger rfl hheld.symm rfl, hbacklog (by decide : 1 < 4), List.prefix_rfl⟩
  · rw [hr] at hheld
    exact ⟨⟨hf.source, hf.reader, hf.inbox, hf.report, .publishing c result, hf.sink⟩,
      account_congr hledger rfl hheld.symm rfl, hbacklog (by decide : 3 < 4), List.prefix_rfl⟩

theorem publishing_advances (hf : f.Serving config) {c : Command} {r : Result}
    (hstage : f.processor.stage = .publishing c r 0) (time : Nat) (reportFirst : Bool) :
    ∃ g : Floor Couriers K, (f.desk config).step time reportFirst = some (g.desk config) ∧
      Advances config f g := by
  obtain ⟨ms, hms⟩ := AcceptingSink.latency hf.sink (topic_message r)
  obtain ⟨hready, htaken⟩ := AcceptingSink.begun hf.sink (topic_message r)
  refine ⟨_, step_publishing hstage, ⟨hf.source, hf.reader, hf.inbox, hf.report, ?_, hready⟩,
    account_congr rfl rfl ?_ htaken, ?_, ?_⟩
  · simp only [hms, Option.map_some]
    exact .writing hf.sink c r _
  · simp only [held, hstage]
    rfl
  · simp only [backlog, sending, hstage, DispatchStage.effort, DispatchLoop.note]
    omega
  · exact htaken ▸ List.prefix_rfl

theorem writing_advances (hf : f.Serving config) {c : Command} {r : Result} {due : Option Nat}
    {sink : K} (hsink : AcceptingSink.Ready config.resultTopic sink)
    (hstage : f.processor.stage =
      .writing c r 0 due ((config.writer sink).write (some r)).finish) :
    let answer := (MessageSink.write sink [config.message r]).finish f.sink
    Advances config f { f with
      sink := answer.1
      processor := f.processor.written config.retry time c r 0
        (answer.2.mapError .publish) } := by
  intro answer
  obtain ⟨hok, hready, htaken⟩ := AcceptingSink.finish hsink (topic_message r) hf.sink
  have hwritten : f.processor.written config.retry time c r 0 (answer.2.mapError .publish) =
      f.processor.done c (some r.kind) := by
    simp only [answer, hok]
    rfl
  have hheld : f.held = [r] := by simp only [held, hstage]
  rw [hwritten]
  refine ⟨⟨hf.source, hf.reader, hf.inbox, hf.report, .next, hready⟩, ?_, ?_, ?_⟩
  · have hlater : account config { f with
        sink := answer.1, processor := f.processor.done c (some r.kind) } =
        ((f.handler.ledger.handleAll (f.pending config)).1, AcceptingSink.taken answer.1 ++
          (f.handler.ledger.handleAll (f.pending config)).2.map
            (config.message ∘ Reply.result)) := by
      rw [← List.map_map]
      rfl
    rw [hlater, htaken, account, hheld, List.append_assoc, ← List.map_map]
    rfl
  · simp only [backlog, sending, hstage, DispatchStage.effort, DispatchLoop.done,
      DispatchLoop.note]
    omega
  · rw [htaken]
    exact List.prefix_append _ _

/-- Every move of the dispatch loop is an advance. -/
theorem step_advances (hf : f.Serving config) {d : Desk MemoryTopic Couriers K}
    (hd : (f.desk config).step time reportFirst = some d) :
    ∃ g : Floor Couriers K, d = g.desk config ∧ Advances config f g := by
  have hwork := hf.processor
  generalize hstage : f.processor.stage = stage at hwork
  cases hwork with
  | next =>
      rw [step_next hstage] at hd
      refine ⟨_, (Option.some.inj hd).symm,
        ⟨hf.source, hf.reader, hf.inbox, hf.report, .reading, hf.sink⟩,
        account_congr rfl rfl ?_ rfl, ?_, List.prefix_rfl⟩
      · simp only [held, hstage]
      · simp only [backlog, sending, hstage, DispatchStage.effort]
        omega
  | reading =>
      rcases Inbox.take_cases hf.inbox reportFirst with
        ⟨c, hc, htake⟩ | ⟨e, he, htake⟩ | ⟨-, -, htake⟩
      · rw [step_command hstage htake] at hd
        exact ⟨_, (Option.some.inj hd).symm, handle_advances hf hstage hc rfl⟩
      · obtain ⟨p, o, x, rfl⟩ := hf.report e he
        rw [step_report hstage htake] at hd
        refine ⟨_, (Option.some.inj hd).symm,
          ⟨hf.source, hf.reader, hf.inbox, ?_, .next, hf.sink⟩, account_congr rfl rfl ?_ rfl, ?_,
          List.prefix_rfl⟩
        · intro e' he'
          cases he'
        · simp only [held, hstage]
          rfl
        · simp only [backlog, sending, hstage, he, DispatchStage.effort, DispatchLoop.readFailed,
            DispatchLoop.note, Option.toList_some, Option.toList_none, List.length_cons,
            List.length_nil]
          omega
      · rw [step_nothing hstage htake] at hd
        cases hd
  | handling h c due =>
      rw [step_handling hstage] at hd
      split at hd
      · exact ⟨_, (Option.some.inj hd).symm, handled_advances hf hstage⟩
      · cases hd
  | publishing c r =>
      obtain ⟨g, hg, hadvances⟩ := publishing_advances hf hstage time reportFirst
      exact ⟨g, Option.some.inj (hd.symm.trans hg), hadvances⟩
  | writing hs c r due =>
      rw [step_writing hstage] at hd
      split at hd
      · exact ⟨_, (Option.some.inj hd).symm, writing_advances hf hs hstage⟩
      · cases hd

end Floor

end CourierDispatch
