import CourierDispatch.Proofs.Pipeline.Interruption
import CourierDispatch.Proofs.Pipeline.Launch
import CourierDispatch.Proofs.Processor.WriterLaw
import CourierDispatch.Proofs.Reader.Intake

/-!
# Interrupted pipelines

Wherever the loops of a pipeline are interrupted, the dispatch loop has handled the first commands that
it has been delivered, and it has published what came of them except for the last one at most. For the
loop handles nothing further before it has published, and once it has ended it handles nothing at all.
-/

namespace CourierDispatch

namespace Ledger

theorem handleAll_concat (b : Ledger) (cs : List Command) (c : Command) :
    b.handleAll (cs ++ [c]) =
      (((b.handleAll cs).1.handle c).1, (b.handleAll cs).2 ++ ((b.handleAll cs).1.handle c).2) := by
  rw [handleAll_append]
  simp [handleAll]

end Ledger

/-- Where a dispatch loop may be when it has told the world what came of some commands, has handled others
as well, and has been delivered yet others. -/
inductive Abreast {K : Type} [MessageSink K] [AcceptingSink K] (config : Config) (b : Ledger) :
    (told handled delivered : List Command) → DispatchStage Couriers (Writer K) → Prop
  | next (cs : List Command) : Abreast config b cs cs cs .next
  | reading (cs : List Command) : Abreast config b cs cs cs (.reading 0)
  | idling (cs : List Command) (due : Nat) : Abreast config b cs cs cs (.idling due)
  | handling (cs : List Command) {h : Couriers} (hh : h.ledger = (b.handleAll cs).1) (c : Command)
      (due : Option Nat) :
      Abreast config b cs (cs ++ [c]) (cs ++ [c]) (.handling c due (Service.call h c).finish)
  | publishing (cs : List Command) (c : Command) {r : Result}
      (hr : ((b.handleAll cs).1.handle c).2.map Reply.result = [r]) :
      Abreast config b cs (cs ++ [c]) (cs ++ [c]) (.publishing c r 0)
  | writing (cs : List Command) (c : Command) {r : Result}
      (hr : ((b.handleAll cs).1.handle c).2.map Reply.result = [r]) {w : Writer K}
      (hw : w.Serving config) (due : Option Nat) :
      Abreast config b cs (cs ++ [c]) (cs ++ [c]) (.writing c r 0 due (w.write (some r)).finish)
  /-- What came of one command may never be told, and others may never be handled. -/
  | exited (cs : List Command) (last : Option Command) (lost : List Command) :
      Abreast config b cs (cs ++ last.toList) (cs ++ last.toList ++ lost) .exited

section

variable {K : Type} [MessageSink K] [AcceptingSink K] {config : Config} {b : Ledger}
  {told handled delivered : List Command} {stage : DispatchStage Couriers (Writer K)}

/-- All but one of the commands that have been handled have been told of. -/
theorem Abreast.exists_last (h : Abreast config b told handled delivered stage) :
    ∃ last : Option Command, handled = told ++ last.toList := by
  cases h with
  | next | reading | idling => exact ⟨none, (List.append_nil _).symm⟩
  | handling _ c => exact ⟨some c, rfl⟩
  | publishing c | writing c => exact ⟨some c, rfl⟩
  | exited last => exact ⟨last, rfl⟩

theorem Abreast.prefix (h : Abreast config b told handled delivered stage) :
    handled <+: delivered := by
  cases h with
  | exited => exact List.prefix_append _ _
  | _ => exact List.prefix_rfl

theorem Abreast.exit (h : Abreast config b told handled delivered stage) :
    Abreast (K := K) config b told handled delivered .exited := by
  obtain ⟨last, rfl⟩ := h.exists_last
  obtain ⟨lost, rfl⟩ := h.prefix
  exact .exited told last lost

theorem Abreast.turnedAway (cs : List Command) (c : Command) :
    Abreast (K := K) config b cs cs (cs ++ [c]) .exited := by
  simpa using @Abreast.exited K _ _ config b cs none [c]

/-- What comes of a command is published next, if there is anything to publish. -/
theorem Abreast.exists_of_results (config : Config) (l : DispatchLoop Couriers (Writer K))
    {c : Command} {o : Outcome}
    (h : o.results = ((b.handleAll told).1.handle c).2.map Reply.result) :
    ∃ told', Abreast config b told' (told ++ [c]) (told ++ [c]) (l.handled c o).stage ∧
      (b.handleAll told').2 = (b.handleAll told).2 := by
  have hnothing (hnone : o.results = []) :
      (b.handleAll (told ++ [c])).2 = (b.handleAll told).2 := by
    rw [Ledger.handleAll_concat, List.map_eq_nil_iff.1 (h.symm.trans hnone), List.append_nil]
  cases o with
  | error e => exact ⟨told ++ [c], .next _, hnothing rfl⟩
  | ok result =>
      cases result with
      | none => exact ⟨told ++ [c], .next _, hnothing rfl⟩
      | some r => exact ⟨told, .publishing told c h.symm, rfl⟩

end

/-- What is true of a pipeline that has been launched, wherever it is interrupted. -/
structure Kept {K : Type} [MessageSink K] [AcceptingSink K] (s : Launch K)
    (commands told handled delivered : List Command) (l : DispatchLoop Couriers (Writer K))
    (d : Desk MemoryTopic Couriers K) : Prop where
  reader : d.reader.Intake s.config.format commands delivered
  runs : d.processor.component.loops = [l]
  held : d.processor.component.HoldsLatest
  stage : Abreast s.config s.ledger told handled delivered l.stage
  ledger : d.processor.handler.ledger = (s.ledger.handleAll handled).1
  writer : d.writer.Serving s.config
  taken : AcceptingSink.taken d.writer.sink = AcceptingSink.taken s.sink ++
    (s.ledger.handleAll told).2.map fun reply => s.config.message reply.result

/-- Something that is true of a pipeline, whatever its loop has told of and been delivered. -/
def Keeps {K : Type} [MessageSink K] [AcceptingSink K] (s : Launch K)
    (commands handled : List Command) (d : Desk MemoryTopic Couriers K) : Prop :=
  ∃ told delivered l, Kept s commands told handled delivered l d

namespace Kept

variable {K : Type} [MessageSink K] [AcceptingSink K] {s : Launch K}
  {commands told handled delivered : List Command} {l l' : DispatchLoop Couriers (Writer K)}
  {d d' : Desk MemoryTopic Couriers K} {time : Nat} {reportFirst : Bool}

theorem latest (h : Kept s commands told handled delivered l d) :
    d.processor.component.latestLoop? = some l := by
  rw [Component.latestLoop?_eq, h.runs]
  rfl

theorem withReader (h : Kept s commands told handled delivered l d) {commands' : List Command}
    {reader : Reader MemoryTopic} (hreader : reader.Intake s.config.format commands' delivered) :
    Kept s commands' told handled delivered l { d with reader } :=
  { h with reader := hreader }

theorem setLoop (h : Kept s commands told handled delivered l d) {delivered' : List Command}
    {reader : Reader MemoryTopic} (hreader : reader.Intake s.config.format commands delivered')
    (hstage : Abreast s.config s.ledger told handled delivered' l'.stage) :
    Kept s commands told handled delivered' l' ({ d with reader }.setLoop l') :=
  ⟨hreader, Component.loops_setLatest h.runs _, h.held.setLatest _, hstage, h.ledger, h.writer,
    h.taken⟩

/-- Nothing has been handled that has not been told of, wherever a failed read leaves the loop. -/
theorem abreast_readFailed (config : Config) (b : Ledger) (cs : List Command) (backoff : Backoff)
    (time : Nat) (l : DispatchLoop Couriers (Writer K)) (e : ReadError) :
    Abreast config b cs cs cs (l.readFailed backoff time e).stage := by
  cases e with
  | cancelled => exact (Abreast.next cs).exit
  | channelClosed => exact .idling cs _
  | decode | transport => exact .next cs

theorem handle (h : Kept s commands told told told l d) {c : Command} {reader : Reader MemoryTopic}
    (hreader : reader.Intake s.config.format commands (told ++ [c])) :
    ∃ l', Kept s commands told (told ++ [c]) (told ++ [c]) l'
      ({ d with reader }.handle time l c) := by
  refine ⟨_, hreader, Component.loops_setLatest h.runs _, h.held.setLatest _, .handling told h.ledger c _,
    ?_, h.writer, h.taken⟩
  have hbegun := Stack.ledger_begun d.processor.handler c
  rw [h.ledger] at hbegun
  rw [Ledger.handleAll_concat]
  exact hbegun

theorem answered {c : Command} (h : Kept s commands told (told ++ [c]) (told ++ [c]) l d)
    {hc : Couriers} (hledger : hc.ledger = (s.ledger.handleAll told).1) :
    let answer := (Service.call hc c).finish d.processor.handler
    ∃ told', Kept s commands told' (told ++ [c]) (told ++ [c]) (l.handled c answer.2)
      ({ d with processor := { d.processor with handler := answer.1 } }.setLoop
        (l.handled c answer.2)) := by
  intro answer
  have hresults : answer.2.results = ((s.ledger.handleAll told).1.handle c).2.map Reply.result := by
    rw [← hledger]
    exact Stack.results_finish hc d.processor.handler c
  obtain ⟨told', hstage, htold⟩ := Abreast.exists_of_results s.config l hresults
  refine ⟨told', h.reader, Component.loops_setLatest h.runs _, h.held.setLatest _, hstage, ?_,
    h.writer, htold ▸ h.taken⟩
  exact (Stack.ledger_finish hc d.processor.handler c).trans h.ledger

theorem publishes {c : Command} {r : Result}
    (h : Kept s commands told (told ++ [c]) (told ++ [c]) l d)
    (hr : ((s.ledger.handleAll told).1.handle c).2.map Reply.result = [r]) :
    ∃ l', Kept s commands told (told ++ [c]) (told ++ [c]) l' (d.publish time l c r 0) := by
  obtain ⟨hwriter, htaken⟩ := h.writer.begun r
  exact ⟨_, h.reader, Component.loops_setLatest h.runs _, h.held.setLatest _,
    .writing told c hr h.writer _, h.ledger, hwriter, htaken.trans h.taken⟩

theorem published {c : Command} {r : Result} {w : Writer K}
    (h : Kept s commands told (told ++ [c]) (told ++ [c]) l d)
    (hr : ((s.ledger.handleAll told).1.handle c).2.map Reply.result = [r])
    (hw : w.Serving s.config) :
    let answer := (w.write (some r)).finish d.writer
    ∃ l', Kept s commands (told ++ [c]) (told ++ [c]) (told ++ [c]) l'
      ({ d with writer := answer.1 }.setLoop
        (l.written d.processor.retry time c r 0 answer.2)) := by
  intro answer
  obtain ⟨hok, hwriter, htaken⟩ := hw.finish h.writer r
  have hmessage : ((s.ledger.handleAll told).1.handle c).2.map
      (fun reply => s.config.message reply.result) = [s.config.message r] := by
    have hmap := congrArg (List.map s.config.message) hr
    rwa [List.map_map] at hmap
  have hanswer : answer.2 = .ok () := hok
  rw [hanswer]
  refine ⟨_, h.reader, Component.loops_setLatest h.runs _, h.held.setLatest _, .next _, h.ledger,
    hwriter, ?_⟩
  rw [Ledger.handleAll_concat, List.map_append, hmessage, ← List.append_assoc, ← h.taken]
  exact htaken

/-- What can be taken out of the inbox of the run has been delivered then. -/
theorem takes (h : Kept s commands told told told l d) {reader : Reader MemoryTopic}
    {answer : Except ReadError Command}
    (htake : d.reader.takeFrom 0 reportFirst = (reader, some answer)) :
    reader.Intake s.config.format commands (told ++ answer.toOption.toList) := by
  have hreader := h.reader.take reportFirst
  rw [htake] at hreader
  exact hreader

/-- Every move of the dispatch loop keeps what is true, with the command that it takes up handled. -/
theorem step (h : Kept s commands told handled delivered l d)
    (hd : d.step time reportFirst = some d') :
    Keeps s commands (handled ++ (d.next? reportFirst).toList) d' := by
  -- the stage that a move begins with settles what has been told and what has been handled
  have habreast := h.stage
  have hmove := Desk.move_of_step h.latest hd
  generalize d.next? reportFirst = command? at hmove
  cases hmove with
  | command i reader c hstage htake =>
      rw [hstage] at habreast
      cases habreast
      exact ⟨told, _, h.handle (h.takes htake)⟩
  | shut hstage hchannels =>
      rw [hstage] at habreast
      cases habreast
      rw [Option.toList_none, List.append_nil]
      exact ⟨told, told, _, h.setLoop h.reader (abreast_readFailed _ _ _ _ _ _ _)⟩
  | opened i hstage hchannels =>
      rw [hstage] at habreast
      cases habreast
      cases h.reader.channel i hchannels
      rw [Option.toList_none, List.append_nil]
      exact ⟨told, told, _, h.setLoop h.reader (.reading told)⟩
  | report i reader e hstage htake =>
      rw [hstage] at habreast
      cases habreast
      have hreader := h.takes htake
      change reader.Intake _ _ (told ++ []) at hreader
      rw [List.append_nil] at hreader
      rw [Option.toList_none, List.append_nil]
      exact ⟨told, told, _, h.setLoop hreader (abreast_readFailed _ _ _ _ _ _ _)⟩
  | rested due hstage hdue =>
      rw [hstage] at habreast
      cases habreast
      rw [Option.toList_none, List.append_nil]
      exact ⟨told, told, _, h.setLoop h.reader (.next told)⟩
  | answered c due finish hstage hdue =>
      rw [hstage] at habreast
      cases habreast with
      | handling hledger =>
          obtain ⟨told', hkept⟩ := h.answered hledger
          rw [Option.toList_none, List.append_nil]
          exact ⟨told', _, _, hkept⟩
  | publishes c r retries hstage =>
      rw [hstage] at habreast
      cases habreast with
      | publishing _ hr =>
          obtain ⟨l', hkept⟩ := h.publishes hr
          rw [Option.toList_none, List.append_nil]
          exact ⟨told, _, l', hkept⟩
  | wrote c r retries due finish hstage hdue =>
      rw [hstage] at habreast
      cases habreast with
      | writing _ hr hs =>
          obtain ⟨l', hkept⟩ := h.published hr hs
          rw [Option.toList_none, List.append_nil]
          exact ⟨_, _, l', hkept⟩
  | paused c r retries due hstage hdue =>
      -- no result is published twice, as the sink takes it the first time
      rw [hstage] at habreast
      cases habreast

theorem exit (h : Kept s commands told handled delivered l d)
    {processor : Processor Couriers (Writer K)} (hd : d.processor.exit = some processor) :
    Kept s commands told handled delivered l.exit { d with processor } := by
  obtain ⟨asked, hlatest⟩ := Component.exists_latest? h.latest
  obtain ⟨l', hl, -, rfl⟩ := Processor.exists_of_exit hd
  rw [hlatest] at hl
  cases hl
  exact h.setLoop h.reader h.stage.exit

theorem ends (h : Kept s commands told handled delivered l d) :
    ∃ l', Kept s commands told handled delivered l'
      { d with processor := d.processor.exit.getD d.processor } := by
  cases hexit : d.processor.exit with
  | none => exact ⟨l, h⟩
  | some processor => exact ⟨l.exit, h.exit hexit⟩

/-- A command that the loop takes before it ends is delivered in vain. -/
theorem turnAway (h : Kept s commands told handled delivered l d) (reportFirst : Bool) :
    Keeps s commands handled (d.turnAway reportFirst) := by
  obtain ⟨asked, hlatest⟩ := Component.exists_latest? h.latest
  have habreast := h.stage
  unfold Desk.turnAway
  rw [hlatest]
  split
  next l' hl =>
    cases hl
    split
    next i hstage =>
      rw [hstage] at habreast
      cases habreast
      split
      next reader c htake =>
        exact ⟨told, _, _, h.setLoop (h.takes htake) (.turnedAway told c)⟩
      next => exact ⟨told, told, l, h⟩
    next => exact ⟨told, delivered, l, h⟩
  next => exact ⟨told, delivered, l, h⟩

theorem cancel (h : Kept s commands told handled delivered l d)
    {processor : Processor Couriers (Writer K)}
    (hd : processor = { d.processor with component := d.processor.component.askAll }) :
    Kept s commands told handled delivered l { d with reader := d.reader.cancel, processor } := by
  subst hd
  exact { h with
    reader := h.reader.cancel
    runs := (Component.loops_askAll _).trans h.runs
    held := h.held.askAll }

theorem claim (h : Kept s commands told handled delivered l d) {i : Nat}
    {processor : Processor Couriers (Writer K)} (hd : d.processor.claim = .ok (i, processor)) :
    Kept s commands told handled delivered l { d with processor } ∧
      processor.component.latest? = some ⟨true, l⟩ := by
  obtain ⟨component, hclaim, rfl⟩ := Processor.exists_of_claim hd
  obtain ⟨hlatest, hheld⟩ := Component.latest?_of_claim h.held h.latest hclaim
  exact ⟨{ h with runs := (Component.loops_of_claim hclaim).trans h.runs, held := hheld }, hlatest⟩

/-- A turn of a loop that has been asked to end takes up no command. -/
theorem turn (h : Kept s commands told handled delivered l d)
    (hlatest : d.processor.component.latest? = some ⟨true, l⟩) (time : Nat) :
    Keeps s commands handled (d.turn time).1 := by
  unfold Desk.turn
  cases hexit : d.processor.exit with
  | some processor => exact ⟨told, delivered, _, h.exit hexit⟩
  | none =>
      have hstays : l.mayExit = false := by
        rw [Processor.exit, hlatest] at hexit
        simpa using hexit
      have hnone := Desk.next?_of_mayExit h.latest hstays false
      cases hstep : d.step time false with
      | none => exact ⟨told, delivered, l, h⟩
      | some d' =>
          have hkept := h.step hstep
          rw [hnone, Option.toList_none, List.append_nil] at hkept
          exact hkept

theorem stop {p : Pipeline MemoryTopic Couriers K}
    (h : Kept s commands told handled delivered l p.desk) :
    Keeps s commands handled p.stopProcessor.1.desk := by
  unfold Pipeline.stopProcessor
  cases hclaim : p.desk.processor.claim with
  | error e => exact ⟨told, delivered, l, h⟩
  | ok claimed =>
      obtain ⟨i, processor⟩ := claimed
      obtain ⟨hclaimed, hlatest⟩ := h.claim hclaim
      obtain ⟨told', delivered', l', hturn⟩ := hclaimed.turn hlatest p.time
      obtain ⟨l'', hended⟩ := hturn.ends
      exact ⟨told', delivered', l'', { hended with runs := hended.runs, held := hended.held }⟩

end Kept

section

variable {K : Type} [MessageSink K] [AcceptingSink K] {s : Launch K}
  {commands handled : List Command} {p : Pipeline MemoryTopic Couriers K}

theorem Keeps.unheard {o : Occurrence} (h : Keeps s commands handled (p.undergo o).desk)
    (hletter : o.letter? = none) (htaken : p.takenUp o = none) :
    Keeps s (commands ++ o.letter?.toList.filterMap (·.command? s.config.format))
      (handled ++ (p.takenUp o).toList) (p.undergo o).desk := by
  rw [hletter, htaken]
  simpa using h

/-- Whatever occurs keeps what is true, with the command that it brings received and the command that it
takes up handled. -/
theorem Keeps.undergo (h : Keeps s commands handled p.desk) (o : Occurrence) :
    Keeps s (commands ++ o.letter?.toList.filterMap (·.command? s.config.format))
      (handled ++ (p.takenUp o).toList) (p.undergo o).desk := by
  obtain ⟨told, delivered, l, h⟩ := h
  cases o with
  | arrive key letter =>
      have hnone : handled ++ (p.takenUp (.arrive key letter)).toList = handled :=
        List.append_nil _
      rw [hnone]
      exact ⟨told, delivered, l, h.withReader (h.reader.publish key letter)⟩
  | processor reportFirst =>
      have hletters : commands ++ (Occurrence.processor reportFirst).letter?.toList.filterMap
          (·.command? s.config.format) = commands := List.append_nil _
      rw [hletters]
      change Keeps s commands (handled ++ (p.desk.next? reportFirst).toList)
        ((p.desk.step p.time reportFirst).getD p.desk)
      cases hstep : p.desk.step p.time reportFirst with
      | some d => exact h.step hstep
      | none =>
          rw [Desk.next?_of_step hstep, Option.toList_none, List.append_nil]
          exact ⟨told, delivered, l, h⟩
  | reader =>
      exact Keeps.unheard ⟨told, delivered, l, h.withReader (h.reader.step p.time)⟩ rfl rfl
  | readerEnds =>
      exact Keeps.unheard ⟨told, delivered, l, h.withReader h.reader.ends⟩ rfl rfl
  | processorEnds =>
      obtain ⟨l', hended⟩ := h.ends
      exact Keeps.unheard ⟨told, delivered, l', hended⟩ rfl rfl
  | turnAway reportFirst => exact Keeps.unheard (h.turnAway reportFirst) rfl rfl
  | cancel => exact Keeps.unheard ⟨told, delivered, l, h.cancel rfl⟩ rfl rfl
  | claimReader =>
      refine Keeps.unheard ?_ rfl rfl
      unfold Pipeline.undergo
      dsimp only
      split
      next i reader hclaim => exact ⟨told, delivered, l, h.withReader (h.reader.claim hclaim)⟩
      next => exact ⟨told, delivered, l, h⟩
  | claimProcessor =>
      refine Keeps.unheard ?_ rfl rfl
      unfold Pipeline.undergo
      dsimp only
      split
      next i processor hclaim => exact ⟨told, delivered, l, (h.claim hclaim).1⟩
      next => exact ⟨told, delivered, l, h⟩
  | stopReader => exact Keeps.unheard ⟨told, delivered, l, h.withReader h.reader.stop⟩ rfl rfl
  | stopProcessor => exact Keeps.unheard h.stop rfl rfl
  | pass millis => exact Keeps.unheard ⟨told, delivered, l, h⟩ rfl rfl

theorem Keeps.undergoAll (h : Keeps s commands handled p.desk) (os : List Occurrence) :
    Keeps s (commands ++ (os.filterMap Occurrence.letter?).filterMap (·.command? s.config.format))
      (handled ++ p.handled os) (p.undergoAll os).desk := by
  induction os generalizing p commands handled with
  | nil => simpa [Pipeline.handled, Pipeline.undergoAll] using h
  | cons o os ih =>
      have hrest := ih (h.undergo o)
      have hletters : (o :: os).filterMap Occurrence.letter? =
          o.letter?.toList ++ os.filterMap Occurrence.letter? := by
        cases ho : o.letter? <;> simp [ho]
      rw [hletters, List.filterMap_append, Pipeline.handled, ← List.append_assoc,
        ← List.append_assoc]
      exact hrest

end

namespace Launch

variable {K : Type} [MessageSink K] [AcceptingSink K] {s : Launch K}

/-- The messages that were there before the start and those that arrive later. -/
def letters (s : Launch K) (os : List Occurrence) : List Letter :=
  s.source.queue.map Message.letter ++ os.filterMap Occurrence.letter?

theorem keeps_opening (hs : s.Ready) :
    Keeps s ((s.source.queue.map Message.letter).filterMap (·.command? s.config.format)) []
      s.pipeline.desk := by
  rw [s.desk_pipeline, List.filterMap_map]
  refine ⟨[], [], {}, ⟨hs.source, rfl, ?_, _, [], rfl, ConsumeLoop.accounted_begin 0, rfl⟩, rfl, ?_,
    .next [], Stack.ledger_stack _ _, ⟨rfl, hs.sink⟩, (List.append_nil _).symm⟩
  · intro i hi
    cases hi
    rfl
  · intro i hi
    cases hi
    rfl

theorem keeps_undergoAll (hs : s.Ready) (os : List Occurrence) :
    Keeps s ((s.letters os).filterMap (·.command? s.config.format)) (s.pipeline.handled os)
      (s.pipeline.undergoAll os).desk := by
  rw [letters, List.filterMap_append]
  exact (keeps_opening hs).undergoAll os

end Launch

end CourierDispatch
