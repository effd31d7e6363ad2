import CourierDispatch.Proofs.Pipeline.Dealings
import Mathlib.Data.List.Flatten

/-!
# What becomes of results

Every result that the handler of a pipeline yields is tried until the tries settle, before the next
command is handled. It is accepted by the sink once, or it is dropped and counted. What the handler
answers and what the sink does has no bearing on the commands that are handled: they are those that have
arrived, in their order, as far as the pipeline has come.
-/

namespace CourierDispatch

theorem Try.results_deeds {H K : Type} (r : Result) (tries : List (Try K)) :
    (tries.flatMap (Try.deeds (H := H) r)).flatMap Deed.results = [] := by
  rw [List.flatMap_assoc]
  exact List.flatMap_eq_nil_iff.2 fun t _ => rfl

section

variable {H K : Type} (x : Dealing H K)

theorem Dealing.results_deeds : x.deeds.flatMap Deed.results = x.outcome.results := by
  have htries : (x.outcome.results.flatMap fun r => x.tries.flatMap (Try.deeds (H := H) r)).flatMap
      Deed.results = [] := by
    rw [List.flatMap_assoc]
    simp [Try.results_deeds]
  rw [Dealing.deeds, List.flatMap_cons, List.flatMap_cons, htries, List.append_nil]
  rfl

theorem Dealing.accepted_sublist : x.accepted.Sublist x.outcome.results := by
  unfold accepted
  split
  next => exact .refl _
  next => exact List.nil_sublist _

end

/-- A loop has one result in hand at most. -/
theorem Underway.length_results_le {H K : Type} [Service H] [MessageSink K] {config : Config}
    {stage : DispatchStage H (Writer K)} {rest : List (Deed H K)} (h : Underway config stage rest) :
    (rest.flatMap Deed.results).length ≤ 1 := by
  have hpursued {c : Command} {x : Exchange H Outcome} {r : Result} {tries : List (Try K)}
      (h : Pursuit config c x r tries) : (pursued c x r tries).flatMap Deed.results = [r] := by
    rw [pursued, List.flatMap_cons, List.flatMap_cons, Try.results_deeds]
    exact (List.append_nil _).trans h.results_eq
  cases h with
  | next | reading | handling => exact Nat.zero_le _
  | publishing h | pausing h => rw [hpursued h, List.length_singleton]
  | writing h w =>
      rw [List.flatMap_append, hpursued h]
      exact Nat.le_refl _

namespace Setup

variable {H K : Type} [Service H] [MessageSink K] [AtomicSink K]

def commands (s : Setup H K) (incidents : List Incident) : List Command :=
  (Incident.letters incidents).filterMap (·.command? s.config.format)

def handled (s : Setup H K) (incidents : List Incident) : List Command :=
  (s.pipeline.deeds incidents).filterMap Deed.command?

def produced (s : Setup H K) (incidents : List Incident) : List Result :=
  (s.pipeline.deeds incidents).flatMap Deed.results

/-- What a pipeline has done for its commands: some of them it has dealt with, one after the other, and
there may be one in hand. -/
structure Settled (s : Setup H K) (incidents : List Incident) (dealings : List (Dealing H K))
    (rest : List (Deed H K)) : Prop where
  deeds : s.pipeline.deeds incidents = dealings.flatMap Dealing.deeds ++ rest
  /-- Each dealing is what the handler and the sink made of it. -/
  complete : ∀ x ∈ dealings, x.Complete s.config
  tried : ∀ x ∈ dealings, ∀ r, x.outcome = .ok (some r) →
    0 < x.tries.length ∧ x.tries.length ≤ s.config.retry.attempts + 1
  underway : ∃ l, (s.pipeline.meetAll incidents).desk.processor.component.latest? = some ⟨false, l⟩ ∧
    Underway s.config l.stage rest
  /-- The handler and the sink go from try to try by what they themselves make of it. -/
  trail : s.Trail (.closeWriter ∈ incidents) (s.pipeline.deeds incidents)
    (s.pipeline.meetAll incidents).desk.processor.handler
    (s.pipeline.meetAll incidents).desk.writer
  /-- The sink accepts results in the order of the commands, and none of them twice. -/
  accepted : AtomicSink.taken (s.pipeline.meetAll incidents).desk.writer.sink =
    AtomicSink.taken s.sink ++ (dealings.flatMap Dealing.accepted).map s.config.message
  ordered : (dealings.flatMap Dealing.accepted).Sublist (s.produced incidents)
  /-- A result is accepted, or it is dropped and counted, or it is in hand. -/
  counted : (s.produced incidents).length = (dealings.flatMap Dealing.accepted).length +
    (s.pipeline.meetAll incidents).desk.processor.dropped + (rest.flatMap Deed.results).length
  inHand : (rest.flatMap Deed.results).length ≤ 1
  handled : s.handled incidents <+: s.commands incidents
  /-- A drained pipeline has dealt with all commands. -/
  drained : (s.pipeline.meetAll incidents).Drained →
    rest = [] ∧ s.handled incidents = s.commands incidents

variable (s : Setup H K)

theorem busy_pipeline (closable : Prop) : s.pipeline.Busy s closable [] [] (.begin 0) {} where
  intake := ⟨rfl, rfl, fun i hi => (Option.some.inj hi).symm, .begin 0, [], rfl,
    ConsumeLoop.accounted_begin 0, rfl⟩
  up := ⟨rfl, rfl, rfl, rfl, .inl rfl, fun e he => by cases he⟩
  dealt := by
    refine ⟨rfl, rfl, ⟨rfl, rfl⟩, ⟨.drift rfl, .drift (.inl rfl)⟩, [], [], rfl, ?_, .next, ?_, rfl⟩
    · exact fun x hx => absurd hx List.not_mem_nil
    · exact (List.append_nil _).symm

/-- Results are published once and in order, or dropped and counted, and nothing that becomes of them
keeps a pipeline from getting through its commands. -/
theorem run_settled (incidents : List Incident) :
    (∃ dealings rest, s.Settled incidents dealings rest) ∧
      (Service.Prompt H → ∃ moves : List Event, arrivals moves = [] ∧
        (s.pipeline.meetAll (incidents ++ moves.map .event)).Drained) := by
  obtain ⟨r, l, hbusy⟩ := (s.busy_pipeline (.closeWriter ∈ incidents)).meetAll incidents id
  rw [List.nil_append, List.nil_append] at hbusy
  constructor
  · obtain ⟨dealings, rest, hdocket⟩ := hbusy.dealt.docket
    have hproduced : s.produced incidents =
        dealings.flatMap (·.outcome.results) ++ rest.flatMap Deed.results := by
      rw [produced, hdocket.deeds, List.flatMap_append, List.flatMap_assoc]
      simp only [Dealing.results_deeds]
    refine ⟨dealings, rest, hdocket.deeds, hdocket.complete, fun x hx r hr => ?_,
      ⟨l, hbusy.dealt.latest?, hdocket.underway⟩, hbusy.dealt.trail, hdocket.taken, ?_, ?_,
      hdocket.underway.length_results_le, hbusy.intake.prefix, fun h => ?_⟩
    · have hlength := ((hdocket.complete x hx).settled r hr).1.length_le
      rwa [List.length_map] at hlength
    · rw [hproduced]
      refine (List.Sublist.flatMap_right dealings fun x _ => x.accepted_sublist).trans ?_
      exact List.sublist_append_left _ _
    · rw [hproduced, List.length_append, hdocket.dropped, Processor.dropped, hbusy.dealt.runs]
      simp
    · obtain ⟨hhandled, hnone⟩ := hbusy.of_drained h
      exact ⟨hnone rest hdocket.underway, hhandled⟩
  · intro hprompt
    obtain ⟨q, ⟨moves, hmoves, rfl⟩, hdrained⟩ := hbusy.exists_drained hprompt
    refine ⟨moves, hmoves, ?_⟩
    rw [Pipeline.meetAll, List.foldl_append]
    rw [← Pipeline.meetAll_events] at hdrained
    exact hdrained

/-- A sink that is busy at the first try takes the result at the second one. -/
theorem run_settled_retried :
    let s : Setup (Stack (Dispatcher Simulation.ScriptedCouriers)) Simulation.ScriptedSink :=
      { config := { retry := { attempts := 1 } }
        handler := stack 30000 ⟨⟨[⟨0, .courier ⟨"k1"⟩⟩], []⟩, .counting 0⟩
        sink :=
          { topic := { name := "courier.results" }, script := [⟨0, some (.unavailable "busy")⟩] } }
    let booking : Command :=
      ⟨"1", CommandKind.assignCourier.wireName, (Details.assignCourier ⟨"o1"⟩).payload, {}⟩
    let events : List Event :=
      [.arrive none ⟨[0x7B], []⟩, .arrive none ⟨booking.encode .json, []⟩] ++
        List.replicate 3 .reader ++ List.replicate 4 (.processor false) ++ [.reader] ++
        List.replicate 5 (.processor false) ++ [.pass 100] ++ List.replicate 4 (.processor false)
    let incidents : List Incident := events.map .event
    (∃ dealings rest, s.Settled incidents dealings rest ∧
        (s.pipeline.deeds incidents).filterMap Deed.answer? =
          [.error (.publish (.unavailable "busy")), .ok ()] ∧
        (s.produced incidents).length = 1 ∧
        dealings.flatMap Dealing.accepted = s.produced incidents) ∧
      Service.Prompt (Stack (Dispatcher Simulation.ScriptedCouriers)) ∧
      ∃ moves : List Event, arrivals moves = [] ∧
        (s.pipeline.meetAll (incidents ++ moves.map .event)).Drained := by
  intro s booking events incidents
  obtain ⟨⟨dealings, rest, hsettled⟩, hdrains⟩ := s.run_settled incidents
  have hprompt := Stack.prompt (Dispatcher Simulation.ScriptedCouriers)
  have hanswers : (s.pipeline.deeds incidents).filterMap Deed.answer? =
      [.error (.publish (.unavailable "busy")), .ok ()] := by decide +kernel
  have hproduced : (s.produced incidents).length = 1 := by decide +kernel
  have htaken : (AtomicSink.taken (s.pipeline.meetAll incidents).desk.writer.sink).length = 1 := by
    decide +kernel
  have haccepted : (dealings.flatMap Dealing.accepted).length = 1 := by
    rw [hsettled.accepted, List.length_append, List.length_map] at htaken
    exact (Nat.zero_add _).symm.trans htaken
  exact ⟨⟨dealings, rest, hsettled, hanswers, hproduced,
    hsettled.ordered.eq_of_length (haccepted.trans hproduced.symm)⟩, hprompt, hdrains hprompt⟩

end Setup

end CourierDispatch
