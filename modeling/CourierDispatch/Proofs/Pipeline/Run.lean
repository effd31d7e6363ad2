import CourierDispatch.Proofs.Pipeline.Account

/-!
# Runs of a pipeline

However messages arrive and loops move, the account of a pipeline is what a ledger makes of the messages
that have arrived. What has been published is always the first part of it, and all of it once nothing
waits any more.
-/

namespace CourierDispatch

namespace Ledger

theorem takeAll_append (format : WireFormat) (b : Ledger) (ls ls' : List Letter) :
    b.takeAll format (ls ++ ls') =
      (((b.takeAll format ls).1.takeAll format ls').1,
        (b.takeAll format ls).2 ++ ((b.takeAll format ls).1.takeAll format ls').2) := by
  simp only [takeAll_eq_handleAll, List.filterMap_append, handleAll_append]

end Ledger

/-- The messages of replies, with the ledger that has given them. -/
def Config.publish (config : Config) (r : Ledger × List Reply) : Ledger × List Outbound :=
  (r.1, r.2.map fun reply => config.message reply.result)

namespace Floor

variable {K : Type} [MessageSink K] [AcceptingSink K] {config : Config} {f : Floor Couriers K}
  {p : Pipeline MemoryTopic Couriers K}

def arrive (key : Option (List UInt8)) (l : Letter) (f : Floor Couriers K) : Floor Couriers K :=
  { f with source := (f.source.publish key l.value l.headers).1 }

theorem arrive_serving (hf : f.Serving config) (key : Option (List UInt8)) (l : Letter) :
    (f.arrive key l).Serving config ∧
      (f.arrive key l).account config =
        (((f.account config).1.takeAll config.format [l]).1,
          (f.account config).2 ++
            (config.publish ((f.account config).1.takeAll config.format [l])).2) := by
  have hpublish := MemoryTopic.publish_of_open hf.source key l.value l.headers
  have hpending : (f.arrive key l).pending config =
      f.pending config ++ [l].filterMap (·.command? config.format) := by
    simp only [pending, arrive, hpublish, sending, List.filterMap_append, List.append_assoc]
    rfl
  constructor
  · refine ⟨?_, hf.reader, hf.inbox, hf.report, hf.processor, hf.sink⟩
    rw [arrive, hpublish]
    exact hf.source
  · have haccount : (f.arrive key l).account config =
        ((f.handler.ledger.handleAll ((f.arrive key l).pending config)).1,
          AcceptingSink.taken f.sink ++ (f.held ++
            (f.handler.ledger.handleAll ((f.arrive key l).pending config)).2.map
              Reply.result).map config.message) := rfl
    rw [haccount, hpending, Ledger.handleAll_append, ← Ledger.takeAll_eq_handleAll, account]
    simp [Config.publish, Function.comp_def]

theorem run_serving (hp : p.desk = f.desk config) (hf : f.Serving config) (events : List Event) :
    ∃ g : Floor Couriers K, (p.run events).desk = g.desk config ∧ g.Serving config ∧
      AcceptingSink.taken f.sink <+: AcceptingSink.taken g.sink ∧
      g.account config =
        (((f.account config).1.takeAll config.format (arrivals events)).1,
          (f.account config).2 ++
            (config.publish ((f.account config).1.takeAll config.format (arrivals events))).2) := by
  induction events generalizing p f with
  | nil =>
      refine ⟨f, hp, hf, List.prefix_rfl, ?_⟩
      simp [arrivals, Ledger.takeAll, Config.publish]
  | cons e events ih =>
      rw [Pipeline.run_cons]
      cases e with
      | arrive key l =>
          obtain ⟨hserving, haccount⟩ := arrive_serving hf key l
          have hdesk : (p.occur (.arrive key l)).desk = (f.arrive key l).desk config := by
            simp only [Pipeline.occur, Pipeline.setSource, hp]
            rfl
          obtain ⟨g, hg, hgs, htaken, hga⟩ := ih hdesk hserving
          refine ⟨g, hg, hgs, htaken, hga.trans ?_⟩
          have harrivals : arrivals (.arrive key l :: events) = [l] ++ arrivals events := rfl
          rw [haccount, harrivals, Ledger.takeAll_append]
          simp [Config.publish]
      | reader =>
          have hdesk := desk_occur_reader config hp
          rcases consume_advances hf p.time with hstill | hadvances
          · rw [hstill] at hdesk
            exact ih hdesk hf
          · obtain ⟨g, hg, hgs, htaken, hga⟩ := ih hdesk hadvances.serving
            rw [hadvances.account] at hga
            exact ⟨g, hg, hgs, hadvances.taken.trans htaken, hga⟩
      | processor reportFirst =>
          have hdesk := desk_occur_processor config hp reportFirst
          cases hstep : (f.desk config).step p.time reportFirst with
          | none =>
              rw [hstep] at hdesk
              exact ih hdesk hf
          | some d =>
              obtain ⟨mid, rfl, hadvances⟩ := step_advances hf hstep
              rw [hstep] at hdesk
              obtain ⟨g, hg, hgs, htaken, hga⟩ := ih hdesk hadvances.serving
              rw [hadvances.account] at hga
              exact ⟨g, hg, hgs, hadvances.taken.trans htaken, hga⟩
      | pass millis => exact ih hp hf

end Floor

end CourierDispatch
