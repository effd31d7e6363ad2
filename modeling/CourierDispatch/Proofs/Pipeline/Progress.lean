import CourierDispatch.Proofs.Pipeline.Run

/-!
# A pipeline gets its work done

As long as a pipeline is not drained, one of its loops has a move to make, at once or when what it waits
for is due. Each move leaves less to do. So the pipeline can always be drained, if no further messages
arrive.
-/

namespace CourierDispatch

namespace Pipeline

/-- All messages have been consumed, and none of their commands is in hand. -/
structure Drained {H K : Type} (p : Pipeline MemoryTopic H K) : Prop where
  queue : p.desk.reader.source.queue = []
  reader : ∃ run, p.desk.reader.component.latest? = some run ∧ run.loop.stage = .reading ∧
    run.loop.inbox.command = none
  processor : ∃ run, p.desk.processor.component.latest? = some run ∧
    (run.loop.stage = .next ∨ ∃ i, run.loop.stage = .reading i)

end Pipeline

namespace Floor

variable {K : Type} {config : Config} {f : Floor Couriers K} {p : Pipeline MemoryTopic Couriers K}

theorem pending_held_of_drained (hp : p.desk = f.desk config) (h : p.Drained) :
    f.pending config = [] ∧ f.held = [] := by
  obtain ⟨hqueue, ⟨run, hrun, hreading, hcommand⟩, ⟨run', hrun', hstage⟩⟩ := h
  rw [hp] at hqueue
  rw [hp, latest_reader] at hrun
  rw [hp, latest_processor] at hrun'
  change f.source.queue = [] at hqueue
  cases hrun
  cases hrun'
  dsimp only at hreading hcommand hstage
  constructor
  · have hsending : f.sending = [] := by simp only [sending, hreading]
    rw [pending, hcommand, hsending, hqueue]
    rfl
  · rcases hstage with hstage | ⟨i, hstage⟩ <;> simp only [held, hstage]

variable [MessageSink K] [AcceptingSink K]

/-- A move of the dispatch loop that can be made now or later. -/
theorem exists_advance_of_step (hp : p.desk = f.desk config) (hf : f.Serving config) {time : Nat}
    (htime : p.time ≤ time) {d : Desk MemoryTopic Couriers K}
    (hd : (f.desk config).step time false = some d) :
    ∃ q g, p.Reaches q ∧ q.desk = g.desk config ∧ Advances config f g := by
  obtain ⟨g, rfl, hadvances⟩ := step_advances hf hd
  have hlater : ({ p with time } : Pipeline MemoryTopic Couriers K).desk = f.desk config := hp
  refine ⟨_, g, (Pipeline.reaches_time p htime).trans
    (Pipeline.reaches_occur _ (e := .processor false) rfl), ?_, hadvances⟩
  rw [desk_occur_processor config hlater, hd]
  rfl

theorem exists_advance_of_consume (hp : p.desk = f.desk config)
    (h : Advances config f (f.consume config p.time)) :
    ∃ q g, p.Reaches q ∧ q.desk = g.desk config ∧ Advances config f g :=
  ⟨_, _, Pipeline.reaches_occur p (e := .reader) rfl, desk_occur_reader config hp, h⟩

/-- The pipeline is drained, or there is something that it can do. -/
theorem drained_or_advance (hp : p.desk = f.desk config) (hf : f.Serving config) :
    p.Drained ∨ ∃ q g, p.Reaches q ∧ q.desk = g.desk config ∧ Advances config f g := by
  have hwork := hf.processor
  generalize hstage : f.processor.stage = stage at hwork
  cases hwork with
  | next => exact .inr (exists_advance_of_step hp hf (Nat.le_refl _) (step_next hstage))
  | handling h c due =>
      have hdue : DispatchLoop.isDue (some due) (max p.time due) = true :=
        decide_eq_true (Nat.le_max_right _ _)
      exact .inr (exists_advance_of_step hp hf (Nat.le_max_left _ _)
        ((step_handling hstage).trans (if_pos hdue)))
  | publishing c r =>
      obtain ⟨g, hg, -⟩ := publishing_advances hf hstage p.time false
      exact .inr (exists_advance_of_step hp hf (Nat.le_refl _) hg)
  | writing hs c r due =>
      have hdue : DispatchLoop.isDue (some due) (max p.time due) = true :=
        decide_eq_true (Nat.le_max_right _ _)
      exact .inr (exists_advance_of_step hp hf (Nat.le_max_left _ _)
        ((step_writing hstage).trans (if_pos hdue)))
  | reading =>
      rcases Inbox.take_cases hf.inbox false with ⟨c, -, htake⟩ | ⟨e, -, htake⟩ | ⟨hcommand, -, -⟩
      · exact .inr (exists_advance_of_step hp hf (Nat.le_refl _) (step_command hstage htake))
      · exact .inr (exists_advance_of_step hp hf (Nat.le_refl _) (step_report hstage htake))
      -- the inbox is empty, so it is up to the consume loop
      have hreader := hf.reader
      generalize hreading : f.reader.stage = stage at hreader
      cases hreader with
      | sending c =>
          exact .inr (exists_advance_of_consume hp (consume_command hf hreading hcommand))
      | reading =>
          cases hqueue : f.source.queue with
          | cons m rest =>
              exact .inr (exists_advance_of_consume hp (consume_message hf hreading hqueue))
          | nil =>
              refine .inl ⟨?_, ⟨⟨false, f.reader⟩, ?_, hreading, hcommand⟩,
                ⟨⟨false, f.processor⟩, ?_, .inr ⟨0, hstage⟩⟩⟩
              · rw [hp]
                exact hqueue
              · rw [hp, latest_reader]
              · rw [hp, latest_processor]

theorem exists_drained (hp : p.desk = f.desk config) (hf : f.Serving config) :
    ∃ q, p.Reaches q ∧ q.Drained := by
  induction hn : f.backlog using Nat.strongRecOn generalizing p f with
  | ind n ih =>
      rcases drained_or_advance hp hf with hdrained | ⟨q, g, hreaches, hq, hadvances⟩
      · exact ⟨p, .refl p, hdrained⟩
      · obtain ⟨r, hr, hdrained⟩ := ih g.backlog (hn ▸ hadvances.backlog) hq hadvances.serving rfl
        exact ⟨r, hreaches.trans hr, hdrained⟩

end Floor

end CourierDispatch
