import CourierDispatch.Pipeline
import CourierDispatch.Proofs.Processor.WriterLaw

/-!
# A pipeline between its calls

A pipeline is started and shut down as often as somebody likes. In between its loops move, and its source
changes. An invariant of the writer outlives all of this if a shutdown leaves it alone.
-/

namespace CourierDispatch

inductive Stir (S : Type)
  /-- The source is another one now. -/
  | source (s : S)
  /-- The consume loop may move. -/
  | reader
  /-- The dispatch loop may move. -/
  | processor (reportFirst : Bool)
  | pass (millis : Nat)

inductive Act (S : Type)
  | start
  | shutdown
  | stir (e : Stir S)

variable {S H K : Type}

namespace Pipeline

variable [MessageSource S] [Service H] [MessageSink K]

def stir (p : Pipeline S H K) : Stir S → Pipeline S H K
  | .source s => p.setSource s
  | .reader => { p with desk := { p.desk with reader := (p.desk.reader.step p.time).1 } }
  | .processor reportFirst => { p with desk := (p.desk.step p.time reportFirst).getD p.desk }
  | .pass millis => { p with time := p.time + millis }

def stirAll (p : Pipeline S H K) (es : List (Stir S)) : Pipeline S H K := es.foldl stir p

def act (p : Pipeline S H K) : Act S → Pipeline S H K
  | .start => p.start.1
  | .shutdown => p.shutdown.1
  | .stir e => p.stir e

def actAll (p : Pipeline S H K) (as : List (Act S)) : Pipeline S H K := as.foldl act p

def yields (p : Pipeline S H K) : Stir S → List Result
  | .processor _ => p.desk.yields p.time
  | _ => []

def yielded (p : Pipeline S H K) : List (Stir S) → List Result
  | [] => []
  | e :: es => p.yields e ++ (p.stir e).yielded es

end Pipeline

namespace Desk

variable [MessageSink K]

/-- A writer is good, and it was when it was given what the loop of the latest run waits for. -/
structure Upholds (Good Begun : Writer K → Prop) (d : Desk S H K) : Prop where
  writer : Good d.writer
  loop : ∀ l, d.processor.component.latestLoop? = some l → Guarded Good Begun d.writer l

namespace Upholds

variable {Good Good' Begun : Writer K → Prop} {d : Desk S H K}

theorem withProcessor (h : d.Upholds Good Begun) {processor : Processor H (Writer K)}
    (hloop : ∀ l, processor.component.latestLoop? = some l →
      d.processor.component.latestLoop? = some l ∨ l.isWriting = false) :
    Upholds Good Begun { d with processor } := by
  refine ⟨h.writer, fun l hl => ?_⟩
  rcases hloop l hl with hsame | hwriting
  · exact h.loop l hsame
  · exact guarded_of_isWriting h.writer hwriting

theorem withReader (h : d.Upholds Good Begun) (reader : Reader S) :
    Upholds Good Begun { d with reader } :=
  ⟨h.writer, h.loop⟩

theorem close (h : d.Upholds Good Begun) (hclose : ∀ w, Good w → Good' w.close.1) :
    Upholds Good' Begun { d with writer := d.writer.close.1 } :=
  ⟨hclose _ h.writer, fun l hl => ⟨hclose _ h.writer, (h.loop l hl).call⟩⟩

theorem start (h : d.Upholds Good Begun) {asked : Bool} {processor : Processor H (Writer K)}
    (hstart : d.processor.start asked = .ok processor) :
    Upholds Good Begun { d with processor } := by
  obtain ⟨component, hcomponent, rfl⟩ := Processor.exists_of_start hstart
  refine h.withProcessor fun l hl => .inr ?_
  rw [(Component.latestLoop?_of_start hcomponent).1] at hl
  cases hl
  rfl

theorem claim (h : d.Upholds Good Begun) {i : Nat} {processor : Processor H (Writer K)}
    (hclaim : d.processor.claim = .ok (i, processor)) : Upholds Good Begun { d with processor } := by
  obtain ⟨component, hcomponent, rfl⟩ := Processor.exists_of_claim hclaim
  refine h.withProcessor fun l hl => .inl ?_
  rwa [Component.latestLoop?_of_claim hcomponent] at hl

theorem exit (h : d.Upholds Good Begun) {processor : Processor H (Writer K)}
    (hexit : d.processor.exit = some processor) : Upholds Good Begun { d with processor } := by
  obtain ⟨l', hlatest, -, rfl⟩ := Processor.exists_of_exit hexit
  refine h.withProcessor fun l hl => .inr ?_
  have hloop := Component.latestLoop?_setLatest (Component.latestLoop?_of_latest? hlatest) l'.exit
  rw [Processor.setLoop, hloop] at hl
  cases hl
  rfl

theorem ends (h : d.Upholds Good Begun) :
    Upholds Good Begun { d with processor := d.processor.exit.getD d.processor } := by
  cases hexit : d.processor.exit with
  | none => exact h
  | some processor => exact h.exit hexit

variable [Service H]

theorem step (law : WriterLaw Good Begun) (h : d.Upholds Good Begun) {time : Nat}
    {reportFirst : Bool} {d' : Desk S H K} (hstep : d.step time reportFirst = some d') :
    d'.Upholds Good Begun := by
  cases hl : d.processor.component.latestLoop? with
  | none =>
      rw [Desk.step_of_latestLoop? hl] at hstep
      cases hstep
  | some l =>
      obtain ⟨l', hl', hmove⟩ := handover_of_step hl hstep
      have hguarded := hmove.guarded law (h.loop l hl)
      refine ⟨hguarded.writer, fun l₁ hl₁ => ?_⟩
      rw [hl'] at hl₁
      cases hl₁
      exact hguarded

theorem turn (law : WriterLaw Good Begun) (h : d.Upholds Good Begun) (time : Nat) :
    (d.turn time).1.Upholds Good Begun := by
  unfold Desk.turn
  cases hexit : d.processor.exit with
  | some processor => exact h.exit hexit
  | none =>
      cases hstep : d.step time false with
      | none => exact h
      | some d' => exact h.step law hstep

end Upholds

end Desk

namespace Pipeline

/-- A start that succeeds has started both components. One that fails has left the processor alone. -/
theorem desk_start (p : Pipeline S H K) :
    (∃ reader processor, p.desk.reader.start p.time p.cancelled = .ok reader ∧
      p.desk.processor.start p.cancelled = .ok processor ∧
      p.start.1.desk = { p.desk with reader, processor }) ∨
    p.start.2 ≠ .ok () ∧ ∃ reader, p.start.1.desk = { p.desk with reader } := by
  unfold start startReader
  cases hreader : p.desk.reader.start p.time p.cancelled with
  | error e => exact .inr ⟨nofun, p.desk.reader, rfl⟩
  | ok reader =>
      unfold startProcessor
      dsimp only
      cases hprocessor : p.desk.processor.start p.cancelled with
      | ok processor => exact .inl ⟨reader, processor, rfl, rfl, rfl⟩
      | error e =>
          rcases hstop : reader.stop with ⟨stopped, _ | _⟩ <;>
            exact .inr ⟨by simp [stopReader, hstop], stopped, by simp [stopReader, hstop, note]⟩

variable {Good Good' Begun : Writer K → Prop} {p : Pipeline S H K} [MessageSink K]

open Desk

theorem upholds_start (h : p.desk.Upholds Good Begun) : p.start.1.desk.Upholds Good Begun := by
  rcases p.desk_start with ⟨reader, processor, -, hprocessor, hdesk⟩ | ⟨-, reader, hdesk⟩
  · rw [hdesk]
    exact (h.start hprocessor).withReader reader
  · rw [hdesk]
    exact h.withReader reader

variable [Service H]

theorem upholds_stopProcessor (law : WriterLaw Good Begun) (h : p.desk.Upholds Good Begun) :
    p.stopProcessor.1.desk.Upholds Good Begun := by
  unfold stopProcessor
  cases hclaim : p.desk.processor.claim with
  | error e => exact h
  | ok claimed =>
      obtain ⟨i, processor⟩ := claimed
      have hended := ((h.claim hclaim).turn law p.time).ends
      exact ⟨hended.writer, hended.loop⟩

/-- A shutdown closes the writer when both loops have ended. -/
theorem upholds_shutdown (law : WriterLaw Good Begun) (h : p.desk.Upholds Good Begun)
    (hclose : ∀ w, Good w → Good' w.close.1) : p.shutdown.1.desk.Upholds Good' Begun :=
  ((upholds_stopProcessor law h).withReader _).close hclose

variable [MessageSource S]

theorem upholds_stir (law : WriterLaw Good Begun) (h : p.desk.Upholds Good Begun) (e : Stir S) :
    (p.stir e).desk.Upholds Good Begun := by
  cases e with
  | source s => exact h.withReader _
  | reader => exact h.withReader _
  | pass => exact h
  | processor reportFirst =>
      change Upholds Good Begun ((p.desk.step p.time reportFirst).getD p.desk)
      cases hstep : p.desk.step p.time reportFirst with
      | none => exact h
      | some d => exact h.step law hstep

theorem upholds_act (law : WriterLaw Good Begun) (h : p.desk.Upholds Good Begun) (a : Act S)
    (hclose : a = .shutdown → ∀ w, Good w → Good w.close.1) : (p.act a).desk.Upholds Good Begun := by
  cases a with
  | start => exact upholds_start h
  | shutdown => exact upholds_shutdown law h (hclose rfl)
  | stir e => exact upholds_stir law h e

theorem upholds_actAll (law : WriterLaw Good Begun) (h : p.desk.Upholds Good Begun)
    (as : List (Act S)) (hclose : .shutdown ∈ as → ∀ w, Good w → Good w.close.1) :
    (p.actAll as).desk.Upholds Good Begun := by
  induction as generalizing p with
  | nil => exact h
  | cons a as ih =>
      have hfirst := upholds_act law h a fun ha => hclose (ha ▸ List.mem_cons_self)
      exact ih hfirst fun has => hclose (List.mem_cons_of_mem a has)

/-- Whatever becomes of the loops, a shutdown leaves the writer closed for good. -/
theorem upholds_closed (h : p.desk.Upholds (fun _ => True) (fun _ => True)) {as : List (Act S)}
    (has : .shutdown ∈ as) :
    (p.actAll as).desk.Upholds (fun w => w.closed = true) (fun _ => True) := by
  -- nothing is known of the writer before the shutdown, and nothing opens it behind it
  obtain ⟨before, after, rfl⟩ := List.append_of_mem has
  have hbefore := upholds_actAll Writer.law_any h before fun _ _ _ => trivial
  have hclosed : (p.actAll before).shutdown.1.desk.Upholds (fun w => w.closed = true) fun _ => True :=
    upholds_shutdown Writer.law_any hbefore fun w _ => w.closed_close
  rw [actAll, List.foldl_append, List.foldl_cons]
  exact upholds_actAll Writer.law_closed hclosed after fun _ w _ => w.closed_close

/-- While a pipeline is left to itself, its dispatch loop hands over what the handler yields. -/
theorem handovers_stir {l : DispatchLoop H (Writer K)}
    (hl : p.desk.processor.component.latestLoop? = some l) (e : Stir S) :
    ∃ l', (p.stir e).desk.processor.component.latestLoop? = some l' ∧
      Handovers p.desk.writer l (p.yields e) (p.stir e).desk.writer l' := by
  cases e with
  | source | reader | pass => exact ⟨l, hl, .nil _ _⟩
  | processor reportFirst =>
      unfold stir yields
      dsimp only
      cases hstep : p.desk.step p.time reportFirst with
      | none =>
          rw [yields_of_step hstep]
          exact ⟨l, hl, .nil _ _⟩
      | some d =>
          obtain ⟨l', hl', hmove⟩ := handover_of_step hl hstep
          rw [← List.append_nil (p.desk.yields p.time)]
          exact ⟨l', hl', .cons hmove (.nil _ _)⟩

theorem handovers_stirAll {l : DispatchLoop H (Writer K)}
    (hl : p.desk.processor.component.latestLoop? = some l) (es : List (Stir S)) :
    ∃ l', (p.stirAll es).desk.processor.component.latestLoop? = some l' ∧
      Handovers p.desk.writer l (p.yielded es) (p.stirAll es).desk.writer l' := by
  induction es generalizing p l with
  | nil => exact ⟨l, hl, .nil _ _⟩
  | cons e es ih =>
      obtain ⟨l₁, hl₁, hfirst⟩ := handovers_stir hl e
      obtain ⟨l₂, hl₂, hothers⟩ := ih hl₁
      exact ⟨l₂, hl₂, hfirst.append hothers⟩

theorem isRunning_stir (p : Pipeline S H K) (e : Stir S) : (p.stir e).isRunning = p.isRunning := by
  cases e with
  | source | pass => rfl
  | reader =>
      unfold stir isRunning
      dsimp only
      rw [Reader.isRunning_step]
  | processor reportFirst =>
      unfold stir isRunning
      dsimp only
      cases hstep : p.desk.step p.time reportFirst with
      | none => rfl
      | some d =>
          obtain ⟨hprocessor, hreader⟩ := isRunning_of_step hstep
          rw [Option.getD_some, hprocessor, hreader]

theorem isRunning_stirAll (p : Pipeline S H K) (es : List (Stir S)) :
    (p.stirAll es).isRunning = p.isRunning := by
  induction es generalizing p with
  | nil => rfl
  | cons e es ih => exact (ih (p.stir e)).trans (p.isRunning_stir e)

end Pipeline

end CourierDispatch
