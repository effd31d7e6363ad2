import CourierDispatch.Proofs.Pipeline.Calls
import CourierDispatch.Proofs.Processor.Lockstep

/-!
# Pipelines in lockstep

Pipelines whose handlers are in lockstep write the same, whatever goes on in them.
-/

namespace CourierDispatch

namespace Pipeline

variable {S H H' K : Type} {R : H → H' → Prop} {p : Pipeline S H K} {p' : Pipeline S H' K}

/-- Pipelines that differ in their handlers, and in what is noticed of them. -/
structure Alike (R : H → H' → Prop) (p : Pipeline S H K) (p' : Pipeline S H' K) : Prop where
  desk : p.desk.Alike R p'.desk
  time : p.time = p'.time
  cancelled : p.cancelled = p'.cancelled

namespace Alike

theorem withDesk (h : p.Alike R p') {desk : Desk S H K} {desk' : Desk S H' K}
    (hdesk : desk.Alike R desk') : Alike R { p with desk } { p' with desk := desk' } :=
  ⟨hdesk, h.time, h.cancelled⟩

theorem withProcessor (h : p.Alike R p') {processor : Processor H (Writer K)}
    {processor' : Processor H' (Writer K)} (hprocessor : processor.Alike R processor') :
    Alike R { p with desk := { p.desk with processor } }
      { p' with desk := { p'.desk with processor := processor' } } :=
  h.withDesk ⟨h.desk.reader, hprocessor, h.desk.writer⟩

theorem withReader (h : p.Alike R p') {reader reader' : Reader S} (hreader : reader = reader') :
    Alike R { p with desk := { p.desk with reader } }
      { p' with desk := { p'.desk with reader := reader' } } :=
  h.withDesk ⟨hreader, h.desk.processor, h.desk.writer⟩

theorem note (h : p.Alike R p') (n n' : PipelineNotice) : (p.note n).Alike R (p'.note n') :=
  ⟨h.desk, h.time, h.cancelled⟩

theorem startReader (h : p.Alike R p') :
    p.startReader.1.Alike R p'.startReader.1 ∧ p.startReader.2 = p'.startReader.2 := by
  have hstart : p.desk.reader.start p.time p.cancelled = p'.desk.reader.start p'.time p'.cancelled := by
    rw [h.desk.reader, h.time, h.cancelled]
  rw [Pipeline.startReader, Pipeline.startReader, ← hstart]
  cases p.desk.reader.start p.time p.cancelled with
  | ok reader => exact ⟨h.withReader rfl, rfl⟩
  | error e => exact ⟨h, rfl⟩

theorem startProcessor (h : p.Alike R p') :
    p.startProcessor.1.Alike R p'.startProcessor.1 ∧ p.startProcessor.2 = p'.startProcessor.2 := by
  have hstart : Agree (Processor.Alike R) (p.desk.processor.start p.cancelled)
      (p'.desk.processor.start p'.cancelled) := h.cancelled ▸ h.desk.processor.start p.cancelled
  rw [Pipeline.startProcessor, Pipeline.startProcessor]
  generalize p.desk.processor.start _ = started, p'.desk.processor.start _ = started' at hstart
  cases hstart with
  | ok hstarted => exact ⟨h.withProcessor hstarted, rfl⟩
  | error e => exact ⟨h, rfl⟩

theorem stopReader (h : p.Alike R p') : p.stopReader.1.Alike R p'.stopReader.1 :=
  h.withReader (congrArg (fun r => (Reader.stop r).1) h.desk.reader)

/-- A start ends in one of three ways, and which one it is depends on what is the same. -/
theorem start (h : p.Alike R p') : p.start.1.Alike R p'.start.1 := by
  obtain ⟨hreader, hanswer⟩ := h.startReader
  rw [Pipeline.start, Pipeline.start]
  generalize p.startReader = started, p'.startReader = started' at hreader hanswer
  obtain ⟨q, answer⟩ := started
  obtain ⟨q', answer'⟩ := started'
  cases hanswer
  cases answer with
  | error e => exact hreader
  | ok =>
      obtain ⟨hprocessor, hanswer⟩ := startProcessor hreader
      dsimp only at hprocessor hanswer ⊢
      generalize q.startProcessor = started, q'.startProcessor = started' at hprocessor hanswer
      obtain ⟨r, answer⟩ := started
      obtain ⟨r', answer'⟩ := started'
      cases hanswer
      cases answer with
      | ok => exact hprocessor.note _ _
      | error e =>
          have hstop := stopReader hprocessor
          dsimp only at hstop ⊢
          generalize r.stopReader = stopped, r'.stopReader = stopped' at hstop
          -- what becomes of the stop is only noticed
          rcases stopped with ⟨t, _ | _⟩ <;> rcases stopped' with ⟨t', _ | _⟩ <;>
            exact ⟨hstop.desk, hstop.time, hstop.cancelled⟩

variable [Service H] [Service H'] [MessageSink K]

theorem stopProcessor (law : Service.Lockstep R) (h : p.Alike R p') :
    p.stopProcessor.1.Alike R p'.stopProcessor.1 := by
  obtain ⟨desk', _, _, _, _⟩ := p'
  obtain ⟨hdesk, rfl, hcancelled⟩ := h
  have hclaim := hdesk.processor.claim
  rw [Pipeline.stopProcessor, Pipeline.stopProcessor]
  dsimp only at hclaim ⊢
  generalize p.desk.processor.claim = claimed, desk'.processor.claim = claimed' at hclaim
  cases hclaim with
  | error e => exact ⟨hdesk, rfl, hcancelled⟩
  | @ok x x' hclaimed =>
      have hclaimed : Desk.Alike R { p.desk with processor := x.2 } { desk' with processor := x'.2 } :=
        ⟨hdesk.reader, hclaimed, hdesk.writer⟩
      have hturn := hclaimed.turn law p.time
      have hended := hturn.processor.ends
      exact ⟨⟨hturn.reader, hended.withComponent hended.component.finish, hturn.writer⟩, rfl,
        hcancelled⟩

theorem shutdown (law : Service.Lockstep R) (h : p.Alike R p') :
    p.shutdown.1.Alike R p'.shutdown.1 := by
  have hstopped := stopReader (h.stopProcessor law)
  have hwriter := congrArg (fun w => (Writer.close w).1) hstopped.desk.writer
  exact ⟨⟨hstopped.desk.reader, hstopped.desk.processor, hwriter⟩, hstopped.time, hstopped.cancelled⟩

variable [MessageSource S]

theorem stir (law : Service.Lockstep R) (h : p.Alike R p') (e : Stir S) :
    (p.stir e).Alike R (p'.stir e) := by
  cases e with
  | source s => exact h.withReader (congrArg (fun r => { r with source := s }) h.desk.reader)
  | reader => exact h.withReader (by rw [h.desk.reader, h.time])
  | pass millis => exact ⟨h.desk, congrArg (· + millis) h.time, h.cancelled⟩
  | processor reportFirst =>
      have hstep : Option.Rel (Desk.Alike R) (p.desk.step p.time reportFirst)
          (p'.desk.step p'.time reportFirst) := h.time ▸ h.desk.step law p.time reportFirst
      rw [Pipeline.stir, Pipeline.stir]
      generalize p.desk.step _ _ = moved, p'.desk.step _ _ = moved' at hstep
      cases hstep with
      | none => exact h
      | some hmoved => exact h.withDesk hmoved

theorem act (law : Service.Lockstep R) (h : p.Alike R p') (a : Act S) :
    (p.act a).Alike R (p'.act a) := by
  cases a with
  | start => exact h.start
  | shutdown => exact h.shutdown law
  | stir e => exact h.stir law e

theorem actAll (law : Service.Lockstep R) (h : p.Alike R p') (as : List (Act S)) :
    (p.actAll as).Alike R (p'.actAll as) := by
  induction as generalizing p p' with
  | nil => exact h
  | cons a as ih => exact ih (h.act law a)

end Alike

theorem alike_ofConfig {U U' : Type} {R : U → U' → Prop} {d : Dispatcher U} {d' : Dispatcher U'}
    (h : d.Alike R d') (config : Config) (source : S) (sink : K) :
    (ofConfig config source sink d).Alike (Stack.Alike (Dispatcher.Alike R))
      (ofConfig config source sink d') :=
  ⟨⟨rfl, ⟨⟨h, rfl⟩, rfl, rfl, rfl, rfl, .nil⟩, rfl⟩, rfl, rfl⟩

end Pipeline

end CourierDispatch
