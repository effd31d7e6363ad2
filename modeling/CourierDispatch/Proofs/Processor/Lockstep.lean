import CourierDispatch.Processor
import CourierDispatch.Proofs.Service.Lockstep
import Mathlib.Data.List.Forall2

/-!
# Processors in lockstep

Two processors with the same reader and the same writer, whose handlers are in lockstep, do the same
with their writer: what their loops hold, wait for and publish is the same, and they go from stage to
stage at the same times. What is noticed of them may differ, as commands may fail for different reasons.
-/

namespace CourierDispatch

/-- Two attempts that fail for the same reason or end in states that correspond. -/
inductive Agree {ε α β : Type} (R : α → β → Prop) : Except ε α → Except ε β → Prop
  | error (e : ε) : Agree R (.error e) (.error e)
  | ok {a : α} {b : β} (h : R a b) : Agree R (.ok a) (.ok b)

/-! Components. -/

structure Run.Alike {α β : Type} (R : α → β → Prop) (r : Run α) (r' : Run β) : Prop where
  asked : r.asked = r'.asked
  loop : R r.loop r'.loop

theorem forall₂_modify {α β : Type} {R : α → β → Prop} {l : List α} {l' : List β} {f : α → α}
    {g : β → β} (h : List.Forall₂ R l l') (i : Nat) (hfg : ∀ {a b}, R a b → R (f a) (g b)) :
    List.Forall₂ R (l.modify i f) (l'.modify i g) := by
  induction h generalizing i with
  | nil => simp
  | cons hab h ih =>
      cases i with
      | zero => simpa using ⟨hfg hab, h⟩
      | succ i => simpa using ⟨hab, ih i⟩

namespace Component

variable {α β : Type}

structure Alike (R : α → β → Prop) (c : Component α) (c' : Component β) : Prop where
  label : c.label = c'.label
  control : c.control = c'.control
  runs : List.Forall₂ (Run.Alike R) c.runs c'.runs

namespace Alike

variable {R : α → β → Prop} {c : Component α} {c' : Component β}

theorem start (h : c.Alike R c') {r : Run α} {r' : Run β} (hr : r.Alike R r') :
    Agree (Alike R) (c.start r) (c'.start r') := by
  rw [Component.start, Component.start, ← h.control, ← h.runs.length_eq, ← h.label]
  cases c.control.start? c.runs.length with
  | none => exact .error _
  | some control => exact .ok ⟨rfl, rfl, List.rel_append h.runs (.cons hr .nil)⟩

theorem ask (h : c.Alike R c') (i : Nat) : (c.ask i).Alike R (c'.ask i) :=
  ⟨h.label, h.control, forall₂_modify h.runs i fun hr => ⟨rfl, hr.loop⟩⟩

theorem claim (h : c.Alike R c') :
    Agree (fun x x' => x.2.Alike R x'.2) c.claim c'.claim := by
  rw [Component.claim, Component.claim, ← h.control, ← h.label]
  cases c.control.claim? with
  | none => exact .error _
  | some claimed =>
      obtain ⟨i, control⟩ := claimed
      have hclaimed : Alike R { c with control } { c' with label := c.label, control } :=
        ⟨rfl, rfl, h.runs⟩
      exact .ok (hclaimed.ask i)

theorem finish (h : c.Alike R c') : c.finish.Alike R c'.finish :=
  ⟨h.label, congrArg Lifecycle.finish h.control, h.runs⟩

theorem latest? (h : c.Alike R c') : Option.Rel (Run.Alike R) c.latest? c'.latest? := by
  rw [Component.latest?, Component.latest?, List.getLast?_eq_head?_reverse,
    List.getLast?_eq_head?_reverse]
  have hruns := List.rel_reverse h.runs
  generalize c.runs.reverse = runs, c'.runs.reverse = runs' at hruns
  cases hruns with
  | nil => exact .none
  | cons hr => exact .some hr

theorem setLatest (h : c.Alike R c') {l : α} {l' : β} (hl : R l l') :
    (c.setLatest l).Alike R (c'.setLatest l') := by
  refine ⟨h.label, h.control, ?_⟩
  rw [Component.setLatest, Component.setLatest, ← h.runs.length_eq]
  exact forall₂_modify h.runs _ fun hr => ⟨hr.asked, hl⟩

end Alike

end Component

/-! Dispatch loops. -/

section

variable {H H' W : Type} {R : H → H' → Prop}

/-- Two stages that are the same, apart from what the end of the handling makes of the handlers. -/
inductive DispatchStage.Alike (R : H → H' → Prop) : DispatchStage H W → DispatchStage H' W → Prop
  | next : Alike R .next .next
  | reading (inbox : Nat) : Alike R (.reading inbox) (.reading inbox)
  | idling (due : Nat) : Alike R (.idling due) (.idling due)
  | handling (c : Command) (due : Option Nat) {finish : H → H × Outcome} {finish' : H' → H' × Outcome}
      (h : ∀ s s', R s s' →
        R (finish s).1 (finish' s').1 ∧ Outcome.SameResults (finish s).2 (finish' s').2) :
      Alike R (.handling c due finish) (.handling c due finish')
  | publishing (c : Command) (r : Result) (retries : Nat) :
      Alike R (.publishing c r retries) (.publishing c r retries)
  | writing (c : Command) (r : Result) (retries : Nat) (due : Option Nat)
      (finish : W → W × Except WriteError Unit) :
      Alike R (.writing c r retries due finish) (.writing c r retries due finish)
  | pausing (c : Command) (r : Result) (retries due : Nat) :
      Alike R (.pausing c r retries due) (.pausing c r retries due)
  | exited : Alike R .exited .exited

namespace DispatchLoop

/-- What is noticed of the loops, and how many results they have dropped, may differ. -/
structure Alike (R : H → H' → Prop) (l : DispatchLoop H W) (l' : DispatchLoop H' W) : Prop where
  stage : l.stage.Alike R l'.stage
  idle : l.idle = l'.idle

namespace Alike

variable {l : DispatchLoop H W} {l' : DispatchLoop H' W}

theorem mayExit (h : l.Alike R l') : l.mayExit = l'.mayExit := by
  have hstage := h.stage
  rw [DispatchLoop.mayExit, DispatchLoop.mayExit]
  generalize l.stage = stage, l'.stage = stage' at hstage
  cases hstage <;> rfl

theorem exit (h : l.Alike R l') : l.exit.Alike R l'.exit := ⟨.exited, h.idle⟩

theorem readFailed (h : l.Alike R l') (backoff : Backoff) (time : Nat) (e : ReadError) :
    (l.readFailed backoff time e).Alike R (l'.readFailed backoff time e) := by
  cases e with
  | cancelled => exact h.exit
  | channelClosed =>
      rw [DispatchLoop.readFailed, DispatchLoop.readFailed, ← h.idle]
      split
      all_goals
        refine ⟨?_, congrArg countUp h.idle⟩
        simp only [note, h.idle]
        exact .idling _
  | _ => exact ⟨.next, h.idle⟩

theorem handled (h : l.Alike R l') (c : Command) {o o' : Outcome} (ho : o.SameResults o') :
    (l.handled c o).Alike R (l'.handled c o') := by
  match o, o' with
  | .ok (some r), .ok (some r') =>
      cases ho
      exact ⟨.publishing c r 0, h.idle⟩
  | .ok none, .ok none | .ok none, .error _ | .error _, .ok none | .error _, .error _ =>
      exact ⟨.next, h.idle⟩
  | .ok (some r), .ok none | .ok (some r), .error _ | .ok none, .ok (some r)
  | .error _, .ok (some r) => cases ho

theorem written (h : l.Alike R l') (retry : Retry) (time : Nat) (c : Command) (r : Result)
    (retries : Nat) (answer : Except WriteError Unit) :
    (l.written retry time c r retries answer).Alike R (l'.written retry time c r retries answer) := by
  cases answer with
  | ok => exact ⟨.next, h.idle⟩
  | error e =>
      rw [DispatchLoop.written, DispatchLoop.written]
      split
      next => exact ⟨.pausing c r _ _, h.idle⟩
      next => exact ⟨.next, h.idle⟩

end Alike

end DispatchLoop

/-! Processors. -/

namespace Processor

structure Alike (R : H → H' → Prop) (p : Processor H W) (p' : Processor H' W) : Prop where
  handler : R p.handler p'.handler
  retry : p.retry = p'.retry
  idleBackoff : p.idleBackoff = p'.idleBackoff
  component : p.component.Alike (DispatchLoop.Alike R) p'.component

namespace Alike

variable {p : Processor H W} {p' : Processor H' W}

theorem withComponent (h : p.Alike R p') {component : Component (DispatchLoop H W)}
    {component' : Component (DispatchLoop H' W)}
    (hcomponent : component.Alike (DispatchLoop.Alike R) component') :
    Alike R { p with component } { p' with component := component' } :=
  ⟨h.handler, h.retry, h.idleBackoff, hcomponent⟩

theorem start (h : p.Alike R p') (asked : Bool) : Agree (Alike R) (p.start asked) (p'.start asked) := by
  have hopening : Run.Alike (DispatchLoop.Alike R) (⟨asked, {}⟩ : Run (DispatchLoop H W)) ⟨asked, {}⟩ :=
    ⟨rfl, .next, rfl⟩
  have hstart := h.component.start hopening
  rw [Processor.start, Processor.start]
  generalize p.component.start _ = started, p'.component.start _ = started' at hstart
  cases hstart with
  | error e => exact .error e
  | ok hcomponent => exact .ok (h.withComponent hcomponent)

theorem claim (h : p.Alike R p') : Agree (fun x x' => x.2.Alike R x'.2) p.claim p'.claim := by
  have hclaim := h.component.claim
  rw [Processor.claim, Processor.claim]
  generalize p.component.claim = claimed, p'.component.claim = claimed' at hclaim
  cases hclaim with
  | error e => exact .error e
  | ok hcomponent => exact .ok (h.withComponent hcomponent)

theorem setLoop (h : p.Alike R p') {l : DispatchLoop H W} {l' : DispatchLoop H' W}
    (hl : l.Alike R l') : (p.setLoop l).Alike R (p'.setLoop l') :=
  h.withComponent (h.component.setLatest hl)

theorem exit (h : p.Alike R p') : Option.Rel (Alike R) p.exit p'.exit := by
  have hlatest := h.component.latest?
  rw [Processor.exit, Processor.exit]
  generalize p.component.latest? = latest, p'.component.latest? = latest' at hlatest
  cases hlatest with
  | none => exact .none
  | @some r r' hr =>
      obtain ⟨asked, l⟩ := r
      obtain ⟨asked', l'⟩ := r'
      obtain ⟨rfl : asked = asked', hl : l.Alike R l'⟩ := hr
      cases asked with
      | false => exact .none
      | true =>
          dsimp only
          rw [← hl.mayExit]
          split
          next => exact .some (h.setLoop hl.exit)
          next => exact .none

theorem ends (h : p.Alike R p') : (p.exit.getD p).Alike R (p'.exit.getD p') := by
  have hexit := h.exit
  generalize p.exit = ended, p'.exit = ended' at hexit
  cases hexit with
  | none => exact h
  | some hended => exact hended

end Alike

end Processor

/-! Desks. -/

namespace Desk

variable {S K : Type} {d : Desk S H K} {d' : Desk S H' K}

/-- Desks with the same reader and the same writer. -/
structure Alike (R : H → H' → Prop) (d : Desk S H K) (d' : Desk S H' K) : Prop where
  reader : d.reader = d'.reader
  processor : d.processor.Alike R d'.processor
  writer : d.writer = d'.writer

namespace Alike

theorem setLoop (h : d.Alike R d') {l : DispatchLoop H (Writer K)} {l' : DispatchLoop H' (Writer K)}
    (hl : l.Alike R l') : (d.setLoop l).Alike R (d'.setLoop l') :=
  ⟨h.reader, h.processor.setLoop hl, h.writer⟩

theorem withReader (h : d.Alike R d') (reader : Reader S) :
    Alike R { d with reader } { d' with reader } :=
  ⟨rfl, h.processor, h.writer⟩

theorem withWriter (h : d.Alike R d') (writer : Writer K) :
    Alike R { d with writer } { d' with writer } :=
  ⟨h.reader, h.processor, rfl⟩

theorem withHandler (h : d.Alike R d') {handler : H} {handler' : H'} (hhandler : R handler handler') :
    Alike R { d with processor := { d.processor with handler } }
      { d' with processor := { d'.processor with handler := handler' } } :=
  ⟨h.reader, ⟨hhandler, h.processor.retry, h.processor.idleBackoff, h.processor.component⟩, h.writer⟩

section

variable [MessageSink K]

theorem publish (h : d.Alike R d') (time : Nat) {l : DispatchLoop H (Writer K)}
    {l' : DispatchLoop H' (Writer K)} (hl : l.Alike R l') (c : Command) (r : Result) (retries : Nat) :
    (d.publish time l c r retries).Alike R (d'.publish time l' c r retries) := by
  rw [Desk.publish, Desk.publish, ← h.writer]
  refine (h.withWriter _).setLoop ⟨.writing c r retries _ _, ?_⟩
  split
  next => exact hl.idle
  next => exact hl.idle

end

variable [Service H] [Service H']

theorem handle (law : Service.Lockstep R) (h : d.Alike R d') (time : Nat)
    {l : DispatchLoop H (Writer K)} {l' : DispatchLoop H' (Writer K)} (c : Command) :
    (d.handle time l c).Alike R (d'.handle time l' c) := by
  have hcall := law d.processor.handler d'.processor.handler c h.processor.handler
  refine (h.withHandler hcall.begun).setLoop ⟨?_, rfl⟩
  rw [hcall.latency]
  exact .handling c _ hcall.finish

variable [MessageSink K]

/-- What is waited for, and what becomes of it, is the same. -/
theorem step (law : Service.Lockstep R) (h : d.Alike R d') (time : Nat) (reportFirst : Bool) :
    Option.Rel (Alike R) (d.step time reportFirst) (d'.step time reportFirst) := by
  have hlatest := h.processor.component.latest?
  rw [Desk.step, Desk.step]
  generalize d.processor.component.latest? = latest, d'.processor.component.latest? = latest' at hlatest
  cases hlatest with
  | none => exact .none
  | @some r r' hr =>
      obtain ⟨asked, l⟩ := r
      obtain ⟨asked', l'⟩ := r'
      have hl : l.Alike R l' := hr.loop
      have hstage := hl.stage
      dsimp only
      generalize l.stage = stage, l'.stage = stage' at hstage
      cases hstage with
      | exited => exact .none
      | next =>
          dsimp only
          rw [← h.reader, ← h.processor.idleBackoff]
          cases d.reader.channels with
          | none => exact .some (h.setLoop (hl.readFailed _ time .channelClosed))
          | some i => exact .some (h.setLoop ⟨.reading i, hl.idle⟩)
      | reading i =>
          dsimp only
          rw [← h.reader, ← h.processor.idleBackoff]
          rcases d.reader.takeFrom i reportFirst with ⟨reader, _ | e | c⟩
          · exact .none
          · exact .some ((h.withReader reader).setLoop (hl.readFailed _ time e))
          · exact .some ((h.withReader reader).handle law time c)
      | idling due =>
          dsimp only
          split
          next => exact .some (h.setLoop ⟨.next, hl.idle⟩)
          next => exact .none
      | handling c due hfinish =>
          dsimp only
          split
          next =>
            have hfinished := hfinish d.processor.handler d'.processor.handler h.processor.handler
            exact .some ((h.withHandler hfinished.1).setLoop (hl.handled c hfinished.2))
          next => exact .none
      | publishing c r retries => exact .some (h.publish time hl c r retries)
      | writing c r retries due finish =>
          dsimp only
          rw [← h.writer, ← h.processor.retry]
          split
          next => exact .some ((h.withWriter _).setLoop (hl.written _ time c r retries _))
          next => exact .none
      | pausing c r retries due =>
          dsimp only
          split
          next => exact .some (h.setLoop ⟨.publishing c r retries, hl.idle⟩)
          next => exact .none

theorem turn (law : Service.Lockstep R) (h : d.Alike R d') (time : Nat) :
    (d.turn time).1.Alike R (d'.turn time).1 := by
  have hexit := h.processor.exit
  rw [Desk.turn, Desk.turn]
  generalize d.processor.exit = ended, d'.processor.exit = ended' at hexit
  cases hexit with
  | some hended => exact ⟨h.reader, hended, h.writer⟩
  | none =>
      have hstep := h.step law time false
      generalize d.step time false = moved, d'.step time false = moved' at hstep
      cases hstep with
      | none => exact h
      | some hmoved => exact hmoved

end Alike

end Desk

end

end CourierDispatch
