import CourierDispatch.Proofs.Dispatcher
import CourierDispatch.Proofs.Processor.Moves

/-!
# From the handler to the writer

A result that a handler yields stays in the hands of the dispatch loop until the writer has answered for
it. `Desk.Handover` tells what a move means for the results alone: the loop may come to hold one, give it
to the writer, or be answered. What the writer makes of a result depends on how it was when it was given
the result, so an invariant of the writer has to cover that, too.
-/

namespace CourierDispatch

variable {S H K : Type}

namespace DispatchLoop

variable {W : Type}

def inHand (l : DispatchLoop H W) : List Result :=
  match l.stage with
  | .publishing _ r _ | .writing _ r _ _ _ | .pausing _ r _ _ => [r]
  | _ => []

theorem length_inHand_le (l : DispatchLoop H W) : l.inHand.length ≤ 1 := by
  unfold inHand
  split <;> simp

def isWriting (l : DispatchLoop H W) : Bool :=
  match l.stage with
  | .writing .. => true
  | _ => false

/-- The loop waits for the writer to answer for a result. -/
def Writing (l : DispatchLoop H W) (r : Result) (finish : W → W × Except WriteError Unit) : Prop :=
  ∃ c retries due, l.stage = .writing c r retries due finish

theorem Writing.inHand {l : DispatchLoop H W} {r : Result}
    {finish : W → W × Except WriteError Unit} (h : l.Writing r finish) : l.inHand = [r] := by
  obtain ⟨c, retries, due, hstage⟩ := h
  rw [DispatchLoop.inHand, hstage]

theorem Writing.unique {l : DispatchLoop H W} {r r' : Result}
    {finish finish' : W → W × Except WriteError Unit} (h : l.Writing r finish)
    (h' : l.Writing r' finish') : r = r' ∧ finish = finish' := by
  obtain ⟨c, retries, due, hstage⟩ := h
  obtain ⟨c', retries', due', hstage'⟩ := h'
  rw [hstage] at hstage'
  cases hstage'
  exact ⟨rfl, rfl⟩

theorem Writing.isWriting {l : DispatchLoop H W} {r : Result}
    {finish : W → W × Except WriteError Unit} (h : l.Writing r finish) : l.isWriting = true := by
  obtain ⟨c, retries, due, hstage⟩ := h
  rw [DispatchLoop.isWriting, hstage]

theorem isWriting_written (retry : Retry) (time : Nat) (l : DispatchLoop H W) (c : Command)
    (r : Result) (retries : Nat) (answer : Except WriteError Unit) :
    (l.written retry time c r retries answer).isWriting = false := by
  cases answer with
  | ok => rfl
  | error e =>
      unfold written
      dsimp only
      split <;> rfl

theorem inHand_readFailed (backoff : Backoff) (time : Nat) (l : DispatchLoop H W) (e : ReadError) :
    (l.readFailed backoff time e).inHand = [] ∧ (l.readFailed backoff time e).dropped = l.dropped ∧
      (l.readFailed backoff time e).isWriting = false := by
  cases e with
  | cancelled | decode | transport => exact ⟨rfl, rfl, rfl⟩
  | channelClosed =>
      refine ⟨rfl, ?_, rfl⟩
      simp only [readFailed]
      split <;> rfl

theorem inHand_handled (l : DispatchLoop H W) (c : Command) (o : Outcome) :
    (l.handled c o).inHand = o.results ∧ (l.handled c o).dropped = l.dropped ∧
      (l.handled c o).isWriting = false := by
  rcases o with e | _ | r <;> exact ⟨rfl, rfl, rfl⟩

end DispatchLoop

namespace Desk

open DispatchLoop

def yields (d : Desk S H K) (time : Nat) : List Result :=
  match d.processor.component.latestLoop? with
  | some l =>
    match l.stage with
    | .handling _ due finish => if isDue due time then (finish d.processor.handler).2.results else []
    | _ => []
  | none => []

variable [MessageSink K]

/-- What a move of a loop that works with the writer `w` means for its results: those that it comes to
hold, and what becomes of the writer and the loop. -/
inductive Handover (w : Writer K) (l : DispatchLoop H (Writer K)) :
    List Result → Writer K → DispatchLoop H (Writer K) → Prop
  /-- The writer has nothing to do with the move. -/
  | apart {rs : List Result} {l' : DispatchLoop H (Writer K)} (hhand : l'.inHand = l.inHand ++ rs)
      (hdropped : l'.dropped = l.dropped) (hwriting : l'.isWriting = false) :
      Handover w l rs w l'
  | begins {r : Result} {l' : DispatchLoop H (Writer K)} (hhand : l'.inHand = l.inHand)
      (hdropped : l'.dropped = l.dropped) (hwriting : l'.Writing r (w.write (some r)).finish) :
      Handover w l [] (w.write (some r)).begun l'
  | ends (retry : Retry) (time : Nat) (c : Command) {r : Result} (retries : Nat)
      {finish : Writer K → Writer K × Except WriteError Unit} (hwriting : l.Writing r finish) :
      Handover w l [] (finish w).1 (l.written retry time c r retries (finish w).2)

theorem Handover.of_empty {w : Writer K} {l l' : DispatchLoop H (Writer K)} {rs : List Result}
    (hl : l.inHand = []) (hhand : l'.inHand = rs) (hdropped : l'.dropped = l.dropped)
    (hwriting : l'.isWriting = false) : Handover w l rs w l' :=
  .apart (by rw [hl, hhand, List.nil_append]) hdropped hwriting

variable [Service H] {d d' : Desk S H K} {time : Nat} {reportFirst : Bool}
  {l : DispatchLoop H (Writer K)}

theorem handover_of_step (hl : d.processor.component.latestLoop? = some l)
    (h : d.step time reportFirst = some d') :
    ∃ l', d'.processor.component.latestLoop? = some l' ∧
      Handover d.writer l (d.yields time) d'.writer l' := by
  have hmove := move_of_step hl h
  -- whatever a move does to the other parts, it sets the loop of the latest run
  have hset (d₁ : Desk S H K) (l' : DispatchLoop H (Writer K))
      (hd₁ : d₁.processor.component = d.processor.component) :
      (d₁.setLoop l').processor.component.latestLoop? = some l' := by
    rw [← hd₁] at hl
    exact Component.latestLoop?_setLatest hl l'
  simp only [yields, hl]
  generalize d.next? reportFirst = command? at hmove
  cases hmove with
  | shut hstage =>
      have hempty : l.inHand = [] := by rw [inHand, hstage]
      obtain ⟨hhand, hdropped, hwriting⟩ :=
        inHand_readFailed d.processor.idleBackoff time l .channelClosed
      rw [hstage]
      exact ⟨_, hset _ _ rfl, .of_empty hempty hhand hdropped hwriting⟩
  | opened i hstage =>
      have hempty : l.inHand = [] := by rw [inHand, hstage]
      rw [hstage]
      exact ⟨_, hset _ _ rfl, .of_empty hempty rfl rfl rfl⟩
  | command i reader c hstage =>
      have hempty : l.inHand = [] := by rw [inHand, hstage]
      rw [hstage]
      exact ⟨_, hset _ _ rfl, .of_empty hempty rfl rfl rfl⟩
  | report i reader e hstage =>
      have hempty : l.inHand = [] := by rw [inHand, hstage]
      obtain ⟨hhand, hdropped, hwriting⟩ := inHand_readFailed d.processor.idleBackoff time l e
      rw [hstage]
      exact ⟨_, hset _ _ rfl, .of_empty hempty hhand hdropped hwriting⟩
  | rested due hstage =>
      have hempty : l.inHand = [] := by rw [inHand, hstage]
      rw [hstage]
      exact ⟨_, hset _ _ rfl, .of_empty hempty rfl rfl rfl⟩
  | answered c due finish hstage hdue =>
      have hempty : l.inHand = [] := by rw [inHand, hstage]
      obtain ⟨hhand, hdropped, hwriting⟩ := inHand_handled l c (finish d.processor.handler).2
      rw [hstage]
      simp only [hdue, if_true]
      exact ⟨_, hset _ _ rfl, .of_empty hempty hhand hdropped hwriting⟩
  | publishes c r retries hstage =>
      have hhand : l.inHand = [r] := by rw [inHand, hstage]
      rw [hstage]
      refine ⟨_, hset _ _ rfl, .begins hhand.symm ?_ ⟨c, retries, _, rfl⟩⟩
      simp only
      split <;> rfl
  | wrote c r retries due finish hstage =>
      rw [hstage]
      exact ⟨_, hset _ _ rfl, .ends _ _ c retries ⟨c, retries, due, hstage⟩⟩
  | paused c r retries due hstage =>
      have hhand : l.inHand = [r] := by rw [inHand, hstage]
      rw [hstage]
      exact ⟨_, hset _ _ rfl, .apart (by rw [hhand]; rfl) rfl rfl⟩

theorem yields_of_step (h : d.step time reportFirst = none) : d.yields time = [] := by
  unfold yields
  cases hl : d.processor.component.latestLoop? with
  | none => rfl
  | some l =>
      obtain ⟨asked, hlatest⟩ := Component.exists_latest? hl
      dsimp only
      split
      next c due finish hstage =>
        rw [step, hlatest] at h
        simp only [hstage] at h
        split at h
        next => cases h
        next hdue => exact if_neg hdue
      next => rfl

end Desk

end CourierDispatch
