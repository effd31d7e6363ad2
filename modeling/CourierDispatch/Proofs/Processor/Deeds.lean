import CourierDispatch.Proofs.Processor.Exchange
import CourierDispatch.Proofs.Processor.Moves
import CourierDispatch.Proofs.Reader.Reports

/-!
# What a dispatch loop does for a command

A dispatch loop has a command handled, and if there is a result, it offers it to the writer until it is
accepted, until it is of no use to try again, or until it has tried often enough. Then it turns to the
next command. `Desk.deed?` is what a move does of this. The deeds of a loop are its complete dealings
with commands, one after the other, and what it has done so far for the command in hand.
-/

namespace CourierDispatch

/-- What a dispatch loop does for a command, with what it makes of the handler or of the writer. -/
inductive Deed (H K : Type)
  | handles (h h' : H) (c : Command)
  /-- The handler answers. -/
  | answers (h h' : H) (o : Outcome)
  /-- The writer is given a result. -/
  | offers (w w' : Writer K) (r : Result)
  /-- The writer answers for a result. -/
  | tries (w w' : Writer K) (r : Result) (a : Except WriteError Unit)

theorem Outcome.results_eq_nil_or (o : Outcome) : o.results = [] ∨ ∃ r, o = .ok (some r) := by
  rcases o with e | _ | r
  exacts [.inl rfl, .inl rfl, .inr ⟨r, rfl⟩]

namespace Deed

variable {H K : Type}

def command? : Deed H K → Option Command
  | handles _ _ c => some c
  | _ => none

def results : Deed H K → List Result
  | answers _ _ o => o.results
  | _ => []

def answer? : Deed H K → Option (Except WriteError Unit)
  | tries _ _ _ a => some a
  | _ => none

def handler? : Deed H K → Option (H × H)
  | handles h h' _ | answers h h' _ => some (h, h')
  | _ => none

def writer? : Deed H K → Option (Writer K × Writer K)
  | offers w w' _ | tries w w' _ _ => some (w, w')
  | _ => none

end Deed

/-- The writer has failed, and it might succeed the next time. -/
def Passing (a : Except WriteError Unit) : Prop := ∃ e, a = .error e ∧ e.isRetryable = true

/-- Tries to write a result come to their end: all but the last one fail, and might succeed the next
time. The last one succeeds, or it cannot succeed the next time, or there have been `n` others. -/
def Settle (n : Nat) (answers : List (Except WriteError Unit)) : Prop :=
  ∃ (failures : List (Except WriteError Unit)) (last : Except WriteError Unit),
    answers = failures ++ [last] ∧ (∀ a ∈ failures, Passing a) ∧ failures.length ≤ n ∧
      ∀ e, last = .error e → e.isRetryable = false ∨ failures.length = n

theorem Settle.length_le {n : Nat} {answers : List (Except WriteError Unit)} (h : Settle n answers) :
    0 < answers.length ∧ answers.length ≤ n + 1 := by
  obtain ⟨failures, last, rfl, -, hn, -⟩ := h
  simp only [List.length_append, List.length_singleton]
  omega

section

variable {H K : Type}

def Try.deeds (r : Result) (t : Try K) : List (Deed H K) :=
  [.offers t.asked t.begun r, .tries t.met t.left r t.answer]

/-- What has been done for a command in the end. -/
structure Dealing (H K : Type) where
  command : Command
  handling : Exchange H Outcome
  tries : List (Try K) := []

namespace Dealing

def outcome (x : Dealing H K) : Outcome := x.handling.answer

def deeds (x : Dealing H K) : List (Deed H K) :=
  .handles x.handling.asked x.handling.begun x.command ::
    .answers x.handling.met x.handling.left x.outcome ::
    x.outcome.results.flatMap fun r => x.tries.flatMap (Try.deeds r)

def accepted (x : Dealing H K) : List Result :=
  match x.tries.getLast?.map Exchange.answer with
  | some (.ok ()) => x.outcome.results
  | _ => []

variable [Service H] [MessageSink K]

/-- The command is handled by the handler as it was then. A result is offered to the writer as it was
each time, until the tries settle. Nothing is offered where there is no result. -/
structure Complete (config : Config) (x : Dealing H K) : Prop where
  handled : x.handling.Follows (Service.call x.handling.asked x.command)
  settled : ∀ r, x.outcome = .ok (some r) →
    Settle config.retry.attempts (x.tries.map Exchange.answer) ∧
      ∀ t ∈ x.tries, t.Follows (config.offer t.asked r)
  fruitless : x.outcome.results = [] → x.tries = []

end Dealing

/-- What has been done for a command whose result has been tried in vain so far. -/
def pursued (c : Command) (x : Exchange H Outcome) (r : Result) (tries : List (Try K)) :
    List (Deed H K) :=
  .handles x.asked x.begun c :: .answers x.met x.left x.answer :: tries.flatMap (Try.deeds r)

theorem pursued_snoc (c : Command) (x : Exchange H Outcome) (r : Result) (tries : List (Try K))
    (t : Try K) :
    pursued c x r (tries ++ [t]) =
      pursued c x r tries ++ [.offers t.asked t.begun r] ++ [.tries t.met t.left r t.answer] := by
  simp [pursued, Try.deeds]

theorem Dealing.deeds_eq_pursued {c : Command} {x : Exchange H Outcome} {r : Result}
    (h : x.answer.results = [r]) (tries : List (Try K)) :
    (Dealing.mk c x tries).deeds = pursued c x r tries := by
  simp [Dealing.deeds, Dealing.outcome, pursued, h]

variable [Service H] [MessageSink K]

/-- A command has been handled, and its result has been tried in vain so far. -/
structure Pursuit (config : Config) (c : Command) (x : Exchange H Outcome) (r : Result)
    (tries : List (Try K)) : Prop where
  handled : x.Follows (Service.call x.asked c)
  result : x.answer = .ok (some r)
  tried : ∀ t ∈ tries, t.Follows (config.offer t.asked r)
  passing : ∀ t ∈ tries, Passing t.answer
  few : tries.length ≤ config.retry.attempts

namespace Pursuit

variable {config : Config} {c : Command} {x : Exchange H Outcome} {r : Result} {tries : List (Try K)}
  {t : Try K}

theorem tried_snoc (h : Pursuit config c x r tries) (ht : t.Follows (config.offer t.asked r)) :
    ∀ t' ∈ tries ++ [t], t'.Follows (config.offer t'.asked r) :=
  List.forall_mem_append.2 ⟨h.tried, List.forall_mem_singleton.2 ht⟩

theorem snoc (h : Pursuit config c x r tries) (ht : t.Follows (config.offer t.asked r))
    (hpassing : Passing t.answer) (hlt : tries.length < config.retry.attempts) :
    Pursuit config c x r (tries ++ [t]) where
  handled := h.handled
  result := h.result
  tried := h.tried_snoc ht
  passing := List.forall_mem_append.2 ⟨h.passing, List.forall_mem_singleton.2 hpassing⟩
  few := by
    rw [List.length_append, List.length_singleton]
    exact hlt

theorem results_eq (h : Pursuit config c x r tries) : x.answer.results = [r] := by
  rw [h.result]
  rfl

theorem complete (h : Pursuit config c x r tries) (ht : t.Follows (config.offer t.asked r))
    (hlast : ∀ e, t.answer = .error e →
      e.isRetryable = false ∨ tries.length = config.retry.attempts) :
    (Dealing.mk c x (tries ++ [t])).Complete config where
  handled := h.handled
  settled r' hr' := by
    cases h.result.symm.trans hr'
    refine ⟨⟨tries.map Exchange.answer, t.answer, List.map_append, ?_, ?_, ?_⟩, h.tried_snoc ht⟩
    · exact List.forall_mem_map.2 h.passing
    · rw [List.length_map]
      exact h.few
    · rw [List.length_map]
      exact hlast
  fruitless hnone := by
    cases hnone.symm.trans h.results_eq

end Pursuit

/-- Where a dispatch loop is that has done this for the command in hand. -/
inductive Underway (config : Config) : DispatchStage H (Writer K) → List (Deed H K) → Prop
  | next : Underway config .next []
  | reading : Underway config (.reading 0) []
  | handling (h : H) (c : Command) {due : Option Nat} (hdue : Service.Prompt H → due.isSome) :
      Underway config (.handling c due (Service.call h c).finish)
        [.handles h (Service.call h c).begun c]
  | publishing {c : Command} {x : Exchange H Outcome} {r : Result} {tries : List (Try K)}
      (h : Pursuit config c x r tries) :
      Underway config (.publishing c r tries.length) (pursued c x r tries)
  | writing {c : Command} {x : Exchange H Outcome} {r : Result} {tries : List (Try K)}
      (h : Pursuit config c x r tries) (w : Writer K) {due : Option Nat} (hdue : due.isSome) :
      Underway config (.writing c r tries.length due (config.offer w r).finish)
        (pursued c x r tries ++ [.offers w (config.offer w r).begun r])
  | pausing {c : Command} {x : Exchange H Outcome} {r : Result} {tries : List (Try K)}
      (h : Pursuit config c x r tries) (due : Nat) :
      Underway config (.pausing c r tries.length due) (pursued c x r tries)

end

namespace DispatchStage

variable {H W : Type}

/-- How many moves a loop may take at most before it reads again, if it may try `n` times more than
once. -/
def effort (n : Nat) : DispatchStage H W → Nat
  | .next => 1
  | .handling .. => 3 * n + 4
  | .publishing _ _ k => 3 * (n - k) + 3
  | .writing _ _ k .. => 3 * (n - k) + 2
  | .pausing _ _ k _ => 3 * (n - k) + 4
  | .reading _ | .idling _ | .exited => 0

end DispatchStage

theorem DispatchLoop.readFailed_of_reported {H W : Type} (l : DispatchLoop H W) (backoff : Backoff)
    (time : Nat) {e : ReadError} (h : reported? (.error e) = some e) :
    (l.readFailed backoff time e).stage = .next ∧
      (l.readFailed backoff time e).dropped = l.dropped := by
  cases e with
  | cancelled | channelClosed => cases h
  | decode | transport => exact ⟨rfl, rfl⟩

/-- What the deeds of a loop come to: its dealings, and what it has done for the command in hand. -/
structure Docket {H K : Type} [Service H] [MessageSink K] (config : Config)
    (before taken : List Outbound) (deeds : List (Deed H K)) (l : DispatchLoop H (Writer K))
    (dealings : List (Dealing H K)) (rest : List (Deed H K)) : Prop where
  deeds : deeds = dealings.flatMap Dealing.deeds ++ rest
  complete : ∀ x ∈ dealings, x.Complete config
  underway : Underway config l.stage rest
  taken : taken = before ++ (dealings.flatMap Dealing.accepted).map config.message
  dropped : (dealings.flatMap (·.outcome.results)).length =
    (dealings.flatMap Dealing.accepted).length + l.dropped

namespace Docket

variable {H K : Type} [Service H] [MessageSink K] {config : Config} {before taken : List Outbound}
  {deeds : List (Deed H K)} {l l' : DispatchLoop H (Writer K)} {dealings : List (Dealing H K)}
  {rest : List (Deed H K)}

theorem goOn (h : Docket config before taken deeds l dealings rest) (more : List (Deed H K))
    (hunderway : Underway config l'.stage (rest ++ more)) (hdropped : l'.dropped = l.dropped) :
    Docket config before taken (deeds ++ more) l' dealings (rest ++ more) where
  deeds := by rw [h.deeds, List.append_assoc]
  complete := h.complete
  underway := hunderway
  taken := h.taken
  dropped := by rw [h.dropped, hdropped]

theorem close (h : Docket config before taken deeds l dealings rest)
    (l' : DispatchLoop H (Writer K)) (more : List (Deed H K)) (x : Dealing H K)
    (hx : x.deeds = rest ++ more) (hcomplete : x.Complete config) (hnext : l'.stage = .next)
    (hdropped : l'.dropped + x.accepted.length = l.dropped + x.outcome.results.length) :
    Docket config before (taken ++ x.accepted.map config.message) (deeds ++ more) l'
      (dealings ++ [x]) [] where
  deeds := by rw [h.deeds, List.flatMap_append, List.append_assoc, ← hx]; simp
  complete := List.forall_mem_append.2 ⟨h.complete, List.forall_mem_singleton.2 hcomplete⟩
  underway := by
    rw [hnext]
    exact .next
  taken := by rw [h.taken, List.flatMap_append, List.map_append, List.append_assoc]; simp
  dropped := by
    have hbefore := h.dropped
    simp only [List.flatMap_append, List.length_append, List.flatMap_singleton]
    omega

theorem stay (h : Docket config before taken deeds l dealings rest)
    (hunderway : Underway config l'.stage rest) (hdropped : l'.dropped = l.dropped) :
    Docket config before taken deeds l' dealings rest :=
  ⟨h.deeds, h.complete, hunderway, h.taken, h.dropped.trans (by rw [hdropped])⟩

variable {c : Command} {x : Exchange H Outcome}

theorem fruitless (h : Docket config before taken deeds l dealings [.handles x.asked x.begun c])
    (hx : x.Follows (Service.call x.asked c)) (hnone : x.answer.results = []) :
    Docket config before taken (deeds ++ [.answers x.met x.left x.answer]) (l.handled c x.answer)
      (dealings ++ [⟨c, x, []⟩]) [] := by
  have hdone : (l.handled c x.answer).stage = .next ∧ (l.handled c x.answer).dropped = l.dropped ∧
      ∀ r, x.answer ≠ .ok (some r) := by
    rcases ho : x.answer with e | _ | r
    · exact ⟨rfl, rfl, nofun⟩
    · exact ⟨rfl, rfl, nofun⟩
    · rw [ho] at hnone
      cases hnone
  obtain ⟨hnext, hdropped, hresult⟩ := hdone
  have hcomplete : (Dealing.mk c x [] : Dealing H K).Complete config :=
    ⟨hx, fun r hr => absurd hr (hresult r), fun _ => rfl⟩
  have hclose := h.close (l.handled c x.answer) [.answers x.met x.left x.answer] ⟨c, x, []⟩
    (by simp [Dealing.deeds, Dealing.outcome, hnone]) hcomplete hnext
    (by simp [Dealing.accepted, Dealing.outcome, hdropped, hnone])
  have haccepted : (Dealing.mk c x [] : Dealing H K).accepted = [] := rfl
  rwa [haccepted, List.map_nil, List.append_nil] at hclose

/-- What the answer of the handler means for the dealings of the loop. -/
theorem handled {due : Option Nat} {finish : H → H × Outcome}
    (h : Docket config before taken deeds l dealings [.handles x.asked x.begun c])
    (hstage : l.stage = .handling c due finish) (hx : x.Follows (Service.call x.asked c)) :
    (∃ dealings rest, Docket config before taken (deeds ++ [.answers x.met x.left x.answer])
      (l.handled c x.answer) dealings rest) ∧
      (l.handled c x.answer).stage.effort config.retry.attempts <
        l.stage.effort config.retry.attempts := by
  have heffort (o : Outcome) : (l.handled c o).stage.effort config.retry.attempts <
      l.stage.effort config.retry.attempts := by
    rw [hstage]
    rcases o with e | _ | r <;>
      simp only [DispatchLoop.handled, DispatchLoop.done, DispatchLoop.note, DispatchStage.effort] <;>
      omega
  refine ⟨?_, heffort x.answer⟩
  rcases x.answer.results_eq_nil_or with hnone | ⟨r, hresult⟩
  · exact ⟨_, _, h.fruitless hx hnone⟩
  · have hpursuit : Pursuit config c x r ([] : List (Try K)) :=
      ⟨hx, hresult, by simp, by simp, Nat.zero_le _⟩
    have hpublishing : (l.handled c x.answer).stage = .publishing c r 0 ∧
        (l.handled c x.answer).dropped = l.dropped := by
      rw [hresult]
      exact ⟨rfl, rfl⟩
    refine ⟨dealings, pursued c x r [], h.goOn [.answers x.met x.left x.answer] ?_ hpublishing.2⟩
    rw [hpublishing.1]
    exact .publishing hpursuit

variable {r : Result} {tries : List (Try K)} {t : Try K}

theorem again
    (h : Docket config before taken deeds l dealings
      (pursued c x r tries ++ [.offers t.asked t.begun r]))
    (l' : DispatchLoop H (Writer K)) (hpursuit : Pursuit config c x r tries)
    (ht : t.Follows (config.offer t.asked r))
    (hpassing : Passing t.answer) (hlt : tries.length < config.retry.attempts) {due : Nat}
    (hstage : l'.stage = .pausing c r (tries.length + 1) due) (hdropped : l'.dropped = l.dropped) :
    Docket config before taken (deeds ++ [.tries t.met t.left r t.answer]) l' dealings
      (pursued c x r tries ++ [.offers t.asked t.begun r] ++ [.tries t.met t.left r t.answer]) := by
  have hlength : tries.length + 1 = (tries ++ [t]).length := by simp
  refine h.goOn _ ?_ hdropped
  rw [← pursued_snoc, hstage, hlength]
  exact .pausing (hpursuit.snoc ht hpassing hlt) due

theorem settled
    (h : Docket config before taken deeds l dealings
      (pursued c x r tries ++ [.offers t.asked t.begun r]))
    (l' : DispatchLoop H (Writer K)) (hpursuit : Pursuit config c x r tries)
    (ht : t.Follows (config.offer t.asked r))
    (hlast : ∀ e, t.answer = .error e → e.isRetryable = false ∨ tries.length = config.retry.attempts)
    (hnext : l'.stage = .next)
    (hdropped : l'.dropped + (accepted [config.message r] t.answer).length = l.dropped + 1) :
    Docket config before (taken ++ accepted [config.message r] t.answer)
      (deeds ++ [.tries t.met t.left r t.answer]) l' (dealings ++ [⟨c, x, tries ++ [t]⟩]) [] := by
  have hdeeds : (Dealing.mk c x (tries ++ [t])).deeds =
      pursued c x r tries ++ [.offers t.asked t.begun r] ++ [.tries t.met t.left r t.answer] := by
    rw [Dealing.deeds_eq_pursued hpursuit.results_eq, pursued_snoc]
  have haccepted : (Dealing.mk c x (tries ++ [t])).accepted.map config.message =
      accepted [config.message r] t.answer := by
    rw [Dealing.accepted, Dealing.outcome, hpursuit.results_eq]
    cases ha : t.answer <;> simp [ha, accepted]
  rw [← haccepted] at hdropped ⊢
  rw [List.length_map] at hdropped
  refine h.close l' [.tries t.met t.left r t.answer] _ hdeeds (hpursuit.complete ht hlast) hnext ?_
  rw [Dealing.outcome, hpursuit.results_eq]
  exact hdropped

/-- What the answer of the writer means for the dealings of the loop. -/
theorem answered {due : Option Nat} {finish : Writer K → Writer K × Except WriteError Unit}
    (h : Docket config before taken deeds l dealings
      (pursued c x r tries ++ [.offers t.asked t.begun r]))
    (hstage : l.stage = .writing c r tries.length due finish)
    (hpursuit : Pursuit config c x r tries) (ht : t.Follows (config.offer t.asked r)) (time : Nat) :
    (∃ dealings rest, Docket config before (taken ++ accepted [config.message r] t.answer)
      (deeds ++ [.tries t.met t.left r t.answer])
      (l.written config.retry time c r tries.length t.answer) dealings rest) ∧
      (l.written config.retry time c r tries.length t.answer).stage.effort config.retry.attempts <
        l.stage.effort config.retry.attempts := by
  have hn := hpursuit.few
  rw [hstage]
  generalize ha : t.answer = a
  unfold DispatchLoop.written
  cases a with
  | ok _ =>
      have hlast (e : WriteError) (he : t.answer = .error e) :
          e.isRetryable = false ∨ tries.length = config.retry.attempts := by
        rw [ha] at he
        cases he
      have hsettled := h.settled (l.done c (some r.kind)) hpursuit ht hlast rfl (by rw [ha]; rfl)
      refine ⟨⟨_, _, ha ▸ hsettled⟩, ?_⟩
      simp only [DispatchLoop.done, DispatchLoop.note, DispatchStage.effort]
      omega
  | error e =>
      dsimp only
      by_cases hagain : e.isRetryable = true ∧ tries.length < config.retry.attempts
      · rw [if_pos hagain, accepted, List.append_nil]
        have hpausing := h.again
          ({ l with
            stage := .pausing c r (tries.length + 1) (time + Backoff.timerMillis config.retry.delay)
          }.note (.retrying (tries.length + 1) e))
          hpursuit ht ⟨e, ha, hagain.1⟩ hagain.2 rfl rfl
        refine ⟨⟨_, _, ha ▸ hpausing⟩, ?_⟩
        simp only [DispatchLoop.note, DispatchStage.effort]
        omega
      · have hlast (e' : WriteError) (he' : t.answer = .error e') :
            e'.isRetryable = false ∨ tries.length = config.retry.attempts := by
          rw [ha] at he'
          cases he'
          cases hretryable : e.isRetryable with
          | false => exact .inl rfl
          | true =>
              have hfull : ¬ tries.length < config.retry.attempts :=
                fun hlt => hagain ⟨hretryable, hlt⟩
              exact .inr (by omega)
        rw [if_neg hagain]
        have hsettled := h.settled
          (({ l with dropped := l.dropped + 1 }.note
            (.resultDropped r.kind tries.length e)).done c (some r.kind))
          hpursuit ht hlast rfl (by rw [ha]; rfl)
        refine ⟨⟨_, _, ha ▸ hsettled⟩, ?_⟩
        simp only [DispatchLoop.done, DispatchLoop.note, DispatchStage.effort]
        omega

end Docket

/-- What a pipeline begins with, whatever handles its commands and takes its results. -/
structure Setup (H K : Type) where
  config : Config
  handler : H
  sink : K

/-- Through these deeds a handler and a writer have come where they are. The writer may have been closed
anywhere on the way if it is `closable`; apart from that nothing has happened to them. -/
structure Setup.Trail {H K : Type} [MessageSink K] (s : Setup H K) (closable : Prop)
    (deeds : List (Deed H K)) (h : H) (w : Writer K) : Prop where
  handler : Course Eq s.handler (deeds.filterMap Deed.handler?) h
  writer : Course (Writer.LeftAlone closable) (s.config.writer s.sink)
    (deeds.filterMap Deed.writer?) w

namespace Setup.Trail

variable {H K : Type} [MessageSink K] {s : Setup H K} {closable : Prop} {deeds : List (Deed H K)}
  {h : H} {w : Writer K}

theorem handled (ht : s.Trail closable deeds h w) {x : Deed H K} {h' : H}
    (hx : x.handler? = some (h, h')) (hw : x.writer? = none) :
    s.Trail closable (deeds ++ [x]) h' w where
  handler := by
    rw [List.filterMap_append, List.filterMap_cons_some hx]
    exact .pass ht.handler rfl
  writer := by
    rw [List.filterMap_append, List.filterMap_cons_none hw, List.filterMap_nil, List.append_nil]
    exact ht.writer

theorem wrote (ht : s.Trail closable deeds h w) {x : Deed H K} {w' : Writer K}
    (hx : x.writer? = some (w, w')) (hh : x.handler? = none) :
    s.Trail closable (deeds ++ [x]) h w' where
  handler := by
    rw [List.filterMap_append, List.filterMap_cons_none hh, List.filterMap_nil, List.append_nil]
    exact ht.handler
  writer := by
    rw [List.filterMap_append, List.filterMap_cons_some hx]
    exact .pass ht.writer (.inl rfl)

theorem close (ht : s.Trail closable deeds h w) (hclosable : closable) :
    s.Trail closable deeds h w.close.1 :=
  ⟨ht.handler, ht.writer.trans (.inr ⟨hclosable, rfl⟩)⟩

end Setup.Trail

namespace Desk

open DispatchLoop

variable {S H K : Type}

section

variable [Service H] [MessageSink K]

/-- What the next move of the dispatch loop does for a command. -/
def deed? (d : Desk S H K) (time : Nat) (reportFirst : Bool) : Option (Deed H K) :=
  d.processor.component.latestLoop?.bind fun l =>
    match l.stage with
    | .reading i =>
      ((d.reader.takeFrom i reportFirst).2.bind Except.toOption).map fun c =>
        .handles d.processor.handler (Service.call d.processor.handler c).begun c
    | .handling _ due finish =>
      if isDue due time then
        let (handler, outcome) := finish d.processor.handler
        some (.answers d.processor.handler handler outcome)
      else none
    | .publishing _ r _ => some (.offers d.writer (d.writer.write (some r)).begun r)
    | .writing _ r _ due finish =>
      if isDue due time then
        let (writer, answer) := finish d.writer
        some (.tries d.writer writer r answer)
      else none
    | _ => none

theorem command?_deed? (d : Desk S H K) (time : Nat) (reportFirst : Bool) :
    (d.deed? time reportFirst).toList.filterMap Deed.command? = (d.next? reportFirst).toList := by
  unfold deed? next?
  cases d.processor.component.latestLoop? with
  | none => rfl
  | some l =>
      simp only [Option.bind_some]
      cases l.stage with
      | reading i =>
          dsimp only
          cases (d.reader.takeFrom i reportFirst).2.bind Except.toOption <;> rfl
      | handling c due finish =>
          dsimp only
          split <;> rfl
      | writing c r retries due finish =>
          dsimp only
          split <;> rfl
      | _ => rfl

theorem deed?_of_step {d : Desk S H K} {time : Nat} {reportFirst : Bool}
    (h : d.step time reportFirst = none) : d.deed? time reportFirst = none := by
  cases hl : d.processor.component.latestLoop? with
  | none => rw [deed?, hl, Option.bind_none]
  | some l =>
      obtain ⟨asked, hlatest⟩ := Component.exists_latest? hl
      rw [deed?, hl, Option.bind_some]
      rw [step, hlatest] at h
      cases hstage : l.stage with
      | reading i =>
          simp only [hstage] at h ⊢
          rcases htake : d.reader.takeFrom i reportFirst with ⟨reader, _ | e | c⟩
          · rfl
          · simp [htake] at h
          · simp [htake] at h
      | handling c due finish =>
          simp only [hstage] at h ⊢
          by_cases hdue : isDue due time = true
          · rw [if_pos hdue] at h
            cases h
          · rw [if_neg hdue]
      | writing c r retries due finish =>
          simp only [hstage] at h ⊢
          by_cases hdue : isDue due time = true
          · rw [if_pos hdue] at h
            cases h
          · rw [if_neg hdue]
      | publishing c r retries =>
          simp only [hstage] at h
          cases h
      | _ => rfl

end

theorem runs_setLoop {d : Desk S H K} {asked : Bool} {l l' : DispatchLoop H (Writer K)}
    (h : d.processor.component.runs = [⟨asked, l⟩]) :
    (d.setLoop l').processor.component.runs = [⟨asked, l'⟩] := by
  simp [setLoop, Processor.setLoop, Component.setLatest, h]

variable [Service H] [MessageSink K] [AtomicSink K]

/-- A desk whose dispatch loop has done these deeds since the pipeline was set up. -/
structure Dealt (s : Setup H K) (closable : Prop) (deeds : List (Deed H K)) (d : Desk S H K)
    (l : DispatchLoop H (Writer K)) : Prop where
  runs : d.processor.component.runs = [⟨false, l⟩]
  retry : d.processor.retry = s.config.retry
  labelled : d.writer.Labelled s.config
  trail : s.Trail closable deeds d.processor.handler d.writer
  docket : ∃ dealings rest, Docket s.config (AtomicSink.taken s.sink)
    (AtomicSink.taken d.writer.sink) deeds l dealings rest

/-- A move takes something out of the inbox, or it leaves less to do before the loop reads again. -/
inductive Spends (n : Nat) (d d' : Desk S H K) (reportFirst : Bool)
    (l l' : DispatchLoop H (Writer K)) : Prop
  | works (hnext : d.next? reportFirst = none) (hreader : d'.reader = d.reader)
      (heffort : l'.stage.effort n < l.stage.effort n)
  | takes (c : Command) (hnext : d.next? reportFirst = some c)
      (htake : d.reader.takeFrom 0 reportFirst = (d'.reader, some (.ok c)))
      (heffort : l'.stage.effort n = 3 * n + 4)
  | reports (e : ReadError) (hnext : d.next? reportFirst = none)
      (htake : d.reader.takeFrom 0 reportFirst = (d'.reader, some (.error e)))
      (heffort : l'.stage.effort n = 1)

variable {s : Setup H K} {closable : Prop} {deeds : List (Deed H K)} {d d' : Desk S H K}
  {l l' : DispatchLoop H (Writer K)} {time : Nat} {reportFirst : Bool}

theorem Dealt.latest? (h : d.Dealt s closable deeds l) :
    d.processor.component.latest? = some ⟨false, l⟩ := by
  rw [Component.latest?, h.runs]
  rfl

theorem Dealt.latestLoop? (h : d.Dealt s closable deeds l) :
    d.processor.component.latestLoop? = some l :=
  Component.latestLoop?_of_latest? h.latest?

theorem Dealt.stay (h : d.Dealt s closable deeds l) (reader : Reader S) (l' : DispatchLoop H (Writer K))
    {dealings : List (Dealing H K)} {rest : List (Deed H K)}
    (hdocket : Docket s.config (AtomicSink.taken s.sink) (AtomicSink.taken d.writer.sink) deeds l
      dealings rest)
    (hunderway : Underway s.config l'.stage rest) (hdropped : l'.dropped = l.dropped) :
    ({ d with reader }.setLoop l').Dealt s closable deeds l' where
  runs := runs_setLoop h.runs
  retry := h.retry
  labelled := h.labelled
  trail := h.trail
  docket := ⟨dealings, rest, hdocket.stay hunderway hdropped⟩

theorem Dealt.handle (h : d.Dealt s closable deeds l) {i : Nat} (hstage : l.stage = .reading i)
    {reader : Reader S} {c : Command}
    (htake : d.reader.takeFrom i reportFirst = (reader, some (.ok c)))
    (hnext : d.next? reportFirst = some c) :
    ∃ l', ({ d with reader }.handle time l c).Dealt s closable
        (deeds ++ [Deed.handles d.processor.handler (Service.call d.processor.handler c).begun c]) l' ∧
      d.Spends s.config.retry.attempts ({ d with reader }.handle time l c) reportFirst l l' := by
  obtain ⟨dealings, rest, hdocket⟩ := h.docket
  have hunderway := hdocket.underway
  rw [hstage] at hunderway
  cases hunderway
  refine ⟨_, ⟨runs_setLoop h.runs, h.retry, h.labelled, h.trail.handled rfl rfl, dealings, _,
    hdocket.goOn _ (.handling d.processor.handler c fun hprompt => ?_) rfl⟩, .takes c hnext htake rfl⟩
  rw [Option.isSome_map]
  exact hprompt _ c

theorem Dealt.handled (h : d.Dealt s closable deeds l) {c : Command} {due : Option Nat}
    {finish : H → H × Outcome} (hstage : l.stage = .handling c due finish)
    (hnext : d.next? reportFirst = none) {handler : H} {o : Outcome}
    (hfinish : (handler, o) = finish d.processor.handler) :
    ∃ l', ({ d with processor := { d.processor with handler } }.setLoop (l.handled c o)).Dealt s
        closable (deeds ++ [Deed.answers d.processor.handler handler o]) l' ∧
      d.Spends s.config.retry.attempts
        ({ d with processor := { d.processor with handler } }.setLoop (l.handled c o)) reportFirst
        l l' := by
  obtain ⟨dealings, rest, hdocket⟩ := h.docket
  have hunderway := hdocket.underway
  rw [hstage] at hunderway
  cases hunderway with
  | handling asked =>
    obtain ⟨hhandled, heffort⟩ := Docket.handled
      (x := ⟨asked, (Service.call asked c).begun, d.processor.handler, handler, o⟩)
      hdocket hstage ⟨rfl, hfinish⟩
    exact ⟨_, ⟨runs_setLoop h.runs, h.retry, h.labelled, h.trail.handled rfl rfl, hhandled⟩,
      .works hnext rfl heffort⟩

theorem Dealt.publish (h : d.Dealt s closable deeds l) {c : Command} {r : Result} {retries : Nat}
    (hstage : l.stage = .publishing c r retries) (hnext : d.next? reportFirst = none) :
    ∃ l', (d.publish time l c r retries).Dealt s closable
        (deeds ++ [Deed.offers d.writer (d.writer.write (some r)).begun r]) l' ∧
      d.Spends s.config.retry.attempts (d.publish time l c r retries) reportFirst l l' := by
  obtain ⟨dealings, rest, hdocket⟩ := h.docket
  have hunderway := hdocket.underway
  rw [hstage] at hunderway
  cases hunderway with
  | @publishing _ x _ tries hpursuit =>
    have hoffer := h.labelled.write r
    obtain ⟨hdue, htaken⟩ := s.config.taken_begun d.writer r
    have hdropped : (if d.writer.closed then l else l.note (.writing time)).dropped = l.dropped := by
      split <;> rfl
    refine ⟨_, ⟨runs_setLoop h.runs, h.retry, ?_, h.trail.wrote rfl rfl, dealings,
      pursued c x r tries ++ [Deed.offers d.writer (d.writer.write (some r)).begun r], ?_⟩,
      .works hnext rfl ?_⟩
    · change (d.writer.write (some r)).begun.Labelled s.config
      rw [hoffer]
      exact h.labelled.begun r
    · change Docket s.config _ (AtomicSink.taken (d.writer.write (some r)).begun.sink) _ _ _ _
      rw [hoffer, htaken]
      refine hdocket.goOn _ (.writing hpursuit d.writer ?_) hdropped
      rw [Option.isSome_map]
      exact hdue
    · rw [hstage]
      simp only [DispatchStage.effort]
      omega

theorem Dealt.wrote (h : d.Dealt s closable deeds l) {c : Command} {r : Result} {retries : Nat}
    {due : Option Nat} {finish : Writer K → Writer K × Except WriteError Unit}
    (hstage : l.stage = .writing c r retries due finish) (hnext : d.next? reportFirst = none)
    {writer : Writer K} {a : Except WriteError Unit} (hfinish : (writer, a) = finish d.writer) :
    ∃ l', ({ d with writer }.setLoop (l.written d.processor.retry time c r retries a)).Dealt s
        closable (deeds ++ [Deed.tries d.writer writer r a]) l' ∧
      d.Spends s.config.retry.attempts
        ({ d with writer }.setLoop (l.written d.processor.retry time c r retries a)) reportFirst
        l l' := by
  obtain ⟨dealings, rest, hdocket⟩ := h.docket
  have hunderway := hdocket.underway
  rw [hstage] at hunderway
  cases hunderway with
  | @writing _ x _ tries hpursuit asked _ hsome =>
    have hlabelled := h.labelled.finish asked r
    have htaken := s.config.taken_finish asked d.writer r
    rw [← hfinish] at hlabelled htaken
    obtain ⟨hanswered, heffort⟩ := Docket.answered
      (t := ⟨asked, (s.config.offer asked r).begun, d.writer, writer, a⟩)
      hdocket hstage hpursuit ⟨rfl, hfinish⟩ time
    rw [← htaken, ← h.retry] at hanswered
    rw [← h.retry] at heffort ⊢
    exact ⟨_, ⟨runs_setLoop h.runs, h.retry, hlabelled, h.trail.wrote rfl rfl, hanswered⟩,
      .works hnext rfl heffort⟩

/-- A move of a loop that reads from an open inbox. -/
theorem Dealt.step (h : d.Dealt s closable deeds l) (hchannels : d.reader.channels = some 0)
    (hanswers : ∀ reader e, d.reader.takeFrom 0 reportFirst = (reader, some (.error e)) →
      reported? (.error e) = some e)
    (hd : d.step time reportFirst = some d') :
    ∃ l', d'.Dealt s closable (deeds ++ (d.deed? time reportFirst).toList) l' ∧
      d.Spends s.config.retry.attempts d' reportFirst l l' := by
  obtain ⟨dealings, rest, hdocket⟩ := h.docket
  have hunderway := hdocket.underway
  have hmove := move_of_step h.latestLoop? hd
  have hdeed : d.deed? time reportFirst = _ :=
    congrArg (Option.bind · _) h.latestLoop?
  rw [hdeed, Option.bind_some]
  generalize hnext : d.next? reportFirst = command? at hmove
  cases hmove with
  | shut hstage hnone =>
      rw [hchannels] at hnone
      cases hnone
  | opened i hstage hsome =>
      rw [hchannels] at hsome
      cases hsome
      rw [hstage] at hunderway ⊢
      cases hunderway
      simp only [Option.toList_none, List.append_nil]
      refine ⟨_, h.stay d.reader _ hdocket .reading rfl, .works hnext rfl ?_⟩
      rw [hstage]
      exact Nat.zero_lt_one
  | command i reader c hstage htake =>
      rw [hstage] at hunderway ⊢
      cases hunderway
      simp only [htake, Option.bind_some, Except.toOption, Option.map_some, Option.toList_some]
      exact h.handle hstage htake hnext
  | report i reader e hstage htake =>
      rw [hstage] at hunderway ⊢
      cases hunderway
      have hfailed := l.readFailed_of_reported d.processor.idleBackoff time (hanswers reader e htake)
      simp only [htake, Option.bind_some, Except.toOption, Option.map_none, Option.toList_none,
        List.append_nil]
      refine ⟨_, h.stay reader _ hdocket ?_ hfailed.2, .reports e hnext htake ?_⟩
      · rw [hfailed.1]
        exact .next
      · rw [hfailed.1]
        rfl
  | rested due hstage hdue =>
      rw [hstage] at hunderway
      cases hunderway
  | answered c due finish hstage hdue =>
      rw [hstage]
      simp only [hdue, if_true, Option.toList_some]
      exact h.handled hstage hnext rfl
  | publishes c r retries hstage =>
      rw [hstage]
      simp only [Option.toList_some]
      exact h.publish hstage hnext
  | wrote c r retries due finish hstage hdue =>
      rw [hstage]
      simp only [hdue, if_true, Option.toList_some]
      exact h.wrote hstage hnext rfl
  | paused c r retries due hstage hdue =>
      rw [hstage] at hunderway ⊢
      cases hunderway with
      | pausing hpursuit =>
        simp only [Option.toList_none, List.append_nil]
        refine ⟨_, h.stay d.reader _ hdocket (.publishing hpursuit) rfl, .works hnext rfl ?_⟩
        rw [hstage]
        simp only [DispatchStage.effort]
        omega

end Desk

end CourierDispatch
