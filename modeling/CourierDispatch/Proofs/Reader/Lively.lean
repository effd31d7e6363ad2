import CourierDispatch.Proofs.Broker.MemoryTopic
import CourierDispatch.Proofs.Reader.Reports

/-!
# A reader that goes on

A reader of an open topic that is neither stopped nor cancelled goes on reading. Each move of its loop,
and each command or report that is taken out of its inbox, leaves less to do.
-/

namespace CourierDispatch

namespace ConsumeLoop

/-- A loop that has not been asked to end, over a source that does not fail. -/
structure Lively (l : ConsumeLoop) : Prop where
  isOpen : l.inbox.isOpen = true
  stage : l.stage = .reading ∨ ∃ c, l.stage = .sending c
  report : ∀ e, l.inbox.report = some e → reported? (.error e) = some e

/-- What a loop and its source have for a dispatch loop that may try `n` times more than once. A command
weighs more than the moves that it may cost. -/
def burden (n : Nat) (t : MemoryTopic) (l : ConsumeLoop) : Nat :=
  (3 * n + 8) * t.queue.length + (3 * n + 6) * l.blocked.toList.length +
    (3 * n + 5) * l.inbox.command.toList.length + 2 * l.inbox.report.toList.length

variable {t : MemoryTopic} {l : ConsumeLoop} {format : WireFormat} {backoff : Backoff} {time : Nat}

/-- A loop that cannot move has nothing to read, or there is a command in its inbox. -/
def Waits (t : MemoryTopic) (l : ConsumeLoop) : Prop :=
  l.stage = .reading ∧ t.queue = [] ∨ l.inbox.command.isSome

theorem Lively.receive (h : l.Lively) (hstage : l.stage = .reading) (n : Nat) {m : Message}
    {rest : List Message} (hqueue : t.queue = m :: rest) (format : WireFormat) (backoff : Backoff)
    (time : Nat) :
    (l.receive format backoff time (.ok m)).Lively ∧
      burden n { t with queue := rest } (l.receive format backoff time (.ok m)) < burden n t l := by
  have hblocked : l.blocked = none := by rw [blocked, hstage]
  cases hm : decode format m with
  | ok c =>
      rw [receive_of_decode_ok hm]
      refine ⟨⟨h.isOpen, .inr ⟨c, rfl⟩, h.report⟩, ?_⟩
      simp only [burden, blocked, hqueue, hstage, List.length_cons, Option.toList_some,
        Option.toList_none, List.length_nil, Nat.mul_add, Nat.mul_one]
      omega
  | error e =>
      obtain ⟨hreading, hinbox⟩ := receive_of_decode_error hm backoff time l
      have hreported : reported? (.error (.decode m.partition m.offset e)) =
          some (.decode m.partition m.offset e) := rfl
      refine ⟨⟨?_, .inl hreading, ?_⟩, ?_⟩
      · rw [hinbox]
        exact h.isOpen
      · intro e' he'
        rw [hinbox] at he'
        cases hreport : l.inbox.report with
        | none =>
            rw [hreport] at he'
            cases he'
            exact hreported
        | some e'' =>
            rw [hreport] at he'
            cases he'
            exact h.report e'' hreport
      · have hnone : (l.receive format backoff time (.ok m)).blocked = none := by
          rw [blocked, hreading]
        have hone : ∀ o : Option ReadError, o.toList.length ≤ 1 := by
          intro o
          cases o <;> simp
        have hreport := hone (l.receive format backoff time (.ok m)).inbox.report
        simp only [burden, hblocked, hnone, hqueue, hinbox, List.length_cons, Nat.mul_add,
          Nat.mul_one] at hreport ⊢
        omega

/-- A move of the loop leaves less to do, unless the loop cannot move. -/
theorem Lively.step (h : l.Lively) (ht : t.closed = false) (n : Nat) (format : WireFormat)
    (backoff : Backoff) (time : Nat) :
    (l.step format backoff time t).1.closed = false ∧
      ((l.step format backoff time t).2.getD l).Lively ∧
      (burden n (l.step format backoff time t).1 ((l.step format backoff time t).2.getD l) <
          burden n t l ∨
        l.step format backoff time t = (t, none) ∧ l.Waits t) := by
  rcases h.stage with hstage | ⟨c, hstage⟩
  · cases hqueue : t.queue with
    | nil =>
        have hmove : l.step format backoff time t = (t, none) := by
          simp only [ConsumeLoop.step, hstage, MessageSource.poll]
          rw [MemoryTopic.poll_nil ht hqueue]
          rfl
        rw [hmove]
        exact ⟨ht, h, .inr ⟨rfl, .inl ⟨hstage, hqueue⟩⟩⟩
    | cons m rest =>
        have hmove : l.step format backoff time t =
            ({ t with queue := rest }, some (l.receive format backoff time (.ok m))) := by
          simp only [ConsumeLoop.step, hstage, MessageSource.poll]
          rw [MemoryTopic.poll_cons ht hqueue]
          rfl
        obtain ⟨hlively, hless⟩ := h.receive hstage n hqueue format backoff time
        rw [hmove]
        exact ⟨ht, hlively, .inl hless⟩
  · cases hcommand : l.inbox.command with
    | some c' =>
        have hmove : l.step format backoff time t = (t, none) := by
          simp [ConsumeLoop.step, hstage, Inbox.send?, hcommand]
        rw [hmove]
        exact ⟨ht, h, .inr ⟨rfl, .inr (by rw [hcommand]; rfl)⟩⟩
    | none =>
        have hmove : l.step format backoff time t =
            (t, some ({ l with inbox := { l.inbox with command := some c } }.ask time)) := by
          simp [ConsumeLoop.step, hstage, Inbox.send?, hcommand]
        rw [hmove]
        refine ⟨ht, ⟨h.isOpen, .inl rfl, h.report⟩, .inl ?_⟩
        simp only [burden, blocked, ask, note, hstage, hcommand, Option.getD_some,
          Option.toList_some, Option.toList_none, List.length_cons, List.length_nil]
        omega

theorem Lively.take (h : l.Lively) (n : Nat) (t : MemoryTopic) (reportFirst : Bool) :
    Lively { l with inbox := (l.inbox.take reportFirst).1 } ∧
      match (l.inbox.take reportFirst).2 with
      | some (.ok _) =>
        burden n t { l with inbox := (l.inbox.take reportFirst).1 } + (3 * n + 5) = burden n t l
      | some (.error e) => reported? (.error e) = some e ∧
        burden n t { l with inbox := (l.inbox.take reportFirst).1 } + 2 = burden n t l
      | none => l.inbox.command = none := by
  rcases Inbox.take_cases h.isOpen reportFirst with
    ⟨c, hcommand, htake⟩ | ⟨e, hreport, htake⟩ | ⟨hcommand, -, htake⟩ <;> rw [htake]
  · refine ⟨⟨h.isOpen, h.stage, h.report⟩, ?_⟩
    simp only [burden, blocked, hcommand, Option.toList_some, Option.toList_none, List.length_cons,
      List.length_nil]
    omega
  · refine ⟨⟨h.isOpen, h.stage, fun e' he' => by cases he'⟩, h.report e hreport, ?_⟩
    simp only [burden, blocked, hreport, Option.toList_some, Option.toList_none, List.length_cons,
      List.length_nil]
  · exact ⟨h, hcommand⟩

end ConsumeLoop

namespace Reader

/-- A reader of an open topic that has been started once and goes on. -/
structure Up (r : Reader MemoryTopic) (l : ConsumeLoop) : Prop where
  channels : r.channels = some 0
  source : r.source.closed = false
  runs : r.component.runs = [⟨false, l⟩]
  lively : l.Lively

variable {r : Reader MemoryTopic} {l : ConsumeLoop}

theorem Up.latest? (h : r.Up l) : r.component.latest? = some ⟨false, l⟩ := by
  rw [Component.latest?, h.runs]
  rfl

theorem Up.loops (h : r.Up l) : r.component.loops = [l] := by
  rw [Component.loops, h.runs]
  rfl

theorem Up.exit (h : r.Up l) : r.exit = none := by
  rw [Reader.exit, h.latest?]

theorem Up.step (h : r.Up l) (n time : Nat) :
    ∃ l', (r.step time).1.Up l' ∧
      (l'.burden n (r.step time).1.source < l.burden n r.source ∨ l.Waits r.source) := by
  obtain ⟨hsource, hlively, hless⟩ := h.lively.step h.source n r.format r.backoff time
  have hlast : r.component.runs.length - 1 = 0 := by rw [h.runs]; rfl
  rw [step_of_latest? h.latest? time, hlast]
  refine ⟨_, ⟨h.channels, hsource, ?_, hlively⟩, hless.imp_right And.right⟩
  simp [Component.setLoop, h.runs]

theorem Up.take (h : r.Up l) (reportFirst : Bool) :
    (r.takeFrom 0 reportFirst).1.Up { l with inbox := (l.inbox.take reportFirst).1 } ∧
      (r.takeFrom 0 reportFirst).1.source = r.source ∧
      (r.takeFrom 0 reportFirst).2 = (l.inbox.take reportFirst).2 := by
  rw [takeFrom_of_loops (i := 0) (by rw [h.loops]; rfl)]
  refine ⟨⟨h.channels, h.source, ?_, (h.lively.take 0 r.source reportFirst).1⟩, rfl, rfl⟩
  simp [Component.setLoop, h.runs]

end Reader

end CourierDispatch
