import CourierDispatch.Proofs.Ledger
import CourierDispatch.Reader.ConsumeLoop

/-!
# What a consume loop makes of a message

A message that holds a command is kept until there is room for the command. Any other message is
reported, if there is room for the report, and leaves the commands alone.
-/

namespace CourierDispatch

def Message.letter (m : Message) : Letter := ⟨m.value, m.headers⟩

theorem Inbox.take_cases {i : Inbox} (h : i.isOpen = true) (reportFirst : Bool) :
    (∃ c, i.command = some c ∧
      i.take reportFirst = ({ i with command := none }, some (.ok c))) ∨
    (∃ e, i.report = some e ∧
      i.take reportFirst = ({ i with report := none }, some (.error e))) ∨
    (i.command = none ∧ i.report = none ∧ i.take reportFirst = (i, none)) := by
  rcases i with ⟨command, report, isOpen⟩
  cases h
  cases command with
  | none =>
      cases report with
      | none => exact .inr (.inr ⟨rfl, rfl, rfl⟩)
      | some e => exact .inr (.inl ⟨e, rfl, rfl⟩)
  | some c =>
      cases report with
      | none => exact .inl ⟨c, rfl, rfl⟩
      | some e =>
          cases reportFirst with
          | true => exact .inr (.inl ⟨e, rfl, rfl⟩)
          | false => exact .inl ⟨c, rfl, rfl⟩

namespace ConsumeLoop

variable {format : WireFormat} {m : Message}

theorem command?_of_decode_ok {c : Command} (h : decode format m = .ok c) :
    m.letter.command? format = some c := by
  unfold decode at h
  unfold Letter.command? Message.letter
  cases hd : Command.decode format m.value with
  | error e => simp [hd, Except.map] at h
  | ok c' => simpa [hd, Except.map] using h

theorem command?_of_decode_error {e : CodecError} (h : decode format m = .error e) :
    m.letter.command? format = none := by
  unfold decode at h
  unfold Letter.command? Message.letter
  cases hd : Command.decode format m.value with
  | error e' => rfl
  | ok c => simp [hd, Except.map] at h

theorem inbox_report (l : ConsumeLoop) (e : ReadError) :
    (l.report e).inbox = { l.inbox with report := some (l.inbox.report.getD e) } := by
  rcases l with ⟨stage, failures, ⟨command, report, isOpen⟩, dropped, notices⟩
  cases report <;> rfl

theorem receive_of_decode_ok {c : Command} (h : decode format m = .ok c) (backoff : Backoff)
    (time : Nat) (l : ConsumeLoop) :
    l.receive format backoff time (.ok m) = { l with failures := 0, stage := .sending c } := by
  simp only [receive, h]

theorem receive_of_decode_error {e : CodecError} (h : decode format m = .error e)
    (backoff : Backoff) (time : Nat) (l : ConsumeLoop) :
    (l.receive format backoff time (.ok m)).stage = .reading ∧
      (l.receive format backoff time (.ok m)).inbox =
        { l.inbox with
          report := some (l.inbox.report.getD (.decode m.partition m.offset e)) } := by
  simp only [receive, h]
  exact ⟨rfl, inbox_report _ _⟩

end ConsumeLoop

end CourierDispatch
