import CourierDispatch.Proofs.Reader.ConsumeLoop

/-!
# Consuming a script

A script is a source that gives its messages and errors one after the other. What a consume loop has
taken from it and nobody has read yet is in the inbox, or it is the command that the loop waits to put
there. A loop that ends gives up the latter, and nothing else.
-/

namespace CourierDispatch

/-- A source of messages and errors, in this order. -/
structure Script where
  rest : List (Except BrokerError Message)

namespace Script

def poll (s : Script) : Script × Option (Except BrokerError Message) :=
  match s.rest with
  | [] => (s, none)
  | x :: rest => (⟨rest⟩, some x)

instance : MessageSource Script := ⟨poll⟩

end Script

theorem Inbox.toList_command_take (i : Inbox) (reportFirst : Bool) :
    i.command.toList =
      ((i.take reportFirst).2.bind Except.toOption).toList ++
        (i.take reportFirst).1.command.toList := by
  rcases i with ⟨command, report, isOpen⟩
  cases command <;> cases report <;> cases isOpen <;> cases reportFirst <;> rfl

namespace ConsumeLoop

variable {format : WireFormat} {backoff : Backoff} {time : Nat} {l l' : ConsumeLoop} {s s' : Script}

/-- The command that a source has given, with the context from its headers, if it is one. -/
def command? (format : WireFormat) : Except BrokerError Message → Option Command
  | .ok m => m.letter.command? format
  | .error _ => none

def blocked (l : ConsumeLoop) : Option Command :=
  match l.stage with
  | .sending c => some c
  | _ => none

def hasExited (l : ConsumeLoop) : Bool :=
  match l.stage with
  | .exited => true
  | _ => false

def heard (l : ConsumeLoop) (s : Script) : List (Except BrokerError Message) :=
  match l.stage with
  | .reading => s.rest.take 1
  | _ => []

theorem rest_step (l : ConsumeLoop) (s : Script) (format : WireFormat) (backoff : Backoff)
    (time : Nat) : l.heard s ++ (l.step format backoff time s).1.rest = s.rest := by
  unfold heard step
  split
  next hstage =>
    rw [hstage]
    rcases s with ⟨rest⟩
    cases rest <;> rfl
  next hstage =>
    split
    next => rfl
    next h => exact absurd h hstage
    next => rfl
    next => rfl

/-- The commands on their way to a reader. -/
def underway (l : ConsumeLoop) : List Command := l.inbox.command.toList ++ l.blocked.toList

theorem receive_error (format : WireFormat) (backoff : Backoff) (time : Nat) (l : ConsumeLoop)
    (e : BrokerError) :
    (∃ due, (l.receive format backoff time (.error e)).stage = .waiting due) ∧
      (l.receive format backoff time (.error e)).inbox.command = l.inbox.command := by
  refine ⟨⟨_, rfl⟩, ?_⟩
  simp only [receive]
  rw [inbox_report]
  rfl

/-- A command that the source gives waits for room; nothing else changes what is on its way. -/
theorem underway_receive (format : WireFormat) (backoff : Backoff) (time : Nat)
    (hl : l.stage = .reading) (x : Except BrokerError Message) :
    (l.receive format backoff time x).underway = l.underway ++ (command? format x).toList := by
  have hblocked : l.blocked = none := by rw [blocked, hl]
  cases x with
  | error e =>
      obtain ⟨⟨due, hstage⟩, hcommand⟩ := receive_error format backoff time l e
      simp [underway, blocked, hstage, hcommand, hl, command?]
  | ok m =>
      cases hm : decode format m with
      | error e =>
          obtain ⟨hstage, hinbox⟩ := receive_of_decode_error hm backoff time l
          simp [underway, blocked, hstage, hinbox, hl, command?, command?_of_decode_error hm]
      | ok c =>
          rw [receive_of_decode_ok hm]
          simp [underway, blocked, hl, command?, command?_of_decode_ok hm]

theorem hasExited_receive (format : WireFormat) (backoff : Backoff) (time : Nat)
    (l : ConsumeLoop) (x : Except BrokerError Message) :
    (l.receive format backoff time x).hasExited = false := by
  cases x with
  | error e => rfl
  | ok m =>
      cases hm : decode format m with
      | error e => rw [hasExited, (receive_of_decode_error hm backoff time l).1]
      | ok c =>
          rw [receive_of_decode_ok hm]
          rfl

section

variable {S : Type} [MessageSource S]

def hears (l : ConsumeLoop) (s : S) : List (Except BrokerError Message) :=
  match l.stage with
  | .reading => (MessageSource.poll s).2.toList
  | _ => []

theorem underway_step (format : WireFormat) (backoff : Backoff) (time : Nat) (s : S)
    (l : ConsumeLoop) :
    ((l.step format backoff time s).2.getD l).underway =
      l.underway ++ (l.hears s).filterMap (command? format) := by
  unfold step
  split
  next hstage => simp [hears, hstage]
  next hstage =>
    rw [hears, hstage]
    rcases MessageSource.poll s with ⟨source, answer⟩
    cases answer with
    | none => simp
    | some x =>
        simp only [Option.map_some, Option.getD_some, Option.toList_some, List.filterMap_cons]
        rw [underway_receive format backoff time hstage]
        cases command? format x <;> rfl
  next due hstage =>
    have hhears : l.hears s = [] := by rw [hears, hstage]
    rw [hhears, List.filterMap_nil, List.append_nil]
    simp only
    split
    next => simp [underway, blocked, hstage, ask, note]
    next => rfl
  next c hstage =>
    have hhears : l.hears s = [] := by rw [hears, hstage]
    rw [hhears, List.filterMap_nil, List.append_nil]
    simp only [Inbox.send?]
    cases hcommand : l.inbox.command <;> simp [underway, blocked, hstage, hcommand, ask, note]

theorem hasExited_step (format : WireFormat) (backoff : Backoff) (time : Nat) (s : S)
    (l : ConsumeLoop) : ((l.step format backoff time s).2.getD l).hasExited = l.hasExited := by
  unfold step
  split
  next => rfl
  next hstage =>
    have hl : l.hasExited = false := by rw [hasExited, hstage]
    rcases MessageSource.poll s with ⟨source, answer⟩
    cases answer with
    | none => rfl
    | some x => exact (hasExited_receive format backoff time l x).trans hl.symm
  next due hstage =>
    simp only
    split
    next => rw [hasExited, hasExited, hstage]; rfl
    next => rfl
  next c hstage =>
    simp only
    cases l.inbox.send? c with
    | none => rfl
    | some inbox => rw [hasExited, hasExited, hstage]; rfl

end

def moved (format : WireFormat) (backoff : Backoff) (time : Nat) (s : Script) (l : ConsumeLoop) :
    ConsumeLoop :=
  (l.step format backoff time s).2.getD l

theorem heard_eq_hears (l : ConsumeLoop) (s : Script) : l.heard s = l.hears s := by
  unfold heard hears
  split
  next =>
    rcases s with ⟨rest⟩
    cases rest <;> rfl
  next => rfl

theorem hasExited_moved (format : WireFormat) (backoff : Backoff) (time : Nat) (s : Script)
    (l : ConsumeLoop) : (l.moved format backoff time s).hasExited = l.hasExited :=
  hasExited_step format backoff time s l

/-- The commands that a loop has taken from its source have been delivered or wait in the inbox, or they
are what the loop waits to put there. A loop that has ended has lost the latter. -/
def Accounted (l : ConsumeLoop) (commands delivered : List Command) : Prop :=
  ∃ last : Option Command,
    commands = delivered ++ l.inbox.command.toList ++ last.toList ∧
      (l.hasExited = false → last = l.blocked)

variable {commands delivered : List Command}

theorem accounted_begin (time : Nat) : (begin time).Accounted [] [] := ⟨none, rfl, fun _ => rfl⟩

theorem Accounted.eq_of_hasExited (h : l.Accounted commands delivered) (hl : l.hasExited = false) :
    commands = delivered ++ l.underway := by
  obtain ⟨last, hcommands, hlast⟩ := h
  rw [hcommands, hlast hl, underway, List.append_assoc]

theorem accounted_of_eq (h : commands = delivered ++ l.underway) : l.Accounted commands delivered :=
  ⟨l.blocked, by rw [h, underway, List.append_assoc], fun _ => rfl⟩

theorem Accounted.length_le (h : l.Accounted commands delivered) :
    commands.length ≤ delivered.length + 2 := by
  obtain ⟨last, hcommands, -⟩ := h
  have hone (c : Option Command) : c.toList.length ≤ 1 := by cases c <;> simp
  have hcommand := hone l.inbox.command
  have hlast := hone last
  rw [hcommands, List.length_append, List.length_append]
  omega

theorem Accounted.prefix (h : l.Accounted commands delivered) : delivered <+: commands := by
  obtain ⟨last, hcommands, -⟩ := h
  rw [hcommands, List.append_assoc]
  exact List.prefix_append _ _

theorem Accounted.step {S : Type} [MessageSource S] (h : l.Accounted commands delivered)
    (format : WireFormat) (backoff : Backoff) (time : Nat) (s : S) :
    ((l.step format backoff time s).2.getD l).Accounted
      (commands ++ (l.hears s).filterMap (command? format)) delivered := by
  cases hl : l.hasExited with
  | false =>
      refine accounted_of_eq ?_
      rw [h.eq_of_hasExited hl, underway_step, List.append_assoc]
  | true =>
      have hstage : l.stage = .exited := by
        unfold hasExited at hl
        split at hl
        next hstage => exact hstage
        next => cases hl
      have hstep : (l.step format backoff time s).2.getD l = l := by
        simp [ConsumeLoop.step, hstage]
      have hhears : l.hears s = [] := by rw [hears, hstage]
      rw [hstep, hhears, List.filterMap_nil, List.append_nil]
      exact h

theorem Accounted.moved (h : l.Accounted commands delivered) (format : WireFormat)
    (backoff : Backoff) (time : Nat) (s : Script) :
    (l.moved format backoff time s).Accounted (commands ++ (l.heard s).filterMap (command? format))
      delivered := by
  rw [heard_eq_hears]
  exact h.step format backoff time s

theorem Accounted.exit (h : l.Accounted commands delivered) : l.exit.Accounted commands delivered := by
  obtain ⟨last, hcommands, -⟩ := h
  exact ⟨last, hcommands, nofun⟩

theorem Accounted.take (h : l.Accounted commands delivered) (reportFirst : Bool) :
    Accounted { l with inbox := (l.inbox.take reportFirst).1 } commands
      (delivered ++ ((l.inbox.take reportFirst).2.bind Except.toOption).toList) := by
  obtain ⟨last, hcommands, hlast⟩ := h
  refine ⟨last, ?_, hlast⟩
  rw [hcommands, l.inbox.toList_command_take reportFirst, ← List.append_assoc delivered]

end ConsumeLoop

end CourierDispatch
