import CourierDispatch.Proofs.Component.Callers
import CourierDispatch.Proofs.Reader.RunLog
import CourierDispatch.Proofs.Reader.Script
import CourierDispatch.Reader

/-!
# A reader and those who use it

A reader consumes a script while callers start and stop it, and one of them reads from it, one read after
the other. A read waits at the inbox of the run that was activated when the read began, until it gets
something out of it or is given up. `Readership.step` lets one of them take a step, and puts down what
each run has consumed and what has been delivered from it.
-/

namespace CourierDispatch

instance : Loop ConsumeLoop Unit where
  ending? l := if l.hasExited then some (.value ()) else none

theorem ConsumeLoop.isSome_ending? (l : ConsumeLoop) :
    (Loop.ending? l).isSome = l.hasExited := by
  change (if l.hasExited then some (Ending.value ()) else none).isSome = _
  cases l.hasExited <;> rfl

theorem Reader.step_of_latest? {S : Type} [MessageSource S] {r : Reader S} {run : Run ConsumeLoop}
    (h : r.component.latest? = some run) (time : Nat) :
    (r.step time).1 =
      { r with
        source := (run.loop.step r.format r.backoff time r.source).1
        component :=
          r.component.setLoop (r.component.runs.length - 1)
            ((run.loop.step r.format r.backoff time r.source).2.getD run.loop) } := by
  have hsame := Component.setLoop_self (Component.getElem?_loops_of_latest? h)
  rw [step, h]
  dsimp only
  rcases run.loop.step r.format r.backoff time r.source with ⟨source, loop⟩
  cases loop with
  | none => simp [hsame]
  | some loop => rfl

theorem Reader.takeFrom_of_loops {S : Type} {r : Reader S} {i : Nat} {l : ConsumeLoop}
    (h : r.component.loops[i]? = some l) (reportFirst : Bool) :
    r.takeFrom i reportFirst =
      ({ r with
          component := r.component.setLoop i { l with inbox := (l.inbox.take reportFirst).1 } },
        (l.inbox.take reportFirst).2) := by
  have hloop : r.loop? i = some l := by
    rw [loop?, ← List.getElem?_map]
    exact h
  have hset := Component.setLoop_eq_modify h fun l' =>
    { l' with inbox := (l.inbox.take reportFirst).1 }
  rw [takeFrom, hloop, hset]

/-- A start adds a run with an inbox of its own, and changes nothing else. -/
theorem Reader.of_start {S : Type} {r r' : Reader S} {time : Nat} {asked : Bool}
    (h : r.start time asked = .ok r') (stops joined : List Nat) :
    Callers.start ⟨r.component, stops, joined⟩ ⟨asked, .begin time⟩ =
        .ok ⟨r'.component, stops, joined⟩ ∧
      r'.component.control = ⟨.running, some r.component.runs.length⟩ ∧
      r'.component.loops = r.component.loops ++ [.begin time] ∧
      r' = { r with component := r'.component, channels := some r.component.runs.length } := by
  unfold Reader.start at h
  cases hcontrol : r.component.control.start? r.component.runs.length with
  | none =>
      rw [Component.start, hcontrol] at h
      cases h
  | some control =>
      have hstart : r.component.start ⟨asked, .begin time⟩ =
          .ok { r.component with control, runs := r.component.runs ++ [⟨asked, .begin time⟩] } := by
        rw [Component.start, hcontrol]
      have hrunning : control = ⟨.running, some r.component.runs.length⟩ := by
        unfold Lifecycle.start? at hcontrol
        split at hcontrol <;> cases hcontrol
        rfl
      rw [hstart] at h
      cases h
      refine ⟨?_, hrunning, Component.loops_append _ _ _, rfl⟩
      rw [Callers.start, hstart]
      rfl

/-- A stop that claims a run takes the inbox away, and changes no loop. -/
theorem Reader.of_claim {S : Type} {r r' : Reader S} {i : Nat} (h : r.claim = .ok (i, r'))
    (stops joined : List Nat) :
    Callers.stop ⟨r.component, stops, joined⟩ = .ok ⟨r'.component, i :: stops, joined⟩ ∧
      r.component.control.held = some i ∧ r'.component.control = ⟨.stopping, none⟩ ∧
      r'.component.loops = r.component.loops ∧
      r' = { r with component := r'.component, channels := none } := by
  unfold Reader.claim at h
  cases hcontrol : r.component.control.claim? with
  | none =>
      rw [Component.claim, hcontrol] at h
      cases h
  | some claimed =>
      obtain ⟨j, control⟩ := claimed
      have hclaim : r.component.claim = .ok (j, .ask j { r.component with control }) := by
        rw [Component.claim, hcontrol]
      have hheld : r.component.control.held = some j ∧ control = ⟨.stopping, none⟩ := by
        unfold Lifecycle.claim? at hcontrol
        split at hcontrol <;> cases hcontrol
        exact ⟨‹_›, rfl⟩
      rw [hclaim] at h
      cases h
      refine ⟨?_, hheld.1, hheld.2, Component.loops_ask _ _, rfl⟩
      rw [Callers.stop, hclaim]
      rfl

/-- A reader of a script, with those who use it. -/
structure Readership where
  reader : Reader Script
  /-- The activations that stops in progress hold. -/
  stops : List Nat := []
  /-- The runs that have been joined. -/
  joined : List Nat := []
  /-- The run at whose inbox a read waits. -/
  waiting : Option Nat := none
  consumed : RunLog (Except BrokerError Message) := []
  delivered : RunLog Command := []

namespace Readership

inductive Event
  | start (time : Nat) (asked : Bool)
  /-- A stop claims the activation. -/
  | stop
  /-- A stop in progress finds its loop ended. -/
  | join (k : Nat)
  /-- A stop in progress is dropped. -/
  | drop (k : Nat)
  /-- All loops are asked to end. -/
  | cancel
  | move (time : Nat)
  /-- The loop ends, if it has been asked to. -/
  | exit
  /-- A read begins, unless another one waits. -/
  | read
  /-- The read that waits takes something out of the inbox, if there is anything. -/
  | take (reportFirst : Bool)
  /-- The read that waits is cancelled or dropped. -/
  | giveUp

def opening (script : List (Except BrokerError Message)) (format : WireFormat) (backoff : Backoff) :
    Readership :=
  { reader := { source := ⟨script⟩, format, backoff } }

def loops (w : Readership) : List ConsumeLoop := w.reader.component.loops

def callers (w : Readership) : Callers ConsumeLoop := ⟨w.reader.component, w.stops, w.joined⟩

def withCallers (w : Readership) (c : Callers ConsumeLoop) : Readership :=
  { w with
    reader := { w.reader with component := c.component }, stops := c.stops, joined := c.joined }

/-- What the latest loop takes from the script in its next move. -/
def heard (w : Readership) : RunLog (Except BrokerError Message) :=
  match w.reader.component.latest? with
  | some run => (run.loop.heard w.reader.source).map (Prod.mk (w.loops.length - 1))
  | none => []

def take (w : Readership) (reportFirst : Bool) : Readership :=
  match w.waiting with
  | none => w
  | some i =>
    match w.reader.takeFrom i reportFirst with
    | (reader, none) => { w with reader }
    | (reader, some answer) =>
      { w with
        reader, waiting := none
        delivered := w.delivered ++ answer.toOption.toList.map (Prod.mk i) }

/-- Takes a step. A call that fails changes nothing. -/
def step (w : Readership) : Event → Readership
  | .start time asked =>
    match w.reader.start time asked with
    | .ok reader => { w with reader }
    | .error _ => w
  | .stop =>
    match w.reader.claim with
    | .ok (i, reader) => { w with reader, stops := i :: w.stops }
    | .error _ => w
  | .join k =>
    match w.callers.join k with
    | some (c, _) => w.withCallers c
    | none => w
  | .drop k => w.withCallers (w.callers.drop k)
  | .cancel => { w with reader := w.reader.cancel }
  | .move time =>
    { w with reader := (w.reader.step time).1, consumed := w.consumed ++ w.heard }
  | .exit => { w with reader := w.reader.exit.getD w.reader }
  | .read => { w with waiting := w.waiting <|> w.reader.channels }
  | .take reportFirst => w.take reportFirst
  | .giveUp => { w with waiting := none }

def run (w : Readership) (events : List Event) : Readership := events.foldl step w

def commandsOf (format : WireFormat) (w : Readership) (i : Nat) : List Command :=
  (RunLog.of w.consumed i).filterMap (ConsumeLoop.command? format)

def deliveredBy (w : Readership) (i : Nat) : List Command := RunLog.of w.delivered i

/-- What is true of a reader and its users whatever they have done. -/
structure Sound (script : List (Except BrokerError Message)) (format : WireFormat)
    (w : Readership) : Prop where
  tidy : w.callers.Tidy
  /-- Reads begin at the latest run. -/
  channel : ∀ i, w.reader.channels = some i → i + 1 = w.loops.length
  /-- Nothing has been delivered from a run behind the one that a read waits at. -/
  waiting : ∀ i, w.waiting = some i → i < w.loops.length ∧ ∀ d ∈ w.delivered, d.1 ≤ i
  consumed : RunLog.InOrder w.loops.length w.consumed
  delivered : RunLog.InOrder w.loops.length w.delivered
  accounts : ∀ (i : Nat) (l : ConsumeLoop), w.loops[i]? = some l →
    l.Accounted (w.commandsOf format i) (w.deliveredBy i)
  script : w.consumed.map Prod.snd ++ w.reader.source.rest = script
  format : w.reader.format = format

variable {script : List (Except BrokerError Message)} {format : WireFormat} {w w' : Readership}

theorem sound_opening (script : List (Except BrokerError Message)) (format : WireFormat)
    (backoff : Backoff) : Sound script format (opening script format backoff) where
  tidy := Callers.tidy_new "command reader"
  channel := nofun
  waiting := nofun
  consumed := RunLog.inOrder_nil 0
  delivered := RunLog.inOrder_nil 0
  accounts i l hl := by cases hl
  script := rfl
  format := rfl

/-- Steps in which no loop moves and no read begins or ends with an answer. -/
theorem Sound.of_loops (h : w.Sound script format) (htidy : w'.callers.Tidy)
    (hloops : w'.loops = w.loops) (hformat : w'.reader.format = w.reader.format)
    (hsource : w'.reader.source = w.reader.source)
    (hchannels : w'.reader.channels = none ∨ w'.reader.channels = w.reader.channels)
    (hwaiting : w'.waiting = none ∨ w'.waiting = w.waiting)
    (hconsumed : w'.consumed = w.consumed) (hdelivered : w'.delivered = w.delivered) :
    w'.Sound script format where
  tidy := htidy
  channel i hi := by
    rw [hloops]
    rcases hchannels with hc | hc <;> rw [hc] at hi
    · cases hi
    · exact h.channel i hi
  waiting i hi := by
    rw [hloops, hdelivered]
    rcases hwaiting with hw | hw <;> rw [hw] at hi
    · cases hi
    · exact h.waiting i hi
  consumed := by
    rw [hloops, hconsumed]
    exact h.consumed
  delivered := by
    rw [hloops, hdelivered]
    exact h.delivered
  accounts i l hl := by
    rw [hloops] at hl
    rw [commandsOf, deliveredBy, hconsumed, hdelivered]
    exact h.accounts i l hl
  script := by
    rw [hconsumed, hsource]
    exact h.script
  format := hformat.trans h.format

theorem Sound.commandsOf_eq_nil (h : w.Sound script format) {i : Nat} (hi : w.loops.length ≤ i) :
    w.commandsOf format i = [] := by
  rw [commandsOf, RunLog.of_eq_nil fun e he => ?_]
  · rfl
  · exact Nat.ne_of_lt (Nat.lt_of_lt_of_le (h.consumed.below e he) hi)

theorem Sound.deliveredBy_eq_nil (h : w.Sound script format) {i : Nat} (hi : w.loops.length ≤ i) :
    w.deliveredBy i = [] :=
  RunLog.of_eq_nil fun e he => Nat.ne_of_lt (Nat.lt_of_lt_of_le (h.delivered.below e he) hi)

theorem Sound.start (h : w.Sound script format) {time : Nat} {asked : Bool} {reader : Reader Script}
    (hw : w.reader.start time asked = .ok reader) : Sound script format { w with reader } := by
  obtain ⟨hcallers, -, hloops, hreader⟩ := Reader.of_start hw w.stops w.joined
  change reader.component.loops = w.loops ++ [.begin time] at hloops
  have hlength : reader.component.loops.length = w.loops.length + 1 := by
    rw [hloops, List.length_append]
    rfl
  have hlast : w.reader.component.runs.length + 1 = reader.component.loops.length :=
    (congrArg (· + 1) w.reader.component.length_loops.symm).trans hlength.symm
  refine ⟨h.tidy.start hcallers, ?_, ?_, ?_, ?_, ?_, ?_, ?_⟩
  · intro i hi
    change reader.channels = some i at hi
    rw [hreader] at hi
    cases hi
    exact hlast
  · intro i hi
    obtain ⟨hlt, hle⟩ := h.waiting i hi
    exact ⟨hlength ▸ Nat.lt_succ_of_lt hlt, hle⟩
  · exact hlength ▸ h.consumed.mono (Nat.le_succ _)
  · exact hlength ▸ h.delivered.mono (Nat.le_succ _)
  · intro i l hl
    change reader.component.loops[i]? = some l at hl
    rw [hloops] at hl
    rcases Nat.lt_or_ge i w.loops.length with hi | hi
    · rw [List.getElem?_append_left hi] at hl
      exact h.accounts i l hl
    · rw [List.getElem?_append_right hi] at hl
      have hl' : l = .begin time := List.mem_singleton.1 (List.mem_of_getElem? hl)
      change l.Accounted (w.commandsOf format i) (w.deliveredBy i)
      rw [h.commandsOf_eq_nil hi, h.deliveredBy_eq_nil hi, hl']
      exact ConsumeLoop.accounted_begin time
  · rw [hreader]
    exact h.script
  · rw [hreader]
    exact h.format

theorem Sound.stop (h : w.Sound script format) {i : Nat} {reader : Reader Script}
    (hw : w.reader.claim = .ok (i, reader)) :
    Sound script format { w with reader, stops := i :: w.stops } := by
  obtain ⟨hcallers, -, -, hloops, hreader⟩ := Reader.of_claim hw w.stops w.joined
  have htidy := h.tidy.stop hcallers
  rw [hreader] at hloops htidy ⊢
  exact h.of_loops htidy hloops rfl rfl (.inl rfl) (.inr rfl) rfl rfl

theorem Sound.join (h : w.Sound script format) {k : Nat} {c : Callers ConsumeLoop}
    {a : Except LifecycleError Unit} (hw : w.callers.join k = some (c, a)) :
    (w.withCallers c).Sound script format := by
  have htidy := h.tidy.join hw
  obtain ⟨i, e, -, -, rfl, -⟩ := Callers.exists_of_join hw
  exact h.of_loops htidy rfl rfl rfl (.inr rfl) (.inr rfl) rfl rfl

theorem Sound.drop (h : w.Sound script format) (k : Nat) :
    (w.withCallers (w.callers.drop k)).Sound script format := by
  have htidy := h.tidy.drop k
  have hloops : (w.withCallers (w.callers.drop k)).loops = w.loops := by
    unfold Callers.drop
    split <;> rfl
  exact h.of_loops htidy hloops rfl rfl (.inr rfl) (.inr rfl) rfl rfl

theorem Sound.cancel (h : w.Sound script format) :
    Sound script format { w with reader := w.reader.cancel } := by
  have hloops : w.reader.cancel.component.loops = w.loops := Component.loops_askAll _
  exact h.of_loops h.tidy.cancel hloops rfl rfl (.inr rfl) (.inr rfl) rfl rfl

theorem Sound.giveUp (h : w.Sound script format) : Sound script format { w with waiting := none } :=
  h.of_loops h.tidy rfl rfl rfl (.inr rfl) (.inl rfl) rfl rfl

theorem Sound.read (h : w.Sound script format) :
    Sound script format { w with waiting := w.waiting <|> w.reader.channels } := by
  refine ⟨h.tidy, h.channel, ?_, h.consumed, h.delivered, h.accounts, h.script, h.format⟩
  intro i hi
  cases hw : w.waiting with
  | some j =>
      rw [hw] at hi
      cases hi
      exact h.waiting i hw
  | none =>
      rw [hw] at hi
      have hlast := h.channel i hi
      refine ⟨by change i < w.loops.length; omega, fun d hd => ?_⟩
      have hlt := h.delivered.below d hd
      omega

/-- A loop may take something from the script, if it is the latest, and give something to a read that
waits at it, if it accounts for both. -/
theorem Sound.setLoop (h : w.Sound script format) {i : Nat} {l : ConsumeLoop}
    (hl : w.loops[i]? = some l) (l' : ConsumeLoop) (source : Script)
    (taken : List (Except BrokerError Message)) (given : List Command)
    (hexited : l.hasExited = true → l'.hasExited = true)
    (haccounted : ∀ commands delivered, l.Accounted commands delivered →
      l'.Accounted (commands ++ taken.filterMap (ConsumeLoop.command? format)) (delivered ++ given))
    (htaken : taken = [] ∨ i + 1 = w.loops.length) (hgiven : given = [] ∨ w.waiting = some i)
    (hrest : taken ++ source.rest = w.reader.source.rest) :
    Sound script format { w with
      reader := { w.reader with source, component := w.reader.component.setLoop i l' }
      consumed := w.consumed ++ taken.map (Prod.mk i)
      delivered := w.delivered ++ given.map (Prod.mk i) } := by
  have hi : i < w.loops.length := (List.getElem?_eq_some_iff.1 hl).1
  have hloops : (w.reader.component.setLoop i l').loops = w.loops.set i l' :=
    Component.loops_setLoop _ _ _
  have hlength : (w.reader.component.setLoop i l').loops.length = w.loops.length := by
    rw [hloops, List.length_set]
  refine ⟨?_, ?_, ?_, ?_, ?_, ?_, ?_, h.format⟩
  · refine h.tidy.setLoop fun l'' hl'' hended => ?_
    have hsame : l = l'' := Option.some.inj (hl.symm.trans hl'')
    rw [← hsame, ConsumeLoop.isSome_ending?] at hended
    rw [ConsumeLoop.isSome_ending?]
    exact hexited hended
  · exact fun j hj => (h.channel j hj).trans hlength.symm
  · intro j hj
    obtain ⟨hlt, hle⟩ := h.waiting j hj
    refine ⟨hlength ▸ hlt, fun d hd => ?_⟩
    rcases List.mem_append.1 hd with hd | hd
    · exact hle d hd
    · obtain ⟨c, hc, rfl⟩ := List.mem_map.1 hd
      rcases hgiven with hnone | hw
      · rw [hnone] at hc
        cases hc
      · exact Nat.le_of_eq (Option.some.inj (hw.symm.trans hj))
  · refine hlength ▸ h.consumed.append_tagged hi (htaken.imp_right fun hlast e he => ?_)
    have hlt := h.consumed.below e he
    omega
  · exact hlength ▸ h.delivered.append_tagged hi (hgiven.imp_right fun hw => (h.waiting i hw).2)
  · intro j l'' hl''
    change (w.reader.component.setLoop i l').loops[j]? = some l'' at hl''
    rw [hloops] at hl''
    rw [commandsOf, deliveredBy, RunLog.of_append, RunLog.of_append]
    by_cases hij : i = j
    · subst hij
      rw [List.getElem?_set_self hi] at hl''
      cases hl''
      rw [RunLog.of_tagged_self, RunLog.of_tagged_self, List.filterMap_append]
      exact haccounted _ _ (h.accounts i l hl)
    · rw [List.getElem?_set_ne hij] at hl''
      rw [RunLog.of_tagged_ne hij, RunLog.of_tagged_ne hij, List.append_nil, List.append_nil]
      exact h.accounts j l'' hl''
  · change (w.consumed ++ taken.map (Prod.mk i)).map Prod.snd ++ source.rest = script
    rw [← h.script, ← hrest, List.map_append, RunLog.map_snd_tagged, List.append_assoc]

theorem getElem?_loops_latest {r : Run ConsumeLoop} (h : w.reader.component.latest? = some r) :
    w.loops[w.loops.length - 1]? = some r.loop ∧ w.loops.length - 1 + 1 = w.loops.length := by
  have hget : w.loops[w.loops.length - 1]? = some r.loop := by
    rw [loops, Component.length_loops]
    exact Component.getElem?_loops_of_latest? h
  have hlt := (List.getElem?_eq_some_iff.1 hget).1
  exact ⟨hget, by omega⟩

theorem Sound.move (h : w.Sound script format) (time : Nat) :
    (w.step (.move time)).Sound script format := by
  change Sound script format { w with
    reader := (w.reader.step time).1, consumed := w.consumed ++ w.heard }
  cases hlatest : w.reader.component.latest? with
  | none =>
      have hstep : (w.reader.step time).1 = w.reader := by rw [Reader.step, hlatest]
      have hheard : w.heard = [] := by rw [heard, hlatest]
      rw [hstep, hheard, List.append_nil]
      exact h
  | some r =>
      obtain ⟨hl, hlast⟩ := getElem?_loops_latest hlatest
      have hexited := r.loop.hasExited_moved w.reader.format w.reader.backoff time w.reader.source
      have hrest := r.loop.rest_step w.reader.source w.reader.format w.reader.backoff time
      have hset := h.setLoop hl _ _ _ [] (fun hr => hexited.trans hr)
        (fun _ _ hr => by
          rw [← h.format, List.append_nil]
          exact hr.moved _ _ _ _)
        (.inr hlast) (.inl rfl) hrest
      rw [List.map_nil, List.append_nil] at hset
      rw [Reader.step_of_latest? hlatest, heard, hlatest, ← Component.length_loops]
      exact hset

theorem Sound.exit (h : w.Sound script format) :
    Sound script format { w with reader := w.reader.exit.getD w.reader } := by
  unfold Reader.exit
  split
  next l hlatest =>
    split
    next => exact h
    next =>
      obtain ⟨hl, -⟩ := getElem?_loops_latest hlatest
      have hset := h.setLoop hl l.exit w.reader.source [] [] (fun _ => rfl)
        (fun _ _ hr => by simpa using hr.exit) (.inl rfl) (.inl rfl) rfl
      rw [List.map_nil, List.append_nil, List.map_nil, List.append_nil, loops,
        Component.length_loops] at hset
      exact hset
  next => exact h

theorem Sound.take (h : w.Sound script format) (reportFirst : Bool) :
    (w.take reportFirst).Sound script format := by
  unfold Readership.take
  split
  next => exact h
  next i hw =>
    obtain ⟨l, hl⟩ : ∃ l, w.loops[i]? = some l :=
      ⟨_, List.getElem?_eq_getElem (h.waiting i hw).1⟩
    have hset := h.setLoop hl { l with inbox := (l.inbox.take reportFirst).1 } w.reader.source [] _
      id (fun _ _ hr => by simpa using hr.take reportFirst) (.inl rfl) (.inr hw) rfl
    rw [List.map_nil, List.append_nil] at hset
    rw [Reader.takeFrom_of_loops hl]
    cases hanswer : (l.inbox.take reportFirst).2 with
    | none => simpa [hanswer] using hset
    | some answer =>
        rw [hanswer] at hset
        exact hset.giveUp

theorem Sound.step (h : w.Sound script format) (e : Event) : (w.step e).Sound script format := by
  cases e with
  | start time asked =>
      change Sound script format (match w.reader.start time asked with
        | .ok reader => { w with reader }
        | .error _ => w)
      split
      next hw => exact h.start hw
      next => exact h
  | stop =>
      change Sound script format (match w.reader.claim with
        | .ok (i, reader) => { w with reader, stops := i :: w.stops }
        | .error _ => w)
      split
      next hw => exact h.stop hw
      next => exact h
  | join k =>
      change Sound script format (match w.callers.join k with
        | some (c, _) => w.withCallers c
        | none => w)
      split
      next hw => exact h.join hw
      next => exact h
  | drop k => exact h.drop k
  | cancel => exact h.cancel
  | move time => exact h.move time
  | exit => exact h.exit
  | read => exact h.read
  | take reportFirst => exact h.take reportFirst
  | giveUp => exact h.giveUp

theorem Sound.run (h : w.Sound script format) (events : List Event) : (w.run events).Sound script format := by
  induction events generalizing w with
  | nil => exact h
  | cons e events ih => exact ih (h.step e)

end Readership

end CourierDispatch
