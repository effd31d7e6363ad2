import CourierDispatch.Proofs.Reader.Readership

/-!
# A reader with many reads at once

A reader consumes a source while callers start and stop it, and any number of reads are in progress. A
read is given the inbox that is there when it begins, and fails at once if there is none. It waits at
that inbox, whatever becomes of the reader, until it gets an answer out of it or is given up.
`Audience.step` lets one of the callers, of the loops or of the reads take a step, and puts down what
each run has heard from the source and what has been answered from its inbox.

A law is something that holds of a loop, of what it has heard and of what has been answered from its
inbox, whatever the loop and the reads do next. What is proved here once is that the loops of all runs
keep every law.
-/

namespace CourierDispatch

/-- A read: the inbox that it was given, if there was one, and its answer, if it is over. -/
structure Visit where
  inbox : Option Nat
  answer : Option (Except ReadError Command) := none

namespace Visit

def begin : Option Nat → Visit
  | some i => { inbox := some i }
  | none => { inbox := none, answer := some (.error .channelClosed) }

def waitsAt? (v : Visit) : Option Nat :=
  match v.answer with
  | none => v.inbox
  | some _ => none

theorem waitsAt?_eq_some {v : Visit} {i : Nat} (h : v.waitsAt? = some i) : v = ⟨some i, none⟩ := by
  rcases v with ⟨inbox, answer⟩
  cases answer with
  | none => exact congrArg (Visit.mk · none) h
  | some a => cases h

end Visit

/-- A reader of a source, with those who use it. -/
structure Audience (S : Type) where
  reader : Reader S
  /-- The activations that stops in progress hold. -/
  stops : List Nat := []
  /-- The runs that have been joined. -/
  joined : List Nat := []
  /-- All reads, in the order in which they began. -/
  visits : List Visit := []
  /-- What the runs have heard. -/
  heard : RunLog (Except BrokerError Message) := []
  /-- What has been answered from the inboxes of the runs. -/
  answers : RunLog (Except ReadError Command) := []

namespace Audience

inductive Event
  | start (time : Nat) (asked : Bool)
  /-- A stop claims the activation. -/
  | stop
  /-- A stop in progress finds its loop ended. -/
  | join (k : Nat)
  /-- A stop in progress is dropped. -/
  | drop (k : Nat)
  /-- All loops are asked to end. -/
  | cancel
  | move (time : Nat)
  /-- The loop ends, if it has been asked to. -/
  | exit
  /-- A read begins. -/
  | read
  /-- A read takes something out of its inbox, if there is anything. -/
  | take (k : Nat) (reportFirst : Bool)
  /-- A read is cancelled or dropped. -/
  | giveUp (k : Nat)

variable {S : Type}

def opening (source : S) (format : WireFormat) (backoff : Backoff) : Audience S :=
  { reader := { source, format, backoff } }

def loops (w : Audience S) : List ConsumeLoop := w.reader.component.loops

def phase (w : Audience S) : Phase := w.reader.component.control.phase

def callers (w : Audience S) : Callers ConsumeLoop := ⟨w.reader.component, w.stops, w.joined⟩

def withCallers (w : Audience S) (c : Callers ConsumeLoop) : Audience S :=
  { w with
    reader := { w.reader with component := c.component }, stops := c.stops, joined := c.joined }

def waitsAt? (w : Audience S) (k : Nat) : Option Nat := (w.visits[k]?).bind Visit.waitsAt?

def take (w : Audience S) (k : Nat) (reportFirst : Bool) : Audience S :=
  match w.waitsAt? k with
  | none => w
  | some i =>
    match w.reader.takeFrom i reportFirst with
    | (reader, none) => { w with reader }
    | (reader, some answer) =>
      { w with
        reader
        visits := w.visits.set k ⟨some i, some answer⟩
        answers := w.answers ++ [(i, answer)] }

def giveUp (w : Audience S) (k : Nat) : Audience S :=
  match w.waitsAt? k with
  | none => w
  | some i => { w with visits := w.visits.set k ⟨some i, some (.error .cancelled)⟩ }

def heardBy (w : Audience S) (i : Nat) : List (Except BrokerError Message) := RunLog.of w.heard i

def answersOf (w : Audience S) (i : Nat) : List (Except ReadError Command) := RunLog.of w.answers i

variable [MessageSource S]

/-- What the latest loop hears in its next move. -/
def hears (w : Audience S) : List (Except BrokerError Message) :=
  match w.reader.component.latest? with
  | some run => run.loop.hears w.reader.source
  | none => []

/-- Takes a step. A call that fails changes nothing. -/
def step (w : Audience S) : Event → Audience S
  | .start time asked =>
    match w.reader.start time asked with
    | .ok reader => { w with reader }
    | .error _ => w
  | .stop =>
    match w.reader.claim with
    | .ok (i, reader) => { w with reader, stops := i :: w.stops }
    | .error _ => w
  | .join k =>
    match w.callers.join k with
    | some (c, _) => w.withCallers c
    | none => w
  | .drop k => w.withCallers (w.callers.drop k)
  | .cancel => { w with reader := w.reader.cancel }
  | .move time =>
    { w with
      reader := (w.reader.step time).1
      heard := w.heard ++ w.hears.map (Prod.mk (w.loops.length - 1)) }
  | .exit => { w with reader := w.reader.exit.getD w.reader }
  | .read => { w with visits := w.visits ++ [.begin w.reader.channels] }
  | .take k reportFirst => w.take k reportFirst
  | .giveUp k => w.giveUp k

def run (w : Audience S) (events : List Event) : Audience S := events.foldl step w

end Audience

/-- What holds of a loop, of what it has heard and of what has been answered from its inbox, from its
beginning on. -/
structure ConsumeLoop.Law (S : Type) [MessageSource S] (format : WireFormat)
    (A : ConsumeLoop → List (Except BrokerError Message) → List (Except ReadError Command) → Prop) :
    Prop where
  begin : ∀ time, A (.begin time) [] []
  step : ∀ {l heard answers}, A l heard answers → ∀ (backoff : Backoff) (time : Nat) (s : S),
    A ((l.step format backoff time s).2.getD l) (heard ++ l.hears s) answers
  exit : ∀ {l heard answers}, A l heard answers → A l.exit heard answers
  take : ∀ {l heard answers}, A l heard answers → ∀ reportFirst,
    A { l with inbox := (l.inbox.take reportFirst).1 } heard
      (answers ++ (l.inbox.take reportFirst).2.toList)

/-- A read has been given the inbox of one of `n` runs, or it has failed. A command that it has brought
was answered from its inbox. -/
structure Visit.Sound (n : Nat) (answers : RunLog (Except ReadError Command)) (v : Visit) : Prop where
  inbox : ∀ i, v.inbox = some i → i < n
  closed : v.inbox = none → v.answer = some (.error .channelClosed)
  answer : ∀ c, v.answer = some (.ok c) → ∃ i, v.inbox = some i ∧ .ok c ∈ RunLog.of answers i

namespace Visit.Sound

variable {n m : Nat} {answers : RunLog (Except ReadError Command)} {v : Visit}

theorem mono (h : v.Sound n answers) (hm : n ≤ m) (more : RunLog (Except ReadError Command)) :
    v.Sound m (answers ++ more) where
  inbox i hi := Nat.lt_of_lt_of_le (h.inbox i hi) hm
  closed := h.closed
  answer c hc := by
    obtain ⟨i, hi, hmem⟩ := h.answer c hc
    refine ⟨i, hi, ?_⟩
    rw [RunLog.of_append]
    exact List.mem_append_left _ hmem

theorem begin {inbox : Option Nat} (h : ∀ i, inbox = some i → i < n) :
    (Visit.begin inbox).Sound n answers := by
  cases inbox with
  | none => exact ⟨nofun, fun _ => rfl, nofun⟩
  | some i => exact ⟨h, nofun, nofun⟩

end Visit.Sound

namespace Audience

variable {S : Type} {format : WireFormat}
  {A : ConsumeLoop → List (Except BrokerError Message) → List (Except ReadError Command) → Prop}
  {w w' : Audience S}

/-- What is true of a reader and its users whatever they have done, if the loops keep a law. -/
structure Sound (format : WireFormat)
    (A : ConsumeLoop → List (Except BrokerError Message) → List (Except ReadError Command) → Prop)
    (w : Audience S) : Prop where
  tidy : w.callers.Tidy
  /-- The inbox is that of the activation, while this is neither stopped nor claimed. -/
  channels : w.reader.channels =
    if w.phase = .running then w.reader.component.control.held else none
  heard : RunLog.InOrder w.loops.length w.heard
  answers : ∀ a ∈ w.answers, a.1 < w.loops.length
  visits : ∀ v ∈ w.visits, v.Sound w.loops.length w.answers
  laws : ∀ i l, w.loops[i]? = some l → A l (w.heardBy i) (w.answersOf i)
  format : w.reader.format = format

theorem sound_opening (source : S) (format : WireFormat) (backoff : Backoff)
    (A : ConsumeLoop → List (Except BrokerError Message) → List (Except ReadError Command) → Prop) :
    (opening source format backoff).Sound format A where
  tidy := Callers.tidy_new "command reader"
  channels := rfl
  heard := RunLog.inOrder_nil 0
  answers a ha := absurd ha List.not_mem_nil
  visits v hv := absurd hv List.not_mem_nil
  laws i l hl := by cases hl
  format := rfl

theorem Sound.heardBy_eq_nil (h : w.Sound format A) {i : Nat} (hi : w.loops.length ≤ i) :
    w.heardBy i = [] :=
  RunLog.of_eq_nil fun e he => Nat.ne_of_lt (Nat.lt_of_lt_of_le (h.heard.below e he) hi)

theorem Sound.answersOf_eq_nil (h : w.Sound format A) {i : Nat} (hi : w.loops.length ≤ i) :
    w.answersOf i = [] :=
  RunLog.of_eq_nil fun e he => Nat.ne_of_lt (Nat.lt_of_lt_of_le (h.answers e he) hi)

/-- While the reader is running, its inbox is that of the latest run. -/
theorem Sound.channels_of_running (h : w.Sound format A) (hw : w.phase = .running) :
    ∃ i, w.reader.channels = some i ∧ i + 1 = w.loops.length := by
  rw [h.channels, if_pos hw, loops, Component.length_loops]
  obtain ⟨i, hi, hlast⟩ := h.tidy.custody.held_of_running hw
  exact ⟨i, hi, hlast.symm⟩

theorem Sound.channels_eq_none_iff (h : w.Sound format A) :
    w.reader.channels = none ↔ w.phase ≠ .running := by
  refine ⟨fun hnone hw => ?_, fun hw => h.channels.trans (if_neg hw)⟩
  obtain ⟨i, hi, -⟩ := h.channels_of_running hw
  rw [hnone] at hi
  cases hi

theorem Sound.eq_latest (h : w.Sound format A) {i : Nat} (hi : w.reader.channels = some i) :
    i + 1 = w.loops.length := by
  have hw : w.phase = .running := by
    by_contra hw
    rw [h.channels_eq_none_iff.2 hw] at hi
    cases hi
  obtain ⟨j, hj, hlast⟩ := h.channels_of_running hw
  rw [hj] at hi
  cases hi
  exact hlast

/-- Steps in which no loop moves and nothing is answered. -/
theorem Sound.of_loops (h : w.Sound format A) (htidy : w'.callers.Tidy)
    (hchannels : w'.reader.channels =
      if w'.phase = .running then w'.reader.component.control.held else none)
    (hloops : w'.loops = w.loops) (hformat : w'.reader.format = w.reader.format)
    (hvisits : ∀ v ∈ w'.visits, v.Sound w.loops.length w.answers) (hheard : w'.heard = w.heard)
    (hanswers : w'.answers = w.answers) : w'.Sound format A where
  tidy := htidy
  channels := hchannels
  heard := by
    rw [hloops, hheard]
    exact h.heard
  answers := by
    rw [hloops, hanswers]
    exact h.answers
  visits := by
    rw [hloops, hanswers]
    exact hvisits
  laws i l hl := by
    rw [hloops] at hl
    rw [heardBy, answersOf, hheard, hanswers]
    exact h.laws i l hl
  format := hformat.trans h.format

theorem Sound.stop (h : w.Sound format A) {i : Nat} {reader : Reader S}
    (hw : w.reader.claim = .ok (i, reader)) :
    Sound format A { w with reader, stops := i :: w.stops } := by
  obtain ⟨hcallers, -, hcontrol, hloops, hreader⟩ := Reader.of_claim hw w.stops w.joined
  have htidy := h.tidy.stop hcallers
  rw [hreader] at hcontrol hloops htidy ⊢
  refine h.of_loops htidy ?_ hloops rfl h.visits rfl rfl
  change none = if reader.component.control.phase = .running then _ else none
  rw [show reader.component.control = ⟨.stopping, none⟩ from hcontrol]
  rfl

theorem Sound.channels_of_stop (h : w.Sound format A) {k i : Nat} (hk : w.stops[k]? = some i) :
    w.reader.channels = none := by
  rw [h.channels_eq_none_iff]
  have hstopping := (h.tidy.custody.of_stop hk).1
  change w.reader.component.control = _ at hstopping
  rw [phase, hstopping]
  nofun

theorem Sound.join (h : w.Sound format A) {k : Nat} {c : Callers ConsumeLoop}
    {a : Except LifecycleError Unit} (hw : w.callers.join k = some (c, a)) :
    (w.withCallers c).Sound format A := by
  have htidy := h.tidy.join hw
  obtain ⟨i, e, hk, -, rfl, -⟩ := Callers.exists_of_join hw
  exact h.of_loops htidy (h.channels_of_stop hk) rfl rfl h.visits rfl rfl

theorem Sound.drop (h : w.Sound format A) (k : Nat) :
    (w.withCallers (w.callers.drop k)).Sound format A := by
  have htidy := h.tidy.drop k
  unfold Callers.drop at htidy ⊢
  split at htidy
  next i hk =>
    refine h.of_loops htidy ?_ rfl rfl h.visits rfl rfl
    have hstopping := (h.tidy.custody.of_stop hk).1
    change w.reader.channels = if w.phase = .running then _ else none
    rw [h.channels_of_stop hk, if_neg (h.channels_eq_none_iff.1 (h.channels_of_stop hk))]
  next => exact h

theorem Sound.cancel (h : w.Sound format A) :
    Sound format A { w with reader := w.reader.cancel } :=
  h.of_loops h.tidy.cancel h.channels (Component.loops_askAll _) rfl h.visits rfl rfl

theorem Sound.read (h : w.Sound format A) :
    Sound format A { w with visits := w.visits ++ [.begin w.reader.channels] } := by
  refine h.of_loops h.tidy h.channels rfl rfl (fun v hv => ?_) rfl rfl
  rcases List.mem_append.1 hv with hv | hv
  · exact h.visits v hv
  · rw [List.mem_singleton.1 hv]
    refine .begin fun i hi => ?_
    have hlast := h.eq_latest hi
    omega

theorem Sound.waits (h : w.Sound format A) {k i : Nat} (hk : w.waitsAt? k = some i) :
    i < w.loops.length := by
  obtain ⟨v, hv, hi⟩ := Option.bind_eq_some_iff.1 hk
  rw [Visit.waitsAt?_eq_some hi] at hv
  exact (h.visits _ (List.mem_of_getElem? hv)).inbox i rfl

theorem Sound.giveUp (h : w.Sound format A) (k : Nat) : (w.giveUp k).Sound format A := by
  unfold Audience.giveUp
  split
  next => exact h
  next i hk =>
    refine h.of_loops h.tidy h.channels rfl rfl (fun v hv => ?_) rfl rfl
    rcases List.mem_or_eq_of_mem_set hv with hv | rfl
    · exact h.visits v hv
    · exact ⟨fun j hj => Option.some.inj hj ▸ h.waits hk, nofun, nofun⟩

/-- A loop may hear something, if it is the latest, and something may be answered from its inbox, if the
law holds of both. -/
theorem Sound.setLoop (h : w.Sound format A) {i : Nat} {l : ConsumeLoop}
    (hl : w.loops[i]? = some l) (l' : ConsumeLoop) (source : S)
    (heard : List (Except BrokerError Message)) (answered : List (Except ReadError Command))
    (visits : List Visit) (hexited : l.hasExited = true → l'.hasExited = true)
    (hheard : heard = [] ∨ i + 1 = w.loops.length)
    (hlaw : A l' (w.heardBy i ++ heard) (w.answersOf i ++ answered))
    (hvisits : ∀ v ∈ visits,
      v.Sound w.loops.length (w.answers ++ answered.map (Prod.mk i))) :
    Sound format A { w with
      reader := { w.reader with source, component := w.reader.component.setLoop i l' }
      heard := w.heard ++ heard.map (Prod.mk i)
      answers := w.answers ++ answered.map (Prod.mk i), visits } := by
  have hi : i < w.loops.length := (List.getElem?_eq_some_iff.1 hl).1
  have hloops : (w.reader.component.setLoop i l').loops = w.loops.set i l' :=
    Component.loops_setLoop _ _ _
  have hlength : (w.reader.component.setLoop i l').loops.length = w.loops.length := by
    rw [hloops, List.length_set]
  refine ⟨?_, h.channels, ?_, ?_, ?_, ?_, h.format⟩
  · refine h.tidy.setLoop fun l'' hl'' hended => ?_
    have hsame : l = l'' := Option.some.inj (hl.symm.trans hl'')
    rw [← hsame, ConsumeLoop.isSome_ending?] at hended
    rw [ConsumeLoop.isSome_ending?]
    exact hexited hended
  · refine hlength ▸ h.heard.append_tagged hi (hheard.imp_right fun hlast e he => ?_)
    have hlt := h.heard.below e he
    omega
  · intro a ha
    refine hlength ▸ ?_
    rcases List.mem_append.1 ha with ha | ha
    · exact h.answers a ha
    · obtain ⟨x, -, rfl⟩ := List.mem_map.1 ha
      exact hi
  · exact hlength ▸ hvisits
  · intro j l'' hl''
    change (w.reader.component.setLoop i l').loops[j]? = some l'' at hl''
    rw [hloops] at hl''
    rw [heardBy, answersOf, RunLog.of_append, RunLog.of_append]
    by_cases hij : i = j
    · subst hij
      rw [List.getElem?_set_self hi] at hl''
      cases hl''
      rw [RunLog.of_tagged_self, RunLog.of_tagged_self]
      exact hlaw
    · rw [List.getElem?_set_ne hij] at hl''
      rw [RunLog.of_tagged_ne hij, RunLog.of_tagged_ne hij, List.append_nil, List.append_nil]
      exact h.laws j l'' hl''

theorem getElem?_loops_latest {r : Run ConsumeLoop} (h : w.reader.component.latest? = some r) :
    w.loops[w.loops.length - 1]? = some r.loop ∧ w.loops.length - 1 + 1 = w.loops.length := by
  have hget : w.loops[w.loops.length - 1]? = some r.loop := by
    rw [loops, Component.length_loops]
    exact Component.getElem?_loops_of_latest? h
  have hlt := (List.getElem?_eq_some_iff.1 hget).1
  exact ⟨hget, by omega⟩

variable [MessageSource S] (hA : ConsumeLoop.Law S format A)

include hA

theorem Sound.start (h : w.Sound format A) {time : Nat} {asked : Bool} {reader : Reader S}
    (hw : w.reader.start time asked = .ok reader) : Sound format A { w with reader } := by
  obtain ⟨hcallers, hcontrol, hloops, hreader⟩ := Reader.of_start hw w.stops w.joined
  change reader.component.loops = w.loops ++ [.begin time] at hloops
  have hlength : reader.component.loops.length = w.loops.length + 1 := by
    rw [hloops, List.length_append]
    rfl
  refine ⟨h.tidy.start hcallers, ?_, ?_, ?_, ?_, ?_, ?_⟩
  · change reader.channels =
      if reader.component.control.phase = .running then reader.component.control.held else none
    rw [hcontrol, hreader]
    rfl
  · exact hlength ▸ h.heard.mono (Nat.le_succ _)
  · exact fun a ha => hlength ▸ Nat.lt_succ_of_lt (h.answers a ha)
  · intro v hv
    have hmono := (h.visits v hv).mono (Nat.le_succ _) []
    rw [List.append_nil] at hmono
    exact hlength ▸ hmono
  · intro i l hl
    change reader.component.loops[i]? = some l at hl
    rw [hloops] at hl
    rcases Nat.lt_or_ge i w.loops.length with hi | hi
    · rw [List.getElem?_append_left hi] at hl
      exact h.laws i l hl
    · rw [List.getElem?_append_right hi] at hl
      have hl' : l = .begin time := List.mem_singleton.1 (List.mem_of_getElem? hl)
      change A l (w.heardBy i) (w.answersOf i)
      rw [h.heardBy_eq_nil hi, h.answersOf_eq_nil hi, hl']
      exact hA.begin time
  · rw [hreader]
    exact h.format

theorem Sound.move (h : w.Sound format A) (time : Nat) :
    (w.step (.move time)).Sound format A := by
  change Sound format A { w with
    reader := (w.reader.step time).1
    heard := w.heard ++ w.hears.map (Prod.mk (w.loops.length - 1)) }
  cases hlatest : w.reader.component.latest? with
  | none =>
      have hstep : (w.reader.step time).1 = w.reader := by rw [Reader.step, hlatest]
      have hhears : w.hears = [] := by rw [hears, hlatest]
      rw [hstep, hhears, List.map_nil, List.append_nil]
      exact h
  | some r =>
      obtain ⟨hl, hlast⟩ := getElem?_loops_latest hlatest
      have hexited := r.loop.hasExited_step w.reader.format w.reader.backoff time w.reader.source
      have hlaw := hA.step (h.laws _ _ hl) w.reader.backoff time w.reader.source
      rw [← h.format] at hlaw
      have hhears : w.hears = r.loop.hears w.reader.source := by rw [hears, hlatest]
      have hset := h.setLoop hl _ (r.loop.step w.reader.format w.reader.backoff time
        w.reader.source).1 (r.loop.hears w.reader.source) [] w.visits (fun hr => hexited.trans hr)
        (.inr hlast) (by rw [List.append_nil]; exact hlaw)
        (by rw [List.map_nil, List.append_nil]; exact h.visits)
      rw [List.map_nil, List.append_nil] at hset
      rw [Reader.step_of_latest? hlatest, hhears, ← Component.length_loops]
      exact hset

theorem Sound.exit (h : w.Sound format A) :
    Sound format A { w with reader := w.reader.exit.getD w.reader } := by
  unfold Reader.exit
  split
  next l hlatest =>
    split
    next => exact h
    next =>
      obtain ⟨hl, -⟩ := getElem?_loops_latest hlatest
      have hset := h.setLoop hl l.exit w.reader.source [] [] w.visits (fun _ => rfl) (.inl rfl)
        (by simpa using hA.exit (h.laws _ _ hl)) (by simpa using h.visits)
      rw [List.map_nil, List.append_nil, List.map_nil, List.append_nil, loops,
        Component.length_loops] at hset
      exact hset
  next => exact h

theorem Sound.take (h : w.Sound format A) (k : Nat) (reportFirst : Bool) :
    (w.take k reportFirst).Sound format A := by
  unfold Audience.take
  split
  next => exact h
  next i hk =>
    obtain ⟨l, hl⟩ : ∃ l, w.loops[i]? = some l := ⟨_, List.getElem?_eq_getElem (h.waits hk)⟩
    have hlaw := hA.take (h.laws i l hl) reportFirst
    rw [Reader.takeFrom_of_loops hl]
    cases hanswer : (l.inbox.take reportFirst).2 with
    | none =>
        have hset := h.setLoop hl { l with inbox := (l.inbox.take reportFirst).1 } w.reader.source
          [] [] w.visits id (.inl rfl) (by simpa [hanswer] using hlaw) (by simpa using h.visits)
        simpa using hset
    | some answer =>
        rw [hanswer] at hlaw
        have hset := h.setLoop hl { l with inbox := (l.inbox.take reportFirst).1 } w.reader.source
          [] [answer] (w.visits.set k ⟨some i, some answer⟩) id (.inl rfl)
          (by rw [List.append_nil]; exact hlaw) fun v hv => by
            rcases List.mem_or_eq_of_mem_set hv with hv | rfl
            · exact (h.visits v hv).mono (Nat.le_refl _) _
            · refine ⟨fun j hj => Option.some.inj hj ▸ h.waits hk, nofun, fun c hc => ?_⟩
              cases hc
              exact ⟨i, rfl, by simp [RunLog.of]⟩
        simpa using hset

theorem Sound.step (h : w.Sound format A) (e : Event) : (w.step e).Sound format A := by
  cases e with
  | start time asked =>
      change Sound format A (match w.reader.start time asked with
        | .ok reader => { w with reader }
        | .error _ => w)
      split
      next hw => exact h.start hA hw
      next => exact h
  | stop =>
      change Sound format A (match w.reader.claim with
        | .ok (i, reader) => { w with reader, stops := i :: w.stops }
        | .error _ => w)
      split
      next hw => exact h.stop hw
      next => exact h
  | join k =>
      change Sound format A (match w.callers.join k with
        | some (c, _) => w.withCallers c
        | none => w)
      split
      next hw => exact h.join hw
      next => exact h
  | drop k => exact h.drop k
  | cancel => exact h.cancel
  | move time => exact h.move hA time
  | exit => exact h.exit hA
  | read => exact h.read
  | take k reportFirst => exact h.take hA k reportFirst
  | giveUp k => exact h.giveUp k

theorem Sound.run (h : w.Sound format A) (events : List Event) : (w.run events).Sound format A := by
  induction events generalizing w with
  | nil => exact h
  | cons e events ih => exact ih (h.step hA e)

end Audience

end CourierDispatch
