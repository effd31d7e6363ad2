import CourierDispatch.Proofs.Pipeline.Progress
import CourierDispatch.Proofs.Processor.Deeds
import CourierDispatch.Proofs.Reader.Intake
import CourierDispatch.Proofs.Reader.Lively

/-!
# The dealings of a pipeline

A pipeline that is not cancelled deals with one command after the other, in the order in which they have
arrived. It tries to write each result until the tries settle. Whatever the handler answers and whatever
the sink does with the results, the pipeline gets through all commands: each move leaves less to do.
-/

namespace CourierDispatch

/-- What may happen to a pipeline that is neither stopped nor cancelled. -/
inductive Incident
  | event (e : Event)
  | closeWriter
deriving DecidableEq, Repr

def Incident.letters (incidents : List Incident) : List Letter :=
  incidents.flatMap fun i =>
    match i with
    | event e => e.letter?.toList
    | closeWriter => []

theorem Incident.letters_append (is js : List Incident) :
    letters (is ++ js) = letters is ++ letters js :=
  List.flatMap_append

/-- The pipeline, which has been started on a topic without messages. -/
def Setup.pipeline {H K : Type} (s : Setup H K) : Pipeline MemoryTopic H K :=
  Pipeline.start { desk :=
    { reader :=
        { source := { name := s.config.commandTopic }
          format := s.config.format
          backoff := s.config.readBackoff }
      processor :=
        { handler := s.handler, retry := s.config.retry, idleBackoff := s.config.readBackoff }
      writer := s.config.writer s.sink } } |>.1

namespace Pipeline

variable {H K : Type} [Service H] [MessageSink K]

def meet (p : Pipeline MemoryTopic H K) : Incident → Pipeline MemoryTopic H K
  | .event e => p.occur e
  | .closeWriter => p.closeWriter.1

def meetAll (p : Pipeline MemoryTopic H K) (incidents : List Incident) : Pipeline MemoryTopic H K :=
  incidents.foldl meet p

/-- What is done for a command when something happens. -/
def deed? (p : Pipeline MemoryTopic H K) : Incident → Option (Deed H K)
  | .event (.processor reportFirst) => p.desk.deed? p.time reportFirst
  | _ => none

def deeds (p : Pipeline MemoryTopic H K) : List Incident → List (Deed H K)
  | [] => []
  | i :: incidents => (p.deed? i).toList ++ (p.meet i).deeds incidents

theorem meetAll_events (p : Pipeline MemoryTopic H K) (events : List Event) :
    p.meetAll (events.map .event) = p.run events := by
  induction events generalizing p with
  | nil => rfl
  | cons e events ih => exact ih (p.occur e)

variable [AtomicSink K]

/-- A pipeline that goes on, with its loops, the commands that have arrived and the deeds done. -/
structure Busy (s : Setup H K) (closable : Prop) (commands : List Command)
    (deeds : List (Deed H K)) (p : Pipeline MemoryTopic H K) (r : ConsumeLoop)
    (l : DispatchLoop H (Writer K)) : Prop where
  intake : p.desk.reader.Intake s.config.format commands (deeds.filterMap Deed.command?)
  up : p.desk.reader.Up r
  dealt : p.desk.Dealt s closable deeds l

/-- What there is to do for the commands that have arrived. -/
def toDo (config : Config) (p : Pipeline MemoryTopic H K) (r : ConsumeLoop)
    (l : DispatchLoop H (Writer K)) : Nat :=
  r.burden config.retry.attempts p.desk.reader.source + l.stage.effort config.retry.attempts

variable {s : Setup H K} {closable : Prop} {commands : List Command} {deeds : List (Deed H K)}
  {p : Pipeline MemoryTopic H K} {r : ConsumeLoop} {l : DispatchLoop H (Writer K)}

theorem Busy.arrive (h : p.Busy s closable commands deeds r l) (key : Option (List UInt8))
    (m : Letter) :
    Busy s closable (commands ++ [m].filterMap (·.command? s.config.format)) deeds
      (p.occur (.arrive key m)) r l where
  intake := h.intake.publish key m
  up := by
    have hpublish := MemoryTopic.publish_of_open h.up.source key m.value m.headers
    refine ⟨h.up.channels, ?_, h.up.runs, h.up.lively⟩
    change (p.desk.reader.source.publish key m.value m.headers).1.closed = false
    rw [hpublish]
    exact h.up.source
  dealt := ⟨h.dealt.runs, h.dealt.retry, h.dealt.labelled, h.dealt.trail, h.dealt.docket⟩

theorem Busy.closeWriter (h : p.Busy s closable commands deeds r l) (hclosable : closable) :
    Busy s closable commands deeds p.closeWriter.1 r l where
  intake := h.intake
  up := h.up
  dealt := by
    obtain ⟨dealings, rest, hdocket⟩ := h.dealt.docket
    refine ⟨h.dealt.runs, h.dealt.retry, h.dealt.labelled.close, h.dealt.trail.close hclosable,
      dealings, rest, ?_⟩
    change Docket s.config _ (AtomicSink.taken p.desk.writer.close.1.sink) _ _ _ _
    rw [Writer.taken_close]
    exact hdocket

theorem Busy.reader (h : p.Busy s closable commands deeds r l) :
    ∃ r', Busy s closable commands deeds (p.occur .reader) r' l ∧
      (toDo s.config (p.occur .reader) r' l < toDo s.config p r l ∨ r.Waits p.desk.reader.source) := by
  obtain ⟨r', hup, hless⟩ := h.up.step s.config.retry.attempts p.time
  have hreader : (p.occur .reader).desk =
      { p.desk with reader := (p.desk.reader.step p.time).1 } := by
    simp only [occur, move, Floor.desk_putBehind]
    rw [Reader.turn, h.up.exit]
  refine ⟨r', ⟨?_, ?_, ?_⟩, hless.imp_left fun hlt => ?_⟩
  · rw [hreader]
    exact h.intake.step p.time
  · rw [hreader]
    exact hup
  · rw [hreader]
    exact ⟨h.dealt.runs, h.dealt.retry, h.dealt.labelled, h.dealt.trail, h.dealt.docket⟩
  · rw [toDo, toDo, hreader]
    exact Nat.add_lt_add_right hlt _

/-- A move of the dispatch loop leaves less to do. -/
theorem Busy.step (h : p.Busy s closable commands deeds r l) {time : Nat} {reportFirst : Bool}
    {d : Desk MemoryTopic H K} (hstep : p.desk.step time reportFirst = some d) :
    ∃ r' l', (d.reader.Intake s.config.format commands
        ((deeds ++ (p.desk.deed? time reportFirst).toList).filterMap Deed.command?)) ∧
      d.reader.Up r' ∧
      d.Dealt s closable (deeds ++ (p.desk.deed? time reportFirst).toList) l' ∧
      r'.burden s.config.retry.attempts d.reader.source + l'.stage.effort s.config.retry.attempts <
        toDo s.config p r l := by
  obtain ⟨hup, hsource, hanswer⟩ := h.up.take reportFirst
  have htaken := (h.up.lively.take s.config.retry.attempts p.desk.reader.source reportFirst).2
  have hintake := h.intake.take reportFirst
  rw [← hanswer] at htaken
  obtain ⟨l', hdealt, hspends⟩ := h.dealt.step h.up.channels (fun reader e htake => by
    rw [htake] at htaken
    exact htaken.1) hstep
  rw [List.filterMap_append, Desk.command?_deed?]
  cases hspends with
  | works hnext hreader heffort =>
      rw [hnext, Option.toList_none, List.append_nil, hreader]
      exact ⟨r, l', h.intake, h.up, hdealt, Nat.add_lt_add_left heffort _⟩
  | takes c hnext htake heffort =>
      rw [htake] at hup hsource htaken hintake
      rw [hnext]
      refine ⟨_, l', hintake, hup, hdealt, ?_⟩
      simp only at htaken hsource
      rw [hsource, heffort, toDo]
      omega
  | reports e hnext htake heffort =>
      rw [htake] at hup hsource htaken hintake
      rw [hnext]
      refine ⟨_, l', hintake, hup, hdealt, ?_⟩
      simp only at htaken hsource
      rw [hsource, heffort, toDo]
      omega

theorem Busy.desk_occur (h : p.Busy s closable commands deeds r l) (reportFirst : Bool) :
    (p.occur (.processor reportFirst)).desk = (p.desk.step p.time reportFirst).getD p.desk := by
  have hexit : p.desk.processor.exit = none := by rw [Processor.exit, h.dealt.latest?]
  simp only [occur, Desk.turnWith, hexit, Floor.desk_putBehind]
  cases p.desk.step p.time reportFirst <;> rfl

theorem Busy.processor (h : p.Busy s closable commands deeds r l) (reportFirst : Bool) :
    ∃ r' l', Busy s closable commands
        (deeds ++ (p.deed? (.event (.processor reportFirst))).toList)
        (p.occur (.processor reportFirst)) r' l' ∧
      ((p.desk.step p.time reportFirst).isSome →
        toDo s.config (p.occur (.processor reportFirst)) r' l' < toDo s.config p r l) := by
  have hdesk := h.desk_occur reportFirst
  cases hstep : p.desk.step p.time reportFirst with
  | none =>
      rw [hstep, Option.getD_none] at hdesk
      refine ⟨r, l, ?_, nofun⟩
      rw [deed?, Desk.deed?_of_step hstep, Option.toList_none, List.append_nil]
      refine ⟨?_, ?_, ?_⟩ <;> rw [hdesk]
      exacts [h.intake, h.up, h.dealt]
  | some d =>
      rw [hstep, Option.getD_some] at hdesk
      obtain ⟨r', l', hintake, hup, hdealt, hless⟩ := h.step hstep
      refine ⟨r', l', ⟨?_, ?_, ?_⟩, fun _ => ?_⟩
      · rw [hdesk]
        exact hintake
      · rw [hdesk]
        exact hup
      · rw [hdesk]
        exact hdealt
      · rw [toDo, hdesk]
        exact hless

/-- Whatever happens, the pipeline goes on with what has arrived and what it has done. -/
theorem Busy.meet (h : p.Busy s closable commands deeds r l) (i : Incident)
    (hclosable : i = .closeWriter → closable) :
    ∃ r' l', Busy s closable
      (commands ++ (Incident.letters [i]).filterMap (·.command? s.config.format))
      (deeds ++ (p.deed? i).toList) (p.meet i) r' l' := by
  have hquiet {q : Pipeline MemoryTopic H K} {r' : ConsumeLoop}
      (hq : Busy s closable commands deeds q r' l) :
      Busy s closable (commands ++ ([] : List Letter).filterMap (·.command? s.config.format))
        (deeds ++ (none : Option (Deed H K)).toList) q r' l := by
    rw [List.filterMap_nil, Option.toList_none, List.append_nil, List.append_nil]
    exact hq
  cases i with
  | closeWriter => exact ⟨r, l, hquiet (h.closeWriter (hclosable rfl))⟩
  | event e =>
      cases e with
      | arrive key m =>
          refine ⟨r, l, ?_⟩
          change Busy s closable _ (deeds ++ []) (p.occur (.arrive key m)) r l
          rw [List.append_nil]
          exact h.arrive key m
      | reader =>
          obtain ⟨r', hbusy, -⟩ := h.reader
          exact ⟨r', l, hquiet hbusy⟩
      | processor reportFirst =>
          obtain ⟨r', l', hbusy, -⟩ := h.processor reportFirst
          refine ⟨r', l', ?_⟩
          change Busy s closable (commands ++ []) _ (p.occur (.processor reportFirst)) r' l'
          rw [List.append_nil]
          exact hbusy
      | pass millis => exact ⟨r, l, hquiet ⟨h.intake, h.up, h.dealt⟩⟩

theorem Busy.meetAll (h : p.Busy s closable commands deeds r l) (incidents : List Incident)
    (hclosable : .closeWriter ∈ incidents → closable) :
    ∃ r' l', Busy s closable
      (commands ++ (Incident.letters incidents).filterMap (·.command? s.config.format))
      (deeds ++ p.deeds incidents) (p.meetAll incidents) r' l' := by
  induction incidents generalizing p commands deeds r l with
  | nil =>
      refine ⟨r, l, ?_⟩
      rw [Pipeline.deeds, List.append_nil]
      exact (List.append_nil commands).symm ▸ h
  | cons i incidents ih =>
      obtain ⟨r', l', hmeet⟩ := h.meet i fun hi => hclosable (hi ▸ List.mem_cons_self)
      obtain ⟨r'', l'', hrest⟩ := ih hmeet fun hi => hclosable (List.mem_cons_of_mem i hi)
      refine ⟨r'', l'', ?_⟩
      have hletters := Incident.letters_append [i] incidents
      rw [List.singleton_append] at hletters
      rw [hletters, List.filterMap_append, Pipeline.deeds, ← List.append_assoc, ← List.append_assoc]
      exact hrest

/-- The dispatch loop can move, at once or later, unless it waits for a command. -/
theorem Busy.exists_step (h : p.Busy s closable commands deeds r l)
    (hprompt : Service.Prompt H) :
    (∃ time, p.time ≤ time ∧ (p.desk.step time false).isSome) ∨
      (∃ i, l.stage = .reading i) ∧ r.inbox.command = none := by
  obtain ⟨dealings, rest, hdocket⟩ := h.dealt.docket
  have hunderway := hdocket.underway
  have hlatest := h.dealt.latest?
  obtain ⟨-, -, hanswer⟩ := h.up.take false
  have htaken := (h.up.lively.take 0 p.desk.reader.source false).2
  generalize hstage : l.stage = stage at hunderway
  have hdue {due : Option Nat} (hsome : due.isSome) :
      ∃ time, p.time ≤ time ∧ DispatchLoop.isDue due time = true := by
    obtain ⟨t, rfl⟩ := Option.isSome_iff_exists.1 hsome
    exact ⟨max p.time t, Nat.le_max_left _ _, decide_eq_true (Nat.le_max_right _ _)⟩
  cases hunderway with
  | next =>
      refine .inl ⟨p.time, Nat.le_refl _, ?_⟩
      simp only [Desk.step, hlatest, hstage, h.up.channels]
      rfl
  | reading =>
      cases htake : (r.inbox.take false).2 with
      | none =>
          rw [htake] at htaken
          exact .inr ⟨⟨0, rfl⟩, htaken⟩
      | some a =>
          refine .inl ⟨p.time, Nat.le_refl _, ?_⟩
          rcases hfrom : p.desk.reader.takeFrom 0 false with ⟨reader, answer⟩
          rw [hfrom, htake] at hanswer
          cases hanswer
          simp only [Desk.step, hlatest, hstage, hfrom]
          cases a <;> rfl
  | handling asked c hsome =>
      obtain ⟨time, htime, hdue⟩ := hdue (hsome hprompt)
      refine .inl ⟨time, htime, ?_⟩
      simp only [Desk.step, hlatest, hstage, hdue, if_true]
      rfl
  | publishing =>
      refine .inl ⟨p.time, Nat.le_refl _, ?_⟩
      simp only [Desk.step, hlatest, hstage]
      rfl
  | writing _ w hsome =>
      obtain ⟨time, htime, hdue⟩ := hdue hsome
      refine .inl ⟨time, htime, ?_⟩
      simp only [Desk.step, hlatest, hstage, hdue, if_true]
      rfl
  | pausing _ due =>
      refine .inl ⟨max p.time due, Nat.le_max_left _ _, ?_⟩
      simp only [Desk.step, hlatest, hstage, if_pos (Nat.le_max_right p.time due)]
      rfl

theorem Busy.drained_or_less (h : p.Busy s closable commands deeds r l)
    (hprompt : Service.Prompt H) :
    p.Drained ∨ ∃ q deeds' r' l', p.Reaches q ∧ Busy s closable commands deeds' q r' l' ∧
      toDo s.config q r' l' < toDo s.config p r l := by
  rcases h.exists_step hprompt with ⟨time, htime, hstep⟩ | ⟨⟨i, hstage⟩, hcommand⟩
  · have hlater : Busy s closable commands deeds { p with time } r l :=
      ⟨h.intake, h.up, h.dealt⟩
    obtain ⟨r', l', hbusy, hless⟩ := hlater.processor false
    exact .inr ⟨_, _, r', l', (reaches_time p htime).trans
      (reaches_occur _ (e := .processor false) rfl), hbusy, hless hstep⟩
  · obtain ⟨r', hbusy, hless | ⟨hreading, hqueue⟩ | hfull⟩ := h.reader
    · exact .inr ⟨_, _, r', l, reaches_occur p (e := .reader) rfl, hbusy, hless⟩
    · exact .inl ⟨hqueue, ⟨⟨false, r⟩, h.up.latest?, hreading, hcommand⟩, ⟨false, l⟩,
        h.dealt.latest?, .inr ⟨i, hstage⟩⟩
    · rw [hcommand] at hfull
      cases hfull

/-- The pipeline can be drained. -/
theorem Busy.exists_drained (h : p.Busy s closable commands deeds r l)
    (hprompt : Service.Prompt H) : ∃ q, p.Reaches q ∧ q.Drained := by
  induction hn : toDo s.config p r l using Nat.strongRecOn generalizing p deeds r l with
  | ind n ih =>
      rcases h.drained_or_less hprompt with hdrained | ⟨q, deeds', r', l', hreaches, hbusy, hless⟩
      · exact ⟨p, .refl p, hdrained⟩
      · obtain ⟨q', hq', hdrained⟩ := ih _ (hn ▸ hless) hbusy rfl
        exact ⟨q', hreaches.trans hq', hdrained⟩

/-- A drained pipeline has handled all commands and has none in hand. -/
theorem Busy.of_drained (h : p.Busy s closable commands deeds r l) (hp : p.Drained) :
    deeds.filterMap Deed.command? = commands ∧ ∀ rest, Underway s.config l.stage rest →
      rest = [] := by
  obtain ⟨hqueue, ⟨run, hrun, hreading, hcommand⟩, ⟨run', hrun', hstage⟩⟩ := hp
  rw [h.up.latest?] at hrun
  cases hrun
  rw [h.dealt.latest?] at hrun'
  cases hrun'
  constructor
  · obtain ⟨l', consumed, hloops, haccounted, hcommands⟩ := h.intake.loop
    rw [h.up.loops] at hloops
    cases hloops
    have hexited : r.hasExited = false := by rw [ConsumeLoop.hasExited, hreading]
    have hunderway : r.underway = [] := by
      rw [ConsumeLoop.underway, ConsumeLoop.blocked, hcommand, hreading]
      rfl
    rw [haccounted.eq_of_hasExited hexited, hunderway, MemoryTopic.commands, hqueue] at hcommands
    simpa using hcommands
  · intro rest hunderway
    rcases hstage with hstage | ⟨i, hstage⟩ <;>
    · rw [hstage] at hunderway
      cases hunderway
      rfl

end Pipeline

end CourierDispatch
