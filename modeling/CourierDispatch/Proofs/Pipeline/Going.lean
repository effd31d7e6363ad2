import CourierDispatch.Proofs.Pipeline.Calls
import CourierDispatch.Proofs.Pipeline.Interruption
import CourierDispatch.Proofs.Reader.Channels

/-!
# What goes on by itself

Between the calls of a pipeline, and while they are in progress, its loops move, end when they have been
asked to, and turn commands away; the source changes and time passes. None of this starts or stops a
component: who has an activation, and which inbox is read from, is settled by the calls alone.
-/

namespace CourierDispatch

namespace Component

variable {α : Type}

/-- Nothing has become of a component but that its loops have gone on or been asked to end. -/
structure Stays (c c' : Component α) : Prop where
  label : c'.label = c.label
  control : c'.control = c.control
  length : c'.runs.length = c.runs.length

namespace Stays

variable {c c' c'' : Component α}

theorem refl (c : Component α) : c.Stays c := ⟨rfl, rfl, rfl⟩

theorem trans (h : c.Stays c') (h' : c'.Stays c'') : c.Stays c'' :=
  ⟨h'.label.trans h.label, h'.control.trans h.control, h'.length.trans h.length⟩

theorem askAll (c : Component α) : c.Stays c.askAll := ⟨rfl, rfl, List.length_map _⟩

theorem modify (c : Component α) (i : Nat) (f : Run α → Run α) :
    c.Stays { c with runs := c.runs.modify i f } :=
  ⟨rfl, rfl, List.length_modify _ _ _⟩

theorem setLatest (c : Component α) (loop : α) : c.Stays (c.setLatest loop) := modify c _ _

end Stays

end Component

namespace Reader

variable {S : Type}

/-- Nothing has become of a reader but that its loops have gone on or been asked to end, and that its
source is another one. -/
structure Stays (r r' : Reader S) : Prop where
  component : r.component.Stays r'.component
  channels : r'.channels = r.channels

namespace Stays

variable {r r' r'' : Reader S}

theorem refl (r : Reader S) : r.Stays r := ⟨.refl _, rfl⟩

theorem trans (h : r.Stays r') (h' : r'.Stays r'') : r.Stays r'' :=
  ⟨h.component.trans h'.component, h'.channels.trans h.channels⟩

theorem step [MessageSource S] (r : Reader S) (time : Nat) : r.Stays (r.step time).1 := by
  refine ⟨?_, r.channels_step time⟩
  unfold Reader.step
  split
  next => exact .refl _
  next =>
    split
    next => exact .refl _
    next => exact .setLatest _ _

theorem ends (r : Reader S) : r.Stays (r.exit.getD r) := by
  refine ⟨?_, r.channels_exit⟩
  unfold Reader.exit
  split
  next =>
    split
    next => exact .refl _
    next => exact .setLatest _ _
  next => exact .refl _

theorem takeFrom (r : Reader S) (i : Nat) (reportFirst : Bool) :
    r.Stays (r.takeFrom i reportFirst).1 := by
  refine ⟨?_, r.channels_takeFrom i reportFirst⟩
  unfold Reader.takeFrom
  split
  next => exact .refl _
  next => exact .modify _ _ _

end Stays

end Reader

namespace Desk

variable {S H K : Type} {d d' : Desk S H K}

structure Stays (d d' : Desk S H K) : Prop where
  reader : d.reader.Stays d'.reader
  processor : d.processor.component.Stays d'.processor.component

namespace Stays

theorem refl (d : Desk S H K) : d.Stays d := ⟨.refl _, .refl _⟩

theorem trans {d'' : Desk S H K} (h : d.Stays d') (h' : d'.Stays d'') : d.Stays d'' :=
  ⟨h.reader.trans h'.reader, h.processor.trans h'.processor⟩

theorem withReader {reader : Reader S} (h : d.reader.Stays reader) :
    d.Stays { d with reader } := ⟨h, .refl _⟩

theorem ends (d : Desk S H K) :
    d.Stays { d with processor := d.processor.exit.getD d.processor } := by
  refine ⟨.refl _, ?_⟩
  cases hexit : d.processor.exit with
  | none => exact .refl _
  | some processor =>
      obtain ⟨l, -, -, rfl⟩ := Processor.exists_of_exit hexit
      exact .setLatest _ _

theorem turnAway (d : Desk S H K) (reportFirst : Bool) : d.Stays (d.turnAway reportFirst) := by
  unfold Desk.turnAway
  split
  next l _ =>
    split
    next i _ =>
      have htake := Reader.Stays.takeFrom d.reader i reportFirst
      split
      next reader c hreader =>
        rw [hreader] at htake
        exact ⟨htake, .setLatest _ _⟩
      next => exact .refl d
    next => exact .refl d
  next => exact .refl d

variable [Service H] [MessageSink K]

theorem step {time : Nat} {reportFirst : Bool} (h : d.step time reportFirst = some d') :
    d.Stays d' := by
  cases hl : d.processor.component.latestLoop? with
  | none =>
      rw [step_of_latestLoop? hl] at h
      cases h
  | some l =>
      have htaken {i : Nat} {reader : Reader S} {answer : Option (Except ReadError Command)}
          (htake : d.reader.takeFrom i reportFirst = (reader, answer)) : d.reader.Stays reader := by
        have hstays := Reader.Stays.takeFrom d.reader i reportFirst
        rwa [htake] at hstays
      have hmove := move_of_step hl h
      generalize d.next? reportFirst = command? at hmove
      cases hmove with
      | command _ _ _ _ htake => exact ⟨htaken htake, .setLatest _ _⟩
      | report _ _ _ _ htake => exact ⟨htaken htake, .setLatest _ _⟩
      | _ => exact ⟨.refl _, .setLatest _ _⟩

end Stays

end Desk

/-- What may go on in a pipeline while a call of it is in progress. -/
inductive Going (S : Type)
  /-- The loops move, the source changes, time passes. -/
  | stir (e : Stir S)
  /-- The consume loop ends, if it has been asked to. -/
  | readerEnds
  /-- The dispatch loop ends where it waits, if it has been asked to. -/
  | processorEnds
  | turnAway (reportFirst : Bool)
  /-- The whole program is asked to end. -/
  | cancel

namespace Pipeline

variable {S H K : Type} [MessageSource S] [Service H] [MessageSink K] {p : Pipeline S H K}

def go (p : Pipeline S H K) : Going S → Pipeline S H K
  | .stir e => p.stir e
  | .readerEnds =>
    { p with desk := { p.desk with reader := p.desk.reader.exit.getD p.desk.reader } }
  | .processorEnds =>
    { p with desk := { p.desk with processor := p.desk.processor.exit.getD p.desk.processor } }
  | .turnAway reportFirst => { p with desk := p.desk.turnAway reportFirst }
  | .cancel => p.cancel

def goAll (p : Pipeline S H K) (gs : List (Going S)) : Pipeline S H K := gs.foldl go p

theorem stays_go (p : Pipeline S H K) (g : Going S) : p.desk.Stays (p.go g).desk := by
  cases g with
  | stir e =>
      cases e with
      | source s => exact .withReader ⟨.refl _, rfl⟩
      | reader => exact .withReader (.step _ _)
      | pass millis => exact .refl _
      | processor reportFirst =>
          change p.desk.Stays ((p.desk.step p.time reportFirst).getD p.desk)
          cases hstep : p.desk.step p.time reportFirst with
          | none => exact .refl _
          | some d => exact .step hstep
  | readerEnds => exact .withReader (.ends _)
  | processorEnds => exact .ends _
  | turnAway reportFirst => exact .turnAway _ _
  | cancel => exact ⟨⟨.askAll _, rfl⟩, .askAll _⟩

theorem stays_goAll (p : Pipeline S H K) (gs : List (Going S)) :
    p.desk.Stays (p.goAll gs).desk := by
  induction gs generalizing p with
  | nil => exact .refl _
  | cons g gs ih => exact (p.stays_go g).trans (ih (p.go g))

end Pipeline

end CourierDispatch
