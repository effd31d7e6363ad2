import CourierDispatch.Proofs.Pipeline.Floor
import CourierDispatch.Proofs.Processor.Handover

/-!
# Invariants of a writer

Whether a writer is open is settled when it is given a result, and again for the next one. An invariant
of the writer is therefore kept by a dispatch loop if it held both when the result was given and when the
writer answers. An open writer of an accepting sink publishes everything; one that is closed publishes
nothing and leaves its sink alone.
-/

namespace CourierDispatch

variable {S H K : Type} [MessageSink K]

/-- An invariant of a writer. `Begun` is what was true of the writer when it was given a result. -/
structure WriterLaw (Good Begun : Writer K → Prop) : Prop where
  start {w : Writer K} : Good w → Begun w
  begun {w : Writer K} (r : Result) : Good w → Good (w.write (some r)).begun
  finish {w₀ w : Writer K} (r : Result) : Begun w₀ → Good w → Good ((w₀.write (some r)).finish w).1

namespace Writer

theorem write_of_closed {w : Writer K} (h : w.closed = true) (r : Result) :
    w.write (some r) = .now w (.error .closed) :=
  if_pos h

theorem closed_close (w : Writer K) : w.close.1.closed = true := by
  unfold close
  split
  next h => exact h
  next => rfl

theorem law_any : WriterLaw (K := K) (fun _ => True) (fun _ => True) :=
  ⟨fun _ => trivial, fun _ _ => trivial, fun _ _ _ => trivial⟩

/-- A writer that is closed stays so, whatever it was given before. -/
theorem law_closed : WriterLaw (K := K) (fun w => w.closed = true) (fun _ => True) where
  start _ := trivial
  begun r h := by rwa [write_of_closed h]
  finish {w₀ w} r _ h := by
    cases hw₀ : w₀.closed with
    | true => rwa [write_of_closed hw₀]
    | false =>
        -- the writer was open when it was asked, but its answer changes nothing save the sink
        simp only [write, hw₀]
        exact h

/-- A writer that was closed from the first is not changed at all. -/
theorem law_same {w₁ : Writer K} (hw : w₁.closed = true) : WriterLaw (· = w₁) (· = w₁) where
  start h := h
  begun r h := by
    subst h
    rw [write_of_closed hw]
    rfl
  finish r h₀ h := by
    subst h₀
    rw [write_of_closed hw]
    exact h

variable [AcceptingSink K] {config : Config}

/-- A writer that is open, and whose sink takes the messages of results. -/
structure Serving (config : Config) (w : Writer K) : Prop where
  eq : w = config.writer w.sink
  ready : AcceptingSink.Ready config.resultTopic w.sink

theorem Serving.begun {w : Writer K} (h : w.Serving config) (r : Result) :
    (w.write (some r)).begun.Serving config ∧
      AcceptingSink.taken (w.write (some r)).begun.sink = AcceptingSink.taken w.sink := by
  have htopic : ∀ m ∈ [config.message r], m.topic = config.resultTopic := Floor.topic_message r
  obtain ⟨hready, htaken⟩ := AcceptingSink.begun h.ready htopic
  have hbegun : (w.write (some r)).begun =
      config.writer (MessageSink.write w.sink [config.message r]).begun := by
    rw [h.eq]
    rfl
  rw [hbegun]
  exact ⟨⟨rfl, hready⟩, htaken⟩

theorem Serving.finish {w₀ w : Writer K} (h₀ : w₀.Serving config) (h : w.Serving config) (r : Result) :
    ((w₀.write (some r)).finish w).2 = .ok () ∧ ((w₀.write (some r)).finish w).1.Serving config ∧
      AcceptingSink.taken ((w₀.write (some r)).finish w).1.sink =
        AcceptingSink.taken w.sink ++ [config.message r] := by
  have htopic : ∀ m ∈ [config.message r], m.topic = config.resultTopic := Floor.topic_message r
  obtain ⟨hok, hready, htaken⟩ := AcceptingSink.finish h₀.ready htopic h.ready
  have hfinish : (w₀.write (some r)).finish w =
      (config.writer ((MessageSink.write w₀.sink [config.message r]).finish w.sink).1,
        ((MessageSink.write w₀.sink [config.message r]).finish w.sink).2.mapError .publish) := by
    rw [h₀.eq, h.eq]
    rfl
  rw [hfinish, hok]
  exact ⟨rfl, ⟨rfl, hready⟩, htaken⟩

theorem law_serving (config : Config) :
    WriterLaw (K := K) (Serving config) (Serving config) where
  start h := h
  begun r h := (h.begun r).1
  finish r h₀ h := (h₀.finish h r).2.1

end Writer

namespace Desk

variable {Good Begun : Writer K → Prop}

/-- A writer is good, and it was when it was given what the dispatch loop waits for. -/
structure Guarded (Good Begun : Writer K → Prop) (w : Writer K) (l : DispatchLoop H (Writer K)) :
    Prop where
  writer : Good w
  call : ∀ r finish, l.Writing r finish →
    ∃ w₀, Begun w₀ ∧ finish = (Writer.write w₀ (some r)).finish

theorem guarded_of_isWriting {w : Writer K} {l : DispatchLoop H (Writer K)} (hw : Good w)
    (hl : l.isWriting = false) : Guarded Good Begun w l :=
  ⟨hw, fun _ _ h => absurd h.isWriting (Bool.eq_false_iff.1 hl)⟩

section

variable {w w' : Writer K} {l l' : DispatchLoop H (Writer K)} {rs : List Result}

theorem Handover.guarded (law : WriterLaw Good Begun) (h : Handover w l rs w' l')
    (hw : Guarded Good Begun w l) : Guarded Good Begun w' l' := by
  cases h with
  | apart _ _ hwriting => exact guarded_of_isWriting hw.writer hwriting
  | begins _ _ hwriting =>
      -- the loop waits for this very call from now on
      refine ⟨law.begun _ hw.writer, fun r' finish hl => ?_⟩
      obtain ⟨rfl, rfl⟩ := hwriting.unique hl
      exact ⟨w, law.start hw.writer, rfl⟩
  | ends retry time c retries hwriting =>
      obtain ⟨w₀, hw₀, rfl⟩ := hw.call _ _ hwriting
      exact guarded_of_isWriting (law.finish _ hw₀ hw.writer)
        (DispatchLoop.isWriting_written retry time l c _ retries _)

/-- A loop with a serving writer publishes every result that it has come to hold. -/
theorem Handover.served [AcceptingSink K] {config : Config} (h : Handover w l rs w' l')
    (hw : Guarded (Writer.Serving config) (Writer.Serving config) w l) :
    AcceptingSink.taken w'.sink ++ l'.inHand.map config.message =
      AcceptingSink.taken w.sink ++ (l.inHand ++ rs).map config.message := by
  cases h with
  | apart hhand _ _ => rw [hhand]
  | begins hhand _ _ => rw [hhand, (hw.writer.begun _).2, List.append_nil]
  | @ends retry time c r retries finish hwriting =>
      obtain ⟨w₀, hw₀, rfl⟩ := hw.call _ _ hwriting
      obtain ⟨hok, -, htaken⟩ := hw₀.finish hw.writer r
      rw [hok, htaken, hwriting.inHand]
      exact List.append_nil _

/-- A loop with a closed writer drops every result that it has come to hold. -/
theorem Handover.refused {w₁ : Writer K} (hw₁ : w₁.closed = true) (h : Handover w l rs w' l')
    (hw : Guarded (· = w₁) (· = w₁) w l) :
    l'.dropped + l'.inHand.length = l.dropped + (l.inHand ++ rs).length := by
  cases h with
  | apart hhand hdropped _ => rw [hhand, hdropped]
  | begins hhand hdropped _ => rw [hhand, hdropped, List.append_nil]
  | @ends retry time c r retries finish hwriting =>
      obtain ⟨w₀, rfl, rfl⟩ := hw.call _ _ hwriting
      rw [Writer.write_of_closed hw₁, hwriting.inHand]
      rfl

end

/-- Handovers one after the other, with all results that the loop comes to hold. -/
inductive Handovers : Writer K → DispatchLoop H (Writer K) → List Result → Writer K →
    DispatchLoop H (Writer K) → Prop
  | nil (w : Writer K) (l : DispatchLoop H (Writer K)) : Handovers w l [] w l
  | cons {w w' w'' : Writer K} {l l' l'' : DispatchLoop H (Writer K)} {rs rs' : List Result}
      (h : Handover w l rs w' l') (hrest : Handovers w' l' rs' w'' l'') :
      Handovers w l (rs ++ rs') w'' l''

section

variable {w w' : Writer K} {l l' : DispatchLoop H (Writer K)} {rs : List Result}

theorem Handovers.append {w'' : Writer K} {l'' : DispatchLoop H (Writer K)} {rs' : List Result}
    (h : Handovers w l rs w' l') (h' : Handovers w' l' rs' w'' l'') :
    Handovers w l (rs ++ rs') w'' l'' := by
  induction h with
  | nil => exact h'
  | cons hmove _ ih =>
      rw [List.append_assoc]
      exact .cons hmove (ih h')

theorem Handovers.guarded (law : WriterLaw Good Begun) (h : Handovers w l rs w' l')
    (hw : Guarded Good Begun w l) : Guarded Good Begun w' l' := by
  induction h with
  | nil => exact hw
  | cons h _ ih => exact ih (h.guarded law hw)

theorem Handovers.served [AcceptingSink K] {config : Config} (h : Handovers w l rs w' l')
    (hw : Guarded (Writer.Serving config) (Writer.Serving config) w l) :
    AcceptingSink.taken w'.sink ++ l'.inHand.map config.message =
      AcceptingSink.taken w.sink ++ (l.inHand ++ rs).map config.message := by
  induction h with
  | nil => rw [List.append_nil]
  | cons h _ ih =>
      rw [ih (h.guarded (Writer.law_serving config) hw), List.map_append, ← List.append_assoc,
        h.served hw]
      simp

theorem Handovers.refused {w₁ : Writer K} (hw₁ : w₁.closed = true) (h : Handovers w l rs w' l')
    (hw : Guarded (· = w₁) (· = w₁) w l) :
    l'.dropped + l'.inHand.length = l.dropped + (l.inHand ++ rs).length := by
  induction h with
  | nil => rw [List.append_nil]
  | cons h _ ih =>
      have hfirst := h.refused hw₁ hw
      have hothers := ih (h.guarded (Writer.law_same hw₁) hw)
      simp only [List.length_append] at hfirst hothers ⊢
      omega

end

end Desk

end CourierDispatch
