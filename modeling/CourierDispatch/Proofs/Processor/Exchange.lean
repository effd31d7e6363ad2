import CourierDispatch.Proofs.Broker.AtomicSink
import CourierDispatch.Proofs.Pipeline.Floor

/-!
# Exchanges with a handler and a writer

Whatever is called has a state when the call begins, and it may have another one when the call ends. An
`Exchange` keeps them, together with what the call has made of them. `Config.offer` tells what an exchange
with a writer comes to: an open writer gives its sink the message of a result, and it answers what the
sink answers. A `Course` tells that no exchange of a run has been forgotten by the next one.
-/

namespace CourierDispatch

/-- A call as it went. -/
structure Exchange (σ α : Type) where
  /-- The state when the call begins. -/
  asked : σ
  begun : σ
  /-- The state when the call ends. -/
  met : σ
  left : σ
  answer : α

/-- The exchange is what comes of this call. -/
structure Exchange.Follows {σ α : Type} (x : Exchange σ α) (call : Call σ α) : Prop where
  begun : x.begun = call.begun
  finish : (x.left, x.answer) = call.finish x.met

/-- The way of a state through passages, where nothing but `Drift` happens before, between and after
them. -/
inductive Course {σ : Type} (Drift : σ → σ → Prop) (start : σ) : List (σ × σ) → σ → Prop
  | drift {s : σ} (h : Drift start s) : Course Drift start [] s
  | pass {passages : List (σ × σ)} {before after s : σ} (h : Course Drift start passages before)
      (hs : Drift after s) : Course Drift start (passages ++ [(before, after)]) s

theorem Course.trans {σ : Type} {Drift : σ → σ → Prop} [IsTrans σ Drift] {start s s' : σ}
    {passages : List (σ × σ)} (h : Course Drift start passages s) (hs : Drift s s') :
    Course Drift start passages s' := by
  cases h with
  | drift h => exact .drift (IsTrans.trans _ _ _ h hs)
  | pass h h' => exact .pass h (IsTrans.trans _ _ _ h' hs)

/-- A try to write a result. -/
abbrev Try (K : Type) := Exchange (Writer K) (Except WriteError Unit)

/-- What a writer is to do with a result. If it is closed, it refuses. Otherwise it gives the message of
the result to its sink, and nothing else. -/
def Config.offer {K : Type} [MessageSink K] (config : Config) (w : Writer K) (r : Result) :
    Call (Writer K) (Except WriteError Unit) :=
  let call := MessageSink.write w.sink [config.message r]
  if w.closed then { begun := w, finish := fun w => (w, .error .closed) }
  else
    { latency := call.latency
      begun := { w with sink := call.begun }
      finish := fun w =>
        ({ w with sink := (call.finish w.sink).1 }, (call.finish w.sink).2.mapError .publish) }

namespace Writer

variable {K : Type}

/-- A writer that labels its messages as it is configured to. -/
structure Labelled (config : Config) (w : Writer K) : Prop where
  topic : w.topic = config.resultTopic
  format : w.format = config.format

variable {config : Config} {w : Writer K}

theorem Labelled.message (h : w.Labelled config) (r : Result) : w.message r = config.message r := by
  rw [Writer.message, h.topic, h.format]
  rfl

variable [MessageSink K]

/-- Nothing happens to a writer, unless it is closed where that may happen. -/
def LeftAlone (closable : Prop) (w w' : Writer K) : Prop := w' = w ∨ closable ∧ w' = w.close.1

theorem close_close (w : Writer K) : w.close.1.close.1 = w.close.1 := by
  cases hw : w.closed with
  | true => simp [close, hw]
  | false => simp [close, hw]

instance (closable : Prop) : IsTrans (Writer K) (LeftAlone closable) where
  trans w w' w'' h h' := by
    rcases h with rfl | ⟨hclosable, rfl⟩
    · exact h'
    · rcases h' with rfl | ⟨-, rfl⟩
      · exact .inr ⟨hclosable, rfl⟩
      · exact .inr ⟨hclosable, w.close_close⟩

theorem Labelled.write (h : w.Labelled config) (r : Result) :
    w.write (some r) = config.offer w r := by
  cases hw : w.closed with
  | true => simp [Writer.write, Config.offer, hw, Call.now]
  | false => simp [Writer.write, Config.offer, hw, Call.within, h.message]

theorem Labelled.close (h : w.Labelled config) : w.close.1.Labelled config := by
  unfold Writer.close
  split
  next => exact h
  next => exact ⟨h.topic, h.format⟩

theorem Labelled.begun (h : w.Labelled config) (r : Result) :
    (config.offer w r).begun.Labelled config := by
  unfold Config.offer
  split
  next => exact h
  next => exact ⟨h.topic, h.format⟩

theorem Labelled.finish (h : w.Labelled config) (w₀ : Writer K) (r : Result) :
    ((config.offer w₀ r).finish w).1.Labelled config := by
  unfold Config.offer
  split
  next => exact h
  next => exact ⟨h.topic, h.format⟩

end Writer

section

variable {K : Type} [MessageSink K] [AtomicSink K]

theorem Writer.taken_close (w : Writer K) :
    AtomicSink.taken w.close.1.sink = AtomicSink.taken w.sink := by
  unfold Writer.close
  split
  next => rfl
  next => exact AtomicSink.close _

/-- An offer is answered in the end, and nothing is taken before. -/
theorem Config.taken_begun (config : Config) (w : Writer K) (r : Result) :
    (config.offer w r).latency.isSome ∧
      AtomicSink.taken (config.offer w r).begun.sink = AtomicSink.taken w.sink := by
  unfold offer
  split
  next => exact ⟨rfl, rfl⟩
  next => exact ⟨AtomicSink.latency _ _, AtomicSink.begun _ _⟩

/-- What the sink takes is told by the answer of the writer. -/
theorem Config.taken_finish (config : Config) (w₀ w : Writer K) (r : Result) :
    AtomicSink.taken ((config.offer w₀ r).finish w).1.sink =
      AtomicSink.taken w.sink ++
        accepted [config.message r] ((config.offer w₀ r).finish w).2 := by
  unfold offer
  split
  next => exact (List.append_nil _).symm
  next =>
    have hfinish := AtomicSink.finish w₀.sink w.sink [config.message r]
    dsimp only
    rw [hfinish]
    cases ((MessageSink.write w₀.sink [config.message r]).finish w.sink).2 <;> rfl

end

end CourierDispatch
