import CourierDispatch.Proofs.Dispatcher.Honours

/-!
# Services in lockstep

Two services are in lockstep if there are states of theirs that correspond, and from such states their
calls take equally long, go on to such states, and yield the same results. Their errors may differ. Use
cases that tell the world the same make dispatchers of this kind, and the layers around them change
nothing about it.
-/

namespace CourierDispatch

/-- Two calls that take equally long, go from states that correspond to such states, and whose answers
correspond. -/
structure Call.Lockstep {σ τ α β : Type} (R : σ → τ → Prop) (A : α → β → Prop) (c : Call σ α)
    (c' : Call τ β) : Prop where
  latency : c.latency = c'.latency
  begun : R c.begun c'.begun
  finish : ∀ s t, R s t → R (c.finish s).1 (c'.finish t).1 ∧ A (c.finish s).2 (c'.finish t).2

namespace Call.Lockstep

variable {σ τ σ' τ' α β γ δ : Type} {R : σ → τ → Prop} {R' : σ' → τ' → Prop} {A : α → β → Prop}
  {B : γ → δ → Prop}

theorem now {s : σ} {t : τ} {a : α} {b : β} (h : R s t) (hab : A a b) :
    (Call.now s a).Lockstep R A (.now t b) :=
  ⟨rfl, h, fun _ _ h => ⟨h, hab⟩⟩

theorem within {c : Call σ α} {c' : Call τ β} (h : c.Lockstep R A c') {whole : σ'} {whole' : τ'}
    {get : σ' → σ} {get' : τ' → τ} {set : σ → σ' → σ'} {set' : τ → τ' → τ'} {f : α → γ} {f' : β → δ}
    (hwhole : R' whole whole') (hget : ∀ {s t}, R' s t → R (get s) (get' t))
    (hset : ∀ {u v s t}, R u v → R' s t → R' (set u s) (set' v t)) (hf : ∀ {a b}, A a b → B (f a) (f' b)) :
    (c.within whole get set f).Lockstep R' B (c'.within whole' get' set' f') where
  latency := h.latency
  begun := hset h.begun hwhole
  finish s t hst :=
    have hfinish := h.finish (get s) (get' t) (hget hst)
    ⟨hset hfinish.1 hst, hf hfinish.2⟩

end Call.Lockstep

/-- The same results, although the errors may differ. -/
def Outcome.SameResults (o o' : Outcome) : Prop := o.results = o'.results

def Service.Lockstep {S S' : Type} [Service S] [Service S'] (R : S → S' → Prop) : Prop :=
  ∀ s s' c, R s s' → (Service.call s c).Lockstep R Outcome.SameResults (Service.call s' c)

def UseCases.Lockstep {U U' : Type} [UseCases U] [UseCases U'] (R : U → U' → Prop) : Prop :=
  ∀ u u' ctx q, R u u' →
    (ask u ctx q).Lockstep R (fun v v' => v.answer? q.order = v'.answer? q.order) (ask u' ctx q)

namespace Verdict

theorem Reports.results {v : Verdict} {id : Uuid} {ctx : Context} {q : Request} {out : Outcome}
    (h : v.Reports id ctx q out) :
    out.results = (v.answer? q.order).toList.map fun a => Reply.result ⟨id, a, ctx⟩ := by
  cases hanswer : v.answer? q.order with
  | some a =>
      rw [(h.result _).2 ⟨a, hanswer, rfl⟩]
      rfl
  | none =>
      match hout : out with
      | .ok none | .error _ => rfl
      | .ok (some r) =>
          obtain ⟨a, ha, -⟩ := (h.result r).1 rfl
          rw [hanswer] at ha
          cases ha

end Verdict

/-! Dispatchers. -/

namespace Dispatcher

theorem results_outcome (draw : Nat) (c : Command) (o : OrderId) (v : Verdict) :
    (outcome draw c o v).results =
      (v.answer? o).toList.map fun a => Reply.result ⟨.random draw, a, c.context⟩ := by
  cases v with
  | assign a => exact (reports_assigned draw c o a).results
  | release a => exact (reports_unassigned draw c o a).results

variable {U U' : Type}

structure Alike (R : U → U' → Prop) (d : Dispatcher U) (d' : Dispatcher U') : Prop where
  useCases : R d.useCases d'.useCases
  ids : d.ids = d'.ids

variable [UseCases U] [UseCases U'] {R : U → U' → Prop}

theorem lockstep (h : UseCases.Lockstep R) : Service.Lockstep (Alike R) := by
  intro d d' c hd
  change (d.handle c).Lockstep _ _ (d'.handle c)
  rcases c.request?_cases with ⟨e, he⟩ | ⟨q, -, -, hq⟩
  · rw [handle_of_refused he, handle_of_refused he]
    exact .now hd rfl
  · rw [handle_request hq, handle_request hq, ← hd.ids]
    refine (h d.useCases d'.useCases c.context q hd.useCases).within ⟨hd.useCases, rfl⟩
      (fun h => h.useCases) (fun hu h => ⟨hu, h.ids⟩) fun {v v'} hv => ?_
    rw [Outcome.SameResults, results_outcome, results_outcome, hv]

end Dispatcher

/-! Layers. -/

section Layers

variable {S S' : Type} {R : S → S' → Prop}

structure Timed.Alike (R : S → S' → Prop) (s : Timed S) (s' : Timed S') : Prop where
  inner : R s.inner s'.inner
  timeout : s.timeout = s'.timeout

/-- What is counted and recorded may differ. -/
structure Metered.Alike (R : S → S' → Prop) (s : Metered S) (s' : Metered S') : Prop where
  inner : R s.inner s'.inner

theorem Timed.lockstep_limit {c : Call S Outcome} {c' : Call S' Outcome}
    (h : c.Lockstep R Outcome.SameResults c') (timeout : Nat) :
    (limit timeout c).Lockstep R Outcome.SameResults (limit timeout c') := by
  have hends : c.endsWithin timeout = c'.endsWithin timeout := by
    rw [Call.endsWithin, Call.endsWithin, h.latency]
  unfold limit
  rw [← hends]
  split
  next => exact h
  next => exact ⟨rfl, h.begun, fun s s' hs => ⟨hs, rfl⟩⟩

variable [Service S] [Service S']

theorem Timed.lockstep (h : Service.Lockstep R) : Service.Lockstep (Timed.Alike R) := by
  intro s s' c hs
  change ((limit s.timeout (Service.call s.inner c)).within s inner _ id).Lockstep _ _
    ((limit s'.timeout (Service.call s'.inner c)).within s' inner _ id)
  rw [← hs.timeout]
  exact (lockstep_limit (h s.inner s'.inner c hs.inner) s.timeout).within hs (fun h => h.inner)
    (fun hu h => ⟨hu, h.timeout⟩) id

theorem Metered.lockstep (h : Service.Lockstep R) : Service.Lockstep (Metered.Alike R) := by
  intro s s' c hs
  have hcall := h s.inner s'.inner c hs.inner
  exact ⟨hcall.latency, ⟨hcall.begun⟩, fun t t' ht =>
    have hfinish := hcall.finish t.inner t'.inner ht.inner
    ⟨⟨hfinish.1⟩, hfinish.2⟩⟩

abbrev Stack.Alike (R : S → S' → Prop) : Stack S → Stack S' → Prop := Metered.Alike (Timed.Alike R)

theorem Stack.lockstep (h : Service.Lockstep R) : Service.Lockstep (Stack.Alike R) :=
  Metered.lockstep (Timed.lockstep h)

end Layers

end CourierDispatch
