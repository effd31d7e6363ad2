import CourierDispatch.Proofs.Request
import CourierDispatch.Proofs.Result
import CourierDispatch.Service.Layers

/-!
# The dispatcher does what is asked for

The handling of a request is one call on the use cases, and nothing is done about a command that makes
no request. So a dispatcher with a pool is a ledger. Handling a command changes it like the ledger as soon
as the handling begins, and ends at once with the reply of the ledger as a result. The layers around the
dispatcher change neither.
-/

namespace CourierDispatch

def Outcome.results : Outcome → List Result
  | .ok (some r) => [r]
  | _ => []

def Reply.result (r : Reply) : Result :=
  { id := r.id, kind := r.answer.kind, payload := r.answer.details.payload, context := r.context }

/-- What the use cases answer to a request. -/
inductive Verdict
  | assign (answer : Except UseCaseError CourierId)
  | release (answer : Except UseCaseError (Option CourierId))
deriving DecidableEq

def UseCases.ask {U : Type} [UseCases U] (u : U) (ctx : Context) : Request → Call U Verdict
  | .assign o => (assign u ctx o).within u id (fun u _ => u) .assign
  | .release o => (unassign u ctx o).within u id (fun u _ => u) .release

theorem Pool.noEligibleCourier_of_assign {p p' : Pool} {draw : Nat} {o : OrderId}
    {e : UseCaseError} (h : p.assign draw o = (p', .error e)) : e = .noEligibleCourier o := by
  unfold Pool.assign at h
  split at h
  · cases h
  split at h
  · cases h
  · cases h
    rfl

namespace Dispatcher

theorem answer_eq (draw : Nat) (kind : CommandKind) (c : Command) (a : Answer) :
    answer draw kind c a.kind a.details = .ok (some (Reply.result ⟨.random draw, a, c.context⟩)) := by
  rw [answer, Result.ofDatum, Details.toValue?_toDatum]
  rfl

theorem results_answer (draw : Nat) (kind : CommandKind) (c : Command) (a : Answer) :
    (answer draw kind c a.kind a.details).results =
      [Reply.result ⟨.random draw, a, c.context⟩] := by
  rw [answer_eq]
  rfl

def outcome (draw : Nat) (c : Command) (o : OrderId) : Verdict → Outcome
  | .assign a => assigned draw c o a
  | .release a => unassigned draw c o a

section

variable {U : Type} [UseCases U] {c : Command}

theorem handle_request {q : Request} (h : c.request? = some q) (d : Dispatcher U) :
    d.handle c = (UseCases.ask d.useCases c.context q).within ⟨d.useCases, d.ids.rest⟩ useCases
      (fun u d => { d with useCases := u }) (outcome d.ids.next c q.order) := by
  obtain ⟨hkind, hdetails⟩ := Command.request?_eq_some_iff.1 h
  unfold handle request
  rw [hkind]
  cases q with
  | assign o =>
      have hread : c.details (requestType .assignCourier) = .ok (.assignCourier o) := hdetails
      simp only [Request.kind, hread]
      rfl
  | release o =>
      have hread : c.details (requestType .unassignCourier) = .ok (.unassignCourier o) := hdetails
      simp only [Request.kind, hread]
      rfl

theorem handle_of_refused {e : HandleError} (h : c.Refused e) (d : Dispatcher U) :
    d.handle c = .now d (.error e) := by
  unfold handle request
  cases h with
  | unknown h => simp only [h]
  | malformed h he => simp only [h, he]

end

def ofLedger (b : Ledger) : Dispatcher Pool.Drawing := ⟨⟨b.pool, b.draws⟩, b.ids⟩

theorem handle_assign {c : Command} {o : OrderId} (h : c.request? = some (.assign o)) (b : Ledger) :
    ∃ out, (ofLedger b).handle c = .now (ofLedger (b.serve c.context (.assign o)).1) out ∧
      Outcome.results out = (b.serve c.context (.assign o)).2.map Reply.result := by
  have hhandle : (ofLedger b).handle c =
      .now (ofLedger ⟨(b.pool.assign b.draws.next o).1, b.draws.rest, b.ids.rest⟩)
        (assigned b.ids.next c o (b.pool.assign b.draws.next o).2) := handle_request h _
  rcases hassign : b.pool.assign b.draws.next o with ⟨pool, answered⟩
  rw [hassign] at hhandle
  cases answered with
  | ok k =>
      have hserve : b.serve c.context (.assign o) =
          (⟨pool, b.draws.rest, b.ids.rest⟩, [⟨.random b.ids.next, .assigned o k, c.context⟩]) := by
        simp only [Ledger.serve, hassign]
      rw [hserve, hhandle, assigned]
      exact ⟨_, rfl, results_answer _ _ _ (.assigned o k)⟩
  | error e =>
      have hserve : b.serve c.context (.assign o) =
          (⟨pool, b.draws.rest, b.ids.rest⟩, [⟨.random b.ids.next, .failed o, c.context⟩]) := by
        simp only [Ledger.serve, hassign]
      rw [hserve, hhandle, Pool.noEligibleCourier_of_assign hassign, assigned]
      exact ⟨_, rfl, results_answer _ _ _ (.failed o)⟩

theorem handle_release {c : Command} {o : OrderId} (h : c.request? = some (.release o)) (b : Ledger) :
    ∃ out, (ofLedger b).handle c = .now (ofLedger (b.serve c.context (.release o)).1) out ∧
      Outcome.results out = (b.serve c.context (.release o)).2.map Reply.result := by
  have hhandle : (ofLedger b).handle c =
      .now (ofLedger ⟨(b.pool.release o).1, b.draws, b.ids.rest⟩)
        (unassigned b.ids.next c o (.ok (b.pool.release o).2)) := handle_request h _
  rcases hrelease : b.pool.release o with ⟨pool, released⟩
  rw [hrelease] at hhandle
  cases released with
  | some k =>
      have hserve : b.serve c.context (.release o) =
          (⟨pool, b.draws, b.ids.rest⟩, [⟨.random b.ids.next, .unassigned o k, c.context⟩]) := by
        simp only [Ledger.serve, hrelease]
      rw [hserve, hhandle, unassigned]
      exact ⟨_, rfl, results_answer _ _ _ (.unassigned o k)⟩
  | none =>
      have hserve : b.serve c.context (.release o) = (⟨pool, b.draws, b.ids.rest⟩, []) := by
        simp only [Ledger.serve, hrelease]
      rw [hserve, hhandle]
      exact ⟨_, rfl, rfl⟩

/-- Handling a command ends at once, and the ledger says how. -/
theorem handle_ofLedger (b : Ledger) (c : Command) :
    ∃ out, (ofLedger b).handle c = .now (ofLedger (b.handle c).1) out ∧
      Outcome.results out = (b.handle c).2.map Reply.result := by
  rcases c.request?_cases with ⟨e, he⟩ | ⟨q, -, -, hq⟩
  · have hskip : b.handle c = (b, []) := by simp only [Ledger.handle, he.request?_eq_none]
    rw [hskip]
    exact ⟨_, handle_of_refused he _, rfl⟩
  · have hserve : b.handle c = b.serve c.context q := by simp only [Ledger.handle, hq]
    rw [hserve]
    cases q with
    | assign o => exact handle_assign hq b
    | release o => exact handle_release hq b

end Dispatcher

end CourierDispatch
