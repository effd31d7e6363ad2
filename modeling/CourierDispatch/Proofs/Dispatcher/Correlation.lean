import CourierDispatch.Proofs.Dispatcher.Honours
import CourierDispatch.Simulation.Scripted

/-!
# Which order a result is about

Whoever gets a result tells by the order in its payload which command it belongs to. Where there is a
courier, this is the order of the command. Where there is none, it is the order that the use cases name,
and they may name any.
-/

namespace CourierDispatch

def Result.order? (r : Result) : Option OrderId :=
  match r.payload with
  | .object members =>
    match members.lookup Details.orderField with
    | some (.string s) => some ⟨s⟩
    | _ => none
  | _ => none

theorem Reply.order?_result (r : Reply) : r.result.order? = some r.answer.order := by
  obtain ⟨id, answer, context⟩ := r
  cases answer <;> rfl

/-- An answer is about the order that was asked about, unless the use cases name another one for want of
couriers. -/
theorem Verdict.order_answer? {v : Verdict} {o : OrderId} {a : Answer} (h : v.answer? o = some a) :
    a.order = o ↔ ∀ failed, v = .assign (.error (.noEligibleCourier failed)) → failed = o := by
  match v with
  | .assign (.ok k) | .release (.ok (some k)) =>
      cases h
      simp [Answer.order]
  | .assign (.error (.noEligibleCourier failed)) =>
      cases h
      simp [Answer.order]
  | .assign (.error (.internal _)) | .release (.ok none) | .release (.error _) => cases h

namespace Dispatcher

open Simulation

/-- A result names the order of its command, unless it tells of a failure and the use cases have named
another order. -/
theorem result_order_iff {U : Type} [UseCases U] (d d' : Dispatcher U) {c : Command} {q : Request}
    {r : Result} (hq : c.request? = some q) (hr : ((d.handle c).finish d').2 = .ok (some r)) :
    r.order? = some q.order ↔
      ∀ failed, ((UseCases.ask d.useCases c.context q).finish d'.useCases).2 =
        .assign (.error (.noEligibleCourier failed)) → failed = q.order := by
  obtain ⟨-, -, hserves⟩ := (d.honours c).serves q hq
  obtain ⟨a, ha, rfl⟩ := ((hserves d').2.result r).1 hr
  rw [Reply.order?_result, Option.some_inj]
  exact Verdict.order_answer? ha

/-- There is no courier, but the failure is the order's own. -/
theorem result_order_iff_failed :
    let d : Dispatcher ScriptedCouriers :=
      ⟨{ script := [{ delay := 5, answer := .noEligible none }] }, .counting 0⟩
    let c : Command :=
      ⟨"c1", CommandKind.assignCourier.wireName, (Details.assignCourier ⟨"o1"⟩).payload, {}⟩
    c.request? = some (.assign ⟨"o1"⟩) ∧
      ∃ r, (d.handle c).run.2 = .ok (some r) ∧ r.kind = .courierAssignmentFailed ∧
        r.order? = some ⟨"o1"⟩ := by
  intro d c
  have hq : c.request? = some (.assign ⟨"o1"⟩) := by decide
  have hr : ((d.handle c).finish (d.handle c).begun).2 =
      .ok (some (Reply.result ⟨.random 0, .failed ⟨"o1"⟩, {}⟩)) := by rfl
  refine ⟨hq, _, hr, rfl, (result_order_iff d _ hq hr).2 fun failed h => ?_⟩
  cases h
  rfl

/-- The use cases have no courier for another order than the one they were asked about, and this is the
order that the result names. -/
theorem failure_names_other_order :
    let d : Dispatcher ScriptedCouriers :=
      ⟨{ script := [{ answer := .noEligible (some ⟨"other"⟩) }] }, .counting 0⟩
    let c : Command :=
      ⟨"c1", CommandKind.assignCourier.wireName, (Details.assignCourier ⟨"o1"⟩).payload, {}⟩
    c.request? = some (.assign ⟨"o1"⟩) ∧
      ∃ r, (d.handle c).run.2 = .ok (some r) ∧ r.order? = some ⟨"other"⟩ ∧
        r.order? ≠ some ⟨"o1"⟩ := by
  intro d c
  have hr : (d.handle c).run.2 =
      .ok (some (Reply.result ⟨.random 0, .failed ⟨"other"⟩, {}⟩)) := by rfl
  exact ⟨by decide, _, hr, rfl, by decide⟩

end Dispatcher

end CourierDispatch
