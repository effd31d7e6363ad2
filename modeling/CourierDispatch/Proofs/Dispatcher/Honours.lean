import CourierDispatch.Proofs.Dispatcher

/-!
# What a dispatcher does with its use cases

The use cases are somebody else's: they may answer anything, take any time, and change their state as
they like. Whatever they are, a dispatcher asks them for what a command requests, and asks them once. A
command that makes no request does not reach them. The answer decides what is published, and an internal
error is not told to anybody.
-/

namespace CourierDispatch

namespace Verdict

def answer? (o : OrderId) : Verdict → Option Answer
  | assign (.ok k) => some (.assigned o k)
  | assign (.error (.noEligibleCourier failed)) => some (.failed failed)
  | release (.ok (some k)) => some (.unassigned o k)
  | _ => none

def failure? : Verdict → Option UseCaseError
  | assign (.error (.internal text)) => some (.internal text)
  | release (.error e) => some e
  | _ => none

/-- The outcome of a request with this verdict: a result if there is something to tell, an error if
something has gone wrong, and otherwise nothing. -/
structure Reports (v : Verdict) (id : Uuid) (ctx : Context) (q : Request) (out : Outcome) : Prop where
  result : ∀ r, out = .ok (some r) ↔ ∃ a, v.answer? q.order = some a ∧ r = Reply.result ⟨id, a, ctx⟩
  error : ∀ e, out = .error e ↔ ∃ source, v.failure? = some source ∧ e = .useCase q.kind source
  nothing : out = .ok none ↔ v = .release (.ok none)

end Verdict

/-- Use cases that keep record of what they are asked, in which context, the latest last. -/
structure Recording (U : Type) where
  inner : U
  asked : List (Request × Context) := []

namespace Recording

variable {U : Type} [UseCases U]

def put (r : Recording U) (q : Request) (ctx : Context) : Recording U :=
  { r with asked := r.asked ++ [(q, ctx)] }

instance : UseCases (Recording U) where
  assign r ctx o :=
    (UseCases.assign r.inner ctx o).within (r.put (.assign o) ctx) inner
      (fun inner r => { r with inner }) id
  unassign r ctx o :=
    (UseCases.unassign r.inner ctx o).within (r.put (.release o) ctx) inner
      (fun inner r => { r with inner }) id

end Recording

namespace Dispatcher

variable {U : Type}

def recording (d : Dispatcher U) (asked : List (Request × Context)) : Dispatcher (Recording U) :=
  ⟨⟨d.useCases, asked⟩, d.ids⟩

def silent (d : Dispatcher (Recording U)) : Dispatcher U := ⟨d.useCases.inner, d.ids⟩

variable [UseCases U]

/-- What a dispatcher has to do with a command. -/
structure Honours (d : Dispatcher U) (c : Command) : Prop where
  /-- The record shows that the use cases are asked when the handling begins: once if there is a request,
  in the context of the command, and not at all otherwise. The end of the handling asks nothing, and the
  record makes no other difference. -/
  asks : ∀ log, (d.recording log).handle c =
    (d.handle c).within (d.recording (log ++ (c.request?.map fun q => (q, c.context)).toList)) silent
      (fun d r => d.recording r.useCases.asked) id
  /-- A request is made by a name of the catalogue and a payload of the type that goes with it. -/
  request : ∀ q, c.request? = some q ↔
    c.kind? = some q.kind ∧ c.details (requestType q.kind) = .ok q.details
  /-- Without a request nothing happens but an error. -/
  refuses : c.request? = none → ∃ e, c.Refused e ∧ d.handle c = .now d (.error e)
  /-- The handling of a request takes as long as the use cases do, and changes what they change. -/
  serves : ∀ q, c.request? = some q →
    (d.handle c).latency = (UseCases.ask d.useCases c.context q).latency ∧
      (d.handle c).begun.useCases = (UseCases.ask d.useCases c.context q).begun ∧
      ∀ d' : Dispatcher U,
        ((d.handle c).finish d').1.useCases =
            ((UseCases.ask d.useCases c.context q).finish d'.useCases).1 ∧
          ((UseCases.ask d.useCases c.context q).finish d'.useCases).2.Reports
            (.random d.ids.next) c.context q ((d.handle c).finish d').2

end Dispatcher

namespace Dispatcher

theorem reports_assigned (draw : Nat) (c : Command) (o : OrderId)
    (a : Except UseCaseError CourierId) :
    (Verdict.assign a).Reports (.random draw) c.context (.assign o) (assigned draw c o a) := by
  match a with
  | .ok k =>
      have hassigned : assigned draw c o (.ok k) = _ := answer_eq draw .assignCourier c (.assigned o k)
      rw [hassigned]
      constructor <;> simp [Verdict.answer?, Verdict.failure?, Request.order, eq_comm]
  | .error (.noEligibleCourier failed) =>
      have hassigned : assigned draw c o (.error (.noEligibleCourier failed)) = _ :=
        answer_eq draw .assignCourier c (.failed failed)
      rw [hassigned]
      constructor <;> simp [Verdict.answer?, Verdict.failure?, eq_comm]
  | .error (.internal text) =>
      constructor <;> simp [assigned, Verdict.answer?, Verdict.failure?, Request.kind, eq_comm]

theorem reports_unassigned (draw : Nat) (c : Command) (o : OrderId)
    (a : Except UseCaseError (Option CourierId)) :
    (Verdict.release a).Reports (.random draw) c.context (.release o) (unassigned draw c o a) := by
  match a with
  | .ok (some k) =>
      have hunassigned : unassigned draw c o (.ok (some k)) = _ :=
        answer_eq draw .unassignCourier c (.unassigned o k)
      rw [hunassigned]
      constructor <;> simp [Verdict.answer?, Verdict.failure?, Request.order, eq_comm]
  | .ok none =>
      constructor <;> simp [unassigned, Verdict.answer?, Verdict.failure?]
  | .error e =>
      constructor <;> simp [unassigned, Verdict.answer?, Verdict.failure?, Request.kind, eq_comm]

variable {U : Type} [UseCases U]

theorem reports_outcome (draw : Nat) (c : Command) (q : Request) (u : U) (d' : U) :
    ((UseCases.ask u c.context q).finish d').2.Reports (.random draw) c.context q
      (outcome draw c q.order ((UseCases.ask u c.context q).finish d').2) := by
  cases q with
  | assign o => exact reports_assigned draw c o _
  | release o => exact reports_unassigned draw c o _

theorem honours (d : Dispatcher U) (c : Command) : d.Honours c := by
  rcases c.request?_cases with ⟨e, he⟩ | ⟨q, -, -, hsome⟩
  · have hnone := he.request?_eq_none
    have hhandle := handle_of_refused he d
    refine ⟨fun log => ?_, fun q => Command.request?_eq_some_iff, fun _ => ⟨e, he, hhandle⟩,
      fun q hq => ?_⟩
    · rw [handle_of_refused he, hhandle, hnone, Option.map_none, Option.toList_none, List.append_nil]
      rfl
    · rw [hnone] at hq
      cases hq
  · have hhandle := handle_request hsome d
    refine ⟨fun log => ?_, fun q => Command.request?_eq_some_iff, fun hnone => ?_, fun q' hq' => ?_⟩
    · rw [handle_request hsome, hhandle, hsome]
      cases q <;> rfl
    · rw [hsome] at hnone
      cases hnone
    · rw [hsome] at hq'
      cases hq'
      rw [hhandle]
      exact ⟨rfl, rfl, fun d' => ⟨rfl, reports_outcome d.ids.next c q d.useCases d'.useCases⟩⟩

end Dispatcher

end CourierDispatch
