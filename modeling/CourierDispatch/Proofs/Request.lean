import CourierDispatch.Dispatcher
import CourierDispatch.Proofs.Ledger

/-!
# The request of a command

A command makes a request, or it is refused for its name or for its payload. The name is looked at
first.
-/

namespace CourierDispatch

namespace Request

def kind : Request → CommandKind
  | assign _ => .assignCourier
  | release _ => .unassignCourier

def details : Request → Details
  | assign o => .assignCourier o
  | release o => .unassignCourier o

theorem eq_of_details_eq {q q' : Request} (h : q.details = q'.details) : q = q' := by
  cases q <;> cases q' <;> cases h <;> rfl

end Request

namespace DetailsType

theorem type_make (t : DetailsType) (o : OrderId) (k : CourierId) : (t.make o k).type = t := by
  cases t <;> rfl

theorem type_of_read {t : DetailsType} {v : Value} {d : Details} (h : t.read v = .ok d) :
    d.type = t := by
  unfold DetailsType.read at h
  cases hf : t.readFields v with
  | error m =>
      rw [hf] at h
      cases h
  | ok texts =>
      rw [hf] at h
      cases h
      exact t.type_make _ _

theorem exists_request_of_read {kind : CommandKind} {v : Value} {d : Details}
    (h : (Dispatcher.requestType kind).read v = .ok d) : ∃ q : Request, q.kind = kind ∧ q.details = d := by
  have htype := type_of_read h
  cases kind with
  | assignCourier =>
      cases d with
      | assignCourier o => exact ⟨.assign o, rfl, rfl⟩
      | _ => cases htype
  | unassignCourier =>
      cases d with
      | unassignCourier o => exact ⟨.release o, rfl, rfl⟩
      | _ => cases htype

end DetailsType

namespace Command

/-- Why a command makes no request. -/
inductive Refused (c : Command) : HandleError → Prop
  | unknown (h : c.kind? = none) : Refused c (.unrecognized c.name)
  | malformed {kind : CommandKind} {e : CodecError} (h : c.kind? = some kind)
    (he : c.details (Dispatcher.requestType kind) = .error e) : Refused c (.malformedPayload kind e)

variable {c : Command}

theorem Refused.request?_eq_none {e : HandleError} (h : c.Refused e) : c.request? = none := by
  cases h with
  | unknown h =>
      have hname : CommandKind.ofName? c.name = none := h
      simp only [request?, hname]
  | @malformed kind e h he =>
      have hname : CommandKind.ofName? c.name = some kind := h
      cases hread : (Dispatcher.requestType kind).read c.payload with
      | error m => cases kind <;> simp_all [request?, Dispatcher.requestType]
      | ok d =>
          rw [details, hread] at he
          cases he

theorem request?_cases (c : Command) :
    (∃ e, c.Refused e) ∨
      ∃ q : Request, c.kind? = some q.kind ∧
        c.details (Dispatcher.requestType q.kind) = .ok q.details ∧ c.request? = some q := by
  cases hkind : c.kind? with
  | none => exact .inl ⟨_, .unknown hkind⟩
  | some kind =>
      have hname : CommandKind.ofName? c.name = some kind := hkind
      cases hread : (Dispatcher.requestType kind).read c.payload with
      | error m =>
          have he : c.details (Dispatcher.requestType kind) =
              .error (.payload (Dispatcher.requestType kind) m) := by
            rw [details, hread]
            rfl
          exact .inl ⟨_, .malformed hkind he⟩
      | ok d =>
          obtain ⟨q, rfl, rfl⟩ := DetailsType.exists_request_of_read hread
          have hdetails : c.details (Dispatcher.requestType q.kind) = .ok q.details := by
            rw [details, hread]
            rfl
          refine .inr ⟨q, rfl, hdetails, ?_⟩
          cases q <;> simp_all [request?, Dispatcher.requestType, Request.kind, Request.details]

/-- A request is made by a name of the catalogue and a payload of the type that goes with it. -/
theorem request?_eq_some_iff {q : Request} :
    c.request? = some q ↔
      c.kind? = some q.kind ∧ c.details (Dispatcher.requestType q.kind) = .ok q.details := by
  rcases c.request?_cases with ⟨e, he⟩ | ⟨q', hkind, hdetails, hsome⟩
  · rw [he.request?_eq_none]
    refine iff_of_false (Option.some_ne_none q).symm ?_
    rintro ⟨hkind, hdetails⟩
    cases he with
    | unknown h => simp [h] at hkind
    | malformed h he =>
        rw [h] at hkind
        cases hkind
        simp [he] at hdetails
  · rw [hsome]
    constructor
    · intro h
      cases h
      exact ⟨hkind, hdetails⟩
    · rintro ⟨hkind', hdetails'⟩
      rw [hkind] at hkind'
      rw [Option.some.inj hkind', hdetails'] at hdetails
      exact congrArg some (Request.eq_of_details_eq (Except.ok.inj hdetails).symm)

end Command

end CourierDispatch
