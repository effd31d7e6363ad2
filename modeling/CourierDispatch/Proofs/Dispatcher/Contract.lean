import CourierDispatch.Proofs.Pipeline.Lockstep

/-!
# The contract of a dispatcher

A dispatcher honours every command: it asks its use cases for what is requested, and what they answer
decides what is published. An internal error is not told to anybody, so nothing that is published depends
on the words in which use cases tell of it.
-/

namespace CourierDispatch

/-- Use cases that tell of their internal errors in other words. -/
structure Reworded (U : Type) where
  inner : U
  words : String → String

namespace Reworded

variable {U : Type} [UseCases U]

def reword (words : String → String) : UseCaseError → UseCaseError
  | .internal text => .internal (words text)
  | e => e

instance : UseCases (Reworded U) where
  assign r ctx o :=
    (UseCases.assign r.inner ctx o).within r inner (fun inner r => { r with inner })
      (·.mapError (reword r.words))
  unassign r ctx o :=
    (UseCases.unassign r.inner ctx o).within r inner (fun inner r => { r with inner })
      (·.mapError (reword r.words))

theorem answer?_assign (words : String → String) (o : OrderId) (a : Except UseCaseError CourierId) :
    (Verdict.assign (a.mapError (reword words))).answer? o = (Verdict.assign a).answer? o := by
  rcases a with (_ | _) | _ <;> rfl

theorem answer?_release (words : String → String) (o : OrderId)
    (a : Except UseCaseError (Option CourierId)) :
    (Verdict.release (a.mapError (reword words))).answer? o = (Verdict.release a).answer? o := by
  rcases a with (_ | _) | _ | _ <;> rfl

theorem lockstep : UseCases.Lockstep fun (u : U) (r : Reworded U) => u = r.inner := by
  rintro _ r ctx q rfl
  refine ⟨?_, ?_, ?_⟩
  · cases q <;> rfl
  · cases q <;> rfl
  · rintro _ r' rfl
    cases q with
    | assign o => exact ⟨rfl, (answer?_assign r.words o _).symm⟩
    | release o => exact ⟨rfl, (answer?_release r.words o _).symm⟩

end Reworded

namespace Dispatcher

variable {U : Type}

def reworded (d : Dispatcher U) (words : String → String) : Dispatcher (Reworded U) :=
  ⟨⟨d.useCases, words⟩, d.ids⟩

/-- A dispatcher does with every command what it has to, whatever its use cases are. And whatever goes on
in a pipeline around it, the words of their internal errors do not show in what the sink has been given,
nor in anything else about the writer. -/
theorem contract [UseCases U] (d : Dispatcher U) :
    (∀ c, d.Honours c) ∧
      ∀ (words : String → String) {S K : Type} [MessageSource S] [MessageSink K] (config : Config)
        (source : S) (sink : K) (as : List (Act S)),
        ((Pipeline.ofConfig config source sink (d.reworded words)).actAll as).desk.writer =
          ((Pipeline.ofConfig config source sink d).actAll as).desk.writer := by
  refine ⟨d.honours, fun words S K _ _ config source sink as => ?_⟩
  have hlaw := Stack.lockstep (lockstep (Reworded.lockstep (U := U)))
  have halike : d.Alike (fun u r => u = r.inner) (d.reworded words) := ⟨rfl, rfl⟩
  exact (((Pipeline.alike_ofConfig halike config source sink).actAll hlaw as).desk.writer).symm

end Dispatcher

end CourierDispatch
