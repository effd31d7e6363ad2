import CourierDispatch.Component

/-!
# The loops of a component

A component keeps the loops of all its runs, the oldest first. Starting a run adds a loop, asking one to
end leaves the loops alone, and a run that goes on sets its own.
-/

namespace CourierDispatch

inductive Ending (γ : Type)
  | value (v : γ)
  | panic
deriving DecidableEq, Repr

def Ending.answer {γ : Type} (label : String) : Ending γ → Except LifecycleError γ
  | value v => .ok v
  | panic => .error (.panicked label)

class Loop (α : Type) (γ : outParam Type) where
  ending? : α → Option (Ending γ)

instance {γ : Type} : Loop (Option (Ending γ)) γ := ⟨id⟩

variable {α γ : Type}

namespace Component

def loops (c : Component α) : List α := c.runs.map (·.loop)

def setLoop (c : Component α) (i : Nat) (loop : α) : Component α :=
  { c with runs := c.runs.modify i fun r => { r with loop } }

def ending? [Loop α γ] (c : Component α) (i : Nat) : Option (Ending γ) :=
  (c.loops[i]?).bind Loop.ending?

@[simp] theorem length_loops (c : Component α) : c.loops.length = c.runs.length :=
  List.length_map _

theorem loops_append (c : Component α) (control : Lifecycle Nat) (r : Run α) :
    loops { c with control, runs := c.runs ++ [r] } = c.loops ++ [r.loop] := by
  simp [loops]

@[simp] theorem loops_ask (i : Nat) (c : Component α) : (c.ask i).loops = c.loops := by
  refine List.ext_getElem? fun j => ?_
  rw [loops, loops, ask, List.getElem?_map, List.getElem?_map, List.getElem?_modify]
  cases c.runs[j]? with
  | none => rfl
  | some r => by_cases hij : i = j <;> simp [hij]

@[simp] theorem loops_askAll (c : Component α) : c.askAll.loops = c.loops := by
  simp [loops, askAll]

@[simp] theorem loops_setLoop (c : Component α) (i : Nat) (loop : α) :
    (c.setLoop i loop).loops = c.loops.set i loop := by
  refine List.ext_getElem? fun j => ?_
  rw [loops, loops, setLoop, List.getElem?_map, List.getElem?_modify, List.getElem?_set']
  cases hj : c.runs[j]? with
  | none => by_cases hij : i = j <;> simp [hij, hj]
  | some r => by_cases hij : i = j <;> simp [hij, hj]

theorem setLoop_eq_modify {c : Component α} {i : Nat} {loop : α} (h : c.loops[i]? = some loop)
    (f : α → α) :
    c.setLoop i (f loop) =
      { c with runs := c.runs.modify i fun r => { r with loop := f r.loop } } := by
  have hruns : (c.runs.modify i fun r => { r with loop := f loop }) =
      c.runs.modify i fun r => { r with loop := f r.loop } := by
    refine List.ext_getElem? fun j => ?_
    rw [List.getElem?_modify, List.getElem?_modify]
    by_cases hij : i = j
    · subst hij
      rw [loops, List.getElem?_map] at h
      cases hr : c.runs[i]? with
      | none => rfl
      | some r =>
          rw [hr] at h
          cases h
          simp
    · simp [hij]
  rw [setLoop, hruns]

theorem loops_of_claim {c c' : Component α} {i : Nat} (h : c.claim = .ok (i, c')) :
    c'.loops = c.loops := by
  unfold claim at h
  split at h <;> cases h
  exact loops_ask _ _

theorem setLoop_self {c : Component α} {i : Nat} {loop : α} (h : c.loops[i]? = some loop) :
    c.setLoop i loop = c := by
  have hmodify := setLoop_eq_modify h id
  have hid : (c.runs.modify i fun r => { r with loop := id r.loop }) = c.runs := List.modify_id i _
  rw [hid] at hmodify
  exact hmodify

theorem getElem?_loops_of_latest? {c : Component α} {r : Run α} (h : c.latest? = some r) :
    c.loops[c.runs.length - 1]? = some r.loop := by
  rw [latest?, List.getLast?_eq_getElem?] at h
  rw [loops, List.getElem?_map, h]
  rfl

/-! The loop of the latest run. -/

def latestLoop? (c : Component α) : Option α := c.latest?.map (·.loop)

theorem latestLoop?_eq (c : Component α) : c.latestLoop? = c.loops.getLast? := by
  rw [latestLoop?, latest?, loops, List.getLast?_map]

theorem loops_setLatest {c : Component α} {loop : α} (h : c.loops = [loop]) (loop' : α) :
    (c.setLatest loop').loops = [loop'] := by
  have hlength : c.runs.length = 1 := by rw [← length_loops, h, List.length_singleton]
  change (c.setLoop (c.runs.length - 1) loop').loops = _
  rw [loops_setLoop, h, hlength]
  rfl

theorem exists_latest? {c : Component α} {loop : α} (h : c.latestLoop? = some loop) :
    ∃ asked, c.latest? = some ⟨asked, loop⟩ := by
  obtain ⟨⟨asked, _⟩, hr, rfl⟩ := Option.map_eq_some_iff.1 h
  exact ⟨asked, hr⟩

theorem latestLoop?_of_latest? {c : Component α} {r : Run α} (h : c.latest? = some r) :
    c.latestLoop? = some r.loop := by
  rw [latestLoop?, h]
  rfl

theorem latestLoop?_setLatest {c : Component α} {loop : α} (h : c.latestLoop? = some loop)
    (loop' : α) : (c.setLatest loop').latestLoop? = some loop' := by
  rw [latestLoop?_eq] at h
  have hlast : (c.setLatest loop').loops = c.loops.set (c.loops.length - 1) loop' := by
    rw [length_loops]
    exact loops_setLoop c _ loop'
  rw [latestLoop?_eq, hlast]
  cases hloops : c.loops with
  | nil =>
      rw [hloops] at h
      cases h
  | cons l ls => simp [List.getLast?_eq_getElem?]

theorem latestLoop?_of_start {c c' : Component α} {r : Run α} (h : c.start r = .ok c') :
    c'.latestLoop? = some r.loop ∧ c'.isRunning = true := by
  unfold start Lifecycle.start? at h
  cases hphase : c.control.phase with
  | stopped =>
      rw [hphase] at h
      cases h
      exact ⟨by simp [latestLoop?, latest?], rfl⟩
  | running | stopping =>
      rw [hphase] at h
      cases h

theorem latestLoop?_of_claim {c c' : Component α} {i : Nat} (h : c.claim = .ok (i, c')) :
    c'.latestLoop? = c.latestLoop? := by
  rw [latestLoop?_eq, latestLoop?_eq, loops_of_claim h]

/-! The activation that a component holds. -/

/-- If the component holds an activation, it is that of the latest run. -/
def HoldsLatest (c : Component α) : Prop :=
  ∀ i, c.control.held = some i → i + 1 = c.runs.length

theorem latest?_of_claim {c c' : Component α} {i : Nat} {loop : α} (hc : c.HoldsLatest)
    (hloop : c.latestLoop? = some loop) (h : c.claim = .ok (i, c')) :
    c'.latest? = some ⟨true, loop⟩ ∧ c'.HoldsLatest := by
  obtain ⟨asked, hlatest⟩ := exists_latest? hloop
  unfold claim at h
  split at h
  next j control hclaim =>
    cases h
    have hheld : c.control.held = some i ∧ control.held = none := by
      unfold Lifecycle.claim? at hclaim
      split at hclaim <;> cases hclaim
      exact ⟨‹_›, rfl⟩
    have hi := hc i hheld.1
    rw [latest?, List.getLast?_eq_getElem?] at hlatest ⊢
    refine ⟨?_, fun k hk => ?_⟩
    · have hindex : c.runs.length - 1 = i := by omega
      rw [hindex] at hlatest
      simp [ask, hindex, hlatest]
    · change control.held = some k at hk
      rw [hheld.2] at hk
      cases hk
  next => cases h

theorem HoldsLatest.setLatest {c : Component α} (hc : c.HoldsLatest) (loop : α) :
    (c.setLatest loop).HoldsLatest := by
  intro i hi
  rw [hc i hi]
  exact (List.length_modify _ _ _).symm

theorem HoldsLatest.askAll {c : Component α} (hc : c.HoldsLatest) : c.askAll.HoldsLatest := by
  intro i hi
  rw [hc i hi]
  exact (List.length_map _).symm

end Component

end CourierDispatch
