import CourierDispatch.Backoff

/-!
# Waits between reads

A loop that reads again and again waits after a read that has failed. A log of it says when it asked,
what it heard, and at what times it was given a turn and went on waiting. How long each wait has to be
is read off the log alone: it depends on how many reads have failed since the last one that counts as a
success. A loop keeps pace with such a log if it keeps count of these, up to the largest count there is,
and waits for the right time.
-/

namespace CourierDispatch

/-! The count of failures stays at its top. -/

theorem countUp_min (n : Nat) : countUp (min n countLimit) = min (n + 1) countLimit := by
  unfold countUp
  omega

namespace Backoff

/-- A delay that began at one time is over at another one. Times are in whole milliseconds. -/
def Elapsed (delay since time : Nat) : Prop :=
  since * millisecond + delay ≤ time * millisecond

instance (delay since time : Nat) : Decidable (Elapsed delay since time) :=
  inferInstanceAs (Decidable (_ ≤ _))

theorem elapsed_iff {delay since time : Nat} :
    Elapsed delay since time ↔ since + timerMillis delay ≤ time := by
  unfold Elapsed timerMillis millisecond
  omega

end Backoff

inductive Moment (α : Type)
  | asks (time : Nat)
  | hears (time : Nat) (answer : α)
  /-- The loop is given a turn, and goes on waiting. -/
  | rests (time : Nat)
deriving Repr

/-- What an answer does to a streak of failures. -/
inductive Effect
  | fails
  | clears
  /-- It is neither a failure nor the end of a streak. -/
  | passes
deriving DecidableEq, Repr

/-- Where a loop is that waits after failures. -/
inductive Pace
  | awake
  | waiting (due : Nat)
  | ended
deriving DecidableEq, Repr

namespace Moment

variable {α : Type} (effect : α → Effect) (b : Backoff)

/-- How many reads have failed since the last answer that ended a streak. The latest moment of a log
comes first. -/
def streak : List (Moment α) → Nat
  | [] => 0
  | .hears _ x :: past =>
    match effect x with
    | .fails => streak past + 1
    | .clears => 0
    | .passes => streak past
  | _ :: past => streak past

/-- The wait that a loop is in, if the last that it has heard is a failure: since when, and how long. -/
def wait? : List (Moment α) → Option (Nat × Nat)
  | .hears time x :: past =>
    match effect x with
    | .fails => some (time, b.delay (min (streak effect past) countLimit))
    | _ => none
  | .rests _ :: past => wait? past
  | _ => none

/-- A moment that may follow on a log: a loop rests until its wait is over, and no longer than that, and
hears nothing meanwhile. -/
def Follows (past : List (Moment α)) : Moment α → Prop
  | .asks time => ∀ since delay, wait? effect b past = some (since, delay) →
      Backoff.Elapsed delay since time
  | .rests time => ∃ since delay, wait? effect b past = some (since, delay) ∧
      ¬ Backoff.Elapsed delay since time
  | .hears _ _ => wait? effect b past = none

def Paced : List (Moment α) → Prop
  | [] => True
  | m :: past => Paced past ∧ Follows effect b past m

def ofTurn (time : Nat) (heard : Option α) (rests asks : Bool) : List (Moment α) :=
  (if asks then [.asks time] else []) ++ (if rests then [.rests time] else []) ++
    (heard.map (.hears time)).toList

/-- A log whose loop keeps its waits. `next` is the log after another turn at some time. -/
structure Punctual (log : List (Moment α)) (ended : Prop) (next : Nat → List (Moment α)) : Prop where
  paced : Paced effect b log
  /-- A turn during a wait ends it if its time has come, and does nothing else. -/
  turn : ¬ ended → ∀ since delay, wait? effect b log = some (since, delay) → ∀ time,
    next time = (if Backoff.Elapsed delay since time then .asks time else .rests time) :: log

/-- A moment changes the count of failures that a loop keeps, and where it is. -/
inductive Beat : Nat → Pace → Moment α → Nat → Pace → Prop
  | asks {count : Nat} {pace : Pace} {time : Nat} (hended : pace ≠ .ended)
      (hdue : ∀ due, pace = .waiting due → due ≤ time) : Beat count pace (.asks time) count .awake
  | rests {count due time : Nat} (hdue : ¬ due ≤ time) :
      Beat count (.waiting due) (.rests time) count (.waiting due)
  | fails {count time : Nat} {x : α} (hx : effect x = .fails) :
      Beat count .awake (.hears time x) (countUp count)
        (.waiting (time + Backoff.timerMillis (b.delay count)))
  | clears {count time : Nat} {x : α} (hx : effect x = .clears) :
      Beat count .awake (.hears time x) 0 .awake
  | passes {count time : Nat} {x : α} (hx : effect x = .passes) :
      Beat count .awake (.hears time x) count .awake

/-- The moments of a turn change the count and the place of a loop one after the other, and the loop may
end then. -/
inductive Beats (count : Nat) (pace : Pace) : List (Moment α) → Nat → Pace → Prop
  | none : Beats count pace [] count pace
  | next {ms : List (Moment α)} {m : Moment α} {count' count'' : Nat} {pace' pace'' : Pace}
      (h : Beats count pace ms count' pace') (hm : Beat effect b count' pace' m count'' pace'') :
      Beats count pace (m :: ms) count'' pace''
  | ends {ms : List (Moment α)} {count' : Nat} {pace' : Pace}
      (h : Beats count pace ms count' pace') : Beats count pace ms count' .ended

/-- A loop is where its log says, and has counted the failures that its log tells of. -/
structure InPace (log : List (Moment α)) (count : Nat) (pace : Pace) : Prop where
  paced : Paced effect b log
  count : count = min (streak effect log) countLimit
  awake : pace = .awake → wait? effect b log = none
  waiting : ∀ due, pace = .waiting due → ∃ since delay,
    wait? effect b log = some (since, delay) ∧ due = since + Backoff.timerMillis delay

variable {effect b} {log ms : List (Moment α)} {m : Moment α} {count count' : Nat} {pace pace' : Pace}

theorem inPace_nil : InPace effect b ([] : List (Moment α)) 0 .awake :=
  ⟨trivial, rfl, fun _ => rfl, nofun⟩

theorem InPace.beat (h : InPace effect b log count pace)
    (hm : Beat effect b count pace m count' pace') : InPace effect b (m :: log) count' pace' := by
  cases hm with
  | @asks _ time hended hdue =>
      refine ⟨⟨h.paced, fun since delay hwait => ?_⟩, h.count, fun _ => rfl, nofun⟩
      -- only a loop that waits has a log that ends in a wait
      cases hpace : pace with
      | awake =>
          rw [h.awake hpace] at hwait
          cases hwait
      | ended => exact absurd hpace hended
      | waiting due =>
          obtain ⟨since', delay', hwait', hsince⟩ := h.waiting due hpace
          rw [hwait'] at hwait
          cases hwait
          rw [Backoff.elapsed_iff, ← hsince]
          exact hdue due hpace
  | @rests due time hdue =>
      obtain ⟨since, delay, hwait, hsince⟩ := h.waiting due rfl
      refine ⟨⟨h.paced, since, delay, hwait, ?_⟩, h.count, nofun, h.waiting⟩
      rw [Backoff.elapsed_iff, ← hsince]
      exact hdue
  | @fails time x hx =>
      have hstreak : streak effect (.hears time x :: log) = streak effect log + 1 := by
        simp only [streak, hx]
      have hwait : wait? effect b (.hears time x :: log) = some (time, b.delay count) := by
        simp only [wait?, hx, h.count]
      refine ⟨⟨h.paced, h.awake rfl⟩, ?_, nofun, fun due hdue => ?_⟩
      · rw [hstreak, h.count, countUp_min]
      · cases hdue
        exact ⟨time, b.delay count, hwait, rfl⟩
  | @clears time x hx =>
      refine ⟨⟨h.paced, h.awake rfl⟩, ?_, fun _ => ?_, nofun⟩
      · simp only [streak, hx, Nat.zero_min]
      · simp only [wait?, hx]
  | @passes time x hx =>
      refine ⟨⟨h.paced, h.awake rfl⟩, ?_, fun _ => ?_, nofun⟩
      · simp only [streak, hx]
        exact h.count
      · simp only [wait?, hx]

theorem InPace.beats (h : InPace effect b log count pace)
    (hms : Beats effect b count pace ms count' pace') : InPace effect b (ms ++ log) count' pace' := by
  induction hms with
  | none => exact h
  | next hms hm ih => exact ih.beat hm
  | ends hms ih => exact ⟨ih.paced, ih.count, nofun, nofun⟩

theorem InPace.punctual (h : InPace effect b log count pace) {next : Nat → List (Moment α)}
    (hnext : ∀ due, pace = .waiting due → ∀ time,
      next time = (if due ≤ time then .asks time else .rests time) :: log) :
    Punctual effect b log (pace = .ended) next := by
  refine ⟨h.paced, fun hended since delay hwait time => ?_⟩
  cases hpace : pace with
  | awake =>
      rw [h.awake hpace] at hwait
      cases hwait
  | ended => exact absurd hpace hended
  | waiting due =>
      obtain ⟨since', delay', hwait', hsince⟩ := h.waiting due hpace
      rw [hwait'] at hwait
      cases hwait
      rw [hnext due hpace time]
      simp only [Backoff.elapsed_iff, ← hsince]

end Moment

end CourierDispatch
