import CourierDispatch.Proofs.Ledger
import CourierDispatch.Proofs.Pool

/-!
# The history of a ledger

The answers of a ledger tell which courier each order has, without a look at its pool. An answer is
lawful if it fits what the answers before it have told, and all answers of a ledger are lawful.
-/

namespace CourierDispatch

abbrev Bookings := OrderId → Option CourierId

namespace Bookings

def set (m : Bookings) (o : OrderId) (k : Option CourierId) : Bookings :=
  fun o' => if o' = o then k else m o'

def note (m : Bookings) : Answer → Bookings
  | .assigned o k => m.set o (some k)
  | .unassigned o _ => m.set o none
  | .failed _ => m

def replay (as : List Answer) : Bookings := as.foldl note fun _ => none

theorem note_of_ne {m : Bookings} {a : Answer} {o : OrderId} (h : o ≠ a.order) :
    m.note a o = m o := by
  cases a with
  | failed => rfl
  | assigned | unassigned => exact if_neg h

theorem replay_append_singleton (as : List Answer) (a : Answer) :
    replay (as ++ [a]) = (replay as).note a := by
  simp [replay, List.foldl_append]

/-- Whether an answer fits the bookings. A courier is assigned to an order that has him already, or to
one without a courier if he is on the roster and has no order. An order loses the courier that it has.
Nobody is found for an order without a courier only if every courier on the roster has an order. -/
def Lawful (roster : List CourierId) (m : Bookings) : Answer → Prop
  | .assigned o k => m o = some k ∨ m o = none ∧ k ∈ roster ∧ ∀ o', m o' ≠ some k
  | .unassigned o k => m o = some k
  | .failed o => m o = none ∧ ∀ k ∈ roster, ∃ o', m o' = some k

end Bookings

open Bookings

def LawfulHistory (roster : List CourierId) (as : List Answer) : Prop :=
  ∀ before a, before ++ [a] <+: as → Lawful roster (replay before) a

namespace LawfulHistory

variable {roster : List CourierId} {as : List Answer}

theorem nil : LawfulHistory roster [] := by
  intro before a h
  have hempty := List.prefix_nil.1 h
  simp at hempty

theorem append_singleton (h : LawfulHistory roster as) {a : Answer}
    (ha : Lawful roster (replay as) a) : LawfulHistory roster (as ++ [a]) := by
  intro before b hb
  rcases List.prefix_concat_iff.1 hb with heq | hpart
  · obtain ⟨rfl, hab⟩ := List.append_inj' heq rfl
    cases hab
    exact ha
  · exact h before b hpart

theorem restrict {as' : List Answer} (h : LawfulHistory roster as) (has : as' <+: as) :
    LawfulHistory roster as' := by
  intro before a hpart
  exact h before a (hpart.trans has)

end LawfulHistory

/-- What a ledger has answered so far is lawful, and tells what its pool holds. -/
structure Recorded (roster : List CourierId) (b : Ledger) (as : List Answer) : Prop where
  sound : b.pool.Sound
  members : ∀ k, k ∈ b.pool.roster ↔ k ∈ roster
  bookings : replay as = b.pool.assignment?
  lawful : LawfulHistory roster as

namespace Ledger

variable {roster : List CourierId} {b : Ledger} {as : List Answer}

theorem recorded_ofRoster (ks : List CourierId) (draws ids : Draws) :
    Recorded ks ⟨.ofRoster ks, draws, ids⟩ [] where
  sound := Pool.ofRoster_sound ks
  members k := Pool.mem_ofRoster
  bookings := by
    funext o
    exact (Pool.assignment?_ofRoster ks o).symm
  lawful := .nil

/-- An answer that fits the bookings of a pool is taken down with what becomes of the pool. -/
theorem recorded_append (h : Recorded roster b as) {b' : Ledger} {a : Answer}
    (hsound : b'.pool.Sound) (hroster : b'.pool.roster = b.pool.roster)
    (hlawful : Lawful roster b.pool.assignment? a)
    (hnote : ∀ o, b'.pool.assignment? o = note b.pool.assignment? a o) :
    Recorded roster b' (as ++ [a]) where
  sound := hsound
  members k := by rw [hroster, h.members]
  bookings := by
    funext o
    rw [replay_append_singleton, h.bookings, hnote]
  lawful := by
    apply h.lawful.append_singleton
    rw [h.bookings]
    exact hlawful

theorem serve_assign_recorded (h : Recorded roster b as) (ctx : Context) (o : OrderId) :
    Recorded roster (b.serve ctx (.assign o)).1
      (as ++ (b.serve ctx (.assign o)).2.map Reply.answer) := by
  have hassigns := b.pool.assigns b.draws.next o
  rcases hassign : b.pool.assign b.draws.next o with ⟨pool, answered⟩
  rw [hassign] at hassigns
  simp only [serve, hassign]
  cases hassigns with
  | again ho =>
      refine recorded_append h h.sound rfl (.inl ho) ?_
      intro o'
      simp only [note, Bookings.set]
      split
      next ho' => rw [ho', ho]
      next => rfl
  | booked ho hk hidle =>
      have hfree := (Pool.lookup_busy_eq_none h.sound).1 hidle
      exact recorded_append h (Pool.book_sound h.sound ho hk hidle) rfl
        (.inr ⟨ho, (h.members _).1 hk, hfree⟩) fun o' => Pool.assignment?_book b.pool o o' _
  | refused ho hnobody =>
      refine recorded_append h h.sound rfl ⟨ho, ?_⟩ fun o' => rfl
      intro k hk
      by_contra hnone
      have hidle : b.pool.busy.lookup k = none := by
        rw [Pool.lookup_busy_eq_none h.sound]
        exact fun o' ho' => hnone ⟨o', ho'⟩
      have hmem := Pool.mem_idle.2 ⟨(h.members k).2 hk, hidle⟩
      rw [hnobody] at hmem
      cases hmem

theorem serve_release_recorded (h : Recorded roster b as) (ctx : Context) (o : OrderId) :
    Recorded roster (b.serve ctx (.release o)).1
      (as ++ (b.serve ctx (.release o)).2.map Reply.answer) := by
  cases ho : b.pool.assignment? o with
  | none =>
      simp only [serve, Pool.release_of_none ho, List.map_nil, List.append_nil]
      exact ⟨h.sound, h.members, h.bookings, h.lawful⟩
  | some k =>
      simp only [serve, Pool.release_of_some ho]
      exact recorded_append h (Pool.free_sound h.sound ho) rfl ho
        fun o' => Pool.assignment?_free b.pool o o' k

theorem serve_recorded (h : Recorded roster b as) (ctx : Context) (r : Request) :
    Recorded roster (b.serve ctx r).1 (as ++ (b.serve ctx r).2.map Reply.answer) := by
  cases r with
  | assign o => exact serve_assign_recorded h ctx o
  | release o => exact serve_release_recorded h ctx o

theorem handle_recorded (h : Recorded roster b as) (c : Command) :
    Recorded roster (b.handle c).1 (as ++ (b.handle c).2.map Reply.answer) := by
  unfold handle
  split
  · exact serve_recorded h _ _
  · simpa using h

theorem handleAll_recorded (h : Recorded roster b as) (cs : List Command) :
    Recorded roster (b.handleAll cs).1 (as ++ (b.handleAll cs).2.map Reply.answer) := by
  induction cs generalizing b as with
  | nil => simpa [handleAll] using h
  | cons c cs ih =>
      have htail := ih (handle_recorded h c)
      simpa [handleAll] using htail

theorem takeAll_recorded (h : Recorded roster b as) (format : WireFormat) (ls : List Letter) :
    Recorded roster (b.takeAll format ls).1 (as ++ (b.replies format ls).map Reply.answer) := by
  rw [replies, takeAll_eq_handleAll]
  exact handleAll_recorded h _

/-- A release is answered exactly if the answers so far tell that the order has a courier. -/
theorem answers_release (h : Recorded roster b as) {format : WireFormat} {l : Letter} {o : OrderId}
    (hl : l.request? format = some (.release o)) :
    (b.take format l).2.map Reply.answer =
      ((replay as o).map (Answer.unassigned o)).toList := by
  simp only [take, hl, serve, h.bookings]
  cases ho : b.pool.assignment? o with
  | none => simp [Pool.release_of_none ho]
  | some k => simp [Pool.release_of_some ho]

end Ledger

end CourierDispatch
