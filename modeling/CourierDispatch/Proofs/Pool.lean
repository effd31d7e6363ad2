import CourierDispatch.Pool
import CourierDispatch.Proofs.Keyed

/-!
# Couriers and orders stay paired

In a sound pool an order and its courier know each other, and every courier with an order is on the
roster. Booking and releasing keep a pool sound and change the courier of a single order. Whichever
courier is picked, he was idle, and nobody is picked only if nobody was idle.
-/

namespace CourierDispatch

namespace Pool

variable {p : Pool} {o : OrderId} {k : CourierId}

/-- Couriers are listed once, and orders and couriers point at each other. -/
structure Sound (p : Pool) : Prop where
  roster : p.roster.Nodup
  orders : (p.assignments.map Prod.fst).Nodup
  couriers : (p.busy.map Prod.fst).Nodup
  inverse : ∀ o k, p.assignment? o = some k ↔ p.busy.lookup k = some o
  hired : ∀ o k, p.assignment? o = some k → k ∈ p.roster

/-- The pool without an order and its courier. -/
def free (p : Pool) (o : OrderId) (k : CourierId) : Pool :=
  { p with assignments := p.assignments.filter (·.1 ≠ o), busy := p.busy.filter (·.1 ≠ k) }

theorem mem_add {k' : CourierId} : k' ∈ (p.add k).roster ↔ k' ∈ p.roster ∨ k' = k := by
  unfold add
  split
  next hk =>
    constructor
    · exact .inl
    · rintro (h | rfl)
      · exact h
      · exact hk
  next => simp

theorem add_sound (h : p.Sound) (k : CourierId) : (p.add k).Sound := by
  have hhired : ∀ o k', p.assignment? o = some k' → k' ∈ (p.add k).roster :=
    fun o k' hk' => mem_add.2 (.inl (h.hired o k' hk'))
  unfold add at hhired ⊢
  split
  next => exact h
  next hk =>
    rw [if_neg hk] at hhired
    exact ⟨h.roster.append (List.nodup_singleton k) (List.disjoint_singleton.2 hk), h.orders,
      h.couriers, h.inverse, hhired⟩

theorem empty_sound : empty.Sound where
  roster := .nil
  orders := .nil
  couriers := .nil
  inverse o k := by simp [empty, assignment?]
  hired o k hk := by simp [empty, assignment?] at hk

theorem foldl_add_sound (h : p.Sound) (ks : List CourierId) : (ks.foldl add p).Sound := by
  induction ks generalizing p with
  | nil => exact h
  | cons k ks ih => exact ih (add_sound h k)

theorem ofRoster_sound (ks : List CourierId) : (ofRoster ks).Sound := foldl_add_sound empty_sound ks

theorem mem_foldl_add {ks : List CourierId} : k ∈ (ks.foldl add p).roster ↔ k ∈ p.roster ∨ k ∈ ks := by
  induction ks generalizing p with
  | nil => simp
  | cons k' ks ih => rw [List.foldl_cons, ih, mem_add, List.mem_cons, or_assoc]

theorem mem_ofRoster {ks : List CourierId} : k ∈ (ofRoster ks).roster ↔ k ∈ ks := by
  rw [ofRoster, mem_foldl_add]
  simp [empty]

theorem assignments_foldl_add (p : Pool) (ks : List CourierId) :
    (ks.foldl add p).assignments = p.assignments := by
  induction ks generalizing p with
  | nil => rfl
  | cons k ks ih =>
      have hadd : (p.add k).assignments = p.assignments := by
        unfold add
        split <;> rfl
      rw [List.foldl_cons, ih, hadd]

theorem assignment?_ofRoster (ks : List CourierId) (o : OrderId) :
    (ofRoster ks).assignment? o = none := by
  rw [assignment?, ofRoster, assignments_foldl_add]
  rfl

/-! What booking and releasing do to a pool. -/

theorem assignment?_book (p : Pool) (o o' : OrderId) (k : CourierId) :
    (p.book o k).assignment? o' = if o' = o then some k else p.assignment? o' := by
  unfold assignment? book
  by_cases h : o' = o
  · rw [if_pos h, h, List.lookup_cons_self]
  · have hne : (o' == o) = false := by simp [h]
    rw [if_neg h, List.lookup_cons, hne]

theorem lookup_busy_book (p : Pool) (o : OrderId) (k k' : CourierId) :
    (p.book o k).busy.lookup k' = if k' = k then some o else p.busy.lookup k' := by
  unfold book
  by_cases h : k' = k
  · rw [if_pos h, h, List.lookup_cons_self]
  · have hne : (k' == k) = false := by simp [h]
    rw [if_neg h, List.lookup_cons, hne]

theorem assignment?_free (p : Pool) (o o' : OrderId) (k : CourierId) :
    (p.free o k).assignment? o' = if o' = o then none else p.assignment? o' :=
  lookup_filter_ne _ _ _

theorem lookup_busy_free (p : Pool) (o : OrderId) (k k' : CourierId) :
    (p.free o k).busy.lookup k' = if k' = k then none else p.busy.lookup k' :=
  lookup_filter_ne _ _ _

theorem lookup_busy_eq_none (h : p.Sound) :
    p.busy.lookup k = none ↔ ∀ o, p.assignment? o ≠ some k := by
  constructor
  · intro hk o ho
    rw [(h.inverse o k).1 ho] at hk
    cases hk
  · intro hk
    cases hlookup : p.busy.lookup k with
    | none => rfl
    | some o => exact absurd ((h.inverse o k).2 hlookup) (hk o)

theorem book_sound (h : p.Sound) (ho : p.assignment? o = none) (hk : k ∈ p.roster)
    (hidle : p.busy.lookup k = none) : (p.book o k).Sound where
  roster := h.roster
  orders := List.nodup_cons.2 ⟨not_mem_keys_of_lookup_eq_none ho, h.orders⟩
  couriers := List.nodup_cons.2 ⟨not_mem_keys_of_lookup_eq_none hidle, h.couriers⟩
  inverse o' k' := by
    rw [assignment?_book, lookup_busy_book]
    by_cases ho' : o' = o
    · by_cases hk' : k' = k
      · simp [ho', hk']
      · have hother : p.busy.lookup k' ≠ some o := by
          intro hbusy
          rw [(h.inverse o k').2 hbusy] at ho
          cases ho
        simpa [ho', hk', Ne.symm hk'] using hother
    · by_cases hk' : k' = k
      · have hother : p.assignment? o' ≠ some k := (lookup_busy_eq_none h).1 hidle o'
        simpa [ho', hk', Ne.symm ho'] using hother
      · simpa [ho', hk'] using h.inverse o' k'
  hired o' k' h' := by
    rw [assignment?_book] at h'
    split at h'
    · cases h'
      exact hk
    · exact h.hired o' k' h'

theorem free_sound (h : p.Sound) (ho : p.assignment? o = some k) : (p.free o k).Sound where
  roster := h.roster
  orders := h.orders.sublist (List.filter_sublist.map _)
  couriers := h.couriers.sublist (List.filter_sublist.map _)
  inverse o' k' := by
    rw [assignment?_free, lookup_busy_free]
    by_cases ho' : o' = o
    · by_cases hk' : k' = k
      · simp [ho', hk']
      · have hother : p.busy.lookup k' ≠ some o := by
          intro hbusy
          rw [(h.inverse o k').2 hbusy] at ho
          exact hk' (Option.some.inj ho)
        simpa [ho', hk'] using hother
    · by_cases hk' : k' = k
      · have hother : p.assignment? o' ≠ some k := by
          intro ho''
          have hbusy := (h.inverse o' k).1 ho''
          rw [(h.inverse o k).1 ho] at hbusy
          exact ho' (Option.some.inj hbusy).symm
        simpa [ho', hk'] using hother
      · simpa [ho', hk'] using h.inverse o' k'
  hired o' k' h' := by
    rw [assignment?_free] at h'
    split at h'
    · cases h'
    · exact h.hired o' k' h'

theorem mem_idle : k ∈ p.idle ↔ k ∈ p.roster ∧ p.busy.lookup k = none := by
  simp [idle]

theorem pick?_eq_none {draw : Nat} : p.pick? draw = none ↔ p.idle = [] := by
  unfold pick?
  cases p.idle with
  | nil => simp
  | cons k ks =>
      have hlt : draw % (k :: ks).length < (k :: ks).length := Nat.mod_lt _ (Nat.succ_pos _)
      rw [List.getElem?_eq_getElem hlt]
      simp

theorem mem_idle_of_pick? {draw : Nat} (h : p.pick? draw = some k) : k ∈ p.idle :=
  List.mem_of_getElem? h

theorem busy_perm (h : p.Sound) : p.busy.Perm (p.assignments.map Prod.swap) := by
  refine (List.perm_ext_iff_of_nodup h.couriers.of_map
    (h.orders.of_map.map Prod.swap_injective)).2 ?_
  rintro ⟨k, o⟩
  rw [← lookup_eq_some_iff_mem h.couriers, ← h.inverse o k]
  refine (lookup_eq_some_iff_mem h.orders).trans ?_
  simp

/-- Every courier is idle or has exactly one order. -/
theorem length_idle_add (h : p.Sound) : p.idle.length + p.assignments.length = p.size := by
  have hbusy : (p.roster.filter fun k => !(p.busy.lookup k).isNone).Perm (p.busy.map Prod.fst) := by
    refine (List.perm_ext_iff_of_nodup (h.roster.filter _) h.couriers).2 ?_
    intro k
    rw [List.mem_filter, ← lookup_isSome_iff_mem_keys, Option.not_isNone]
    constructor
    · exact And.right
    · intro hk
      obtain ⟨o, ho⟩ := Option.isSome_iff_exists.1 hk
      exact ⟨h.hired o k ((h.inverse o k).2 ho), hk⟩
  have hlength := List.length_eq_length_filter_add (l := p.roster) fun k => (p.busy.lookup k).isNone
  rw [hbusy.length_eq, List.length_map, (busy_perm h).length_eq, List.length_map] at hlength
  exact hlength.symm

inductive Assigns (p : Pool) (o : OrderId) : Pool × Except UseCaseError CourierId → Prop
  | again {k : CourierId} (ho : p.assignment? o = some k) : Assigns p o (p, .ok k)
  | booked {k : CourierId} (ho : p.assignment? o = none) (hk : k ∈ p.roster)
      (hidle : p.busy.lookup k = none) : Assigns p o (p.book o k, .ok k)
  | refused (ho : p.assignment? o = none) (hidle : p.idle = []) :
      Assigns p o (p, .error (.noEligibleCourier o))

theorem assigns (p : Pool) (draw : Nat) (o : OrderId) : p.Assigns o (p.assign draw o) := by
  unfold assign
  cases ho : p.assignment? o with
  | some k => exact .again ho
  | none =>
      cases hpick : p.pick? draw with
      | none => exact .refused ho (pick?_eq_none.1 hpick)
      | some k =>
          obtain ⟨hk, hidle⟩ := mem_idle.1 (mem_idle_of_pick? hpick)
          exact .booked ho hk hidle

theorem release_of_none (ho : p.assignment? o = none) : p.release o = (p, none) := by
  simp only [release, ho]

theorem release_of_some (ho : p.assignment? o = some k) : p.release o = (p.free o k, some k) := by
  simp only [release, ho, free]

theorem assign_sound (h : p.Sound) (draw : Nat) (o : OrderId) : (p.assign draw o).1.Sound := by
  have hassigns := p.assigns draw o
  generalize p.assign draw o = assigned at hassigns
  cases hassigns with
  | again ho => exact h
  | booked ho hk hidle => exact book_sound h ho hk hidle
  | refused ho hidle => exact h

theorem release_sound (h : p.Sound) (o : OrderId) : (p.release o).1.Sound := by
  cases ho : p.assignment? o with
  | none =>
      rw [release_of_none ho]
      exact h
  | some k =>
      rw [release_of_some ho]
      exact free_sound h ho

/-! Pools in use. -/

inductive Act
  | add (k : CourierId)
  | assign (ctx : Context) (o : OrderId)
  | unassign (ctx : Context) (o : OrderId)

namespace Drawing

def act (d : Drawing) : Act → Drawing
  | .add k => { d with pool := d.pool.add k }
  | .assign ctx o => (UseCases.assign d ctx o).run.1
  | .unassign ctx o => (UseCases.unassign d ctx o).run.1

theorem act_sound {d : Drawing} (h : d.pool.Sound) (a : Act) : (d.act a).pool.Sound := by
  cases a with
  | add k => exact add_sound h k
  | assign ctx o => exact assign_sound h d.draws.next o
  | unassign ctx o => exact release_sound h o

theorem foldl_act_sound {d : Drawing} (h : d.pool.Sound) (acts : List Act) :
    (acts.foldl act d).pool.Sound := by
  induction acts generalizing d with
  | nil => exact h
  | cons a acts ih => exact ih (act_sound h a)

/-- Whatever is asked of a pool and whoever is picked, orders and couriers stay paired, only couriers on
the roster have an order, and there are never more orders than couriers. -/
theorem paired (ks : List CourierId) (draws : Draws) (acts : List Act) :
    let p := (acts.foldl act ⟨ofRoster ks, draws⟩).pool
    p.Sound ∧ p.busy.Perm (p.assignments.map Prod.swap) ∧ p.assignments.length ≤ p.size := by
  intro p
  have hsound : p.Sound := foldl_act_sound (ofRoster_sound ks) acts
  refine ⟨hsound, busy_perm hsound, ?_⟩
  rw [← length_idle_add hsound]
  exact Nat.le_add_left _ _

end Drawing

end Pool

end CourierDispatch
