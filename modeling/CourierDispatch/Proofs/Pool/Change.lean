import CourierDispatch.Proofs.Pool

/-!
# What booking and releasing change

Booking a courier adds one pair to a pool and releasing an order takes its pair away. All other pairs and
the roster stay what they are, and a request that fails leaves no trace. The idle couriers may be tried in
any order: this comes to one pick among them, and every idle courier can be the one who is picked.
-/

namespace CourierDispatch

section Entries

variable {α β : Type} [DecidableEq α] {l : List (α × β)} {a : α}

theorem filter_ne_of_notMem_keys (h : a ∉ l.map Prod.fst) : l.filter (·.1 ≠ a) = l := by
  refine List.filter_eq_self.2 fun e he => decide_eq_true ?_
  rintro rfl
  exact h (List.mem_map_of_mem he)

theorem perm_cons_filter_ne {b : β} (h : (l.map Prod.fst).Nodup) (hab : (a, b) ∈ l) :
    l.Perm ((a, b) :: l.filter (·.1 ≠ a)) := by
  obtain ⟨before, after, rfl⟩ := List.append_of_mem hab
  rw [List.map_append, List.map_cons, List.nodup_middle, List.nodup_cons, List.mem_append,
    not_or] at h
  obtain ⟨⟨hbefore, hafter⟩, -⟩ := h
  rw [List.filter_append, List.filter_cons_of_neg (by simp), filter_ne_of_notMem_keys hbefore,
    filter_ne_of_notMem_keys hafter]
  exact List.perm_middle

end Entries

namespace Pool

variable {p q : Pool} {o : OrderId} {k : CourierId}

structure IsIdle (p : Pool) (k : CourierId) : Prop where
  hired : k ∈ p.roster
  free : p.busy.lookup k = none

/-- The second pool is the first with one order and its courier more. -/
structure Gains (p : Pool) (o : OrderId) (k : CourierId) (q : Pool) : Prop where
  roster : q.roster = p.roster
  assignments : q.assignments.Perm ((o, k) :: p.assignments)
  busy : q.busy.Perm ((k, o) :: p.busy)

theorem gains_book (p : Pool) (o : OrderId) (k : CourierId) : p.Gains o k (p.book o k) :=
  ⟨rfl, .refl _, .refl _⟩

theorem gains_free (h : p.Sound) (ho : p.assignment? o = some k) : (p.free o k).Gains o k p where
  roster := rfl
  assignments := perm_cons_filter_ne h.orders ((lookup_eq_some_iff_mem h.orders).1 ho)
  busy := perm_cons_filter_ne h.couriers
    ((lookup_eq_some_iff_mem h.couriers).1 ((h.inverse o k).1 ho))

/-- Releasing an order that has just been booked restores the pool. -/
theorem release_book (ho : p.assignment? o = none) (hk : p.busy.lookup k = none) :
    (p.book o k).release o = (p, some k) := by
  have hbooked : (p.book o k).assignment? o = some k := by rw [assignment?_book, if_pos rfl]
  have hassignments : (p.book o k).assignments.filter (·.1 ≠ o) = p.assignments := by
    rw [book, List.filter_cons_of_neg (by simp)]
    exact filter_ne_of_notMem_keys (not_mem_keys_of_lookup_eq_none ho)
  have hbusy : (p.book o k).busy.filter (·.1 ≠ k) = p.busy := by
    rw [book, List.filter_cons_of_neg (by simp)]
    exact filter_ne_of_notMem_keys (not_mem_keys_of_lookup_eq_none hk)
  rw [release_of_some hbooked, free, hassignments, hbusy]
  rfl

theorem release_free (p : Pool) (o : OrderId) (k : CourierId) :
    (p.free o k).release o = (p.free o k, none) :=
  release_of_none (by rw [assignment?_free, if_pos rfl])

theorem mem_idle_iff : k ∈ p.idle ↔ p.IsIdle k :=
  mem_idle.trans ⟨fun h => ⟨h.1, h.2⟩, fun h => ⟨h.hired, h.free⟩⟩

/-- Every idle courier is picked by some number. -/
theorem exists_pick? (h : k ∈ p.idle) : ∃ draw, p.pick? draw = some k := by
  obtain ⟨draw, hlt, rfl⟩ := List.mem_iff_getElem.1 h
  refine ⟨draw, ?_⟩
  rw [pick?, Nat.mod_eq_of_lt hlt]
  exact List.getElem?_eq_getElem hlt

theorem assign_of_pick? {draw : Nat} (ho : p.assignment? o = none) (hk : p.pick? draw = some k) :
    p.assign draw o = (p.book o k, .ok k) := by
  simp only [assign, ho, hk]

theorem assign_of_idle_nil (draw : Nat) (ho : p.assignment? o = none) (hidle : p.idle = []) :
    p.assign draw o = (p, .error (.noEligibleCourier o)) := by
  have hnone : p.pick? draw = none := pick?_eq_none.2 hidle
  simp only [assign, ho, hnone]

/-- Tries couriers one after the other and books the first one who has no order. -/
def bookFirst (p : Pool) (o : OrderId) : List CourierId → Pool × Except UseCaseError CourierId
  | [] => (p, .error (.noEligibleCourier o))
  | k :: ks => if (p.busy.lookup k).isNone then (p.book o k, .ok k) else p.bookFirst o ks

theorem bookFirst_cons_of_idle (o : OrderId) (hk : k ∈ p.idle) (ks : List CourierId) :
    p.bookFirst o (k :: ks) = (p.book o k, .ok k) := by
  rw [bookFirst, (mem_idle.1 hk).2]
  rfl

/-- Trying the idle couriers in some order is picking one of them. -/
theorem exists_assign_eq_bookFirst (ho : p.assignment? o = none) {tried : List CourierId}
    (h : tried.Perm p.idle) : ∃ draw, p.assign draw o = p.bookFirst o tried := by
  cases tried with
  | nil => exact ⟨0, assign_of_idle_nil 0 ho h.nil_eq.symm⟩
  | cons k ks =>
      have hk : k ∈ p.idle := h.mem_iff.1 List.mem_cons_self
      obtain ⟨draw, hdraw⟩ := exists_pick? hk
      exact ⟨draw, (assign_of_pick? ho hdraw).trans (bookFirst_cons_of_idle o hk ks).symm⟩

theorem exists_bookFirst_eq_assign (ho : p.assignment? o = none) (draw : Nat) :
    ∃ tried : List CourierId, tried.Perm p.idle ∧ p.assign draw o = p.bookFirst o tried := by
  cases hpick : p.pick? draw with
  | none =>
      have hidle : p.idle = [] := pick?_eq_none.1 hpick
      exact ⟨[], hidle ▸ .nil, assign_of_idle_nil draw ho hidle⟩
  | some k =>
      have hk : k ∈ p.idle := mem_idle_of_pick? hpick
      refine ⟨k :: p.idle.erase k, (List.perm_cons_erase hk).symm, ?_⟩
      rw [assign_of_pick? ho hpick, bookFirst_cons_of_idle o hk]

/-- What becomes of requests for an order, whoever is picked. -/
structure Exact (p : Pool) (o : OrderId) : Prop where
  /-- An order that has a courier keeps him. -/
  again : ∀ draw k, p.assignment? o = some k → p.assign draw o = (p, .ok k)
  /-- Any other order gets an idle courier, and to release it at once is to take everything back. -/
  booked : p.assignment? o = none → (∃ k, p.IsIdle k) → ∀ draw, ∃ k q,
    p.assign draw o = (q, .ok k) ∧ p.IsIdle k ∧ p.Gains o k q ∧ q.release o = (p, some k)
  refused : p.assignment? o = none → (∀ k, ¬ p.IsIdle k) → ∀ draw,
    p.assign draw o = (p, .error (.noEligibleCourier o))
  anyone : p.assignment? o = none → ∀ k, p.IsIdle k → ∃ draw, (p.assign draw o).2 = .ok k
  /-- A pick stands for an order in which the idle couriers are tried. -/
  tried : p.assignment? o = none →
    (∀ ks : List CourierId, ks.Perm p.idle → ∃ draw, p.assign draw o = p.bookFirst o ks) ∧
      ∀ draw, ∃ ks : List CourierId, ks.Perm p.idle ∧ p.assign draw o = p.bookFirst o ks
  released : ∀ k, p.assignment? o = some k → ∃ q,
    p.release o = (q, some k) ∧ q.Gains o k p ∧ q.release o = (q, none)
  unassigned : p.assignment? o = none → p.release o = (p, none)

theorem exact_of_sound (h : p.Sound) (o : OrderId) : p.Exact o where
  again draw k ho := by simp only [assign, ho]
  booked := by
    rintro ho ⟨k, hk⟩ draw
    cases hpick : p.pick? draw with
    | none =>
        have hnobody := pick?_eq_none.1 hpick ▸ mem_idle_iff.2 hk
        cases hnobody
    | some k' =>
        have hidle : p.IsIdle k' := mem_idle_iff.1 (mem_idle_of_pick? hpick)
        exact ⟨k', p.book o k', assign_of_pick? ho hpick, hidle, gains_book p o k',
          release_book ho hidle.free⟩
  refused ho hnobody draw := by
    refine assign_of_idle_nil draw ho (List.eq_nil_iff_forall_not_mem.2 fun k hk => ?_)
    exact hnobody k (mem_idle_iff.1 hk)
  anyone := by
    intro ho k hk
    obtain ⟨draw, hdraw⟩ := exists_pick? (mem_idle_iff.2 hk)
    exact ⟨draw, by rw [assign_of_pick? ho hdraw]⟩
  tried ho := ⟨fun _ => exists_assign_eq_bookFirst ho, exists_bookFirst_eq_assign ho⟩
  released k ho := ⟨p.free o k, release_of_some ho, gains_free h ho, release_free p o k⟩
  unassigned := release_of_none

/-- Whatever has been asked of a pool before, a request does its job and nothing else. -/
theorem Drawing.requests_exact (ks : List CourierId) (draws : Draws) (acts : List Act)
    (o : OrderId) : (acts.foldl act ⟨ofRoster ks, draws⟩).pool.Exact o := by
  have hsound : (acts.foldl act ⟨ofRoster ks, draws⟩).pool.Sound :=
    foldl_act_sound (ofRoster_sound ks) acts
  exact exact_of_sound hsound o

end Pool

end CourierDispatch
