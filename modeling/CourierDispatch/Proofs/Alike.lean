import CourierDispatch.Proofs.Pool
import CourierDispatch.Proofs.Request

/-!
# What does not depend on the picks

Two pools are alike if they have the same roster and the same orders have couriers, whoever these are.
Then they have equally many idle couriers, so a request has the same kind of answer with both of them,
and afterwards they are alike again. A bad message asks for nothing.
-/

namespace CourierDispatch

/-- A message that cannot be decoded, or holds a command with an unknown name or with a payload that
does not go with its name. -/
inductive Letter.Bad (format : WireFormat) (l : Letter) : Prop
  | undecodable {e : CodecError} (h : Command.decode format l.value = .error e)
  | unknown {c : Command} (h : Command.decode format l.value = .ok c) (hkind : c.kind? = none)
  | malformed {c : Command} {kind : CommandKind} {e : CodecError}
      (h : Command.decode format l.value = .ok c) (hkind : c.kind? = some kind)
      (he : c.details (Dispatcher.requestType kind) = .error e)

theorem Letter.Bad.request?_eq_none {format : WireFormat} {l : Letter} (h : l.Bad format) :
    l.request? format = none := by
  cases h with
  | undecodable h => simp only [request?, h]
  | unknown h hkind => simp only [request?, h, (Command.Refused.unknown hkind).request?_eq_none]
  | malformed h hkind he =>
      simp only [request?, h, (Command.Refused.malformed hkind he).request?_eq_none]

/-- The second messages are the first ones with bad ones in between. -/
inductive Padded (format : WireFormat) : List Letter → List Letter → Prop
  | nil : Padded format [] []
  | keep {ls ls' : List Letter} (l : Letter) (h : Padded format ls ls') :
      Padded format (l :: ls) (l :: ls')
  | insert {ls ls' : List Letter} {l : Letter} (hl : l.Bad format) (h : Padded format ls ls') :
      Padded format ls (l :: ls')

/-- What a reply says to those who know neither the couriers nor the ids. -/
structure Gist where
  kind : ResultKind
  order : OrderId
  headers : Headers
deriving DecidableEq, Repr

def Reply.gist (r : Reply) : Gist := ⟨r.answer.kind, r.answer.order, r.context.toHeaders⟩

theorem map_gist_singleton {r r' : Reply} (hkind : r.answer.kind = r'.answer.kind)
    (horder : r.answer.order = r'.answer.order) (hcontext : r.context = r'.context) :
    [r].map Reply.gist = [r'].map Reply.gist := by
  simp only [List.map_cons, List.map_nil, Reply.gist, hkind, horder, hcontext]

namespace Pool

/-- The same couriers are on the roster, and the same orders have one. -/
structure Alike (p p' : Pool) : Prop where
  sound : p.Sound
  sound' : p'.Sound
  roster : p.roster = p'.roster
  orders : p.assignments.map Prod.fst = p'.assignments.map Prod.fst

namespace Alike

variable {p p' : Pool} {o : OrderId} {k k' : CourierId}

theorem refl (h : p.Sound) : p.Alike p := ⟨h, h, rfl, rfl⟩

theorem assignment?_eq_none (h : p.Alike p') : p.assignment? o = none ↔ p'.assignment? o = none := by
  rw [← Option.not_isSome_iff_eq_none, ← Option.not_isSome_iff_eq_none, assignment?, assignment?,
    lookup_isSome_iff_mem_keys, lookup_isSome_iff_mem_keys, h.orders]

theorem exists_assignment? (h : p.Alike p') (ho : p.assignment? o = some k) :
    ∃ k', p'.assignment? o = some k' := by
  rw [← Option.ne_none_iff_exists', Ne, ← h.assignment?_eq_none, ho]
  simp

theorem length_idle (h : p.Alike p') : p.idle.length = p'.idle.length := by
  have hcount := length_idle_add h.sound
  have hcount' := length_idle_add h.sound'
  have horders := congrArg List.length h.orders
  rw [List.length_map, List.length_map] at horders
  rw [size, h.roster, ← size, ← hcount', horders] at hcount
  exact Nat.add_right_cancel hcount

theorem book (h : p.Alike p') (hp : (p.book o k).Sound) (hp' : (p'.book o k').Sound) :
    (p.book o k).Alike (p'.book o k') :=
  ⟨hp, hp', h.roster, congrArg (o :: ·) h.orders⟩

theorem free (h : p.Alike p') (hp : (p.free o k).Sound) (hp' : (p'.free o k').Sound) :
    (p.free o k).Alike (p'.free o k') := by
  have hkeys (l : List (OrderId × CourierId)) :
      (l.filter (·.1 ≠ o)).map Prod.fst = (l.map Prod.fst).filter (· ≠ o) := by
    rw [List.filter_map]
    rfl
  refine ⟨hp, hp', h.roster, ?_⟩
  rw [Pool.free, Pool.free, hkeys, hkeys, h.orders]

end Alike

end Pool

namespace Ledger

variable {b b' : Ledger}

theorem serve_assign_alike (h : b.pool.Alike b'.pool) (ctx : Context) (o : OrderId) :
    (b.serve ctx (.assign o)).1.pool.Alike (b'.serve ctx (.assign o)).1.pool ∧
      (b.serve ctx (.assign o)).2.map Reply.gist = (b'.serve ctx (.assign o)).2.map Reply.gist := by
  have hassigns := b.pool.assigns b.draws.next o
  have hassigns' := b'.pool.assigns b'.draws.next o
  rcases hassign : b.pool.assign b.draws.next o with ⟨pool, answered⟩
  rcases hassign' : b'.pool.assign b'.draws.next o with ⟨pool', answered'⟩
  rw [hassign] at hassigns
  rw [hassign'] at hassigns'
  simp only [serve, hassign, hassign']
  cases hassigns with
  | again ho =>
      cases hassigns' with
      | again ho' => exact ⟨h, map_gist_singleton rfl rfl rfl⟩
      | booked ho' => simp [h.assignment?_eq_none.2 ho'] at ho
      | refused ho' => simp [h.assignment?_eq_none.2 ho'] at ho
  | booked ho hk hidle =>
      cases hassigns' with
      | again ho' => simp [h.assignment?_eq_none.1 ho] at ho'
      | booked ho' hk' hidle' =>
          exact ⟨h.book (Pool.book_sound h.sound ho hk hidle)
            (Pool.book_sound h.sound' ho' hk' hidle'), map_gist_singleton rfl rfl rfl⟩
      | refused ho' hnobody =>
          -- an idle courier here means an idle courier there
          have hpos := List.length_pos_of_mem (Pool.mem_idle.2 ⟨hk, hidle⟩)
          rw [h.length_idle, hnobody] at hpos
          cases hpos
  | refused ho hnobody =>
      cases hassigns' with
      | again ho' => simp [h.assignment?_eq_none.1 ho] at ho'
      | booked ho' hk' hidle' =>
          have hpos := List.length_pos_of_mem (Pool.mem_idle.2 ⟨hk', hidle'⟩)
          rw [← h.length_idle, hnobody] at hpos
          cases hpos
      | refused ho' hnobody' => exact ⟨h, map_gist_singleton rfl rfl rfl⟩

theorem serve_release_alike (h : b.pool.Alike b'.pool) (ctx : Context) (o : OrderId) :
    (b.serve ctx (.release o)).1.pool.Alike (b'.serve ctx (.release o)).1.pool ∧
      (b.serve ctx (.release o)).2.map Reply.gist = (b'.serve ctx (.release o)).2.map Reply.gist := by
  cases ho : b.pool.assignment? o with
  | none =>
      have ho' := h.assignment?_eq_none.1 ho
      simp only [serve, Pool.release_of_none ho, Pool.release_of_none ho']
      exact ⟨h, trivial⟩
  | some k =>
      obtain ⟨k', ho'⟩ := h.exists_assignment? ho
      simp only [serve, Pool.release_of_some ho, Pool.release_of_some ho']
      exact ⟨h.free (Pool.free_sound h.sound ho) (Pool.free_sound h.sound' ho'),
        map_gist_singleton rfl rfl rfl⟩

theorem take_alike (h : b.pool.Alike b'.pool) (format : WireFormat) (l : Letter) :
    (b.take format l).1.pool.Alike (b'.take format l).1.pool ∧
      (b.take format l).2.map Reply.gist = (b'.take format l).2.map Reply.gist := by
  unfold take
  cases l.request? format with
  | none => exact ⟨h, rfl⟩
  | some r =>
      cases r with
      | assign o => exact serve_assign_alike h _ o
      | release o => exact serve_release_alike h _ o

/-- Neither the picks nor bad messages show in what is replied. -/
theorem replies_alike (h : b.pool.Alike b'.pool) {format : WireFormat} {ls ls' : List Letter}
    (hls : Padded format ls ls') :
    (b.replies format ls).map Reply.gist = (b'.replies format ls').map Reply.gist := by
  unfold replies
  induction hls generalizing b b' with
  | nil => rfl
  | keep l hls ih =>
      obtain ⟨halike, hgist⟩ := take_alike h format l
      simp only [takeAll, List.map_append, hgist, ih halike]
  | @insert ls ls' l hl hls ih =>
      have hskip : b'.take format l = (b', []) := by simp only [take, hl.request?_eq_none]
      simp only [takeAll, hskip, List.nil_append]
      exact ih h

end Ledger

end CourierDispatch
