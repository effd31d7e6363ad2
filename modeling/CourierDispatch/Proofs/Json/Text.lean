import CourierDispatch.Proofs.Json.NumberText
import CourierDispatch.Proofs.Json.Scanner
import CourierDispatch.Proofs.Json.Written

/-!
# Reading the text of a value

`Scanner.scan_written` puts the scalars and containers together: going over any text of a value is
offering the value, wherever there are blanks in it. `feed_written` says the same of a text on its own,
and `feed_print` of the compact one.
-/

namespace CourierDispatch.Json

def Spot.Patient : Spot → Prop
  | word .. | numeral .. | quoted .. => False
  | _ => True

theorem endsNumeral_space {b : UInt8} (h : Scanner.isSpace (asChar b) = true) : EndsNumeral b := by
  simp only [Scanner.isSpace, Bool.or_eq_true, decide_eq_true_eq] at h
  unfold EndsNumeral
  rcases h with ((h | h) | h) | h <;> rw [h] <;> decide

namespace Scanner

open Value

variable {σ : Type} [Consumer σ]

theorem toNat_lt_of_isSpace {x : Char} (h : isSpace x = true) : x.toNat < 0x80 := by
  simp only [isSpace, Bool.or_eq_true, decide_eq_true_eq] at h
  rcases h with ((rfl | rfl) | rfl) | rfl <;> decide

theorem step_space {spot : Spot} (hspot : spot.Patient) {b : UInt8}
    (hb : isSpace (asChar b) = true) (frames : List Frame) (c : σ) :
    step ⟨spot, frames, c⟩ b = .ok ⟨spot, frames, c⟩ := by
  cases spot with
  | value | firstItem | name | firstName | colon => simp [step, hb]
  | delimiter => simp [step, delimit, hb]
  | word => exact hspot.elim
  | numeral => exact hspot.elim
  | quoted => exact hspot.elim

theorem scan_gap (spot : Spot) (hspot : spot.Patient) {g : List Char} (hg : Gap g)
    (frames : List Frame) (c : σ) (rest : List UInt8) :
    scan ⟨spot, frames, c⟩ (Utf8.encode g ++ rest) = scan ⟨spot, frames, c⟩ rest := by
  induction g with
  | nil => rfl
  | cons x g ih =>
      obtain ⟨hx, hg⟩ := List.forall_mem_cons.1 hg
      have hlt := toNat_lt_of_isSpace hx
      have hstep : step ⟨spot, frames, c⟩ x.toNat.toUInt8 = .ok ⟨spot, frames, c⟩ :=
        step_space hspot (by rwa [asChar_toUInt8 hlt]) frames c
      rw [Utf8.encode_cons, Utf8.encodeChar_ascii hlt, List.singleton_append, List.cons_append,
        scan_cons_of_step hstep, ih hg]

theorem bounded_gap {v : Value} {g : List Char} (hg : Gap g) {rest : List UInt8}
    (h : g = [] → Bounded v rest) : Bounded v (Utf8.encode g ++ rest) := by
  cases g with
  | nil => exact h rfl
  | cons x g =>
      have hx : isSpace x = true := hg x List.mem_cons_self
      have hlt := toNat_lt_of_isSpace hx
      rw [Utf8.encode_cons, Utf8.encodeChar_ascii hlt, List.singleton_append, List.cons_append]
      exact bounded_cons v (endsNumeral_space (by rwa [asChar_toUInt8 hlt])) _

theorem scan_padded {P : List Char → Prop} (spot spot' : Spot) (hspot : spot.Patient)
    (hspot' : spot'.Patient) {cs : List Char} (h : Padded P cs) {frames frames' : List Frame} {c : σ}
    {x : Except Fault σ} {rest : List UInt8}
    (hscan : ∀ ds g, P ds → Gap g →
      scan ⟨spot, frames, c⟩ (Utf8.encode ds ++ (Utf8.encode g ++ rest)) =
        x.bind fun c => scan ⟨spot', frames', c⟩ (Utf8.encode g ++ rest)) :
    scan ⟨spot, frames, c⟩ (Utf8.encode cs ++ rest) =
      x.bind fun c => scan ⟨spot', frames', c⟩ rest := by
  obtain ⟨g, ds, g', hg, hds, hg', rfl⟩ := h
  rw [Utf8.encode_append, Utf8.encode_append, List.append_assoc, List.append_assoc,
    scan_gap spot hspot hg, hscan ds g' hds hg']
  cases x with
  | error e => rfl
  | ok c => exact scan_gap spot' hspot' hg' frames' c rest

theorem exists_eq_cons_of_written {v : Value} (hv : ∀ n, v = .number n → n.fits) {cs : List Char}
    (h : Written v cs) :
    ∃ x ds, cs = x :: ds ∧ x.toNat < 0x80 ∧ isSpace x = false ∧ x ≠ ']' := by
  match v, h with
  | .null, h => exact ⟨'n', _, h, by decide⟩
  | .bool true, h => exact ⟨'t', _, h, by decide⟩
  | .bool false, h => exact ⟨'f', _, h, by decide⟩
  | .number n, h =>
      have hn := hv n rfl
      obtain ⟨x, ds, htext⟩ := List.exists_cons_of_ne_nil (Numeral.numberText_ne_nil hn)
      have hx : Numeral.Fitting x := Numeral.fitting_numberText hn x (htext ▸ List.mem_cons_self)
      refine ⟨x, ds, h.trans htext, hx.toNat_lt, isSpace_fitting hx, ?_⟩
      rintro rfl
      exact absurd hx (by decide)
  | .string s, ⟨_, _, h⟩ => exact ⟨'"', _, h, by decide⟩
  | .array items, ⟨_, _, h⟩ => exact ⟨'[', _, h, by decide⟩
  | .object members, ⟨_, _, h⟩ => exact ⟨'\x7b', _, h, by decide⟩

theorem step_firstItem {x : Char} (hx : x.toNat < 0x80) (hspace : isSpace x = false) (hend : x ≠ ']')
    (frames : List Frame) (c : σ) :
    step ⟨.firstItem, frames, c⟩ x.toNat.toUInt8 = step ⟨.value, frames, c⟩ x.toNat.toUInt8 := by
  simp only [step, asChar_toUInt8 hx, hspace, hend, Bool.false_eq_true, if_false]
  rfl

/-- The first item of an array is read like any further one. -/
theorem scan_firstItem {v : Value} (hv : v.Integral) {cs : List Char} (h : Padded (Written v) cs)
    (frames : List Frame) (c : σ) (rest : List UInt8) :
    scan ⟨.firstItem, frames, c⟩ (Utf8.encode cs ++ rest) =
      scan ⟨.value, frames, c⟩ (Utf8.encode cs ++ rest) := by
  obtain ⟨g, ds, g', hg, hds, hg', rfl⟩ := h
  obtain ⟨x, es, rfl, hx, hspace, hend⟩ := exists_eq_cons_of_written hv.fits hds
  rw [Utf8.encode_append, List.append_assoc, scan_gap .firstItem trivial hg,
    scan_gap .value trivial hg, List.cons_append, Utf8.encode_cons,
    Utf8.encodeChar_ascii hx, List.singleton_append, List.cons_append, scan_cons, scan_cons,
    step_firstItem hx hspace hend]

theorem scan_firstItems {v : Value} (hv : v.Integral) (vs : List Value) {cs : List Char}
    (h : WrittenItems (v :: vs) cs) (frames : List Frame) (c : σ) (rest : List UInt8) :
    scan ⟨.firstItem, frames, c⟩ (Utf8.encode cs ++ rest) =
      scan ⟨.value, frames, c⟩ (Utf8.encode cs ++ rest) := by
  cases vs with
  | nil => exact scan_firstItem hv h frames c rest
  | cons w ws =>
      obtain ⟨ds, es, hds, -, rfl⟩ := h
      rw [Utf8.encode_append, List.append_assoc]
      exact scan_firstItem hv hds frames c _

theorem scan_name {spot : Spot} (hspot : spot = .name ∨ spot = .firstName) {k : String}
    {cs : List Char} (h : Padded (Quotes k) cs) (frames : List Frame) (c : σ) (rest : List UInt8) :
    scan ⟨spot, frames, c⟩ (Utf8.encode cs ++ 0x3A :: rest) =
      (manner.handScalar c (.text k)).bind fun c => scan ⟨.value, frames, c⟩ rest := by
  have hopen : step (σ := σ) ⟨spot, frames, c⟩ 0x22 =
      .ok ⟨.quoted true { skim := Consumer.skims c }, frames, c⟩ := by
    rcases hspot with rfl | rfl <;> rfl
  have hpatient : spot.Patient := by
    rcases hspot with rfl | rfl <;> trivial
  rw [scan_padded spot .colon hpatient trivial h fun ds g hds _ =>
    scan_quotes true hds frames c hopen _]
  rfl

theorem encode_bracketed {left right : Char} (hleft : left.toNat < 0x80) (hright : right.toNat < 0x80)
    (cs : List Char) (rest : List UInt8) :
    Utf8.encode (left :: cs ++ [right]) ++ rest =
      left.toNat.toUInt8 :: (Utf8.encode cs ++ right.toNat.toUInt8 :: rest) := by
  rw [List.cons_append, Utf8.encode_cons, Utf8.encode_append, Utf8.encodeChar_ascii hleft,
    Utf8.encode_cons, Utf8.encodeChar_ascii hright]
  simp

theorem encode_joined {mark : Char} (hmark : mark.toNat < 0x80) (cs ds : List Char)
    (rest : List UInt8) :
    Utf8.encode (cs ++ mark :: ds) ++ rest =
      Utf8.encode cs ++ mark.toNat.toUInt8 :: (Utf8.encode ds ++ rest) := by
  rw [Utf8.encode_append, Utf8.encode_cons, Utf8.encodeChar_ascii hmark]
  simp

mutual
/-- Going over a text of a value is offering the value to the consumer. -/
theorem scan_written (v : Value) (hv : v.Integral) {cs : List Char} (h : Written v cs)
    (frames : List Frame) (c : σ) {rest : List UInt8} (hr : Bounded v rest) :
    scan ⟨.value, frames, c⟩ (Utf8.encode cs ++ rest) =
      (manner.offer frames.length c v).bind fun c => scan ⟨.delimiter, frames, c⟩ rest := by
  match v, hv, h, hr with
  | .null, _, h, _ =>
      cases h
      exact scan_null frames c rest
  | .bool true, _, h, _ =>
      cases h
      exact scan_true frames c rest
  | .bool false, _, h, _ =>
      cases h
      exact scan_false frames c rest
  | .number (.whole n), hv, h, hr =>
      cases h
      exact scan_wholeText hv frames c (hr _ rfl)
  | .string s, _, h, _ => exact scan_quotes false h frames c rfl rest
  | .array items, hv, ⟨ds, hds, hcs⟩, _ =>
      rw [hcs, encode_bracketed (by decide) (by decide)]
      change scan ⟨.value, frames, c⟩ (0x5B :: (Utf8.encode ds ++ 0x5D :: rest)) = _
      rw [scan_open .array frames c rfl, Manner.offer]
      change (manner.enter frames.length c .arrayStart).bind _ = _
      cases manner.enter frames.length c .arrayStart with
      | error e => rfl
      | ok c =>
          match items, hv, hds with
          | [], _, hds =>
              change scan ⟨.firstItem, .array :: frames, c⟩ _ = _
              rw [scan_gap .firstItem trivial hds]
              exact scan_close .array frames c rfl rest
          | v :: vs, hv, hds =>
              change scan ⟨.firstItem, .array :: frames, c⟩ _ = _
              rw [scan_firstItems hv.2.1 vs hds]
              exact scan_items v vs hv.2 hds frames c rest
  | .object members, hv, ⟨ds, hds, hcs⟩, _ =>
      rw [hcs, encode_bracketed (by decide) (by decide)]
      change scan ⟨.value, frames, c⟩ (0x7B :: (Utf8.encode ds ++ 0x7D :: rest)) = _
      rw [scan_open .object frames c rfl, Manner.offer]
      change (manner.enter frames.length c .objectStart).bind _ = _
      cases manner.enter frames.length c .objectStart with
      | error e => rfl
      | ok c =>
          match members, hv, hds with
          | [], _, hds =>
              change scan ⟨.firstName, .object :: frames, c⟩ _ = _
              rw [scan_gap .firstName trivial hds]
              exact scan_close .object frames c rfl rest
          | (k, v) :: ms, hv, hds =>
              exact scan_members k v ms hv.2 hds (Or.inr rfl) frames c rest
termination_by (sizeOf v, 0)

theorem scan_paddedValue (v : Value) (hv : v.Integral) {cs : List Char} (h : Padded (Written v) cs)
    (frames : List Frame) (c : σ) {b : UInt8} (hb : EndsNumeral b) (rest : List UInt8) :
    scan ⟨.value, frames, c⟩ (Utf8.encode cs ++ b :: rest) =
      (manner.offer frames.length c v).bind fun c => scan ⟨.delimiter, frames, c⟩ (b :: rest) :=
  scan_padded .value .delimiter trivial trivial h fun _ _ hds hg =>
    scan_written v hv hds frames c (bounded_gap hg fun _ => bounded_cons v hb rest)
termination_by (sizeOf v, 1)

theorem scan_items (v : Value) (vs : List Value) (hv : AllItems IntegralNode (v :: vs))
    {cs : List Char} (h : WrittenItems (v :: vs) cs) (frames : List Frame) (c : σ)
    (rest : List UInt8) :
    scan ⟨.value, .array :: frames, c⟩ (Utf8.encode cs ++ 0x5D :: rest) =
      ((manner.offerItems (frames.length + 1) c (v :: vs)).bind fun c =>
        manner.hand c .arrayEnd).bind fun c => scan ⟨.delimiter, frames, c⟩ rest := by
  match vs, hv, h with
  | [], hv, h =>
      rw [scan_paddedValue v hv.1 h _ c (by decide), List.length_cons, Manner.offerItems]
      cases manner.offer (frames.length + 1) c v with
      | error e => rfl
      | ok c => exact scan_close .array frames c rfl rest
  | w :: ws, hv, ⟨ds, es, hds, hes, hcs⟩ =>
      rw [hcs, encode_joined (by decide)]
      change scan _ (Utf8.encode ds ++ 0x2C :: (Utf8.encode es ++ 0x5D :: rest)) = _
      rw [scan_paddedValue v hv.1 hds _ c (by decide), List.length_cons, Manner.offerItems]
      cases manner.offer (frames.length + 1) c v with
      | error e => rfl
      | ok c =>
          change scan ⟨.delimiter, .array :: frames, c⟩ _ =
            (((manner.next false false c).bind _).bind _).bind _
          rw [scan_comma_array]
          cases manner.next false false c with
          | error e => rfl
          | ok c => exact scan_items w ws hv.2 hes frames c rest
termination_by (sizeOf (v :: vs), 0)

theorem scan_members (k : String) (v : Value) (ms : List (String × Value))
    (hv : AllMembers IntegralNode ((k, v) :: ms)) {cs : List Char}
    (h : WrittenMembers ((k, v) :: ms) cs) {spot : Spot}
    (hspot : spot = .name ∨ spot = .firstName) (frames : List Frame) (c : σ)
    (rest : List UInt8) :
    scan ⟨spot, .object :: frames, c⟩ (Utf8.encode cs ++ 0x7D :: rest) =
      ((manner.offerMembers (frames.length + 1) c ((k, v) :: ms)).bind fun c =>
        manner.hand c .objectEnd).bind fun c => scan ⟨.delimiter, frames, c⟩ rest := by
  match ms, hv, h with
  | [], hv, ⟨ks, ds, hks, hds, hcs⟩ =>
      rw [hcs, encode_joined (by decide), Manner.offerMembers]
      change scan _ (Utf8.encode ks ++ 0x3A :: _) = _
      rw [scan_name hspot hks]
      cases manner.handScalar c (.text k) with
      | error e => rfl
      | ok c =>
          change scan ⟨.value, .object :: frames, c⟩ _ = _
          rw [scan_paddedValue v hv.1 hds _ c (by decide), List.length_cons]
          change _ = ((((manner.offer (frames.length + 1) c v)).bind _).bind _).bind _
          cases manner.offer (frames.length + 1) c v with
          | error e => rfl
          | ok c => exact scan_close .object frames c rfl rest
  | (k', w) :: ms, hv, ⟨member, es, ⟨ks, ds, hks, hds, hmember⟩, hes, hcs⟩ =>
      rw [hcs, hmember, encode_joined (by decide), encode_joined (by decide), Manner.offerMembers]
      change scan _ (Utf8.encode ks ++ 0x3A :: (Utf8.encode ds ++ 0x2C :: _)) = _
      rw [scan_name hspot hks]
      cases manner.handScalar c (.text k) with
      | error e => rfl
      | ok c =>
          change scan ⟨.value, .object :: frames, c⟩ _ = _
          rw [scan_paddedValue v hv.1 hds _ c (by decide), List.length_cons]
          change _ = ((((manner.offer (frames.length + 1) c v)).bind _).bind _).bind _
          cases manner.offer (frames.length + 1) c v with
          | error e => rfl
          | ok c => exact scan_members k' w ms hv.2 hes (Or.inl rfl) frames c rest
termination_by (sizeOf ((k, v) :: ms), 0)
end

/-- Reading a text of a value is offering the value, whatever blanks there are. -/
theorem feed_written {v : Value} (hv : v.Integral) {cs : List Char} (h : Padded (Written v) cs)
    (c : σ) : feed c (Utf8.encode cs) = manner.offer 0 c v := by
  obtain ⟨g, ds, g', hg, hds, hg', rfl⟩ := h
  have hfront : feed c (Utf8.encode (g ++ (ds ++ g'))) = feed c (Utf8.encode (ds ++ g')) := by
    rw [feed, feed, start, Utf8.encode_append, scan_gap .value trivial hg]
  have hfeed (hr : Bounded v (Utf8.encode g' ++ [])) :
      feed c (Utf8.encode (ds ++ g')) = manner.offer 0 c v := by
    have hscan := scan_written v hv hds [] c hr
    rw [List.append_nil, ← Utf8.encode_append] at hscan
    rw [feed, start, hscan, List.length_nil]
    cases manner.offer 0 c v with
    | error e => rfl
    | ok c =>
        have hend := scan_gap .delimiter trivial hg' [] c []
        rw [List.append_nil] at hend
        change (scan ⟨.delimiter, [], c⟩ (Utf8.encode g')).bind finish = _
        rw [hend]
        rfl
  rw [hfront]
  cases v with
  | number n =>
      cases n with
      | whole n =>
          -- a number may end with the text
          cases hds
          cases g' with
          | nil =>
              rw [List.append_nil]
              exact feed_wholeText hv c
          | cons x g' => exact hfeed (bounded_gap hg' (by simp))
      | double x => exact hv.elim
  | null | bool | string | array | object => exact hfeed (by simp [Bounded])

theorem feed_print (v : Value) (hv : v.Integral) (c : σ) : feed c (print v) = manner.offer 0 c v :=
  feed_written hv (padded_of (written_text v)) c

end Scanner

end CourierDispatch.Json
