import CourierDispatch.Details
import CourierDispatch.Proofs.Answers
import CourierDispatch.Proofs.Keyed
import CourierDispatch.Value
import Mathlib.Data.Set.List

/-!
# The shapes of payloads

A value has the shape of a payload if it is an object in which every field of the payload has its text,
whatever other members there are, or an array of these texts in the order of their declaration. A payload
is read from the values of its shape and from no others.
-/

namespace CourierDispatch

attribute [ext] OrderId CourierId

namespace DetailsType

variable {t : DetailsType}

theorem textOf_eq_ok_iff {v : Value} {s : String} : textOf v = .ok s ↔ v = .string s := by
  cases v <;> simp [textOf]

theorem ne_string_of_textOf {v : Value} {m : Mismatch} (h : textOf v = .error m) (s : String) :
    v ≠ .string s := by
  rintro rfl
  cases h

/-- Items are read as long as there are fields. What stands behind these items does not matter yet. -/
theorem readItems_eq_ok_iff {fields : List String} {items : List Value} {texts : List String} :
    readItems t fields items = .ok texts ↔
      texts.length = fields.length ∧ texts.map .string <+: items := by
  induction fields generalizing items texts with
  | nil => cases texts <;> simp [readItems]
  | cons f fields ih =>
      cases items with
      | nil => cases texts <;> simp [readItems]
      | cons v items =>
          rw [readItems]
          cases htext : textOf v with
          | error m =>
              have hne := ne_string_of_textOf htext
              cases texts <;> simp [List.cons_prefix_cons, (hne _).symm]
          | ok s =>
              obtain rfl := textOf_eq_ok_iff.1 htext
              cases texts with
              | nil => simp [map_eq_ok_iff]
              | cons s' texts =>
                  simp only [map_eq_ok_iff, ih, List.cons.injEq, List.length_cons, List.map_cons,
                    List.cons_prefix_cons, Value.string.injEq, Nat.add_right_cancel_iff]
                  grind

theorem readMembers_eq_ok_iff {members : List (String × Value)} {found : List (String × String)} :
    readMembers t members = .ok found ↔
      members.filter (·.1 ∈ t.fields) = found.map fun f => (f.1, .string f.2) := by
  induction members generalizing found with
  | nil => cases found <;> simp [readMembers]
  | cons m members ih =>
      obtain ⟨k, v⟩ := m
      rw [readMembers]
      by_cases hk : k ∈ t.fields
      · rw [if_pos hk, List.filter_cons_of_pos (by simpa using hk)]
        cases htext : textOf v with
        | error e =>
            have hne := ne_string_of_textOf htext
            cases found <;> simp [hne]
        | ok s =>
            obtain rfl := textOf_eq_ok_iff.1 htext
            cases found with
            | nil => simp [map_eq_ok_iff]
            | cons f found =>
                simp only [map_eq_ok_iff, ih, List.cons.injEq, List.map_cons, Prod.ext_iff,
                  Value.string.injEq]
                grind
      · rw [if_neg hk, List.filter_cons_of_neg (by simpa using hk), ih]

theorem mem_of_lookup {members : List (String × Value)} {found : List (String × String)}
    (hfound : members.filter (·.1 ∈ t.fields) = found.map fun f => (f.1, .string f.2))
    {name s : String} (h : found.lookup name = some s) : (name, .string s) ∈ members := by
  obtain ⟨before, after, rfl, -⟩ := List.lookup_eq_some_iff.1 h
  have hkept : (name, Value.string s) ∈ members.filter (·.1 ∈ t.fields) := by
    rw [hfound]
    simp
  exact List.mem_of_mem_filter hkept

theorem collect_eq_ok_iff {found : List (String × String)} {fields texts : List String} :
    collect found fields = .ok texts ↔ fields.map (found.lookup ·) = texts.map some := by
  induction fields generalizing texts with
  | nil => cases texts <;> simp [collect]
  | cons f fields ih =>
      rw [collect]
      cases hf : found.lookup f with
      | none => cases texts <;> simp [hf]
      | some s => cases texts <;> simp [hf, map_eq_ok_iff, ih, and_comm]

theorem readFields_array {items : List Value} {texts : List String} :
    t.readFields (.array items) = .ok texts ↔
      texts.length = t.fields.length ∧ items = texts.map .string := by
  rw [readFields, bind_eq_ok_iff]
  constructor
  · rintro ⟨texts', hread, hlength⟩
    obtain ⟨hfields, hfirst⟩ := readItems_eq_ok_iff.1 hread
    split at hlength
    next hitems =>
      cases hlength
      exact ⟨hfields, (hfirst.eq_of_length (by simp [hitems, hfields])).symm⟩
    next => cases hlength
  · rintro ⟨hfields, rfl⟩
    refine ⟨texts, readItems_eq_ok_iff.2 ⟨hfields, List.prefix_refl _⟩, ?_⟩
    rw [if_pos (by simpa using hfields)]

theorem readFields_object {members : List (String × Value)} {texts : List String} :
    t.readFields (.object members) = .ok texts ↔ ∃ found : List (String × String),
      members.filter (·.1 ∈ t.fields) = found.map (fun f => (f.1, .string f.2)) ∧
        t.fields.map (found.lookup ·) = texts.map some := by
  rw [readFields, bind_eq_ok_iff]
  simp only [readMembers_eq_ok_iff, collect_eq_ok_iff]

theorem length_of_readFields {v : Value} {texts : List String} (h : t.readFields v = .ok texts) :
    texts.length = t.fields.length := by
  cases v with
  | array items => exact (readFields_array.1 h).1
  | object members =>
      obtain ⟨found, -, htexts⟩ := readFields_object.1 h
      simpa using (congrArg List.length htexts).symm
  | _ => cases h

end DetailsType

namespace Details

theorem map_fst_fields (d : Details) : d.fields.map Prod.fst = d.type.fields := by
  cases d <;> rfl

theorem make_eq_iff {t : DetailsType} {texts : List String} (h : texts.length = t.fields.length)
    {d : Details} :
    t.make ⟨(texts[0]?).getD ""⟩ ⟨(texts[1]?).getD ""⟩ = d ↔
      d.type = t ∧ texts = d.fields.map Prod.snd := by
  cases t with
  | assignCourier | unassignCourier | courierAssignmentFailed =>
      obtain ⟨o, rfl⟩ := List.length_eq_one_iff.1 h
      cases d <;> simp [DetailsType.make, type, fields, OrderId.ext_iff]
  | courierAssigned | courierUnassigned =>
      obtain ⟨o, k, rfl⟩ := List.length_eq_two.1 h
      cases d <;> simp [DetailsType.make, type, fields, OrderId.ext_iff, CourierId.ext_iff]

/-- The values that stand for a payload. -/
inductive Shape (d : Details) : Value → Prop
  /-- Every field has its text, in whatever order and among whatever other members. -/
  | object {members : List (String × Value)} (h : ∀ f ∈ d.fields, (f.1, .string f.2) ∈ members) :
    Shape d (.object members)
  /-- The texts and nothing else, in the order of their declaration. -/
  | array : Shape d (.array (d.fields.map fun f => .string f.2))

variable {d : Details}

theorem shape_object_iff {members : List (String × Value)} :
    d.Shape (.object members) ↔ ∀ f ∈ d.fields, (f.1, .string f.2) ∈ members :=
  ⟨fun h => by cases h; assumption, .object⟩

theorem shape_array_iff {items : List Value} :
    d.Shape (.array items) ↔ items = d.fields.map fun f => .string f.2 :=
  ⟨fun h => by cases h; rfl, fun h => h ▸ .array⟩

theorem read_eq_ok_iff {t : DetailsType} {v : Value} :
    t.read v = .ok d ↔ d.type = t ∧ t.readFields v = .ok (d.fields.map Prod.snd) := by
  rw [DetailsType.read, map_eq_ok_iff]
  constructor
  · rintro ⟨texts, hread, hmake⟩
    obtain ⟨htype, rfl⟩ := (make_eq_iff (DetailsType.length_of_readFields hread)).1 hmake
    exact ⟨htype, hread⟩
  · rintro ⟨htype, hread⟩
    exact ⟨_, hread, (make_eq_iff (DetailsType.length_of_readFields hread)).2 ⟨htype, rfl⟩⟩

theorem readFields_array_iff {items : List Value} :
    d.type.readFields (.array items) = .ok (d.fields.map Prod.snd) ↔
      items = d.fields.map fun f => .string f.2 := by
  rw [DetailsType.readFields_array, ← map_fst_fields]
  simp [Function.comp_def]

theorem exists_found {members : List (String × Value)} (hkeys : (members.map Prod.fst).Nodup)
    (h : ∀ f ∈ d.fields, (f.1, .string f.2) ∈ members) :
    ∃ found : List (String × String),
      members.filter (·.1 ∈ d.type.fields) = found.map fun f => (f.1, .string f.2) := by
  have hrange : members.filter (·.1 ∈ d.type.fields) ∈
      Set.range (List.map fun f : String × String => (f.1, Value.string f.2)) := by
    rw [Set.range_list_map]
    intro m hm
    obtain ⟨hmember, hname⟩ := List.mem_filter.1 hm
    rw [decide_eq_true_iff, ← map_fst_fields] at hname
    obtain ⟨f, hf, hsame⟩ := List.mem_map.1 hname
    have htext := (lookup_eq_some_iff_mem hkeys).2 (h f hf)
    rw [hsame, (lookup_eq_some_iff_mem hkeys).2 hmember] at htext
    exact ⟨f, Prod.ext hsame (Option.some.inj htext).symm⟩
  obtain ⟨found, hfound⟩ := hrange
  exact ⟨found, hfound.symm⟩

theorem readFields_object_iff {members : List (String × Value)}
    (hkeys : (members.map Prod.fst).Nodup) :
    d.type.readFields (.object members) = .ok (d.fields.map Prod.snd) ↔
      ∀ f ∈ d.fields, (f.1, .string f.2) ∈ members := by
  have hfield {f : String × String} (hf : f ∈ d.fields) : f.1 ∈ d.type.fields :=
    map_fst_fields d ▸ List.mem_map_of_mem hf
  have hlookups (found : List (String × String)) :
      d.type.fields.map (found.lookup ·) = (d.fields.map Prod.snd).map some ↔
        ∀ f ∈ d.fields, found.lookup f.1 = some f.2 := by
    rw [← map_fst_fields, List.map_map, List.map_map, List.map_inj_left]
    rfl
  rw [DetailsType.readFields_object]
  simp only [hlookups]
  constructor
  · rintro ⟨found, hfound, hlookup⟩ f hf
    exact DetailsType.mem_of_lookup hfound (hlookup f hf)
  · intro hmembers
    obtain ⟨found, hfound⟩ := exists_found hkeys hmembers
    refine ⟨found, hfound, fun f hf => (lookup_eq_some_iff_mem ?_).2 ?_⟩
    · have hnames := congrArg (List.map Prod.fst) hfound
      rw [List.map_map] at hnames
      exact hnames ▸ hkeys.sublist (List.filter_sublist.map Prod.fst)
    · have hkept : (f.1, Value.string f.2) ∈ members.filter (·.1 ∈ d.type.fields) :=
        List.mem_filter.2 ⟨hmembers f hf, decide_eq_true (hfield hf)⟩
      rw [hfound] at hkept
      obtain ⟨f', hf', heq⟩ := List.mem_map.1 hkept
      obtain ⟨hname, htext⟩ := Prod.ext_iff.1 heq
      have hsame : f' = f := Prod.ext hname (Value.string.inj htext)
      exact hsame ▸ hf'

/-- A payload is read from the values of its shape, if no two members have the same name. -/
theorem read_eq_ok_iff_shape {t : DetailsType} {v : Value} (hv : v.WellFormed) :
    t.read v = .ok d ↔ d.type = t ∧ d.Shape v := by
  rw [read_eq_ok_iff, and_congr_right_iff]
  rintro rfl
  cases v with
  | object members =>
      rw [readFields_object_iff (Keyed.nodup_keys hv.1), shape_object_iff]
  | array items => rw [readFields_array_iff, shape_array_iff]
  | _ => exact iff_of_false nofun nofun

end Details

end CourierDispatch
