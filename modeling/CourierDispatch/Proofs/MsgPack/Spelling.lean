import CourierDispatch.Proofs.MsgPack.Scanner

/-!
# The spellings of a value

MsgPack leaves it to the producer how long a header is, in which form a number is written, and in which
order the members of an object come. `Spelt v bs` says that the bytes are one of the spellings of the
value. Each spelling is the writing of a value that comes down to the same normal form.
-/

namespace CourierDispatch.MsgPack

/-- The bytes are a header that holds the length of a content, and the content. -/
def SpeltContent (h : HeaderTable) (content : List UInt8) : List UInt8 → Prop :=
  Joined (h.Holds content.length) (· = content)

def SpeltText (s : String) : List UInt8 → Prop := SpeltContent .texts (Utf8.bytes s)

mutual
/-- The bytes are the value. -/
inductive Spelt : Value → List UInt8 → Prop
  | null : Spelt .null [0xC0]
  | false : Spelt (.bool false) [0xC2]
  | true : Spelt (.bool true) [0xC3]
  | number {n : Number} {bs : List UInt8} (h : SpeltNumber n bs) : Spelt (.number n) bs
  | string {s : String} {bs : List UInt8} (h : SpeltText s bs) : Spelt (.string s) bs
  | array {items : List Value} {header body : List UInt8}
    (hheader : HeaderTable.arrays.Holds items.length header) (hbody : SpeltItems items body) :
    Spelt (.array items) (header ++ body)
  /-- The members come in any order. -/
  | object {members ms : List (String × Value)} {header body : List UInt8} (hms : ms.Perm members)
    (hheader : HeaderTable.maps.Holds ms.length header) (hbody : SpeltMembers ms body) :
    Spelt (.object members) (header ++ body)

inductive SpeltItems : List Value → List UInt8 → Prop
  | nil : SpeltItems [] []
  | cons {v : Value} {rest : List Value} {as bs : List UInt8} (hv : Spelt v as)
    (hrest : SpeltItems rest bs) : SpeltItems (v :: rest) (as ++ bs)

inductive SpeltMembers : List (String × Value) → List UInt8 → Prop
  | nil : SpeltMembers [] []
  | cons {k : String} {v : Value} {rest : List (String × Value)} {name as bs : List UInt8}
    (hk : SpeltText k name) (hv : Spelt v as) (hrest : SpeltMembers rest bs) :
    SpeltMembers ((k, v) :: rest) (name ++ (as ++ bs))
end

theorem SpeltText.written {s : String} {bs : List UInt8} (h : SpeltText s bs) : WrittenText s bs := by
  obtain ⟨header, _, hheader, rfl, rfl⟩ := h
  exact ⟨header, _, hheader.announces texts_areRead, rfl, rfl⟩

/-! A spelling is a writing of some value that comes down to the same. -/

open Value

mutual
theorem Spelt.exists_written {v : Value} {bs : List UInt8} (h : Spelt v bs) (hv : v.WellFormed) :
    ∃ w : Value, w.normal = v ∧ w.depth = v.depth ∧ Written Number.Form w bs := by
  match h with
  | .null => exact ⟨.null, rfl, rfl, .marker rfl⟩
  | .false => exact ⟨.bool false, rfl, rfl, .marker rfl⟩
  | .true => exact ⟨.bool true, rfl, rfl, .marker rfl⟩
  | .number (n := n) h => exact ⟨.number n, normal_of_wellFormed _ hv, rfl, h.announces hv⟩
  | .string (s := s) h => exact ⟨.string s, rfl, rfl, h.written⟩
  | .array hheader hbody =>
      obtain ⟨items, rfl, hdepth, hitems⟩ := SpeltItems.exists_written hbody hv
      refine ⟨.array items, rfl, congrArg (· + 1) hdepth, _, _, ?_, hitems, rfl⟩
      rw [length_normalItems] at hheader
      exact hheader.announces arrays_areRead
  | .object hms hheader hbody =>
      have hwf := wellFormedMembers_iff.2 fun m hm => wellFormedMembers_iff.1 hv.2 m (hms.mem_iff.1 hm)
      obtain ⟨ms, rfl, hdepth, hmembers⟩ := SpeltMembers.exists_written hbody hwf
      refine ⟨.object ms, congrArg Value.object (Keyed.ofList_of_perm hv.1 hms),
        congrArg (· + 1) (hdepth.trans (depthOfMembers_perm hms)), _, _, ?_, hmembers, rfl⟩
      rw [length_normalMembers] at hheader
      exact hheader.announces maps_areRead

theorem SpeltItems.exists_written {items : List Value} {bs : List UInt8} (h : SpeltItems items bs)
    (hv : WellFormedItems items) :
    ∃ ws : List Value, normalItems ws = items ∧ depthOfItems ws = depthOfItems items ∧
      WrittenItems Number.Form ws bs := by
  match h with
  | .nil => exact ⟨[], rfl, rfl, rfl⟩
  | .cons hfirst hrest =>
      obtain ⟨w, rfl, hdepth, hw⟩ := Spelt.exists_written hfirst hv.1
      obtain ⟨ws, rfl, hdepths, hws⟩ := SpeltItems.exists_written hrest hv.2
      exact ⟨w :: ws, rfl, congrArg₂ max hdepth hdepths, _, _, hw, hws, rfl⟩

theorem SpeltMembers.exists_written {members : List (String × Value)} {bs : List UInt8}
    (h : SpeltMembers members bs) (hv : WellFormedMembers members) :
    ∃ ws : List (String × Value), normalMembers ws = members ∧
      depthOfMembers ws = depthOfMembers members ∧ WrittenMembers Number.Form ws bs := by
  match h with
  | .nil => exact ⟨[], rfl, rfl, rfl⟩
  | .cons (k := k) hk hfirst hrest =>
      obtain ⟨w, rfl, hdepth, hw⟩ := Spelt.exists_written hfirst hv.1
      obtain ⟨ws, rfl, hdepths, hws⟩ := SpeltMembers.exists_written hrest hv.2
      exact ⟨(k, w) :: ws, rfl, congrArg₂ max hdepth hdepths, _, _, hk.written,
        ⟨_, _, hw, hws, rfl⟩, rfl⟩
end

/-! What is printed is one of the spellings. -/

theorem speltText_textBytes {s : String} (hs : Fits s) : SpeltText s (textBytes s) :=
  ⟨_, _, holds_textHeader hs, rfl, rfl⟩

mutual
theorem spelt_print (v : Value) (hv : Sized v) : Spelt v (print v) := by
  match v, hv with
  | .null, _ => exact .null
  | .bool false, _ => exact .false
  | .bool true, _ => exact .true
  | .number n, hv => exact .number (speltNumber_numberBytes hv)
  | .string s, hv => exact .string (speltText_textBytes hv)
  | .array items, hv => exact .array (holds_arrayHeader hv.1) (speltItems_printItems items hv.2)
  | .object members, hv =>
      exact .object (.refl members) (holds_mapHeader hv.1.1)
        (speltMembers_printMembers members hv.1.2 hv.2)

theorem speltItems_printItems (items : List Value) (hv : AllItems SizedNode items) :
    SpeltItems items (printItems items) := by
  match items, hv with
  | [], _ => exact .nil
  | v :: rest, hv => exact .cons (spelt_print v hv.1) (speltItems_printItems rest hv.2)

theorem speltMembers_printMembers (members : List (String × Value))
    (hk : ∀ m ∈ members, Fits m.1) (hv : AllMembers SizedNode members) :
    SpeltMembers members (printMembers members) := by
  match members, hk, hv with
  | [], _, _ => exact .nil
  | (k, v) :: rest, hk, hv =>
      obtain ⟨hkey, hrest⟩ := List.forall_mem_cons.1 hk
      rw [printMembers, List.append_assoc]
      exact .cons (speltText_textBytes hkey) (spelt_print v hv.1)
        (speltMembers_printMembers rest hrest hv.2)
end

end CourierDispatch.MsgPack
