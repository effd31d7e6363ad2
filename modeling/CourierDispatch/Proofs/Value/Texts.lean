import CourierDispatch.Proofs.Details
import CourierDispatch.Proofs.Value.All

/-!
# The texts of a value

The texts of details come from the payload that they were read from.
-/

namespace CourierDispatch

namespace Value

def TextNode (p : String → Prop) : Value → Prop
  | .string s => p s
  | .object members => ∀ m ∈ members, p m.1
  | _ => True

def Texts (p : String → Prop) (v : Value) : Prop := v.All (TextNode p)

end Value

namespace DetailsType

variable {p : String → Prop} {t : DetailsType}

theorem texts_readFields {v : Value} {texts : List String} (hv : v.Texts p)
    (h : t.readFields v = .ok texts) : ∀ s ∈ texts, p s := by
  intro s hs
  cases v with
  | array items =>
      obtain ⟨-, rfl⟩ := readFields_array.1 h
      exact Value.allItems_iff.1 hv.2 (.string s) (List.mem_map_of_mem hs)
  | object members =>
      obtain ⟨found, hfound, htexts⟩ := readFields_object.1 h
      have hsome : some s ∈ texts.map some := List.mem_map_of_mem hs
      rw [← htexts] at hsome
      obtain ⟨name, -, hlookup⟩ := List.mem_map.1 hsome
      exact Value.allMembers_iff.1 hv.2 (name, .string s) (mem_of_lookup hfound hlookup)
  | _ => cases h

/-- What is read from a payload is in the payload. -/
theorem texts_read {v : Value} {d : Details} (hv : v.Texts p) (h : t.read v = .ok d) :
    ∀ f ∈ d.fields, p f.2 := by
  obtain ⟨-, hread⟩ := Details.read_eq_ok_iff.1 h
  exact fun f hf => texts_readFields hv hread f.2 (List.mem_map_of_mem hf)

end DetailsType

end CourierDispatch
