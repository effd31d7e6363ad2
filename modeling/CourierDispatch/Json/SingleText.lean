import CourierDispatch.Json.Scanner

/-!
# A text on its own

Ids are written as a JSON string on its own. Anything else in its place is a mismatch.
-/

namespace CourierDispatch.Json

inductive TextSlot
  | empty
  | filled (s : String)

/-- Takes a token: the text, if there is none yet. -/
def TextSlot.accept : TextSlot → Token → Except Mismatch TextSlot
  | empty, .text s => .ok (filled s)
  | _, t => .error (t.refuse .text)

instance : Consumer TextSlot := ⟨TextSlot.accept, fun _ => false, fun _ => false⟩

def singleText (bs : List UInt8) : Except Fault String :=
  match feed TextSlot.empty bs with
  | .ok (.filled s) => .ok s
  | .ok .empty => .error .cutShort
  | .error f => .error f

end CourierDispatch.Json
