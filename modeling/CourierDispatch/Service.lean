import CourierDispatch.Outcome

/-!
# Services

A service handles commands one after the other.
-/

namespace CourierDispatch

class Service (S : Type) where
  call : S → Command → Call S Outcome

end CourierDispatch
