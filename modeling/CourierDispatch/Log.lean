/-!
# Log records

What a component does is logged in records: a level, a message, and named fields.
-/

namespace CourierDispatch.Log

inductive Level
  | error
  | warn
  | info
deriving DecidableEq, Repr

def Level.name : Level → String
  | error => "ERROR"
  | warn => "WARN"
  | info => "INFO"

inductive Field
  | text (s : String)
  | number (n : Int)
deriving DecidableEq, Repr

structure Record where
  level : Level
  message : String
  fields : List (String × Field) := []
deriving DecidableEq, Repr

end CourierDispatch.Log
