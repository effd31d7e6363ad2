import CourierDispatch.Backoff
import CourierDispatch.WireFormat

/-!
# Settings of a pipeline
-/

namespace CourierDispatch

structure Config where
  commandTopic : String := "create_order.commands"
  resultTopic : String := "courier.results"
  format : WireFormat := .json
  /-- How many milliseconds the handling of one command may take. -/
  timeout : Nat := 30000
  readBackoff : Backoff := .standard
  retry : Retry := {}
deriving DecidableEq, Repr

inductive LogFormat
  | pretty
  | json
deriving DecidableEq, Repr

namespace LogFormat

def all : List LogFormat := [pretty, json]

def name : LogFormat → String
  | pretty => "pretty"
  | json => "json"

/-- The form with a name; the letter case counts unless it is ignored. -/
def ofName? (s : String) (ignoreCase : Bool) : Option LogFormat :=
  let name := if ignoreCase then String.ofList (s.toList.map Char.toLower) else s
  all.find? (·.name = name)

end LogFormat

end CourierDispatch
