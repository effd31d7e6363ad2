import CourierDispatch.Command
import CourierDispatch.UseCases

/-!
# Outcomes of commands

Handling a command ends with a result to publish, with nothing to publish, or with an error, of which
nothing is published.
-/

namespace CourierDispatch

inductive HandleError
  | unrecognized (name : String)
  | malformedPayload (command : CommandKind) (source : CodecError)
  | useCase (command : CommandKind) (source : UseCaseError)
  | result (command : CommandKind) (source : CodecError)
  /-- The handling took longer than so many milliseconds. -/
  | timeout (millis : Nat)
deriving DecidableEq, Repr

namespace HandleError

def label : HandleError → String
  | unrecognized _ => "unrecognized"
  | malformedPayload _ _ => "malformed_payload"
  | useCase _ _ => "use_case"
  | result _ _ => "result"
  | timeout _ => "timeout"

def message : HandleError → String
  | unrecognized name => s!"unrecognized command: {name}"
  | malformedPayload k e => s!"malformed payload for {k.wireName}: {e.message}"
  | useCase k e => s!"{k.wireName} failed: {e.message}"
  | result k e => s!"could not build result for {k.wireName}: {e.message}"
  | timeout ms => s!"command handler timed out after {ms}ms"

end HandleError

abbrev Outcome := Except HandleError (Option Result)

def Outcome.label : Outcome → String
  | .ok (some _) => "ok"
  | .ok none => "no_result"
  | .error e => e.label

end CourierDispatch
