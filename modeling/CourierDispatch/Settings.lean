import CourierDispatch.Config
import CourierDispatch.Details
import CourierDispatch.Log.Filter
import CourierDispatch.Text.Blank

/-!
# Settings of the server

Each setting has a name on the command line and a variable in the environment. Its value is given as
text: `Setting.assign` reads the text and puts what it says in its place, or refuses it.
-/

namespace CourierDispatch

structure Settings where
  config : Config := {}
  logFormat : LogFormat := .pretty
  /-- The filter of the log, as it was given. -/
  logLevel : String := "info"
  /-- The couriers as they were given. -/
  couriers : List String := []
deriving DecidableEq, Repr

inductive Setting
  | commandTopic
  | resultTopic
  | wireFormat
  | logFormat
  | logLevel
  | handlerTimeout
  | readBackoffInitial
  | readBackoffMax
  | publishRetries
  | publishRetryDelay
  | courier
deriving DecidableEq, Repr

namespace Setting

def all : List Setting :=
  [commandTopic, resultTopic, wireFormat, logFormat, logLevel, handlerTimeout, readBackoffInitial,
    readBackoffMax, publishRetries, publishRetryDelay, courier]

/-- The name on the command line, without the hyphens in front. -/
def name : Setting → String
  | commandTopic => "command-topic"
  | resultTopic => "result-topic"
  | wireFormat => "wire-format"
  | logFormat => "log-format"
  | logLevel => "log-level"
  | handlerTimeout => "handler-timeout-ms"
  | readBackoffInitial => "read-backoff-initial-ms"
  | readBackoffMax => "read-backoff-max-ms"
  | publishRetries => "publish-retries"
  | publishRetryDelay => "publish-retry-delay-ms"
  | courier => "courier"

def envName : Setting → String
  | commandTopic => "DISPATCH_COMMAND_TOPIC"
  | resultTopic => "DISPATCH_RESULT_TOPIC"
  | wireFormat => "DISPATCH_WIRE_FORMAT"
  | logFormat => "DISPATCH_LOG_FORMAT"
  | logLevel => "DISPATCH_LOG"
  | handlerTimeout => "DISPATCH_HANDLER_TIMEOUT_MS"
  | readBackoffInitial => "DISPATCH_READ_BACKOFF_INITIAL_MS"
  | readBackoffMax => "DISPATCH_READ_BACKOFF_MAX_MS"
  | publishRetries => "DISPATCH_PUBLISH_RETRIES"
  | publishRetryDelay => "DISPATCH_PUBLISH_RETRY_DELAY_MS"
  | courier => "DISPATCH_COURIERS"

def purpose : Setting → String
  | commandTopic => "Topic label for consumed commands"
  | resultTopic => "Topic label for published results"
  | wireFormat => "Envelope encoding on both topics (json, msgpack)"
  | logFormat => "Log output format"
  | logLevel => "Default log directive when RUST_LOG is unset"
  | handlerTimeout => "Per-command handler timeout in milliseconds"
  | readBackoffInitial => "First delay after a broker read error, in milliseconds"
  | readBackoffMax => "Upper bound on the broker read backoff, in milliseconds"
  | publishRetries => "Extra publish attempts before a result is dropped"
  | publishRetryDelay => "Delay between publish attempts, in milliseconds"
  | courier => "Courier available for assignment. Repeat, or comma-separate in the env var"

def ofName? (s : String) : Option Setting := all.find? (·.name = s)

/-- Whether the setting may be given more than once. -/
def isList : Setting → Bool
  | courier => true
  | _ => false

/-- A number of milliseconds, held in 64 bits. -/
def millis? (s : String) : Option Nat := (Whole.natural? s.toList).filter (· < 1 <<< 64)

/-- A duration given in milliseconds, in nanoseconds. -/
def nanos? (s : String) : Option Nat := (millis? s).map (· * Backoff.millisecond)

def count? (s : String) : Option Nat :=
  (Whole.integer? s.toList).bind fun n => if 0 ≤ n ∧ n ≤ countLimit then some n.toNat else none

/-- The settings with one of them given as text. Couriers are added to those given before. -/
def assign (s : Settings) (text : String) : Setting → Option Settings
  | commandTopic => some { s with config := { s.config with commandTopic := text } }
  | resultTopic => some { s with config := { s.config with resultTopic := text } }
  | wireFormat =>
    (WireFormat.ofName? text).map fun format => { s with config := { s.config with format } }
  | logFormat => (LogFormat.ofName? text false).map fun logFormat => { s with logFormat }
  | logLevel => some { s with logLevel := text }
  | handlerTimeout =>
    (millis? text).map fun timeout => { s with config := { s.config with timeout } }
  | readBackoffInitial =>
    (nanos? text).map fun initial =>
      { s with config := { s.config with readBackoff := { s.config.readBackoff with initial } } }
  | readBackoffMax =>
    (nanos? text).map fun max =>
      { s with config := { s.config with readBackoff := { s.config.readBackoff with max } } }
  | publishRetries =>
    (count? text).map fun attempts =>
      { s with config := { s.config with retry := { s.config.retry with attempts } } }
  | publishRetryDelay =>
    (nanos? text).map fun delay =>
      { s with config := { s.config with retry := { s.config.retry with delay } } }
  | courier =>
    some { s with couriers := s.couriers ++ (Text.pieces ',' text.toList).map String.ofList }

theorem mem_all (k : Setting) : k ∈ all := by cases k <;> decide

theorem ofName?_name (k : Setting) : ofName? k.name = some k := by cases k <;> decide

end Setting

namespace Settings

/-- The couriers without the blanks around them. Blank ones do not count. -/
def roster (s : Settings) : List CourierId :=
  (s.couriers.map fun k => ⟨String.ofList (Text.trim k.toList)⟩).filter (·.text ≠ "")

/-- The filter of the log. What the environment says counts for more, if it is well-formed. -/
def filter (s : Settings) (environment : Option String) : Log.Filter :=
  (environment.bind Log.Filter.ofText?).getD (Log.Filter.ofText s.logLevel)

end Settings

end CourierDispatch
