import CourierDispatch.Log
import CourierDispatch.Text.Cut
import CourierDispatch.Text.Whole

/-!
# Which records are logged

A filter is a list of directives between commas. A directive may name a target, and it says how much is
logged of the events whose target begins with that name. The directive with the longest name decides,
and of several for one name the last one. What no directive speaks about is not logged.
-/

namespace CourierDispatch.Log

inductive Verbosity
  | off
  | error
  | warn
  | info
  | debug
  | trace
deriving DecidableEq, Repr

namespace Verbosity

def all : List Verbosity := [off, error, warn, info, debug, trace]

def name : Verbosity → String
  | off => "off"
  | error => "error"
  | warn => "warn"
  | info => "info"
  | debug => "debug"
  | trace => "trace"

/-- The verbosity with a number or, in any letter case, with a name. -/
def ofText? (cs : List Char) : Option Verbosity :=
  match Whole.natural? cs with
  | some n => all[n]?
  | none => all.find? (·.name.toList = cs.map Char.toLower)

def allows (v : Verbosity) : Level → Bool
  | .error => v ≠ off
  | .warn => v ≠ off && v ≠ error
  | .info => v ≠ off && v ≠ error && v ≠ warn

end Verbosity

/-- A part of a filter. One that asks for a span, or for the value of a field, does not speak about
records outside of spans. -/
structure Directive where
  target : Option (List Char) := none
  span : Option (List Char) := none
  /-- A field that a record must have, and whether its value matters. -/
  field : Option (List Char × Bool) := none
  verbosity : Verbosity := .trace
deriving DecidableEq, Repr

namespace Directive

/-- Whether a directive may begin with this character: a letter, a digit, a hyphen, a colon, an
underscore, or anything beyond ASCII. -/
def isInitial (c : Char) : Bool :=
  c.isAlphanum || c = '-' || c = ':' || c = '_' || 128 ≤ c.toNat

/-- Reads what stands behind the target and the span: nothing, or an equals sign and a verbosity, which
may be left out. -/
def withVerbosity? (d : Directive) : List Char → Option Directive
  | [] => some d
  | '=' :: [] => some d
  | '=' :: cs => (Verbosity.ofText? cs).map fun v => { d with verbosity := v }
  | _ => none

def withField? (d : Directive) (cs : List Char) : Option Directive :=
  match Text.cut? '\x7d' cs with
  | some (field, ']' :: rest) =>
    if field = [] then none
    else { d with field := some (Text.before '=' field, field.contains '=') }.withVerbosity? rest
  | _ => none

def withSpan? (d : Directive) (cs : List Char) : Option Directive :=
  match cs.span fun c => c ≠ ']' ∧ c ≠ '\x7b' with
  | (span, ']' :: rest) => { d with span := some span }.withVerbosity? rest
  | (span, '\x7b' :: rest) => { d with span := if span = [] then none else some span }.withField? rest
  | _ => none

def ofText? (cs : List Char) : Option Directive :=
  match cs with
  | [] => none
  | '[' :: rest => withSpan? {} rest
  | c :: _ =>
    if isInitial c then
      match cs.span fun c => c ≠ '=' ∧ c ≠ '[' with
      | (target, '[' :: rest) => { target := some target : Directive }.withSpan? rest
      | (target, []) =>
        match Verbosity.ofText? cs with
        | some verbosity => some { verbosity }
        | none => some { target := some target }
      | (target, rest) => { target := some target : Directive }.withVerbosity? rest
    else none

/-- Whether the directive speaks about a record outside of spans. -/
def concerns (d : Directive) (target : String) (r : Record) : Bool :=
  let names (field : List Char) := (("message" :: r.fields.map (·.1)).map String.toList).contains field
  (d.target.getD []).isPrefixOf target.toList && d.span.isNone &&
    match d.field with
    | none => true
    | some (field, valued) => !valued && names field

/-- How specific a directive is: the length of its target first, then whether it asks for a field. -/
def weight (d : Directive) : Nat :=
  let target :=
    match d.target with
    | some t => (String.ofList t).utf8ByteSize + 1
    | none => 0
  2 * target + if d.field.isSome then 1 else 0

end Directive

structure Filter where
  directives : List Directive
deriving DecidableEq, Repr

namespace Filter

def pieces (s : String) : List (List Char) := (Text.pieces ',' s.toList).filter (· ≠ [])

/-- The filter with these directives, and if there are none, the one that lets errors pass. -/
def ofDirectives : List Directive → Filter
  | [] => ⟨[{ verbosity := .error }]⟩
  | ds => ⟨ds⟩

def ofText? (s : String) : Option Filter := ((pieces s).mapM Directive.ofText?).map ofDirectives

def ofText (s : String) : Filter := ofDirectives ((pieces s).filterMap Directive.ofText?)

/-- The more specific of two directives, and the later one if they are alike. -/
def stronger (best : Option Directive) (d : Directive) : Option Directive :=
  match best with
  | none => some d
  | some b => if b.weight ≤ d.weight then some d else some b

def deciding? (f : Filter) (target : String) (r : Record) : Option Directive :=
  (f.directives.filter (·.concerns target r)).foldl stronger none

def passes (f : Filter) (target : String) (r : Record) : Bool :=
  match f.deciding? target r with
  | some d => d.verbosity.allows r.level
  | none => false

end Filter

end CourierDispatch.Log
