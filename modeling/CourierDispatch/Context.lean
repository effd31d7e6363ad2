import CourierDispatch.Keyed
import CourierDispatch.Text.Blank
import CourierDispatch.Text.Cut
import CourierDispatch.Text.Hex
import CourierDispatch.Text.Utf8

/-!
# Causal contexts

A message says in its headers what caused it: the trace it belongs to, the span that sent it, whether
the trace is sampled, and baggage, which is a list of named texts. `Context.ofHeaders` reads the context
of a command, `Context.toHeaders` writes it for the results. Headers that make no sense are ignored.
-/

namespace CourierDispatch

abbrev Headers := List (String × List UInt8)

/-- What caused a message. -/
structure Context where
  traceId : Option String := none
  spanId : Option String := none
  sampled : Bool := false
  /-- Ordered by key. -/
  baggage : List (String × String) := []
deriving DecidableEq, Repr

namespace Context

def traceHeader : String := "traceparent"

def baggageHeader : String := "baggage"

/-- Whether a header name is the given one, in either letter case. -/
def isHeader (name expected : String) : Bool :=
  name.toList.map Char.toLower = expected.toList.map Char.toLower

/-- A trace, the span in it, and whether it is sampled. -/
structure Trace where
  traceId : String
  spanId : String
  sampled : Bool
deriving DecidableEq, Repr

/-- An id of so many hexadecimal digits, not all of them zero, in lower case. -/
def id? (length : Nat) (cs : List Char) : Option String :=
  if cs.length = length ∧ cs.all Hex.isDigit ∧ ¬ cs.all (· = '0') then
    some (String.ofList (cs.map Char.toLower))
  else none

/-- The number of the flags: two hexadecimal digits, or one behind a plus sign. -/
def flags? (cs : List Char) : Option Nat :=
  match cs with
  | ['+', d] => Hex.digit? d
  | [a, b] => Hex.number? [a, b]
  | _ => none

/-- Whether the version is one that may be read: two hexadecimal digits, but not `ff`. -/
def isVersion (cs : List Char) : Bool := cs.length = 2 && cs.all Hex.isDigit && cs != ['f', 'f']

/-- Reads `version-trace-span-flags`; what follows behind another hyphen is ignored. -/
def trace? (s : String) : Option Trace :=
  match Text.pieces '-' (Text.trim s.toList) with
  | version :: trace :: span :: flags :: _ =>
    if isVersion version then
      (id? 32 trace).bind fun traceId =>
        (id? 16 span).bind fun spanId =>
          (flags? flags).map fun f => ⟨traceId, spanId, f % 2 = 1⟩
    else none
  | _ => none

/-- Reads `key=value`, without its properties behind a semicolon. -/
def entry? (cs : List Char) : Option (String × String) :=
  (Text.cut? '=' (Text.before ';' cs)).bind fun (key, value) =>
    if Text.trim key = [] then none
    else some (String.ofList (Text.trim key), String.ofList (Text.trim value))

def entries (s : String) : List (String × String) := (Text.pieces ',' s.toList).filterMap entry?

def addHeader (ctx : Context) (header : String × List UInt8) : Context :=
  match Utf8.string? header.2 with
  | none => ctx
  | some value =>
    if isHeader header.1 traceHeader then
      match trace? value with
      | some t => { ctx with traceId := t.traceId, spanId := t.spanId, sampled := t.sampled }
      | none => ctx
    else if isHeader header.1 baggageHeader then
      { ctx with baggage := (entries value).foldl (fun m e => Keyed.insert e.1 e.2 m) ctx.baggage }
    else ctx

/-- Reads the context from the headers of a message. The last trace counts, and the last entry of each
key. -/
def ofHeaders (headers : Headers) : Context := headers.foldl addHeader {}

def traceText (traceId spanId : String) (sampled : Bool) : List Char :=
  ['0', '0', '-'] ++ traceId.toList ++ '-' :: spanId.toList ++ ['-', '0', if sampled then '1' else '0']

def entryText (e : String × String) : List Char := e.1.toList ++ '=' :: e.2.toList

def baggageText : List (String × String) → List Char
  | [] => []
  | [e] => entryText e
  | e :: es => entryText e ++ ',' :: baggageText es

/-- Writes the context into headers. A trace needs both of its ids. -/
def toHeaders (ctx : Context) : Headers :=
  let trace :=
    match ctx.traceId, ctx.spanId with
    | some t, some s => [(traceHeader, Utf8.encode (traceText t s ctx.sampled))]
    | _, _ => []
  let baggage :=
    if ctx.baggage = [] then [] else [(baggageHeader, Utf8.encode (baggageText ctx.baggage))]
  trace ++ baggage

/-- Whether neither a trace nor baggage came with the message. -/
def isEmpty (ctx : Context) : Bool := ctx.traceId.isNone && ctx.baggage.isEmpty

end Context

end CourierDispatch
