import CourierDispatch.Json.Numeral
import CourierDispatch.Json.Quoted
import CourierDispatch.Text.Utf8

/-!
# Reading JSON

A scanner takes a JSON text byte by byte and hands its tokens to a consumer. `scan` runs it over a
list of bytes, so what it has found out after a part of the text never depends on the rest.

A value that the consumer passes over is only held to the grammar: its text may be ill-formed UTF-8,
its numbers may be too large, and its containers may be nested without limit. A value that is read
may be nested 127 containers deep, the ones around it included.
-/

namespace CourierDispatch.Json

/-- Why a text was not read: it stops short, it is not JSON, or it describes something else than what
was wanted. -/
inductive Fault
  | cutShort
  | illFormed
  | mismatch (m : Mismatch)
deriving DecidableEq, Repr

inductive Frame
  | array
  | object
deriving DecidableEq, Repr

def Frame.opening : Frame → Token
  | array => .arrayStart
  | object => .objectStart

def Frame.closing : Frame → Token
  | array => .arrayEnd
  | object => .objectEnd

/-- What may come next. -/
inductive Spot
  | value
  /-- The first item of an array, or its end. -/
  | firstItem
  | name
  /-- The first name of an object, or its end. -/
  | firstName
  | colon
  /-- A value is complete: a comma or an end comes next. -/
  | delimiter
  /-- The rest of a literal word, and its token. -/
  | word (rest : List Char) (t : Token)
  | numeral (skim : Bool) (d : Numeral.Draft)
  | quoted (isName : Bool) (q : Quoted)
deriving DecidableEq, Repr

/-- A scanner in the middle of a text, with the open containers from the inside out. -/
structure Scanner (σ : Type) where
  spot : Spot
  frames : List Frame
  consumer : σ

namespace Scanner

variable {σ : Type} [Consumer σ]

/-- How many containers may be open when a read value opens another one. -/
def depthLimit : Nat := 127

def isSpace (c : Char) : Bool := c = ' ' || c = '\t' || c = '\n' || c = '\r'

def emit (s : Scanner σ) (t : Token) (spot : Spot) : Except Fault (Scanner σ) :=
  match Consumer.accept s.consumer t with
  | .ok c => .ok { s with spot, consumer := c }
  | .error m => .error (.mismatch m)

def openFrame (s : Scanner σ) (f : Frame) (spot : Spot) : Except Fault (Scanner σ) :=
  if !Consumer.skims s.consumer && depthLimit ≤ s.frames.length then .error .illFormed
  else { s with frames := f :: s.frames }.emit f.opening spot

def closeFrame (s : Scanner σ) (f : Frame) : Except Fault (Scanner σ) :=
  { s with frames := s.frames.tail }.emit f.closing .delimiter

def beginValue (s : Scanner σ) (c : Char) : Except Fault (Scanner σ) :=
  let skim := Consumer.skims s.consumer
  match c with
  | 'n' => .ok { s with spot := .word ['u', 'l', 'l'] .null }
  | 't' => .ok { s with spot := .word ['r', 'u', 'e'] (.bool true) }
  | 'f' => .ok { s with spot := .word ['a', 'l', 's', 'e'] (.bool false) }
  | '"' => .ok { s with spot := .quoted false { skim } }
  | '[' => s.openFrame .array .firstItem
  | '{' => s.openFrame .object .firstName
  | c =>
    match Numeral.Draft.ofChar? c with
    | some d => .ok { s with spot := .numeral skim d }
    | none => .error .illFormed

def delimit (s : Scanner σ) (c : Char) : Except Fault (Scanner σ) :=
  if isSpace c then .ok { s with spot := .delimiter }
  else
    match s.frames, c with
    | .array :: _, ',' =>
      if Consumer.sated s.consumer then .error .illFormed else .ok { s with spot := .value }
    | .array :: _, ']' => s.closeFrame .array
    | .object :: _, ',' => .ok { s with spot := .name }
    | .object :: _, '}' => s.closeFrame .object
    | _, _ => .error .illFormed

def endNumeral (s : Scanner σ) (skim : Bool) (d : Numeral.Draft) : Except Fault (Scanner σ) :=
  if skim then s.emit .skimmed .delimiter
  else
    match d.numeral.token? with
    | some t => s.emit t .delimiter
    | none => .error .illFormed

def endQuoted (s : Scanner σ) (isName skim : Bool) (content : List UInt8) :
    Except Fault (Scanner σ) :=
  let spot := if isName then .colon else .delimiter
  if skim then s.emit .skimmed spot
  else
    match Utf8.string? content with
    | some text => s.emit (.text text) spot
    | none => .error .illFormed

def step (s : Scanner σ) (b : UInt8) : Except Fault (Scanner σ) :=
  let c := asChar b
  match s.spot with
  | .value => if isSpace c then .ok s else s.beginValue c
  | .firstItem =>
    if isSpace c then .ok s else if c = ']' then s.closeFrame .array else s.beginValue c
  | .name =>
    if isSpace c then .ok s
    else if c = '"' then
      .ok { s with spot := .quoted true { skim := Consumer.skims s.consumer } }
    else .error .illFormed
  | .firstName =>
    if isSpace c then .ok s
    else if c = '}' then s.closeFrame .object
    else if c = '"' then
      .ok { s with spot := .quoted true { skim := Consumer.skims s.consumer } }
    else .error .illFormed
  | .colon =>
    if isSpace c then .ok s
    else if c = ':' then .ok { s with spot := .value }
    else .error .illFormed
  | .delimiter => s.delimit c
  | .word [] t => s.emit t .delimiter
  | .word [w] t => if c = w then s.emit t .delimiter else .error .illFormed
  | .word (w :: rest) t =>
    if c = w then .ok { s with spot := .word rest t } else .error .illFormed
  | .numeral skim d =>
    match d.step c with
    | .more d => .ok { s with spot := .numeral skim d }
    | .wrong => .error .illFormed
    | .over =>
      match s.endNumeral skim d with
      | .ok s => s.delimit c
      | .error e => .error e
  | .quoted isName q =>
    match q.step b with
    | .more q => .ok { s with spot := .quoted isName q }
    | .closed content => s.endQuoted isName q.skim content
    | .wrong => .error .illFormed

def scan (s : Scanner σ) (bs : List UInt8) : Except Fault (Scanner σ) := bs.foldlM step s

/-- The consumer of a text that ends here. Only a numeral can end with the text. -/
def finish (s : Scanner σ) : Except Fault σ :=
  match s.spot, s.frames with
  | .delimiter, [] => .ok s.consumer
  | .numeral skim d, frames =>
    if d.complete then
      match s.endNumeral skim d, frames with
      | .ok s, [] => .ok s.consumer
      | .ok _, _ => .error .cutShort
      | .error e, _ => .error e
    else if skim then .error .illFormed
    else .error .cutShort
  | _, _ => .error .cutShort

def start (c : σ) : Scanner σ := ⟨.value, [], c⟩

end Scanner

def feed {σ : Type} [Consumer σ] (c : σ) (text : List UInt8) : Except Fault σ :=
  ((Scanner.start c).scan text).bind Scanner.finish

end CourierDispatch.Json
