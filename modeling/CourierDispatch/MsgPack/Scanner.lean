import CourierDispatch.MsgPack.Header
import CourierDispatch.Text.Utf8

/-!
# Reading MsgPack

A scanner takes MsgPack byte by byte and hands its tokens to a consumer. Once the value is complete
the scanner takes no notice of further bytes. Containers and extensions may be nested 1023 deep,
whether they are read or passed over.
-/

namespace CourierDispatch.MsgPack

/-- Why bytes were not read: they stop short, a marker is the reserved one, containers are nested too
deep, an array has items that nobody takes, or something else is described than what was wanted. -/
inductive Fault
  | cutShort
  | reserved
  | tooDeep
  | tooLong
  | mismatch (m : Mismatch)
deriving DecidableEq, Repr

/-- A container that is not complete, and how many of its items (names included) are still to be
read. -/
structure Frame where
  isMap : Bool
  left : Nat
deriving DecidableEq, Repr

def Frame.closing (f : Frame) : Token := if f.isMap then .objectEnd else .arrayEnd

def Frame.opening (f : Frame) : Token := if f.isMap then .objectStart else .arrayStart

/-- What the next byte belongs to. -/
inductive Spot
  | marker
  /-- The number of a header, with its bytes so far, the latest first. -/
  | field (f : Field) (width : Nat) (digits : List UInt8)
  /-- The body of a value, with its bytes so far, the latest first. -/
  | body (kind : BodyKind) (left : Nat) (content : List UInt8)
  /-- Nothing: the value is complete. -/
  | rest
deriving DecidableEq, Repr

/-- A scanner in the middle of a value, with the open containers from the inside out. -/
structure Scanner (σ : Type) where
  spot : Spot
  frames : List Frame
  consumer : σ

namespace Scanner

variable {σ : Type} [Consumer σ]

/-- How many containers may be open when another one begins. -/
def depthLimit : Nat := 1023

def accept (c : σ) (t : Token) : Except Fault σ :=
  match Consumer.accept c t with
  | .ok c => .ok c
  | .error m => .error (.mismatch m)

/-- Goes on behind a complete item. The containers that it completes are closed. -/
def settle (c : σ) : List Frame → Except Fault (Scanner σ)
  | [] => .ok ⟨.rest, [], c⟩
  | f :: outer =>
    if f.left ≤ 1 then
      match accept c f.closing with
      | .ok c => settle c outer
      | .error e => .error e
    else if Consumer.sated c then .error .tooLong
    else .ok ⟨.marker, { f with left := f.left - 1 } :: outer, c⟩

def emit (s : Scanner σ) (t : Token) : Except Fault (Scanner σ) :=
  match accept s.consumer t with
  | .ok c => settle c s.frames
  | .error e => .error e

def openFrame (s : Scanner σ) (f : Frame) : Except Fault (Scanner σ) :=
  if depthLimit ≤ s.frames.length then .error .tooDeep
  else
    match accept s.consumer f.opening with
    | .error e => .error e
    | .ok c =>
      if f.left = 0 then
        match accept c f.closing with
        | .ok c => settle c s.frames
        | .error e => .error e
      else .ok ⟨.marker, f :: s.frames, c⟩

def bodyToken (content : List UInt8) : BodyKind → Token
  | .text =>
    match Utf8.string? content with
    | some text => .text text
    | none => .brokenText content
  | .bytes => .bytes content
  | .extension => .extension

/-- Takes what a header announces. An extension counts as a container, and it is handed on before its
body, which is a type byte longer than its length. -/
def announce (s : Scanner σ) : Item → Except Fault (Scanner σ)
  | .scalar t => s.emit t
  | .array n => s.openFrame ⟨false, n⟩
  | .map n => s.openFrame ⟨true, 2 * n⟩
  | .body .extension n =>
    if depthLimit ≤ s.frames.length then .error .tooDeep
    else
      match accept s.consumer .extension with
      | .ok c => .ok ⟨.body .extension (n + 1) [], s.frames, c⟩
      | .error e => .error e
  | .body kind 0 => s.emit (bodyToken [] kind)
  | .body kind n => .ok { s with spot := .body kind n [] }

def endBody (s : Scanner σ) (kind : BodyKind) (content : List UInt8) :
    Except Fault (Scanner σ) :=
  match kind with
  | .extension => settle s.consumer s.frames
  | kind => s.emit (bodyToken content kind)

def step (s : Scanner σ) (b : UInt8) : Except Fault (Scanner σ) :=
  match s.spot with
  | .rest => .ok s
  | .marker =>
    match marker? b with
    | none => .error .reserved
    | some (.item i) => s.announce i
    | some (.field f width) => .ok { s with spot := .field f width [] }
  | .field f width digits =>
    if digits.length + 1 < width then .ok { s with spot := .field f width (b :: digits) }
    else s.announce (f.item width (bigEndian (b :: digits).reverse))
  | .body kind left content =>
    if 1 < left then .ok { s with spot := .body kind (left - 1) (b :: content) }
    else s.endBody kind (b :: content).reverse

def scan (s : Scanner σ) (bs : List UInt8) : Except Fault (Scanner σ) := bs.foldlM step s

/-- The consumer, if the value is complete. -/
def finish (s : Scanner σ) : Except Fault σ :=
  match s.spot with
  | .rest => .ok s.consumer
  | _ => .error .cutShort

def start (c : σ) : Scanner σ := ⟨.marker, [], c⟩

end Scanner

def feed {σ : Type} [Consumer σ] (c : σ) (bs : List UInt8) : Except Fault σ :=
  ((Scanner.start c).scan bs).bind Scanner.finish

end CourierDispatch.MsgPack
