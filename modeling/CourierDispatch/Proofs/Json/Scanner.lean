import CourierDispatch.Json.Scanner
import CourierDispatch.Proofs.Json.Numeral
import CourierDispatch.Proofs.Json.Quoted
import CourierDispatch.Proofs.Value.All

/-!
# Scanning scalars and brackets

A scanner that goes over a scalar, or over the start or the end of a container, does to its consumer what
offering that part does, whatever the consumer is and whether it accepts the part or not. The nesting of
the text around it is the number of open frames.
-/

namespace CourierDispatch.Json

/-- How JSON offers values. Containers that are passed over may be nested at will, and only arrays are
held against a consumer that takes no more. -/
def manner : Manner Fault where
  mismatch := .mismatch
  tooDeep? skims depth := if !skims && Scanner.depthLimit ≤ depth then some .illFormed else none
  surplus? inMap := if inMap then none else some .illFormed
  skim
    | .null => .null
    | .bool b => .bool b
    | _ => .skimmed

theorem manner_limits : manner.Limits Scanner.depthLimit .illFormed := by
  intro depth
  simp [manner]

/-- A byte in front of which a whole number ends. -/
def EndsNumeral (b : UInt8) : Prop :=
  (asChar b).isDigit = false ∧ asChar b ≠ '.' ∧ asChar b ≠ 'e' ∧ asChar b ≠ 'E'

instance (b : UInt8) : Decidable (EndsNumeral b) := inferInstanceAs (Decidable (_ ∧ _))

def Bounded (v : Value) (rest : List UInt8) : Prop :=
  ∀ n, v = .number n → ∃ b bs, rest = b :: bs ∧ EndsNumeral b

theorem bounded_cons (v : Value) {b : UInt8} (h : EndsNumeral b) (bs : List UInt8) :
    Bounded v (b :: bs) :=
  fun _ _ => ⟨b, bs, rfl, h⟩

namespace Scanner

variable {σ : Type} [Consumer σ]

theorem scan_nil (s : Scanner σ) : s.scan [] = .ok s := rfl

theorem scan_cons (s : Scanner σ) (b : UInt8) (bs : List UInt8) :
    s.scan (b :: bs) = (s.step b).bind fun s => s.scan bs := rfl

theorem scan_cons_of_step {s s' : Scanner σ} {b : UInt8} (h : s.step b = .ok s')
    (bs : List UInt8) : s.scan (b :: bs) = s'.scan bs := by
  rw [scan_cons, h]
  rfl

theorem emit_eq (s : Scanner σ) (t : Token) (spot : Spot) :
    s.emit t spot = (manner.hand s.consumer t).map fun c => ⟨spot, s.frames, c⟩ := by
  rw [emit, Manner.hand]
  cases Consumer.accept s.consumer t <;> rfl

theorem scan_cons_of_emit {s : Scanner σ} {b : UInt8} {t : Token} {spot : Spot}
    {frames : List Frame} {c : σ} (h : s.step b = emit ⟨s.spot, frames, c⟩ t spot)
    (bs : List UInt8) :
    s.scan (b :: bs) = (manner.hand c t).bind fun c => scan ⟨spot, frames, c⟩ bs := by
  rw [scan_cons, h, emit_eq]
  cases manner.hand c t <;> rfl

theorem scan_null (frames : List Frame) (c : σ) (rest : List UInt8) :
    scan ⟨.value, frames, c⟩ (Utf8.encode ['n', 'u', 'l', 'l'] ++ rest) =
      (manner.handScalar c .null).bind fun c => scan ⟨.delimiter, frames, c⟩ rest := by
  have hscalar : manner.handScalar c .null = manner.hand c .null := by
    rw [Manner.handScalar]
    split <;> rfl
  rw [hscalar]
  exact scan_cons_of_emit (s := ⟨.word ['l'] .null, frames, c⟩) rfl rest

theorem scan_true (frames : List Frame) (c : σ) (rest : List UInt8) :
    scan ⟨.value, frames, c⟩ (Utf8.encode ['t', 'r', 'u', 'e'] ++ rest) =
      (manner.handScalar c (.bool true)).bind fun c => scan ⟨.delimiter, frames, c⟩ rest := by
  have hscalar : manner.handScalar c (.bool true) = manner.hand c (.bool true) := by
    rw [Manner.handScalar]
    split <;> rfl
  rw [hscalar]
  exact scan_cons_of_emit (s := ⟨.word ['e'] (.bool true), frames, c⟩) rfl rest

theorem scan_false (frames : List Frame) (c : σ) (rest : List UInt8) :
    scan ⟨.value, frames, c⟩ (Utf8.encode ['f', 'a', 'l', 's', 'e'] ++ rest) =
      (manner.handScalar c (.bool false)).bind fun c => scan ⟨.delimiter, frames, c⟩ rest := by
  have hscalar : manner.handScalar c (.bool false) = manner.hand c (.bool false) := by
    rw [Manner.handScalar]
    split <;> rfl
  rw [hscalar]
  exact scan_cons_of_emit (s := ⟨.word ['e'] (.bool false), frames, c⟩) rfl rest

theorem step_quoted {isName : Bool} {q q' : Quoted} {b : UInt8} (h : q.more? b = some q')
    (frames : List Frame) (c : σ) :
    step ⟨.quoted isName q, frames, c⟩ b = .ok ⟨.quoted isName q', frames, c⟩ := by
  unfold Quoted.more? at h
  simp only [step]
  split at h
  next heq =>
    cases h
    rw [heq]
  next => cases h

theorem scan_quoted_append (isName : Bool) {q q' : Quoted} {bs : List UInt8}
    (h : q.absorb bs = some q') (frames : List Frame) (c : σ) (rest : List UInt8) :
    scan ⟨.quoted isName q, frames, c⟩ (bs ++ rest) =
      scan ⟨.quoted isName q', frames, c⟩ rest := by
  induction bs generalizing q with
  | nil =>
      rw [Quoted.absorb_nil] at h
      cases h
      rfl
  | cons b bs ih =>
      rw [Quoted.absorb_cons] at h
      obtain ⟨mid, hmid, hrest⟩ := Option.bind_eq_some_iff.1 h
      rw [List.cons_append, scan_cons_of_step (step_quoted hmid frames c)]
      exact ih hrest

theorem endQuoted_eq (isName : Bool) {content : List UInt8} {s : String} {skim : Bool}
    (h : skim = false → content = Utf8.bytes s) (sc : Scanner σ)
    (hskim : Consumer.skims sc.consumer = skim) :
    sc.endQuoted isName skim content =
      (manner.handScalar sc.consumer (.text s)).map fun c =>
        ⟨if isName then .colon else .delimiter, sc.frames, c⟩ := by
  rw [endQuoted, Manner.handScalar, hskim]
  cases skim with
  | true => exact emit_eq sc _ _
  | false =>
      rw [h rfl, Utf8.string?_bytes]
      exact emit_eq sc _ _

/-- What stands between quotes is taken up as the bytes of the text, unless it is passed over. -/
theorem exists_quoted {s : String} {cs : List Char} (h : Quotes s cs) (skim : Bool) :
    ∃ bs content, Utf8.encode cs = 0x22 :: (bs ++ [0x22]) ∧
      Quoted.absorb ⟨skim, [], .none⟩ bs = some ⟨skim, content, .none⟩ ∧
      (skim = false → content.reverse = Utf8.bytes s) := by
  obtain ⟨ps, hps, rfl⟩ := h
  obtain ⟨content, hcontent, habsorb⟩ := Quoted.absorb_spellsText skim [] hps
  refine ⟨Utf8.encode ps, content, ?_, habsorb, fun hskim => ?_⟩
  · rw [List.cons_append, Utf8.encode_cons, Utf8.encode_append]
    rfl
  · rw [hcontent hskim, List.append_nil, List.reverse_reverse]
    rfl

theorem scan_quotes (isName : Bool) {s : String} {cs : List Char} (h : Quotes s cs) {spot : Spot}
    (frames : List Frame) (c : σ)
    (hopen : step (σ := σ) ⟨spot, frames, c⟩ 0x22 =
      .ok ⟨.quoted isName { skim := Consumer.skims c }, frames, c⟩) (rest : List UInt8) :
    scan ⟨spot, frames, c⟩ (Utf8.encode cs ++ rest) =
      (manner.handScalar c (.text s)).bind fun c =>
        scan ⟨if isName then .colon else .delimiter, frames, c⟩ rest := by
  obtain ⟨bs, content, hencode, habsorb, hbytes⟩ := exists_quoted h (Consumer.skims c)
  rw [hencode, List.cons_append, scan_cons_of_step hopen, List.append_assoc,
    scan_quoted_append isName habsorb, List.singleton_append, scan_cons]
  change (endQuoted ⟨.quoted isName ⟨Consumer.skims c, content, .none⟩, frames, c⟩ isName
    (Consumer.skims c) content.reverse).bind _ = _
  rw [endQuoted_eq isName hbytes _ rfl]
  cases manner.handScalar c (.text s) <;> rfl

theorem step_numeral {skim : Bool} {d d' : Numeral.Draft} {x : Char} (hx : x.toNat < 0x80)
    (h : d.more? x = some d') (frames : List Frame) (c : σ) :
    step ⟨.numeral skim d, frames, c⟩ x.toNat.toUInt8 = .ok ⟨.numeral skim d', frames, c⟩ := by
  unfold Numeral.Draft.more? at h
  simp only [step, asChar_toUInt8 hx]
  split at h
  next heq =>
    cases h
    rw [heq]
  next => cases h

theorem scan_numeral_append (skim : Bool) {d d' : Numeral.Draft} {cs : List Char}
    (hcs : ∀ x ∈ cs, x.toNat < 0x80) (h : d.absorbs cs = some d') (frames : List Frame) (c : σ)
    (rest : List UInt8) :
    scan ⟨.numeral skim d, frames, c⟩ (Utf8.encode cs ++ rest) =
      scan ⟨.numeral skim d', frames, c⟩ rest := by
  induction cs generalizing d with
  | nil =>
      cases h
      rfl
  | cons x cs ih =>
      rw [Numeral.Draft.absorbs_cons] at h
      obtain ⟨mid, hmid, hrest⟩ := Option.bind_eq_some_iff.1 h
      have hx : x.toNat < 0x80 := hcs x List.mem_cons_self
      rw [Utf8.encode_cons, Utf8.encodeChar_ascii hx, List.singleton_append, List.cons_append,
        scan_cons_of_step (step_numeral hx hmid frames c)]
      exact ih (fun y hy => hcs y (List.mem_cons_of_mem _ hy)) hrest

theorem endNumeral_eq {d : Numeral.Draft} {n : Number} (h : d.numeral.token? = some n.token)
    (sc : Scanner σ) :
    sc.endNumeral (Consumer.skims sc.consumer) d =
      (manner.handScalar sc.consumer n.token).map fun c => ⟨.delimiter, sc.frames, c⟩ := by
  have hskim : manner.skim n.token = .skimmed := by
    cases n with
    | whole n => by_cases hn : n < 0 <;> simp [Number.token, hn, manner]
    | double x => rfl
  rw [endNumeral, Manner.handScalar, h]
  cases Consumer.skims sc.consumer with
  | true => simpa [hskim] using emit_eq sc .skimmed .delimiter
  | false => exact emit_eq sc n.token .delimiter

theorem beginValue_fitting {x : Char} (hx : Numeral.Fitting x) (sc : Scanner σ) :
    sc.beginValue x =
      match Numeral.Draft.ofChar? x with
      | some d => .ok { sc with spot := .numeral (Consumer.skims sc.consumer) d }
      | none => .error .illFormed := by
  unfold beginValue
  split
  iterate 6 exact absurd hx (by decide)
  rfl

theorem isSpace_fitting {x : Char} (hx : Numeral.Fitting x) : isSpace x = false := by
  by_contra hs
  simp only [isSpace, Bool.not_eq_false, Bool.or_eq_true, decide_eq_true_eq] at hs
  rcases hs with ((rfl | rfl) | rfl) | rfl <;> exact absurd hx (by decide)

/-- Going over a whole number leaves the scanner with a numeral that may end here. -/
theorem exists_scan_wholeText {n : Int} (hn : (Number.whole n).fits) (frames : List Frame) (c : σ) :
    ∃ d : Numeral.Draft, (d.part = .zero ∨ d.part = .whole) ∧
      d.numeral.token? = some (Number.whole n).token ∧
      ∀ rest, scan ⟨.value, frames, c⟩ (Utf8.encode (wholeText n) ++ rest) =
        scan ⟨.numeral (Consumer.skims c) d, frames, c⟩ rest := by
  obtain ⟨x, cs, d, d', htext, hall, hd, habsorb, hpart, htoken⟩ :=
    Numeral.Draft.exists_draft_wholeText hn
  have hascii : ∀ y ∈ x :: cs, y.toNat < 0x80 := fun y hy => (hall y hy).toNat_lt
  have hx : x.toNat < 0x80 := hascii x List.mem_cons_self
  have hfirst := hall x List.mem_cons_self
  have hstep : step (σ := σ) ⟨.value, frames, c⟩ x.toNat.toUInt8 =
      .ok ⟨.numeral (Consumer.skims c) d, frames, c⟩ := by
    simp only [step, asChar_toUInt8 hx, isSpace_fitting hfirst, Bool.false_eq_true, if_false]
    rw [beginValue_fitting hfirst, hd]
  refine ⟨d', hpart, htoken, fun rest => ?_⟩
  rw [htext, Utf8.encode_cons, Utf8.encodeChar_ascii hx, List.singleton_append, List.cons_append,
    scan_cons_of_step hstep,
    scan_numeral_append _ (fun y hy => hascii y (List.mem_cons_of_mem _ hy)) habsorb]

theorem scan_wholeText {n : Int} (hn : (Number.whole n).fits) (frames : List Frame) (c : σ)
    {rest : List UInt8} (hr : ∃ b bs, rest = b :: bs ∧ EndsNumeral b) :
    scan ⟨.value, frames, c⟩ (Utf8.encode (wholeText n) ++ rest) =
      (manner.handScalar c (Number.whole n).token).bind fun c =>
        scan ⟨.delimiter, frames, c⟩ rest := by
  obtain ⟨d, hpart, htoken, hscan⟩ := exists_scan_wholeText hn frames c
  obtain ⟨b, bs, rfl, hdigit, hpoint, hmark, hmark'⟩ := hr
  -- the next byte ends the number and is then read behind it
  have hover := Numeral.Draft.step_over hpart hdigit hpoint hmark hmark'
  have hlast : step (σ := σ) ⟨.numeral (Consumer.skims c) d, frames, c⟩ b =
      (manner.handScalar c (Number.whole n).token).bind fun c =>
        delimit ⟨.delimiter, frames, c⟩ (asChar b) := by
    have hend := endNumeral_eq htoken ⟨.numeral (Consumer.skims c) d, frames, c⟩
    simp only at hend
    simp only [step, hover, hend]
    cases manner.handScalar c (Number.whole n).token <;> rfl
  rw [hscan, scan_cons, hlast]
  cases manner.handScalar c (Number.whole n).token <;> rfl

theorem feed_wholeText {n : Int} (hn : (Number.whole n).fits) (c : σ) :
    feed c (Utf8.encode (wholeText n)) = manner.handScalar c (Number.whole n).token := by
  obtain ⟨d, hpart, htoken, hscan⟩ := exists_scan_wholeText hn [] c
  have hcomplete : d.complete = true := by
    rcases hpart with hpart | hpart <;> rw [Numeral.Draft.complete, hpart]
  have hend := endNumeral_eq htoken ⟨.numeral (Consumer.skims c) d, [], c⟩
  simp only at hend
  have hall := hscan []
  rw [List.append_nil, scan_nil] at hall
  rw [feed, start, hall]
  change finish ⟨.numeral (Consumer.skims c) d, [], c⟩ = _
  simp only [finish, hcomplete, hend, if_true]
  cases manner.handScalar c (Number.whole n).token <;> rfl

theorem openFrame_eq (sc : Scanner σ) (f : Frame) (spot : Spot) :
    sc.openFrame f spot =
      (manner.enter sc.frames.length sc.consumer f.opening).map fun c =>
        ⟨spot, f :: sc.frames, c⟩ := by
  rw [openFrame, Manner.enter]
  by_cases h : (!Consumer.skims sc.consumer && decide (depthLimit ≤ sc.frames.length)) = true
  · simp only [manner, h, if_true]
    rfl
  · simp only [manner, h]
    exact emit_eq _ _ _

theorem scan_open (f : Frame) {b : UInt8} {spot : Spot} (frames : List Frame) (c : σ)
    (h : step (σ := σ) ⟨.value, frames, c⟩ b = openFrame ⟨.value, frames, c⟩ f spot)
    (rest : List UInt8) :
    scan ⟨.value, frames, c⟩ (b :: rest) =
      (manner.enter frames.length c f.opening).bind fun c => scan ⟨spot, f :: frames, c⟩ rest := by
  rw [scan_cons, h, openFrame_eq]
  cases manner.enter frames.length c f.opening <;> rfl

theorem scan_close (f : Frame) {b : UInt8} {spot : Spot} (frames : List Frame) (c : σ)
    (h : step (σ := σ) ⟨spot, f :: frames, c⟩ b = closeFrame ⟨spot, f :: frames, c⟩ f)
    (rest : List UInt8) :
    scan ⟨spot, f :: frames, c⟩ (b :: rest) =
      (manner.hand c f.closing).bind fun c => scan ⟨.delimiter, frames, c⟩ rest := by
  rw [scan_cons, h, closeFrame, emit_eq]
  cases manner.hand c f.closing <;> rfl

theorem scan_comma_array (frames : List Frame) (c : σ) (rest : List UInt8) :
    scan ⟨.delimiter, .array :: frames, c⟩ (0x2C :: rest) =
      (manner.next false false c).bind fun c => scan ⟨.value, .array :: frames, c⟩ rest := by
  have hstep : step (σ := σ) ⟨.delimiter, .array :: frames, c⟩ 0x2C =
      if Consumer.sated c then .error .illFormed else .ok ⟨.value, .array :: frames, c⟩ := rfl
  rw [scan_cons, hstep, Manner.next]
  cases hs : Consumer.sated c <;> simp [manner, Except.bind]

end Scanner

end CourierDispatch.Json
