import CourierDispatch.Context
import CourierDispatch.Proofs.Keyed
import CourierDispatch.Proofs.Text.Blank
import CourierDispatch.Proofs.Text.Cut
import CourierDispatch.Proofs.Text.Hex
import CourierDispatch.Proofs.Text.Utf8
import Mathlib.Logic.Function.Iterate

/-!
# Contexts on their way

A context goes from hop to hop in the headers that one party writes and the next one reads. What is read
from headers, whatever they are, is well-formed, and the well-formed contexts are just those that arrive
as they were sent.
-/

namespace CourierDispatch.Context

structure IsId (length : Nat) (s : String) : Prop where
  length : s.toList.length = length
  digits : ∀ c ∈ s.toList, c ∈ Hex.alphabet
  nonzero : ∃ c ∈ s.toList, c ≠ '0'

/-- A key or a value of the baggage: no blanks at its ends, and nothing that would end it. -/
structure IsText (ends : List Char) (s : String) : Prop where
  trimmed : Text.Trimmed s.toList
  unbroken : ∀ c ∈ ends, c ∉ s.toList

def valueEnds : List Char := [',', ';']

def keyEnds : List Char := [',', ';', '=']

/-- An entry of the baggage that a header can hold. -/
structure IsEntry (e : String × String) : Prop where
  key_ne : e.1 ≠ ""
  key : IsText keyEnds e.1
  value : IsText valueEnds e.2

/-- There is a whole trace or none, and the baggage, in the order of its keys, consists of entries that
a header can hold. -/
structure WellFormed (ctx : Context) : Prop where
  trace :
    (ctx.traceId = none ∧ ctx.spanId = none ∧ ctx.sampled = false) ∨
      ∃ t s, ctx.traceId = some t ∧ ctx.spanId = some s ∧ IsId 32 t ∧ IsId 16 s
  sorted : Keyed.Sorted ctx.baggage
  entries : ∀ e ∈ ctx.baggage, IsEntry e

/-- What the next party reads from the headers that a party writes. -/
def hop (ctx : Context) : Context := ofHeaders ctx.toHeaders

/-! Traces. -/

theorem isId_ofList_iff {length : Nat} {cs : List Char} :
    IsId length (String.ofList (cs.map Char.toLower)) ↔
      cs.length = length ∧ cs.all Hex.isDigit ∧ ¬ cs.all (· = '0') := by
  have hdigits : (∀ c ∈ cs.map Char.toLower, c ∈ Hex.alphabet) ↔ cs.all Hex.isDigit := by
    simp only [List.all_eq_true, List.forall_mem_map, Hex.isDigit_iff]
  have hzero : (∃ c ∈ cs.map Char.toLower, c ≠ '0') ↔ ¬ cs.all (· = '0') := by
    simp [Hex.toLower_eq_zero_iff]
  rw [← hdigits, ← hzero]
  constructor
  · rintro ⟨hlength, halphabet, hne⟩
    rw [String.toList_ofList] at hlength halphabet hne
    exact ⟨by simpa using hlength, halphabet, hne⟩
  · rintro ⟨hlength, halphabet, hne⟩
    constructor <;> rw [String.toList_ofList]
    exacts [by simpa using hlength, halphabet, hne]

theorem isId_of_id? {length : Nat} {cs : List Char} {s : String} (h : id? length cs = some s) :
    IsId length s := by
  unfold id? at h
  split at h
  next hcs =>
    cases h
    exact isId_ofList_iff.2 hcs
  next => cases h

theorem IsId.map_toLower {length : Nat} {s : String} (h : IsId length s) :
    s.toList.map Char.toLower = s.toList :=
  (List.map_congr_left fun c hc => Hex.toLower_of_mem_alphabet (h.digits c hc)).trans (List.map_id' _)

theorem IsId.id?_toList {length : Nat} {s : String} (h : IsId length s) :
    id? length s.toList = some s := by
  have hs : String.ofList (s.toList.map Char.toLower) = s := by
    rw [h.map_toLower, String.ofList_toList]
  rw [id?, if_pos (isId_ofList_iff.1 (hs.symm ▸ h)), hs]

theorem IsId.hyphen_notMem {length : Nat} {s : String} (h : IsId length s) : '-' ∉ s.toList := by
  intro hmem
  exact absurd (h.digits _ hmem) (by decide)

theorem isId_of_trace? {s : String} {t : Trace} (h : trace? s = some t) :
    IsId 32 t.traceId ∧ IsId 16 t.spanId := by
  unfold trace? at h
  split at h
  next =>
    split at h
    next =>
      obtain ⟨traceId, htrace, h⟩ := Option.bind_eq_some_iff.1 h
      obtain ⟨spanId, hspan, h⟩ := Option.bind_eq_some_iff.1 h
      obtain ⟨f, -, rfl⟩ := Option.map_eq_some_iff.1 h
      exact ⟨isId_of_id? htrace, isId_of_id? hspan⟩
    next => cases h
  next => cases h

theorem trimmed_traceText (traceId spanId : String) (sampled : Bool) :
    Text.Trimmed (traceText traceId spanId sampled) where
  head hne := by
    change Text.isBlank '0' = false
    decide
  last hne := by
    have hflag : Text.isBlank (if sampled then '1' else '0') = false := by
      cases sampled <;> decide
    simpa [traceText] using hflag

def flagsText (sampled : Bool) : List Char := ['0', if sampled then '1' else '0']

theorem pieces_traceText {traceId spanId : String} (ht : IsId 32 traceId) (hs : IsId 16 spanId)
    (sampled : Bool) :
    Text.pieces '-' (traceText traceId spanId sampled) =
      [['0', '0'], traceId.toList, spanId.toList, flagsText sampled] := by
  have hversion : '-' ∉ ['0', '0'] := by decide
  have hflags : '-' ∉ flagsText sampled := by cases sampled <;> decide
  have htext : traceText traceId spanId sampled =
      ['0', '0'] ++ '-' :: (traceId.toList ++ '-' :: (spanId.toList ++ '-' :: flagsText sampled)) := by
    simp [traceText, flagsText]
  rw [htext, Text.pieces_append_cons hversion, Text.pieces_append_cons ht.hyphen_notMem,
    Text.pieces_append_cons hs.hyphen_notMem, Text.pieces_of_notMem hflags]

theorem trace?_traceText {traceId spanId : String} (ht : IsId 32 traceId) (hs : IsId 16 spanId)
    (sampled : Bool) :
    trace? (String.ofList (traceText traceId spanId sampled)) =
      some ⟨traceId, spanId, sampled⟩ := by
  have hversion : isVersion ['0', '0'] = true := by decide
  have hflags : (flags? (flagsText sampled)).map (fun f => decide (f % 2 = 1)) = some sampled := by
    cases sampled <;> decide
  obtain ⟨f, hf, hodd⟩ := Option.map_eq_some_iff.1 hflags
  rw [trace?, String.toList_ofList, Text.trim_of_trimmed (trimmed_traceText traceId spanId sampled),
    pieces_traceText ht hs]
  simp only [if_pos hversion, ht.id?_toList, hs.id?_toList, hf, hodd, Option.bind_some,
    Option.map_some]

/-! Baggage. -/

theorem isText_trim {ends cs : List Char} (h : ∀ c ∈ ends, c ∉ cs) :
    IsText ends (String.ofList (Text.trim cs)) := by
  constructor <;> rw [String.toList_ofList]
  · exact Text.trimmed_trim cs
  · exact fun c hc hmem => h c hc (Text.mem_of_mem_trim hmem)

/-- Between two commas there is an entry or nothing of use. -/
theorem isEntry_of_read {cs : List Char} {e : String × String} (hcomma : ',' ∉ cs)
    (h : entry? cs = some e) : IsEntry e := by
  obtain ⟨⟨key, value⟩, hcut, h⟩ := Option.bind_eq_some_iff.1 h
  obtain ⟨hequals, hbefore⟩ := Text.cut?_eq_some_iff.1 hcut
  have hends : ∀ c ∈ valueEnds, c ∉ key ++ '=' :: value := by
    have hcomma : ',' ∉ Text.before ';' cs := fun hmem => hcomma (Text.mem_of_mem_before hmem)
    simpa [valueEnds, hbefore] using And.intro hcomma (Text.notMem_before ';' cs)
  have hkey : ∀ c ∈ keyEnds, c ∉ key := by
    simp only [keyEnds, valueEnds, List.forall_mem_cons, List.mem_append, not_or] at hends ⊢
    exact ⟨hends.1.1, hends.2.1.1, hequals, List.forall_mem_nil _⟩
  have hvalue : ∀ c ∈ valueEnds, c ∉ value := fun c hc hmem =>
    hends c hc (List.mem_append_right _ (List.mem_cons_of_mem _ hmem))
  obtain ⟨hne, he⟩ := Option.ite_none_left_eq_some.1 h
  cases he
  exact ⟨by simpa using hne, isText_trim hkey, isText_trim hvalue⟩

theorem IsEntry.notMem_entryText {e : String × String} (h : IsEntry e) {c : Char}
    (hc : c ∈ valueEnds) : c ∉ entryText e := by
  have hends : c ∈ keyEnds ∧ c ≠ '=' := by
    simp only [valueEnds, List.mem_cons, List.not_mem_nil, or_false] at hc
    rcases hc with rfl | rfl <;> decide
  simp [entryText, h.key.unbroken c hends.1, h.value.unbroken c hc, hends.2]

theorem IsEntry.read_entryText {e : String × String} (h : IsEntry e) :
    entry? (entryText e) = some e := by
  have hsemicolon : ';' ∉ entryText e := h.notMem_entryText (by decide)
  have hcut : Text.cut? '=' (entryText e) = some (e.1.toList, e.2.toList) :=
    Text.cut?_eq_some_iff.2 ⟨h.key.unbroken '=' (by decide), rfl⟩
  have hne : e.1.toList ≠ [] := by simpa using h.key_ne
  unfold entry?
  rw [Text.before_of_notMem hsemicolon, hcut, Option.bind_some]
  simp only [Text.trim_of_trimmed h.key.trimmed, Text.trim_of_trimmed h.value.trimmed, if_neg hne,
    String.ofList_toList]

theorem isEntry_of_mem_entries {s : String} {e : String × String} (h : e ∈ entries s) :
    IsEntry e := by
  obtain ⟨cs, hcs, he⟩ := List.mem_filterMap.1 h
  exact isEntry_of_read (Text.notMem_of_mem_pieces hcs) he

theorem pieces_baggageText (e : String × String) (es : List (String × String))
    (h : ∀ e' ∈ e :: es, IsEntry e') :
    Text.pieces ',' (baggageText (e :: es)) = (e :: es).map entryText := by
  have hcomma : ',' ∉ entryText e := (h e List.mem_cons_self).notMem_entryText (by decide)
  induction es generalizing e with
  | nil => exact Text.pieces_of_notMem hcomma
  | cons e' es ih =>
      have hes : ∀ e'' ∈ e' :: es, IsEntry e'' := fun e'' he'' => h e'' (List.mem_cons_of_mem _ he'')
      have htext : baggageText (e :: e' :: es) = entryText e ++ ',' :: baggageText (e' :: es) := rfl
      have hnext : ',' ∉ entryText e' := (hes e' List.mem_cons_self).notMem_entryText (by decide)
      rw [htext, Text.pieces_append_cons hcomma, ih e' hes hnext]
      rfl

theorem entries_baggageText {es : List (String × String)} (h : ∀ e ∈ es, IsEntry e) :
    entries (String.ofList (baggageText es)) = es := by
  cases es with
  | nil => rfl
  | cons e es =>
      rw [entries, String.toList_ofList, pieces_baggageText e es h, List.filterMap_map]
      exact (List.filterMap_congr fun e' he' => (h e' he').read_entryText).trans List.filterMap_some

/-! Headers. -/

theorem wellFormed_empty : WellFormed {} where
  trace := .inl ⟨rfl, rfl, rfl⟩
  sorted := List.Pairwise.nil
  entries _ he := absurd he List.not_mem_nil

theorem WellFormed.insert {ctx : Context} (h : ctx.WellFormed) {e : String × String}
    (he : IsEntry e) : { ctx with baggage := Keyed.insert e.1 e.2 ctx.baggage }.WellFormed where
  trace := h.trace
  sorted := Keyed.sorted_insert h.sorted
  entries e' he' := by
    rcases Keyed.mem_insert he' with rfl | he'
    · exact he
    · exact h.entries e' he'

theorem WellFormed.foldl_insert {ctx : Context} (h : ctx.WellFormed) {es : List (String × String)}
    (hes : ∀ e ∈ es, IsEntry e) :
    WellFormed { ctx with
      baggage := es.foldl (fun m (e : String × String) => Keyed.insert e.1 e.2 m) ctx.baggage } := by
  induction es generalizing ctx with
  | nil => exact h
  | cons e es ih =>
      rw [List.forall_mem_cons] at hes
      exact ih (h.insert hes.1) hes.2

/-- No header, whatever it holds, spoils a context. -/
theorem WellFormed.addHeader {ctx : Context} (h : ctx.WellFormed) (header : String × List UInt8) :
    (ctx.addHeader header).WellFormed := by
  unfold Context.addHeader
  split
  next => exact h
  next value _ =>
    split
    next =>
      split
      next t ht =>
        obtain ⟨htrace, hspan⟩ := isId_of_trace? ht
        exact ⟨.inr ⟨_, _, rfl, rfl, htrace, hspan⟩, h.sorted, h.entries⟩
      next => exact h
    next =>
      split
      next => exact h.foldl_insert fun e he => isEntry_of_mem_entries he
      next => exact h

theorem wellFormed_ofHeaders (headers : Headers) : (ofHeaders headers).WellFormed := by
  unfold ofHeaders
  exact List.foldlRecOn headers addHeader wellFormed_empty fun _ h header _ => h.addHeader header

theorem addHeader_trace {traceId spanId : String} (ht : IsId 32 traceId) (hs : IsId 16 spanId)
    (ctx : Context) (sampled : Bool) :
    ctx.addHeader (traceHeader, Utf8.encode (traceText traceId spanId sampled)) =
      { ctx with traceId := traceId, spanId := spanId, sampled := sampled } := by
  have hname : isHeader traceHeader traceHeader = true := by decide
  simp only [addHeader, Utf8.string?_encode, if_pos hname, trace?_traceText ht hs]

theorem addHeader_baggage {es : List (String × String)} (h : ∀ e ∈ es, IsEntry e)
    (ctx : Context) :
    ctx.addHeader (baggageHeader, Utf8.encode (baggageText es)) =
      { ctx with baggage := es.foldl (fun m e => Keyed.insert e.1 e.2 m) ctx.baggage } := by
  have hname : isHeader baggageHeader baggageHeader = true := by decide
  have hother : ¬ isHeader baggageHeader traceHeader = true := by decide
  simp only [addHeader, Utf8.string?_encode, if_neg hother, if_pos hname, entries_baggageText h]

theorem WellFormed.hop_eq {ctx : Context} (h : ctx.WellFormed) : ctx.hop = ctx := by
  obtain ⟨traceId, spanId, sampled, baggage⟩ := ctx
  -- without baggage no header is written for it, and then none is needed
  have hbaggage (c : Context) (hc : c.baggage = []) :
      (if baggage = [] then [] else [(baggageHeader, Utf8.encode (baggageText baggage))]).foldl
        Context.addHeader c = { c with baggage } := by
    split
    next hnil => rw [hnil, ← hc]; rfl
    next =>
      rw [List.foldl_cons, List.foldl_nil, addHeader_baggage h.entries, hc]
      rw [← Keyed.ofList, Keyed.ofList_of_sorted h.sorted]
  rcases h.trace with ⟨rfl, rfl, rfl⟩ | ⟨t, s, rfl, rfl, ht, hs⟩
  · exact hbaggage {} rfl
  · have htrace := addHeader_trace ht hs {} sampled
    unfold hop ofHeaders toHeaders
    rw [List.foldl_append, List.foldl_cons, List.foldl_nil, htrace]
    exact hbaggage _ rfl

theorem hop_eq_iff {ctx : Context} : ctx.hop = ctx ↔ ctx.WellFormed :=
  ⟨fun h => h ▸ wellFormed_ofHeaders ctx.toHeaders, WellFormed.hop_eq⟩

/-- What is read from any headers is well-formed, just the well-formed contexts arrive as they were
sent, over one hop and over any number of them, and from the first hop on nothing is lost. -/
theorem propagation_exact :
    (∀ headers : Headers, (ofHeaders headers).WellFormed) ∧
      (∀ ctx : Context, ofHeaders ctx.toHeaders = ctx ↔ ctx.WellFormed) ∧
      (∀ ctx : Context, (∀ n, hop^[n] ctx = ctx) ↔ ctx.WellFormed) ∧
      ∀ (ctx : Context) (n : Nat), hop^[n + 1] ctx = ctx.hop := by
  have hstays (ctx : Context) (h : ctx.WellFormed) (n : Nat) : hop^[n] ctx = ctx :=
    Function.iterate_fixed h.hop_eq n
  refine ⟨wellFormed_ofHeaders, fun ctx => hop_eq_iff, fun ctx => ⟨?_, hstays ctx⟩, ?_⟩
  · intro h
    exact hop_eq_iff.1 (h 1)
  · intro ctx n
    exact hstays ctx.hop (wellFormed_ofHeaders ctx.toHeaders) n

end CourierDispatch.Context
