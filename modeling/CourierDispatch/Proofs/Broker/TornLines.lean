import CourierDispatch.Proofs.Answers
import CourierDispatch.Proofs.Broker.Lines

/-!
# Torn lines

A stream may fail inside a line. The sink knows nothing of what the stream has taken of it, and begins the
next value right there. A value that is written as a whole therefore comes back as it is if it begins a
line, and otherwise with the torn value in front of it.
-/

namespace CourierDispatch

namespace LineSource

/-- What stands behind the last line feed of a text. -/
def unfinished (bytes : List UInt8) : List UInt8 := bytes.rtakeWhile (· ≠ lineFeed)

theorem lineFeed_notMem_unfinished (bytes : List UInt8) : lineFeed ∉ unfinished bytes := fun h => by
  simpa using List.mem_rtakeWhile_imp h

theorem unfinished_eq_nil_iff {bytes : List UInt8} :
    unfinished bytes = [] ↔ bytes = [] ∨ bytes.getLast? = some lineFeed := by
  rw [unfinished, List.rtakeWhile_eq_nil_iff]
  cases hlast : bytes.getLast? with
  | none => simp_all
  | some b =>
      have hne : bytes ≠ [] := by
        rintro rfl
        cases hlast
      rw [List.getLast?_eq_some_getLast hne, Option.some_inj] at hlast
      simp [hne, hlast]

theorem unfinished_concat_lineFeed (bytes : List UInt8) : unfinished (bytes ++ [lineFeed]) = [] :=
  List.rtakeWhile_concat_neg _ _ _ (by simp)

theorem unfinished_concat_of_ne (bytes : List UInt8) {b : UInt8} (h : b ≠ lineFeed) :
    unfinished (bytes ++ [b]) = unfinished bytes ++ [b] :=
  List.rtakeWhile_concat_pos _ _ _ (by simpa using h)

theorem exists_lines (bytes : List UInt8) :
    ∃ lines, (∀ line ∈ lines, lineFeed ∉ line) ∧ bytes = asLines lines ++ unfinished bytes := by
  induction bytes using List.reverseRecOn with
  | nil => exact ⟨[], nofun, rfl⟩
  | append_singleton bytes b ih =>
      obtain ⟨lines, hlines, hbytes⟩ := ih
      by_cases hb : b = lineFeed
      · subst hb
        refine ⟨lines ++ [unfinished bytes], ?_, ?_⟩
        · rw [List.forall_mem_append, List.forall_mem_singleton]
          exact ⟨hlines, lineFeed_notMem_unfinished bytes⟩
        · nth_rewrite 1 [hbytes]
          rw [unfinished_concat_lineFeed, asLines_append]
          simp [asLines]
      · refine ⟨lines, hlines, ?_⟩
        nth_rewrite 1 [hbytes]
        rw [unfinished_concat_of_ne bytes hb, List.append_assoc]

theorem linesOf_asLines_append {lines : List (List UInt8)} (h : ∀ line ∈ lines, lineFeed ∉ line)
    (ended : Bool) (bytes : List UInt8) :
    linesOf ended (asLines lines ++ bytes) = linesOf false (asLines lines) ++ linesOf ended bytes := by
  induction lines with
  | nil => rfl
  | cons line lines ih =>
      obtain ⟨hline, hlines⟩ := List.forall_mem_cons.1 h
      rw [asLines_cons, List.append_assoc, List.cons_append, linesOf_append_cons hline,
        linesOf_append_cons hline, ih hlines, List.append_assoc]

theorem oneLine_append {cut v : List UInt8} (hcut : lineFeed ∉ cut) (h : OneLine v) :
    OneLine (cut ++ v) where
  lineFeed hmem := (List.mem_append.1 hmem).elim hcut h.lineFeed
  carriageReturn := by
    have hne : v ≠ [] := by
      rintro rfl
      exact absurd h.visible (by decide)
    rw [List.getLast?_append_of_ne_nil _ hne]
    exact h.carriageReturn
  visible := by rw [List.all_append, h.visible, Bool.and_false]

/-- A value that is written behind a text comes back behind the values of the text, with what was
unfinished in front of it. -/
theorem linesOf_append_line {v : List UInt8} (h : OneLine v) (ended : Bool)
    (bytes rest : List UInt8) :
    linesOf ended (bytes ++ v ++ lineFeed :: rest) =
      linesOf false bytes ++ (unfinished bytes ++ v) :: linesOf ended rest := by
  obtain ⟨lines, hlines, hbytes⟩ := exists_lines bytes
  have hcut := lineFeed_notMem_unfinished bytes
  have hline := oneLine_append hcut h
  have hbefore : linesOf false bytes = linesOf false (asLines lines) := by
    rw [hbytes, linesOf_asLines_append hlines, linesOf_of_notMem hcut]
    exact List.append_nil _
  rw [hbefore]
  nth_rewrite 1 [hbytes]
  rw [List.append_assoc, List.append_assoc, linesOf_asLines_append hlines, ← List.append_assoc,
    linesOf_append_cons hline.lineFeed, value?_reverse hline]
  rfl

end LineSource

/-- A stream that may fail at any write, when it has taken some of the first bytes, and at any flush. -/
class FaultyWriter (W : Type) [ByteWriter W] where
  /-- The bytes that it has taken. -/
  taken : W → List UInt8
  write (w : W) (bs : List UInt8) : ∃ part, part <+: bs ∧
    taken (ByteWriter.write w bs).1 = taken w ++ part ∧ ((ByteWriter.write w bs).2 = .ok () → part = bs)
  flush (w : W) : taken (ByteWriter.flush w).1 = taken w

namespace LineSink

open LineSource (lineFeed unfinished linesOf Delivers)
open FaultyWriter (taken)

variable {W : Type} [ByteWriter W]

def writeResults (s : LineSink W) (rs : List Result) : LineSink W × List (Except BrokerError Unit) :=
  inTurn (fun s r => s.write [s.resultMessage r]) s rs

theorem writeResults_append (s : LineSink W) (rs rs' : List Result) :
    (s.writeResults (rs ++ rs')).1 = ((s.writeResults rs).1.writeResults rs').1 := by
  rw [writeResults, inTurn_append]
  rfl

variable [FaultyWriter W]

/-- A write fails behind a part of the bytes, or takes all of them. -/
theorem write_cases (w : W) (bs : List UInt8) :
    (∃ w' e part, ByteWriter.write w bs = (w', .error e) ∧ taken w' = taken w ++ part) ∨
      ∃ w', ByteWriter.write w bs = (w', .ok ()) ∧ taken w' = taken w ++ bs := by
  obtain ⟨part, -, htaken, hwhole⟩ := FaultyWriter.write w bs
  rcases hwrite : ByteWriter.write w bs with ⟨w', e | _⟩
  · rw [hwrite] at htaken
    exact .inl ⟨w', e, part, rfl, htaken⟩
  · rw [hwrite] at htaken hwhole
    obtain rfl := hwhole rfl
    exact .inr ⟨w', rfl, htaken⟩

theorem writeLines_of_faulty (w : W) (vs : List (List UInt8)) :
    ∃ part, taken (writeLines w vs).1 = taken w ++ part ∧
      ((writeLines w vs).2 = .ok () → part = asLines vs) := by
  induction vs generalizing w with
  | nil => exact ⟨[], by rw [writeLines, FaultyWriter.flush, List.append_nil], fun _ => rfl⟩
  | cons v vs ih =>
      obtain ⟨w₁, e, part, hvalue, htaken⟩ | ⟨w₁, hvalue, htaken₁⟩ := write_cases w v
      · have hline : writeLines w (v :: vs) = (w₁, .error e) := by simp only [writeLines, hvalue]
        rw [hline]
        exact ⟨part, htaken, fun h => by cases h⟩
      obtain ⟨w₂, e, part, hfeed, htaken₂⟩ | ⟨w₂, hfeed, htaken₂⟩ := write_cases w₁ [10]
      · have hline : writeLines w (v :: vs) = (w₂, .error e) := by
          simp only [writeLines, hvalue, hfeed]
        rw [hline]
        exact ⟨v ++ part, by rw [htaken₂, htaken₁, List.append_assoc], fun h => by cases h⟩
      · have hline : writeLines w (v :: vs) = writeLines w₂ vs := by
          simp only [writeLines, hvalue, hfeed]
        obtain ⟨rest, hrest, hwhole⟩ := ih w₂
        rw [hline]
        refine ⟨v ++ lineFeed :: rest, ?_, fun h => ?_⟩
        · rw [hrest, htaken₂, htaken₁, List.append_assoc, List.append_assoc]
          rfl
        · rw [hwhole h, asLines_cons]

theorem write_of_faulty (s : LineSink W) (r : Result) :
    ∃ part, taken (s.write [s.resultMessage r]).1.writer = taken s.writer ++ part ∧
      ((s.write [s.resultMessage r]).2 = .ok () → part = r.encode .json ++ [lineFeed]) := by
  have hwrite : s.write [s.resultMessage r] = s.settle (writeLines s.writer [r.encode .json]) := by
    rw [LineSink.write, stray?_eq_none (by simp [resultMessage, Writer.message])]
    rfl
  obtain ⟨part, htaken, hwhole⟩ := writeLines_of_faulty s.writer [r.encode .json]
  rw [hwrite]
  refine ⟨part, htaken, fun h => ?_⟩
  rw [hwhole (mapError_eq_ok_iff.1 h), asLines_cons]
  rfl

theorem exists_taken_writeResults (s : LineSink W) (rs : List Result) :
    ∃ rest, taken (s.writeResults rs).1.writer = taken s.writer ++ rest := by
  induction rs generalizing s with
  | nil => exact ⟨[], (List.append_nil _).symm⟩
  | cons r rs ih =>
      obtain ⟨part, hpart, -⟩ := s.write_of_faulty r
      obtain ⟨rest, hrest⟩ := ih (s.write [s.resultMessage r]).1
      refine ⟨part ++ rest, ?_⟩
      rw [← List.append_assoc, ← hpart, ← hrest]
      rfl

/-- A result whose call was a success comes back behind all values that came before it, with what was
unfinished in front of it: as it is if it began a line, and only then. What follows makes no difference to
it, and it makes none to what follows, since a new line begins behind it. -/
theorem result_delivered_iff (s : LineSink W) (before : List Result) (r : Result)
    (after : List Result)
    (hok : (s.writeResults (before ++ r :: after)).2[before.length]? = some (.ok ())) :
    let text := taken (s.writeResults before).1.writer
    let line := unfinished text ++ r.encode .json
    (∃ later, Delivers (taken (s.writeResults (before ++ r :: after)).1.writer)
        (linesOf false text ++ line :: later)) ∧
      (line = r.encode .json ↔ text = [] ∨ text.getLast? = some lineFeed) ∧
      taken (s.writeResults (before ++ [r])).1.writer = text ++ r.encode .json ++ [lineFeed] := by
  intro text line
  rw [writeResults, getElem?_inTurn, Option.some_inj] at hok
  obtain ⟨part, hpart, hwhole⟩ := (s.writeResults before).1.write_of_faulty r
  obtain rfl := hwhole hok
  rw [← List.append_assoc] at hpart
  obtain ⟨rest, hrest⟩ := exists_taken_writeResults
    ((s.writeResults before).1.write [(s.writeResults before).1.resultMessage r]).1 after
  have htaken : taken (s.writeResults (before ++ r :: after)).1.writer =
      text ++ r.encode .json ++ lineFeed :: rest := by
    rw [writeResults_append]
    refine hrest.trans ?_
    rw [hpart, List.append_assoc]
    rfl
  refine ⟨⟨linesOf true rest, ?_⟩, ?_, ?_⟩
  · have hlines : linesOf true (text ++ r.encode .json ++ lineFeed :: rest) =
        linesOf false text ++ line :: linesOf true rest :=
      LineSource.linesOf_append_line r.envelope.oneLine_json true text rest
    rw [htaken, ← hlines]
    exact LineSource.delivers_linesOf _
  · rw [List.append_left_eq_self]
    exact LineSource.unfinished_eq_nil_iff
  · rw [writeResults_append]
    exact hpart

end LineSink

/-- A stream with a script that says of each step how many bytes it takes and fails, or that it does not
fail. Behind its script it never fails. -/
structure ScriptedWriter where
  script : List (Option Nat) := []
  taken : List UInt8 := []

namespace ScriptedWriter

instance : ByteWriter ScriptedWriter where
  write w bs :=
    match w.script.head?.join with
    | some n => (⟨w.script.tail, w.taken ++ bs.take n⟩, .error "torn")
    | none => (⟨w.script.tail, w.taken ++ bs⟩, .ok ())
  flush w :=
    ({ w with script := w.script.tail },
      if w.script.head?.join.isSome then .error "torn" else .ok ())
  shutdown w := (w, .ok ())

instance : FaultyWriter ScriptedWriter where
  taken := taken
  write w bs := by
    simp only [ByteWriter.write]
    split
    next n _ => exact ⟨bs.take n, List.take_prefix n bs, rfl, nofun⟩
    next => exact ⟨bs, List.prefix_refl bs, rfl, fun _ => rfl⟩
  flush w := rfl

end ScriptedWriter

namespace LineSink

open LineSource (lineFeed linesOf Delivers)

/-- Nothing is taken of the first result, and the second cannot be flushed. Then the first is tried
again. -/
theorem result_delivered_after_failures :
    let r₁ : Result := { id := ⟨1⟩, kind := .courierAssigned, payload := .string "\"\n" }
    let r₂ : Result := { id := ⟨2⟩, kind := .courierUnassigned, payload := .null }
    let sink : LineSink ScriptedWriter :=
      { topic := "results", writer := { script := [some 0, none, none, some 0] } }
    let written := sink.writeResults [r₁, r₂, r₁]
    written.2 = [.error (.io "torn"), .error (.io "torn"), .ok ()] ∧
      ∃ later, Delivers written.1.writer.taken (r₂.encode .json :: r₁.encode .json :: later) := by
  intro r₁ r₂ sink written
  have hanswers : written.2 = [.error (.io "torn"), .error (.io "torn"), .ok ()] := by decide +kernel
  have htext : FaultyWriter.taken (sink.writeResults [r₁, r₂]).1.writer =
      r₂.encode .json ++ [lineFeed] := by decide +kernel
  have hbefore : linesOf false (r₂.encode .json ++ [lineFeed]) = [r₂.encode .json] := by decide +kernel
  have hok : (sink.writeResults ([r₁, r₂] ++ r₁ :: [])).2[2]? = some (.ok ()) :=
    congrArg (·[2]?) hanswers
  obtain ⟨⟨later, hlater⟩, hline, -⟩ := sink.result_delivered_iff [r₁, r₂] r₁ [] hok
  rw [htext] at hline hlater
  rw [hline.2 (.inr List.getLast?_concat), hbefore] at hlater
  exact ⟨hanswers, later, hlater⟩

/-- A result is torn after three bytes and tried again. The second try is a success, and nothing comes
back that is the result. -/
theorem torn_result_lost :
    let r : Result :=
      { id := .random 0, kind := .courierAssignmentFailed
        payload := .object [("orderID", .string "o1")] }
    let sink : LineSink ScriptedWriter := { topic := "results", writer := { script := [some 3] } }
    let written := sink.writeResults [r, r]
    written.2 = [.error (.io "torn"), .ok ()] ∧
      ∀ values, Delivers written.1.writer.taken values → r.encode .json ∉ values := by
  intro r sink written
  have hlines : linesOf true written.1.writer.taken =
      [(r.encode .json).take 3 ++ r.encode .json] := by decide +kernel
  refine ⟨by decide +kernel, fun values h => ?_⟩
  rw [← (LineSource.delivers_linesOf _).unique h, hlines, List.mem_singleton]
  decide +kernel

end LineSink

end CourierDispatch
