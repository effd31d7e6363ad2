import CourierDispatch.Broker.LineSource
import Mathlib.Data.List.DropRight
import Mathlib.Data.List.TakeDrop

/-!
# Values in lines

`LineSource.linesOf` says without any source what values a text holds: it is cut at each line feed, and of
every piece that is not blank the part in front of its line breaks counts. A source of lines delivers just
these values, however the bytes arrive and whenever the source is asked for them: `Awaits` says which of
them are still to come.

A value can be a line of its own if there is no line feed in it, no carriage return at its end, and
something to be seen of it. Such values come back from their lines as they are, and no others do.
-/

namespace CourierDispatch

/-- Values, each with a line feed behind it. -/
def asLines (values : List (List UInt8)) : List UInt8 :=
  values.flatMap fun v => v ++ [LineSource.lineFeed]

theorem asLines_cons (v : List UInt8) (vs : List (List UInt8)) :
    asLines (v :: vs) = v ++ LineSource.lineFeed :: asLines vs := by
  simp [asLines]

theorem asLines_append (vs vs' : List (List UInt8)) :
    asLines (vs ++ vs') = asLines vs ++ asLines vs' :=
  List.flatMap_append

namespace LineSource

/-- A value that a line can hold as it is. -/
structure OneLine (v : List UInt8) : Prop where
  lineFeed : lineFeed ∉ v
  carriageReturn : v.getLast? ≠ some carriageReturn
  visible : v.all isSpace = false

theorem value?_reverse {v : List UInt8} (h : OneLine v) : value? v.reverse = some v := by
  have hkept : v.reverse.dropWhile (fun b => b = lineFeed || b = carriageReturn) = v.reverse := by
    cases hv : v.reverse with
    | nil => rfl
    | cons b bs =>
        have hrev : v = bs.reverse ++ [b] := by rw [← List.reverse_cons, ← hv, List.reverse_reverse]
        have hfeed : b ≠ lineFeed := by
          rintro rfl
          exact h.lineFeed (hrev ▸ List.mem_append_right _ (List.mem_singleton_self _))
        have hreturn : b ≠ carriageReturn := by
          rintro rfl
          exact h.carriageReturn (by rw [hrev, List.getLast?_concat])
        rw [List.dropWhile_cons_of_neg (by simp [hfeed, hreturn])]
  simp only [value?, hkept, List.reverse_reverse, h.visible]
  rfl

theorem oneLine_of_value? {line v : List UInt8} (hline : lineFeed ∉ line)
    (h : value? line = some v) : OneLine v := by
  simp only [value?] at h
  split at h
  next => cases h
  next hvisible =>
    cases h
    refine ⟨?_, ?_, Bool.eq_false_iff.2 hvisible⟩
    · intro hmem
      exact hline ((List.dropWhile_sublist _).mem (List.mem_reverse.1 hmem))
    · intro hlast
      rw [List.getLast?_reverse] at hlast
      have hkept := List.head?_dropWhile_not (fun b => b = lineFeed || b = carriageReturn) line
      rw [hlast] at hkept
      exact absurd hkept (by decide)

/-! What values a text holds. -/

/-- What counts of pieces of a text: those that are not blank, without the line breaks at their ends. -/
def visible (pieces : List (List UInt8)) : List (List UInt8) :=
  (pieces.filter fun piece => !piece.all isSpace).map
    (List.rdropWhile fun b => b = lineFeed || b = carriageReturn)

/-- The values in the lines of a text. What stands behind its last line feed is a line only if the text is
over. -/
def linesOf (ended : Bool) (bytes : List UInt8) : List (List UInt8) :=
  let pieces := bytes.splitOn lineFeed
  visible (if ended then pieces else pieces.dropLast)

theorem all_isSpace_rdropWhile (piece : List UInt8) :
    (piece.rdropWhile fun b => b = lineFeed || b = carriageReturn).all isSpace = piece.all isSpace := by
  have hbreaks : (piece.reverse.takeWhile fun b => b = lineFeed || b = carriageReturn).all isSpace := by
    refine List.all_eq_true.2 fun b hb => ?_
    have hbreak := List.mem_takeWhile_imp hb
    rcases Bool.or_eq_true_iff.1 hbreak with h | h <;> rw [of_decide_eq_true h] <;> decide
  have hboth := List.takeWhile_append_dropWhile (l := piece.reverse)
    (p := fun b => b = lineFeed || b = carriageReturn)
  rw [List.rdropWhile, List.all_reverse, ← List.all_reverse (l := piece),
    ← congrArg (List.all · isSpace) hboth, List.all_append, hbreaks, Bool.true_and]

theorem visible_cons (piece : List UInt8) (pieces : List (List UInt8)) :
    visible (piece :: pieces) = (value? piece.reverse).toList ++ visible pieces := by
  have hvalue : value? piece.reverse =
      if piece.all isSpace then none
      else some (piece.rdropWhile fun b => b = lineFeed || b = carriageReturn) := by
    rw [← all_isSpace_rdropWhile]
    rfl
  rw [hvalue, visible, visible]
  cases hall : piece.all isSpace <;> simp [hall]

theorem linesOf_append_cons {line : List UInt8} (hline : lineFeed ∉ line) (ended : Bool)
    (bytes : List UInt8) :
    linesOf ended (line ++ lineFeed :: bytes) = (value? line.reverse).toList ++ linesOf ended bytes := by
  rw [linesOf, linesOf, List.splitOn_append_cons_self_of_not_mem hline, ← visible_cons]
  cases ended with
  | false =>
      have hpieces : bytes.splitOn lineFeed ≠ [] := List.splitOn_ne_nil _ _
      simp only [Bool.false_eq_true, if_false, List.dropLast_cons_of_ne_nil hpieces]
  | true => rfl

theorem linesOf_of_notMem {line : List UInt8} (hline : lineFeed ∉ line) (ended : Bool) :
    linesOf ended line = if ended then (value? line.reverse).toList else [] := by
  rw [linesOf, List.splitOn_eq_singleton hline]
  cases ended with
  | false => rfl
  | true => simpa [visible] using visible_cons line []

theorem linesOf_asLines {values : List (List UInt8)} (hvalues : ∀ v ∈ values, OneLine v) :
    linesOf true (asLines values) = values := by
  induction values with
  | nil => exact linesOf_of_notMem List.not_mem_nil true
  | cons v vs ih =>
      obtain ⟨hv, hvs⟩ := List.forall_mem_cons.1 hvalues
      rw [asLines_cons, linesOf_append_cons hv.lineFeed, value?_reverse hv, ih hvs]
      rfl

/-! What a source makes of a text. -/

/-- A text as it arrives. -/
def flow (ended : Bool) (bytes : List UInt8) : List Arrival :=
  bytes.map .byte ++ if ended then [.finish] else []

def stream (bytes : List UInt8) : List Arrival := bytes.map .byte ++ [.finish]

theorem exists_flow_of_append {us : List UInt8} {ended : Bool} {bytes : List UInt8} {xs : List Arrival}
    (h : us.map .byte ++ xs = flow ended bytes) : ∃ rest, bytes = us ++ rest ∧ xs = flow ended rest := by
  induction us generalizing bytes with
  | nil => exact ⟨bytes, rfl, h⟩
  | cons u us ih =>
      cases bytes with
      | nil => cases ended <;> cases h
      | cons b bytes =>
          obtain ⟨hu, htail⟩ := List.cons.inj h
          obtain ⟨rest, rfl, hxs⟩ := ih htail
          exact ⟨rest, by rw [Arrival.byte.inj hu, List.cons_append], hxs⟩

/-- The source has still to deliver values, when more has arrived. -/
structure Awaits (values : List (List UInt8)) (more : List Arrival) (s : LineSource) : Prop where
  closed : s.closed = false
  line : lineFeed ∉ s.line
  text : s.exhausted = false ∧
      (∃ ended bytes, s.line.reverse.map .byte ++ (s.arrivals ++ more) = flow ended bytes ∧
        values = linesOf ended bytes) ∨
    s.exhausted = true ∧ values = [] ∧ more = []

variable {s : LineSource} {values : List (List UInt8)} {more : List Arrival}

theorem awaits_opening (topic : String) (ended : Bool) (bytes : List UInt8) :
    Awaits (linesOf ended bytes) (flow ended bytes) { topic } where
  closed := rfl
  line := List.not_mem_nil
  text := .inl ⟨rfl, ended, bytes, rfl, rfl⟩

theorem Awaits.feed {arriving : List Arrival} (h : s.Awaits values (arriving ++ more)) :
    (s.feed arriving).Awaits values more where
  closed := h.closed
  line := h.line
  text := by
    rcases h.text with ⟨hexhausted, ended, bytes, htext, hvalues⟩ | ⟨hexhausted, hvalues, hmore⟩
    · refine .inl ⟨hexhausted, ended, bytes, ?_, hvalues⟩
      rw [← htext, LineSource.feed, List.append_assoc]
    · exact .inr ⟨hexhausted, hvalues, (List.append_eq_nil_iff.1 hmore).2⟩

/-- What the answer to a poll is, and what the source awaits then. -/
inductive Polled (values : List (List UInt8)) (more : List Arrival) (s : LineSource) :
    LineSource × Option (Except BrokerError Message) → Prop
  /-- There is no whole line yet, or no line any more. -/
  | pending {s' : LineSource} (hs' : s'.Awaits values more) (htopic : s'.topic = s.topic)
      (hdelivered : s'.delivered = s.delivered) (hmore : more = [] → values = []) :
      Polled values more s (s', none)
  | message {s' : LineSource} {v : List UInt8} {rest : List (List UInt8)}
      (hvalues : values = v :: rest) (hs' : s'.Awaits rest more) (htopic : s'.topic = s.topic)
      (hdelivered : s'.delivered = s.delivered + 1) :
      Polled values more s (s', some (.ok (s.message v)))

/-- A source that looks at what has arrived finds the next value or comes to the end of what there is. The
line so far is what has been looked at behind the last line feed. -/
theorem polled_pull (hclosed : s.closed = false) (hexhausted : s.exhausted = false)
    {line : List UInt8} (hline : lineFeed ∉ line) {arrivals : List Arrival} {ended : Bool}
    {bytes : List UInt8} (htext : line.reverse.map .byte ++ (arrivals ++ more) = flow ended bytes) :
    Polled (linesOf ended bytes) more s (s.pull line arrivals) := by
  have hreverse {line : List UInt8} (h : lineFeed ∉ line) : lineFeed ∉ line.reverse :=
    fun hmem => h (List.mem_reverse.1 hmem)
  induction arrivals generalizing line bytes with
  | nil =>
      refine .pending ⟨hclosed, hline, .inl ⟨hexhausted, ended, bytes, htext, rfl⟩⟩ rfl rfl ?_
      rintro rfl
      -- a text that is not over has no value in its last line
      obtain ⟨rest, rfl, hrest⟩ := exists_flow_of_append htext
      obtain ⟨rfl, rfl⟩ : rest = [] ∧ ended = false := by
        cases rest <;> cases ended <;> first | exact ⟨rfl, rfl⟩ | cases hrest
      rw [List.append_nil, linesOf_of_notMem (hreverse hline)]
      rfl
  | cons a arrivals ih =>
      obtain ⟨rest, rfl, hrest⟩ := exists_flow_of_append htext
      cases a with
      | byte b =>
          have hfirst : [b].map Arrival.byte ++ (arrivals ++ more) = flow ended rest := hrest
          obtain ⟨rest, rfl, hmore⟩ := exists_flow_of_append hfirst
          by_cases hb : b = lineFeed
          · subst hb
            rw [List.singleton_append, linesOf_append_cons (hreverse hline), List.reverse_reverse, pull,
              if_pos rfl]
            cases value? line with
            | none => exact ih List.not_mem_nil hmore
            | some v =>
                exact .message rfl
                  ⟨hclosed, List.not_mem_nil, .inl ⟨hexhausted, ended, rest, hmore, rfl⟩⟩ rfl rfl
          · have hlonger : lineFeed ∉ b :: line := by
              intro hmem
              rcases List.mem_cons.1 hmem with h | h
              · exact hb h.symm
              · exact hline h
            rw [pull, if_neg hb]
            refine ih hlonger ?_
            rw [← htext, List.reverse_cons, List.map_append, List.append_assoc]
            rfl
      | failure text => cases rest <;> cases ended <;> cases hrest
      | finish =>
          obtain ⟨rfl, rfl⟩ : rest = [] ∧ ended = true := by
            cases rest <;> cases ended <;> first | exact ⟨rfl, rfl⟩ | cases hrest
          obtain ⟨rfl, rfl⟩ := List.append_eq_nil_iff.1 (List.cons.inj hrest).2
          rw [List.append_nil, linesOf_of_notMem (hreverse hline), List.reverse_reverse, pull]
          cases value? line with
          | none =>
              exact .pending ⟨hclosed, List.not_mem_nil, .inr ⟨rfl, rfl, rfl⟩⟩ rfl rfl fun _ => rfl
          | some v =>
              exact .message rfl
                ⟨hclosed, List.not_mem_nil, .inl ⟨hexhausted, true, [], rfl, rfl⟩⟩ rfl rfl

theorem Awaits.polled (h : s.Awaits values more) : Polled values more s s.poll := by
  unfold poll
  rw [h.closed]
  rcases h.text with ⟨hexhausted, ended, bytes, htext, rfl⟩ | ⟨hexhausted, rfl, rfl⟩
  · rw [hexhausted]
    exact polled_pull h.closed hexhausted h.line htext
  · rw [hexhausted]
    exact .pending h rfl rfl fun _ => rfl

/-! Runs of a source. -/

inductive Event
  | feed (arriving : List Arrival)
  | poll

def step (s : LineSource) : Event → LineSource × List (Except BrokerError Message)
  | .feed arriving => (s.feed arriving, [])
  | .poll => (s.poll.1, s.poll.2.toList)

def run (s : LineSource) : List Event → LineSource × List (Except BrokerError Message)
  | [] => (s, [])
  | e :: events => (((s.step e).1.run events).1, (s.step e).2 ++ ((s.step e).1.run events).2)

def fed (events : List Event) : List Arrival :=
  events.flatMap fun
    | .feed arriving => arriving
    | .poll => []

def messages (topic : String) (first : Nat) (values : List (List UInt8)) : List Message :=
  (values.zipIdx first).map fun (value, offset) =>
    { topic, partition := 0, offset, key := none, value, headers := [] }

theorem messages_cons (topic : String) (first : Nat) (v : List UInt8) (vs : List (List UInt8)) :
    messages topic first (v :: vs) =
      { topic, partition := 0, offset := first, key := none, value := v, headers := [] } ::
        messages topic (first + 1) vs := rfl

theorem map_value_messages (topic : String) (first : Nat) (vs : List (List UInt8)) :
    (messages topic first vs).map Message.value = vs := by
  induction vs generalizing first with
  | nil => rfl
  | cons v vs ih => rw [messages_cons, List.map_cons, ih]

theorem run_append (s : LineSource) (es es' : List Event) :
    s.run (es ++ es') = (((s.run es).1.run es').1, (s.run es).2 ++ ((s.run es).1.run es').2) := by
  induction es generalizing s with
  | nil => rfl
  | cons e es ih => simp only [List.cons_append, run, ih, List.append_assoc]

/-- A source delivers the first of the values that it awaits, and awaits the others. -/
theorem Awaits.run {events : List Event} (h : s.Awaits values (fed events ++ more)) :
    ∃ before after, values = before ++ after ∧
      (s.run events).2 = (messages s.topic s.delivered before).map .ok ∧
      (s.run events).1.Awaits after more ∧ (s.run events).1.topic = s.topic ∧
      (s.run events).1.delivered = s.delivered + before.length := by
  induction events generalizing s values with
  | nil => exact ⟨[], values, rfl, rfl, h, rfl, rfl⟩
  | cons e events ih =>
      cases e with
      | feed arriving =>
          have hfed : fed (.feed arriving :: events) ++ more = arriving ++ (fed events ++ more) := by
            simp [fed]
          rw [hfed] at h
          exact ih h.feed
      | poll =>
          have hpolled := h.polled
          simp only [LineSource.run, step]
          generalize s.poll = answered at hpolled
          cases hpolled with
          | pending hs' htopic hdelivered _ =>
              obtain ⟨before, after, hboth, hrun, hafter, htopic', hcount⟩ := ih hs'
              rw [htopic, hdelivered] at hrun
              exact ⟨before, after, hboth, hrun, hafter, htopic'.trans htopic, hdelivered ▸ hcount⟩
          | @message s' v rest hcons hs' htopic hdelivered =>
              obtain ⟨before, after, rfl, hrun, hafter, htopic', hcount⟩ := ih hs'
              rw [htopic, hdelivered] at hrun
              refine ⟨v :: before, after, hcons, ?_, hafter, htopic'.trans htopic, ?_⟩
              · rw [hrun, messages_cons]
                rfl
              · rw [hcount, hdelivered, List.length_cons]
                omega

theorem Awaits.run_polls (h : s.Awaits values []) {n : Nat} (hn : values.length ≤ n) :
    (s.run (List.replicate n .poll)).2 = (messages s.topic s.delivered values).map .ok ∧
      (s.run (List.replicate n .poll)).1.Awaits [] [] := by
  induction n generalizing s values with
  | zero =>
      rw [List.length_eq_zero_iff.1 (Nat.le_zero.1 hn)] at h ⊢
      exact ⟨rfl, h⟩
  | succ n ih =>
      have hpolled := h.polled
      simp only [List.replicate_succ, LineSource.run, step]
      generalize s.poll = answered at hpolled
      cases hpolled with
      | pending hs' htopic hdelivered hmore =>
          -- nothing more is to come, so no value has been left either
          rw [hmore rfl] at hs' ⊢
          exact ih hs' (Nat.zero_le n)
      | @message s' v rest hcons hs' htopic hdelivered =>
          subst hcons
          obtain ⟨hrest, hleft⟩ := ih hs' (Nat.le_of_succ_le_succ hn)
          rw [hrest, htopic, hdelivered, messages_cons]
          exact ⟨rfl, hleft⟩

theorem Awaits.poll_eq_none (h : s.Awaits [] []) : s.poll.2 = none := by
  have hpolled := h.polled
  generalize s.poll = answered at hpolled ⊢
  cases hpolled with
  | pending => rfl
  | message hvalues => cases hvalues

/-- What a source delivers at any moment, and what it has delivered once all that it awaits has arrived and
it has been asked often enough. -/
theorem Awaits.delivers {events : List Event} (h : s.Awaits values (fed events)) :
    (s.run events).2 <+: (messages s.topic s.delivered values).map .ok ∧
      ∀ n, values.length ≤ n →
        (s.run (events ++ List.replicate n .poll)).2 =
            (messages s.topic s.delivered values).map .ok ∧
          (s.run (events ++ List.replicate n .poll)).1.poll.2 = none := by
  rw [← List.append_nil (fed events)] at h
  obtain ⟨before, after, rfl, hrun, hafter, htopic, hdelivered⟩ := h.run
  have hmessages : messages s.topic s.delivered (before ++ after) =
      messages s.topic s.delivered before ++
        messages s.topic (s.delivered + before.length) after := by
    simp [messages, List.zipIdx_append]
  constructor
  · rw [hrun, hmessages, List.map_append]
    exact List.prefix_append _ _
  · intro n hn
    obtain ⟨hpolls, hleft⟩ := hafter.run_polls (n := n) (Nat.le_trans (by simp) hn)
    rw [run_append]
    refine ⟨?_, hleft.poll_eq_none⟩
    rw [hrun, hpolls, htopic, hdelivered, hmessages, List.map_append]

/-- A source delivers the values in the lines of a text and nothing else, numbered from zero, in whichever
parts the text arrives and however often the source is asked in vain. Until the text is over, its last line
waits for its end. -/
theorem lines_delivered (topic : String) (ended : Bool) (bytes : List UInt8) (events : List Event)
    (hfed : fed events = flow ended bytes) :
    let answers := (messages topic 0 (linesOf ended bytes)).map .ok
    (run { topic } events).2 <+: answers ∧
      ∀ n, (linesOf ended bytes).length ≤ n →
        (run { topic } (events ++ List.replicate n .poll)).2 = answers ∧
          (run { topic } (events ++ List.replicate n .poll)).1.poll.2 = none := by
  have hawaits := awaits_opening topic ended bytes
  rw [← hfed] at hawaits
  exact hawaits.delivers

/-- The source is asked in vain inside a line, between its two line breaks and in front of the end, and
there are a blank line and a line without an end. -/
theorem lines_delivered_cut :
    let bytes : List UInt8 := [97, 98, 13, 10, 32, 9, 13, 10, 99, 13]
    let events : List Event :=
      [.feed [.byte 97], .poll, .feed [.byte 98, .byte 13], .poll,
        .feed [.byte 10, .byte 32, .byte 9], .poll, .poll,
        .feed [.byte 13, .byte 10, .byte 99, .byte 13], .poll, .feed [.finish]]
    fed events = flow true bytes ∧ linesOf true bytes = [[97, 98], [99]] ∧
      (run { topic := "t" } (events ++ List.replicate 2 .poll)).2 =
        (messages "t" 0 [[97, 98], [99]]).map .ok := by
  intro bytes events
  have hlines : linesOf true bytes = [[97, 98], [99]] := by decide
  have hrun := ((lines_delivered "t" true bytes events rfl).2 2 (by rw [hlines]; decide)).1
  rw [hlines] at hrun
  exact ⟨rfl, hlines, hrun⟩

/-- A source over these bytes delivers these values: the first of them at every moment, and all of them
and nothing else once the bytes have arrived and it has been asked often enough. -/
def Delivers (bytes : List UInt8) (values : List (List UInt8)) : Prop :=
  ∀ topic events, fed events = stream bytes →
    (run { topic } events).2 <+: (messages topic 0 values).map .ok ∧
      ∀ n, values.length ≤ n →
        (run { topic } (events ++ List.replicate n .poll)).2 = (messages topic 0 values).map .ok

theorem delivers_linesOf (bytes : List UInt8) : Delivers bytes (linesOf true bytes) := by
  intro topic events hfed
  have hawaits := awaits_opening topic true bytes
  have hflow : flow true bytes = fed events := hfed.symm
  rw [hflow] at hawaits
  obtain ⟨hfirst, hall⟩ := hawaits.delivers
  exact ⟨hfirst, fun n hn => (hall n hn).1⟩

theorem delivers_of_oneLine (hvalues : ∀ v ∈ values, OneLine v) :
    Delivers (asLines values) values := by
  have hdelivers := delivers_linesOf (asLines values)
  rwa [linesOf_asLines hvalues] at hdelivers

theorem Delivers.unique {bytes : List UInt8} {values' : List (List UInt8)}
    (h : Delivers bytes values) (hother : Delivers bytes values') : values = values' := by
  have hfed : fed [.feed (stream bytes)] = stream bytes := by simp [fed]
  have hrun := (h "" _ hfed).2 _ (Nat.le_max_left values.length values'.length)
  rw [(hother "" _ hfed).2 _ (Nat.le_max_right values.length values'.length)] at hrun
  have hmessages := List.map_injective_iff.2 (fun _ _ => Except.ok.inj) hrun
  rw [← map_value_messages "" 0 values, ← hmessages, map_value_messages]

/-! A source delivers nothing but lines. -/

theorem oneLine_of_pull {line : List UInt8} (hline : lineFeed ∉ line) (s : LineSource)
    (arrivals : List Arrival) :
    lineFeed ∉ (s.pull line arrivals).1.line ∧
      ∀ m, (s.pull line arrivals).2 = some (.ok m) → OneLine m.value := by
  induction arrivals generalizing line with
  | nil => exact ⟨hline, nofun⟩
  | cons a rest ih =>
      cases a with
      | byte b =>
          rw [pull]
          split
          next =>
            split
            next v hv =>
              refine ⟨List.not_mem_nil, fun m hm => ?_⟩
              cases hm
              exact oneLine_of_value? hline hv
            next => exact ih List.not_mem_nil
          next hb =>
            refine ih fun h => ?_
            rcases List.mem_cons.1 h with h | h
            · exact hb h.symm
            · exact hline h
      | failure text => exact ⟨hline, nofun⟩
      | finish =>
          rw [pull]
          split
          next v hv =>
            refine ⟨List.not_mem_nil, fun m hm => ?_⟩
            cases hm
            exact oneLine_of_value? hline hv
          next => exact ⟨List.not_mem_nil, nofun⟩

theorem oneLine_of_poll (hline : lineFeed ∉ s.line) :
    lineFeed ∉ s.poll.1.line ∧ ∀ m, s.poll.2 = some (.ok m) → OneLine m.value := by
  unfold poll
  split
  · exact ⟨hline, nofun⟩
  split
  · exact ⟨hline, nofun⟩
  · exact oneLine_of_pull hline s s.arrivals

theorem oneLine_of_mem_run (hline : lineFeed ∉ s.line) {events : List Event} {m : Message}
    (hm : .ok m ∈ (s.run events).2) : OneLine m.value := by
  induction events generalizing s with
  | nil => cases hm
  | cons e events ih =>
      cases e with
      | feed arriving => exact ih (s := s.feed arriving) hline hm
      | poll =>
          obtain ⟨hline', hmessage⟩ := oneLine_of_poll hline
          rcases List.mem_append.1 hm with hm | hm
          · exact hmessage m (Option.mem_toList.1 hm)
          · exact ih hline' hm

/-- The values that come back from their lines are those that are one line each. -/
theorem delivers_asLines_iff :
    Delivers (asLines values) values ↔ ∀ v ∈ values, OneLine v := by
  refine ⟨fun h v hv => ?_, delivers_of_oneLine⟩
  have hfed : fed [.feed (stream (asLines values))] = stream (asLines values) := by simp [fed]
  have hrun := (h "" _ hfed).2 values.length (Nat.le_refl _)
  rw [← map_value_messages "" 0 values] at hv
  obtain ⟨m, hm, rfl⟩ := List.mem_map.1 hv
  have hanswer : Except.ok m ∈ (messages "" 0 values).map (Except.ok (ε := BrokerError)) :=
    List.mem_map_of_mem hm
  rw [← hrun] at hanswer
  exact oneLine_of_mem_run List.not_mem_nil hanswer

end LineSource

end CourierDispatch
