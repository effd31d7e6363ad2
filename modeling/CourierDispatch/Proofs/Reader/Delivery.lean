import CourierDispatch.Proofs.Reader.Readership
import Mathlib.Data.List.Flatten

/-!
# What a reader delivers

However a reader is started, stopped and read from, the commands that are delivered come in the order of
the script and none of them twice. A run loses two commands at most, and only by its end.
-/

namespace CourierDispatch.Readership

/-- What a reader does with the commands of a script. -/
structure Faithful (script : List (Except BrokerError Message)) (format : WireFormat)
    (w : Readership) : Prop where
  /-- The script is consumed from its beginning on. -/
  consumed : w.consumed.map Prod.snd <+: script
  /-- Commands are delivered in the order of the script, each one once. -/
  delivered : (w.delivered.map Prod.snd).Sublist
    (script.filterMap (ConsumeLoop.command? format))
  /-- What is delivered from a run are the first commands that it has consumed. -/
  deliveredBy : ∀ i, w.deliveredBy i <+: w.commandsOf format i
  /-- At most two commands that a run has consumed are not delivered, whatever becomes of it. -/
  lost : ∀ i, (w.commandsOf format i).length ≤ (w.deliveredBy i).length + 2
  /-- Until a run ends, they are the one in the inbox and the one that waits for room there. -/
  underway : ∀ i l, w.loops[i]? = some l → l.hasExited = false →
    w.commandsOf format i =
      w.deliveredBy i ++ (l.inbox.command.toList ++ l.blocked.toList)
  /-- All runs but the latest one have ended. -/
  latest : ∀ i l, w.loops[i]? = some l → l.hasExited = false → i + 1 = w.loops.length

variable {script : List (Except BrokerError Message)} {format : WireFormat} {w : Readership}

/-- What a run has consumed and what has been delivered from it fit together, even if it does not exist
yet. -/
theorem Sound.exists_accounted (h : w.Sound script format) (i : Nat) :
    ∃ l : ConsumeLoop, l.Accounted (w.commandsOf format i) (w.deliveredBy i) := by
  cases hl : w.loops[i]? with
  | some l => exact ⟨l, h.accounts i l hl⟩
  | none =>
      have hi : w.loops.length ≤ i := List.getElem?_eq_none_iff.1 hl
      rw [h.commandsOf_eq_nil hi, h.deliveredBy_eq_nil hi]
      exact ⟨_, ConsumeLoop.accounted_begin 0⟩

theorem Sound.delivered_sublist (h : w.Sound script format) :
    (w.delivered.map Prod.snd).Sublist
      ((w.consumed.map Prod.snd).filterMap (ConsumeLoop.command? format)) := by
  rw [h.delivered.map_snd, h.consumed.map_snd, List.filterMap_flatMap]
  refine List.Sublist.flatMap_right _ fun i _ => ?_
  obtain ⟨l, hl⟩ := h.exists_accounted i
  exact hl.prefix.sublist

theorem Sound.eq_latest (h : w.Sound script format) {i : Nat} {l : ConsumeLoop}
    (hl : w.loops[i]? = some l) (hexited : l.hasExited = false) : i + 1 = w.loops.length := by
  have hlt : i < w.loops.length := (List.getElem?_eq_some_iff.1 hl).1
  have hruns : w.loops.length = w.joined.length + if w.callers.phase = .stopped then 0 else 1 := by
    rw [loops, Component.length_loops]
    exact h.tidy.custody.runs_eq
  by_contra hne
  have hjoined : i ∈ w.joined := by
    rw [show w.joined = List.range w.joined.length from h.tidy.joined, List.mem_range]
    split at hruns <;> omega
  have hended := h.tidy.ended i hjoined
  change ((w.loops[i]?).bind Loop.ending?).isSome at hended
  rw [hl, Option.bind_some, ConsumeLoop.isSome_ending?, hexited] at hended
  cases hended

theorem Sound.faithful (h : w.Sound script format) : w.Faithful script format := by
  have hconsumed : w.consumed.map Prod.snd <+: script := ⟨_, h.script⟩
  refine ⟨hconsumed, ?_, fun i => ?_, fun i => ?_, fun i l hl => ?_, fun i l => h.eq_latest⟩
  · exact h.delivered_sublist.trans (hconsumed.sublist.filterMap _)
  · obtain ⟨l, hl⟩ := h.exists_accounted i
    exact hl.prefix
  · obtain ⟨l, hl⟩ := h.exists_accounted i
    exact hl.length_le
  · exact (h.accounts i l hl).eq_of_hasExited

/-- A reader that has just been made is faithful to its script, whatever is done with it. -/
theorem run_faithful (script : List (Except BrokerError Message)) (format : WireFormat)
    (backoff : Backoff) (events : List Event) :
    Faithful script format ((opening script format backoff).run events) :=
  ((sound_opening script format backoff).run events).faithful

/-- A run may lose two commands: one in its inbox and one that waits for room there. -/
example :
    let message (id : UInt8) : Message := ⟨"orders", 0, 0, none, [0x92, 0xA1, id, 0xA1, 0x78], []⟩
    let script := [.ok (message 0x61), .ok (message 0x62)]
    let w := (opening script .msgPack ⟨1, 1, ⟨0⟩⟩).run
      [.start 0 false, .move 0, .move 0, .move 0, .stop, .exit, .join 0]
    w.joined = [0] ∧ (w.deliveredBy 0).length = 0 ∧ (w.commandsOf .msgPack 0).length = 2 := by
  decide +kernel

end CourierDispatch.Readership
