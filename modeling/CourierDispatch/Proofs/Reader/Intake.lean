import CourierDispatch.Proofs.Broker.MemoryTopic
import CourierDispatch.Proofs.Reader.Readership

/-!
# What a reader takes in

A reader that has been started once, over an open topic, moves the commands of the topic to its inbox.
Wherever it is interrupted, the commands that have been delivered are the first ones of those received,
and before its loop ends nothing is missing between them and the topic.
-/

namespace CourierDispatch

namespace MemoryTopic

def commands (format : WireFormat) (t : MemoryTopic) : List Command :=
  t.queue.filterMap (·.letter.command? format)

/-- What a consume loop hears from an open topic is missing there afterwards. -/
theorem commands_step {t : MemoryTopic} (h : t.closed = false) (format : WireFormat)
    (backoff : Backoff) (time : Nat) (l : ConsumeLoop) :
    (l.step format backoff time t).1.closed = false ∧
      (l.hears t).filterMap (ConsumeLoop.command? format) ++
        (l.step format backoff time t).1.commands format = t.commands format := by
  unfold ConsumeLoop.hears ConsumeLoop.step
  cases hstage : l.stage with
  | reading =>
      cases hqueue : t.queue with
      | nil =>
          have hpoll : MessageSource.poll t = (t, none) := poll_nil h hqueue
          rw [hpoll]
          exact ⟨h, rfl⟩
      | cons m rest =>
          have hpoll : MessageSource.poll t = ({ t with queue := rest }, some (.ok m)) :=
            poll_cons h hqueue
          rw [hpoll]
          refine ⟨h, ?_⟩
          simp only [commands, hqueue, ConsumeLoop.command?, Option.toList_some,
            List.filterMap_cons, List.filterMap_nil]
          cases m.letter.command? format <;> rfl
  | waiting due => exact ⟨h, rfl⟩
  | sending c => exact ⟨h, rfl⟩
  | exited => exact ⟨h, rfl⟩

end MemoryTopic

namespace Reader

/-- The only run of a reader accounts for the commands that have arrived. -/
structure Intake (format : WireFormat) (commands delivered : List Command)
    (r : Reader MemoryTopic) : Prop where
  source : r.source.closed = false
  wire : r.format = format
  channel : ∀ i, r.channels = some i → i = 0
  loop : ∃ l consumed, r.component.loops = [l] ∧ l.Accounted consumed delivered ∧
    consumed ++ r.source.commands format = commands

variable {format : WireFormat} {commands delivered : List Command} {r r' : Reader MemoryTopic}

theorem Intake.prefix (h : r.Intake format commands delivered) : delivered <+: commands := by
  obtain ⟨l, consumed, -, haccounted, rfl⟩ := h.loop
  exact haccounted.prefix.trans (List.prefix_append _ _)

theorem Intake.of_loops (h : r.Intake format commands delivered)
    (hloops : r'.component.loops = r.component.loops) (hsource : r'.source = r.source)
    (hformat : r'.format = r.format) (hchannels : r'.channels = none ∨ r'.channels = r.channels) :
    r'.Intake format commands delivered where
  source := hsource ▸ h.source
  wire := hformat.trans h.wire
  channel i hi := by
    rcases hchannels with hnone | hsame
    · rw [hnone] at hi
      cases hi
    · exact h.channel i (hsame ▸ hi)
  loop := by
    rw [hloops, hsource]
    exact h.loop

theorem Intake.claim (h : r.Intake format commands delivered) {i : Nat}
    (hr : r.claim = .ok (i, r')) : r'.Intake format commands delivered := by
  unfold Reader.claim at hr
  split at hr
  next i component hclaim =>
    cases hr
    exact h.of_loops (Component.loops_of_claim hclaim) rfl rfl (.inl rfl)
  next => cases hr

theorem Intake.cancel (h : r.Intake format commands delivered) :
    r.cancel.Intake format commands delivered :=
  h.of_loops (Component.loops_askAll _) rfl rfl (.inr rfl)

theorem Intake.exit (h : r.Intake format commands delivered) (hr : r.exit = some r') :
    r'.Intake format commands delivered := by
  obtain ⟨l, consumed, hloops, haccounted, hcommands⟩ := h.loop
  unfold Reader.exit at hr
  split at hr
  next l' hlatest =>
    have hl : l' = l := by
      have hlast := Component.latestLoop?_of_latest? hlatest
      rw [Component.latestLoop?_eq, hloops] at hlast
      exact (Option.some.inj hlast).symm
    split at hr
    next => cases hr
    next =>
      cases hr
      exact ⟨h.source, h.wire, h.channel, l'.exit, consumed, Component.loops_setLatest hloops _,
        (hl ▸ haccounted).exit, hcommands⟩
  next => cases hr

theorem Intake.ends (h : r.Intake format commands delivered) :
    (r.exit.getD r).Intake format commands delivered := by
  cases hexit : r.exit with
  | none => exact h
  | some r' => exact h.exit hexit

theorem Intake.stop (h : r.Intake format commands delivered) :
    r.stop.1.Intake format commands delivered := by
  unfold Reader.stop
  split
  next => exact h
  next i r' hclaim => exact (h.claim hclaim).ends.of_loops rfl rfl rfl (.inr rfl)

theorem Intake.step (h : r.Intake format commands delivered) (time : Nat) :
    (r.step time).1.Intake format commands delivered := by
  obtain ⟨l, consumed, hloops, haccounted, hcommands⟩ := h.loop
  obtain ⟨asked, hlatest⟩ : ∃ asked, r.component.latest? = some ⟨asked, l⟩ := by
    apply Component.exists_latest?
    rw [Component.latestLoop?_eq, hloops]
    rfl
  obtain ⟨hopen, hmoved⟩ := MemoryTopic.commands_step h.source r.format r.backoff time l
  rw [h.wire] at hmoved
  rw [Reader.step_of_latest? hlatest]
  refine ⟨hopen, h.wire, h.channel, _, _, Component.loops_setLatest hloops _,
    haccounted.step r.format r.backoff time r.source, ?_⟩
  rw [List.append_assoc, h.wire, hmoved, hcommands]

theorem Intake.take (h : r.Intake format commands delivered) (reportFirst : Bool) :
    (r.takeFrom 0 reportFirst).1.Intake format commands
      (delivered ++ ((r.takeFrom 0 reportFirst).2.bind Except.toOption).toList) := by
  obtain ⟨l, consumed, hloops, haccounted, hcommands⟩ := h.loop
  rw [Reader.takeFrom_of_loops (i := 0) (by rw [hloops]; rfl)]
  refine ⟨h.source, h.wire, h.channel, _, _, ?_, haccounted.take reportFirst, hcommands⟩
  rw [Component.loops_setLoop, hloops]
  rfl

theorem Intake.publish (h : r.Intake format commands delivered) (key : Option (List UInt8))
    (l : Letter) :
    Intake format (commands ++ [l].filterMap (·.command? format)) delivered
      { r with source := (r.source.publish key l.value l.headers).1 } := by
  obtain ⟨loop, consumed, hloops, haccounted, hcommands⟩ := h.loop
  rw [MemoryTopic.publish_of_open h.source]
  refine ⟨h.source, h.wire, h.channel, loop, consumed, hloops, haccounted, ?_⟩
  simp only [MemoryTopic.commands, List.filterMap_append] at hcommands ⊢
  rw [← hcommands, List.append_assoc]
  rfl

end Reader

end CourierDispatch
