import CourierDispatch.Command
import CourierDispatch.Proofs.MsgPack.Scanner
import Mathlib.Data.List.Induction

/-!
# What follows a message

MsgPack is read byte by byte, and a verdict that has been reached stays. So whatever follows a message in
MsgPack changes neither what it says nor what is wrong with it. As long as the bytes stop short there is
no verdict yet, and then a single byte decides.
-/

namespace CourierDispatch

namespace MsgPack.Scanner

variable {σ : Type} [Consumer σ]

theorem scan_append (s : Scanner σ) (bs more : List UInt8) :
    s.scan (bs ++ more) = (s.scan bs).bind fun s => s.scan more :=
  List.foldlM_append

/-- Further bytes do not matter, unless the scanner is in need of them. -/
theorem feed_append {c : σ} {bs : List UInt8} (h : feed c bs ≠ .error .cutShort)
    (more : List UInt8) : feed c (bs ++ more) = feed c bs := by
  rw [feed] at h ⊢
  rw [feed, scan_append]
  cases hscan : (start c).scan bs with
  | error e => rfl
  | ok s =>
      rw [hscan] at h
      obtain ⟨spot, frames, c'⟩ := s
      cases spot with
      | rest =>
          change (scan ⟨.rest, frames, c'⟩ more).bind finish = _
          rw [scan_rest]
      | marker | field _ _ _ | body _ _ _ => exact absurd rfl h

end MsgPack.Scanner

namespace Envelope

theorem parse_append {bs : List UInt8} (h : parse .msgPack bs ≠ .error (.msgPack .cutShort))
    (more : List UInt8) : parse .msgPack (bs ++ more) = parse .msgPack bs := by
  have hfeed : MsgPack.feed ({} : Draft) bs ≠ .error .cutShort := by
    intro hcut
    rw [parse, WireFormat.feed, hcut] at h
    exact h rfl
  rw [parse, parse, WireFormat.feed, WireFormat.feed, MsgPack.Scanner.feed_append hfeed]

end Envelope

namespace Command

/-- The bytes are in MsgPack and stop before anything is decided about them. -/
def Undecided (bs : List UInt8) : Prop := decode .msgPack bs = .error (.wire (.msgPack .cutShort))

theorem decode_append {bs : List UInt8} (h : ¬ Undecided bs) (more : List UInt8) :
    decode .msgPack (bs ++ more) = decode .msgPack bs := by
  have hparse : Envelope.parse .msgPack bs ≠ .error (.msgPack .cutShort) := by
    intro hcut
    rw [Undecided, decode, Envelope.decode, hcut] at h
    exact h rfl
  rw [decode, decode, Envelope.decode, Envelope.decode, Envelope.parse_append hparse]

theorem undecided_nil : Undecided [] := rfl

theorem Undecided.of_append {bs more : List UInt8} (h : Undecided (bs ++ more)) : Undecided bs := by
  by_contra hbs
  rw [Undecided, decode_append hbs] at h
  exact hbs h

/-- The bytes that have been read when the verdict is reached: all but the last of them leave it open. -/
theorem exists_deciding {bs : List UInt8} (h : ¬ Undecided bs) :
    ∃ front b rest, bs = front ++ b :: rest ∧ Undecided front ∧ ¬ Undecided (front ++ [b]) := by
  induction bs using List.reverseRecOn with
  | nil => exact absurd undecided_nil h
  | append_singleton bs b ih =>
      by_cases hbs : Undecided bs
      · exact ⟨bs, b, [], rfl, hbs, h⟩
      · obtain ⟨front, b', rest, rfl, hfront, hdecided⟩ := ih hbs
        exact ⟨front, b', rest ++ [b], by simp, hfront, hdecided⟩

/-- What follows bytes that have been decided about does not change what they say, nor what is wrong with
them. Up to some byte nothing is decided, and with this byte everything is, whatever follows it. -/
theorem decode_decided {bs : List UInt8} (h : ¬ Undecided bs) :
    (∀ more, decode .msgPack (bs ++ more) = decode .msgPack bs) ∧
      ∃ front b rest, bs = front ++ b :: rest ∧ (∀ p, p <+: front → Undecided p) ∧
        ∀ more, decode .msgPack (front ++ b :: more) = decode .msgPack bs := by
  refine ⟨decode_append h, ?_⟩
  obtain ⟨front, b, rest, rfl, hfront, hdecided⟩ := exists_deciding h
  have hsame (more : List UInt8) :
      decode .msgPack (front ++ b :: more) = decode .msgPack (front ++ [b]) := by
    rw [List.append_cons front b more, decode_append hdecided]
  refine ⟨front, b, rest, rfl, ?_, fun more => (hsame more).trans (hsame rest).symm⟩
  rintro p ⟨q, rfl⟩
  exact hfront.of_append

/-- A command, an envelope with a blank id and one whose id is a number, which is noticed before the rest
of the envelope is there. What follows is a reserved byte, or a command. -/
theorem decode_decided_early :
    let command : List UInt8 := [0x92, 0xA1, 0x63, 0xA1, 0x6E]
    let blank : List UInt8 := [0x82, 0xA2, 0x69, 0x64, 0xA1, 0x20, 0xA4, 0x6E, 0x61, 0x6D, 0x65, 0xA1, 0x6E]
    let number : List UInt8 := [0x83, 0xA2, 0x69, 0x64, 0x07]
    (¬ Undecided command ∧ ¬ Undecided blank ∧ ¬ Undecided number) ∧
      decode .msgPack (command ++ [0xC1]) = .ok { id := "c", name := "n", payload := .null } ∧
      decode .msgPack (blank ++ command) = .error .missingId ∧
      decode .msgPack (number ++ command) =
        .error (.wire (.msgPack (.mismatch (.wrongType (.natural 7) .text)))) := by
  intro command blank number
  have hcommand : decode .msgPack command = .ok { id := "c", name := "n", payload := .null } := by
    with_unfolding_all rfl
  have hblank : decode .msgPack blank = .error .missingId := by with_unfolding_all rfl
  have hnumber : decode .msgPack number =
      .error (.wire (.msgPack (.mismatch (.wrongType (.natural 7) .text)))) := by with_unfolding_all rfl
  have hdecided : ¬ Undecided command ∧ ¬ Undecided blank ∧ ¬ Undecided number := by
    rw [Undecided, Undecided, Undecided, hcommand, hblank, hnumber]
    exact ⟨nofun, nofun, nofun⟩
  obtain ⟨hc, hb, hn⟩ := hdecided
  exact ⟨⟨hc, hb, hn⟩, ((decode_decided hc).1 _).trans hcommand,
    ((decode_decided hb).1 _).trans hblank, ((decode_decided hn).1 _).trans hnumber⟩

end Command

end CourierDispatch
