import Mavlink.Proofs.Link.Scanner
import Mavlink.Proofs.Wire.PartialFrames

/-!
# Refusing early

A parser that has the header of a candidate can already see that the payload is too long for its
message.  It refuses the candidate there and does not wait for bytes that it would throw away.
The decoder has a fixed order of its own and would have needed the whole candidate first, but it
would have come to the same: the length, the number of the message and the limit are in the header
and in the lookup, and before it judges the length the decoder asks for nothing that the bytes to
come could decide.

* `Frame.decode_eq_invalidPayloadLength_iff` --- when the decoder refuses a length;
* `Parser.step_refuses_iff` --- when the parser does;
* `Frame.truncated_means_more` --- what is said of too few bytes, and of all others.
-/

namespace Mavlink

/-! ## Lengths that are refused -/

theorem Header.decode_ne_invalidPayloadLength {b : Bytes} {id : MessageId} {size limit : Nat} :
    decode b ≠ .error (.invalidPayloadLength id size limit) := by
  intro refused
  unfold decode at refused
  split at refused
  · cases refused
  · split at refused
    · cases refused
    · cases refused
    · split at refused <;> cases refused
    · cases refused

namespace Frame

variable {l : Lookup} {b : Bytes} {h : Header} {id : MessageId} {size limit : Nat}

/-- Of a frame that is whole the length is refused just if a known message has a lower limit. -/
theorem decode_eq_invalidPayloadLength_iff (header : Header.decode b = .ok h)
    (whole : h.frameSize ≤ b.length) :
    decode b l = .error (.invalidPayloadLength id size limit) ↔
      l.excess? h = some limit ∧ id = h.messageId ∧ size = h.payloadLength.toNat := by
  rw [decode, header, Lookup.excess?]
  simp only [bind, Except.bind, if_neg (Nat.not_lt.2 whole)]
  cases l.fingerprint h.messageId with
  | none => simp
  | some fingerprint =>
    cases (l.maxLength h.messageId).filter (· < h.payloadLength.toNat) with
    | none =>
      simp only [Option.isSome_some, if_true, reduceCtorEq, false_and, iff_false]
      split <;> simp
    | some limit' =>
      simp only [Option.isSome_some, if_true, Except.error.injEq,
        DecodeError.invalidPayloadLength.injEq, Option.some.injEq]
      constructor <;> (rintro ⟨rfl, rfl, rfl⟩; exact ⟨rfl, rfl, rfl⟩)

end Frame

namespace Parser

variable {p : Parser}

/-- Candidates are refused with different errors in different ways. -/
theorem reject_injective {e e' : DecodeError} (same : p.reject e = p.reject e') : e = e' := by
  have events := congrArg (fun q => q.events.getLast?) same
  simpa [reject, emit] using events

/-- At the end of a header its length is refused just if a known message has a lower limit. -/
theorem step_refuses_iff {byte : UInt8} {goal : Nat} (stage : p.stage = .collect .header goal)
    (last : p.buffer.length + 1 = goal) {id : MessageId} {size limit : Nat} :
    p.step byte = (p.grow byte).reject (.invalidPayloadLength id size limit) ↔
      ∃ h, Header.decode (p.buffer ++ [byte]) = .ok h ∧ p.setup.lookup.excess? h = some limit ∧
        id = h.messageId ∧ size = h.payloadLength.toNat := by
  have ended : (p.grow byte).buffer.length = goal := by simp [grow, last]
  have step : p.step byte = (p.grow byte).advance .header goal := by
    simp only [Parser.step, stage, if_pos ended]
  have buffer : (p.grow byte).buffer = p.buffer ++ [byte] := rfl
  rw [step, advance, buffer]
  cases header : Header.decode (p.buffer ++ [byte]) with
  | error e =>
    constructor
    · intro same
      exact absurd (reject_injective same ▸ header) Header.decode_ne_invalidPayloadLength
    · rintro ⟨h, read, -⟩
      cases read
  | ok h =>
    have same_excess : (p.grow byte).exceeded h = p.setup.lookup.excess? h := rfl
    dsimp only
    rw [same_excess]
    cases excess : p.setup.lookup.excess? h with
    | none =>
      constructor
      · intro same
        have stages := congrArg Parser.stage same
        simp only [reject, emit] at stages
        split at stages <;> cases stages
      · rintro ⟨h', read, exceeds, -⟩
        cases read
        cases excess.symm.trans exceeds
    | some limit' =>
      constructor
      · intro same
        cases reject_injective same
        exact ⟨h, rfl, excess, rfl, rfl⟩
      · rintro ⟨h', read, exceeds, rfl, rfl⟩
        cases read
        cases excess.symm.trans exceeds
        rfl

/-- What a parser refuses for its length when the header ends is what the decoder refuses for it
when the candidate is whole, with whatever bytes. -/
theorem step_refuses_iff_decode {byte : UInt8} {goal : Nat}
    (stage : p.stage = .collect .header goal) (last : p.buffer.length + 1 = goal) {id : MessageId}
    {size limit : Nat} :
    p.step byte = (p.grow byte).reject (.invalidPayloadLength id size limit) ↔
      ∃ h, Header.decode (p.buffer ++ [byte]) = .ok h ∧
        ∀ r, h.frameSize ≤ (p.buffer ++ [byte] ++ r).length →
          Frame.decode (p.buffer ++ [byte] ++ r) p.setup.lookup
            = .error (.invalidPayloadLength id size limit) := by
  rw [step_refuses_iff stage last]
  refine exists_congr fun h => and_congr_right fun header => ?_
  have completed (r : Bytes) := Header.decode_append header r
  constructor
  · intro refused r whole
    exact (Frame.decode_eq_invalidPayloadLength_iff (completed r) whole).2 refused
  · intro refused
    have whole : h.frameSize
        ≤ (p.buffer ++ [byte] ++ List.replicate h.frameSize (0 : UInt8)).length := by
      rw [List.length_append, List.length_replicate]
      exact Nat.le_add_left ..
    exact (Frame.decode_eq_invalidPayloadLength_iff (completed _) whole).1 (refused _ whole)

end Parser

/-- **Too few bytes, and all others.**  If the decoder says that more bytes are needed it says how
many there are, and needs more than these but never more than the longest frame has.  Whatever
else it says, it says the same with any bytes behind.  So for every part of a frame that is cut off
before its end more bytes are needed.  And where a parser refuses a length with the last byte of
the header, and nowhere else at the end of a header, the decoder would have refused it with all
bytes of the candidate, whatever they are. -/
theorem Frame.truncated_means_more :
    (∀ (l : Lookup) (b : Bytes) (expected actual : Nat),
      decode b l = .error (.truncated expected actual) →
        actual = b.length ∧ b.length < expected ∧ expected ≤ 280) ∧
    (∀ (l : Lookup) (b : Bytes),
      (∀ expected actual, decode b l ≠ .error (.truncated expected actual)) →
        ∀ r, decode (b ++ r) l = decode b l) ∧
    (∀ (l : Lookup) (whole b : Bytes) (f : Frame), decode whole l = .ok f → b <+: whole →
      b.length < f.size → ∃ expected, decode b l = .error (.truncated expected b.length)) ∧
    ∀ (p : Parser) (byte : UInt8) (goal : Nat), p.stage = .collect .header goal →
      p.buffer.length + 1 = goal → ∀ (id : MessageId) (size limit : Nat),
        p.step byte = (p.grow byte).reject (.invalidPayloadLength id size limit) ↔
          ∃ h, Header.decode (p.buffer ++ [byte]) = .ok h ∧
            ∀ r, h.frameSize ≤ (p.buffer ++ [byte] ++ r).length →
              decode (p.buffer ++ [byte] ++ r) p.setup.lookup
                = .error (.invalidPayloadLength id size limit) := by
  refine ⟨fun l b expected actual cut => ?_, fun l b told => ?_,
    fun l whole b f decoded part short => truncated_of_prefix decoded part short,
    fun p byte goal stage last id size limit => Parser.step_refuses_iff_decode stage last⟩
  · rcases truncated_or_stands l b with ⟨needed, cut', short, small⟩ | ⟨told, -⟩
    · cases cut'.symm.trans cut
      exact ⟨rfl, short, small⟩
    · exact absurd cut (told expected actual)
  · rcases truncated_or_stands l b with ⟨needed, cut, -⟩ | ⟨-, stands⟩
    · exact absurd cut (told needed _)
    · exact stands

/-- A heartbeat without its last byte, a heartbeat where payloads of nine bytes are too long, and
a parser that refuses it with the last byte of its header. -/
theorem Frame.heartbeat_cut_and_refused :
    let heartbeat : Bytes :=
      [0xFD, 9, 0, 0, 1, 1, 1, 0, 0, 0, 0, 0, 0, 0, 6, 8, 0, 4, 3, 0x1A, 0x0E]
    let known : Lookup := ⟨fun _ => some 50, fun _ => some 9⟩
    let limited : Lookup := ⟨fun _ => some 50, fun _ => some 8⟩
    let p : Parser := { Parser.start { lookup := limited } with
      stage := .collect .header 10, buffer := heartbeat.take 9 }
    (∃ expected, decode (heartbeat.take 20) known = .error (.truncated expected 20) ∧
        20 < expected) ∧
      (∀ r, decode (heartbeat ++ r) limited = .error (.invalidPayloadLength 0 9 8)) ∧
      p.step 0 = (p.grow 0).reject (.invalidPayloadLength 0 9 8) ∧
      ∀ r, 21 ≤ (heartbeat.take 10 ++ r).length →
        decode (heartbeat.take 10 ++ r) limited = .error (.invalidPayloadLength 0 9 8) := by
  intro heartbeat known limited p
  obtain ⟨counts, stands, part, early⟩ := truncated_means_more
  let f : Frame := ⟨⟨.v2, 9, 0, 0, 1, 1, 1, 0⟩, ⟨0, .v2, [0, 0, 0, 0, 6, 8, 0, 4, 3]⟩, 0x0E1A, none⟩
  have decoded : decode heartbeat known = .ok f := Lookup.examine_eq_frame_iff.1 (by decide +kernel)
  obtain ⟨expected, cut⟩ := part known heartbeat (heartbeat.take 20) f decoded
    (List.take_prefix _ _) (by decide)
  have refused (r : Bytes) : decode (heartbeat ++ r) limited
      = .error (.invalidPayloadLength 0 9 8) := by
    refine (stands limited heartbeat (fun _ _ => ?_) r).trans rfl
    show Except.error _ ≠ Except.error _
    exact nofun
  have step : p.step 0 = (p.grow 0).reject (.invalidPayloadLength 0 9 8) := rfl
  obtain ⟨h, header, completed⟩ := (early p 0 10 rfl rfl 0 9 8).1 step
  cases (show .ok f.header = Except.ok h from header)
  have size : f.header.frameSize = 21 := by decide
  have begun : p.buffer ++ [0] = heartbeat.take 10 := rfl
  rw [size, begun] at completed
  exact ⟨⟨expected, cut, (counts _ _ _ _ cut).2.1⟩, refused, step, completed⟩

end Mavlink
