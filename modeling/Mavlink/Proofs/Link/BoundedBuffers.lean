import Mathlib.Logic.Function.Iterate
import Mavlink.Proofs.Link.ParserLife
import Mavlink.Proofs.Link.Resynchronization

/-!
# What a parser holds

A parser has two buffers: the bytes of its candidate, and the bytes that wait to be read again.
A rejection moves bytes from the first to the second, also in the middle of reading again, so
neither of them only grows or only shrinks.  Both together never grow in a turn of the loop that
reads again: a turn moves one byte or gives bytes up.  A rejection gives up a byte, which pays for
the turns over all those that it puts back.

Between two bytes nothing waits, and the candidate is short of a place that no frame exceeds.
The place is computed from bytes that anyone can have sent, but it is computed from a header, and
the length in a header is a byte.

* `Awaits.short` --- the candidate between two bytes;
* `Parser.buffered_again_le`, `Parser.work_again_lt` --- a turn of the loop;
* `Parser.exists_iterate_again` --- the loop ends, after at most so many turns;
* `Run.buffers_bounded` --- what holds throughout the life of a parser.
-/

namespace Mavlink

/-- The bytes of the longest frame: a signed one of the second version with a full payload. -/
def Frame.maxSize : Nat :=
  Version.v2.headerSize + Payload.maxSize + Header.checksumSize + Header.signatureSize

/-- A candidate with a header is short of a place in the frame that the header announces. -/
theorem Awaits.short_of_header {b : Bytes} {h : Header} (read : Header.decode b = .ok h)
    (part : FramePart) {goal : Nat} (short : b.length < goal) (inside : goal ≤ h.frameSize) :
    ∃ part' goal' version r, ParserStage.collect part goal = .collect part' goal' ∧
      b = Version.marker version :: r ∧ b.length < goal' ∧ goal' ≤ 280 := by
  obtain ⟨r, begun⟩ := Header.exists_marker read
  exact ⟨part, goal, h.version, r, rfl, begun, short, Nat.le_trans inside h.frameSize_le⟩

/-- There is no candidate, or it begins with a marker and is short of a place that no frame
exceeds. -/
theorem Awaits.short {l : Lookup} {b : Bytes} {stage : ParserStage} (awaits : Awaits l b stage) :
    stage = .seek ∧ b = [] ∨
      ∃ part goal version r, stage = .collect part goal ∧ b = Version.marker version :: r ∧
        b.length < goal ∧ goal ≤ 280 := by
  cases awaits with
  | marker => exact .inl ⟨rfl, rfl⟩
  | @header version r short =>
    have small : version.headerSize ≤ 280 := by cases version <;> decide
    exact .inr ⟨_, _, version, r, rfl, rfl, short, small⟩
  | @payload _ h read _ short =>
    have inside : h.payloadEnd ≤ h.frameSize :=
      Nat.le_trans (Nat.le_add_right ..) h.payloadEnd_add_checksumSize_le
    exact .inr (short_of_header read .payload short inside)
  | @trailer _ h read _ short =>
    exact .inr (short_of_header read .trailer short h.payloadEnd_add_checksumSize_le)
  | @signature _ h read _ _ short =>
    exact .inr (short_of_header read .signature short (Nat.le_refl _))

namespace Parser

variable {p : Parser}

/-! ## Candidates that are decided on -/

/-- Decides on a whole candidate, unless it is longer than any frame. -/
def complete? (p : Parser) : Option Parser :=
  if p.buffer.length ≤ Frame.maxSize then some p.complete else none

/-- Goes on after the part of the candidate that ends at `goal`, unless it has to decide on a
candidate that is longer than any frame. -/
def advance? (p : Parser) (part : FramePart) (goal : Nat) : Option Parser :=
  match part with
  | .header => some (p.advance .header goal)
  | .payload => some (p.advance .payload goal)
  | .trailer =>
    match Header.decode p.buffer with
    | .ok h => if h.isSigned then some (p.advance .trailer goal) else p.complete?
    | .error _ => p.complete?
  | .signature => p.complete?

/-- Reads one byte, unless it has to decide on a candidate that is longer than any frame. -/
def step? (p : Parser) (byte : UInt8) : Option Parser :=
  match p.stage with
  | .seek => some (p.step byte)
  | .collect part goal =>
    if (p.grow byte).buffer.length = goal then (p.grow byte).advance? part goal
    else some (p.grow byte)

theorem complete?_eq (short : p.buffer.length ≤ Frame.maxSize) : p.complete? = some p.complete :=
  if_pos short

theorem advance?_eq (short : p.buffer.length ≤ Frame.maxSize) (part : FramePart) (goal : Nat) :
    p.advance? part goal = some (p.advance part goal) := by
  cases part with
  | header => rfl
  | payload => rfl
  | trailer =>
    simp only [advance?, advance]
    cases Header.decode p.buffer with
    | error e => exact complete?_eq short
    | ok h =>
      dsimp only
      split
      · rfl
      · exact complete?_eq short
  | signature => exact complete?_eq short

/-- There is room for a byte in a candidate that is shorter than the longest frame. -/
theorem step?_eq (short : p.buffer.length < Frame.maxSize) (byte : UInt8) :
    p.step? byte = some (p.step byte) := by
  have grown : (p.grow byte).buffer.length ≤ Frame.maxSize := by
    rw [grow, List.length_append, List.length_singleton]
    exact short
  unfold step? step
  cases p.stage with
  | seek => rfl
  | collect part goal =>
    dsimp only
    split
    · exact advance?_eq grown part goal
    · rfl

/-! ## Turns of the loop -/

/-- A turn of the loop that reads again the bytes that wait. -/
def again (p : Parser) : Parser :=
  match p.replay with
  | [] => p
  | byte :: rest => ({ p with replay := rest } : Parser).step byte

/-- A turn of the loop, unless it has to decide on a candidate that is longer than any frame. -/
def again? (p : Parser) : Option Parser :=
  match p.replay with
  | [] => some p
  | byte :: rest => ({ p with replay := rest } : Parser).step? byte

theorem again_of_nil (h : p.replay = []) : p.again = p := by
  simp only [again, h]

theorem again_of_cons {byte : UInt8} {rest : Bytes} (h : p.replay = byte :: rest) :
    p.again = ({ p with replay := rest } : Parser).step byte := by
  simp only [again, h]

/-- A turn gives bytes up, or moves one byte from those that wait to the candidate. -/
theorem again_moves (h : p.replay ≠ []) :
    p.again.buffered < p.buffered ∨
      p.again.buffered = p.buffered ∧ p.again.replay.length < p.replay.length := by
  obtain ⟨byte, rest, h⟩ := List.exists_cons_of_ne_nil h
  have held := buffered_of_replay h
  rw [again_of_cons h]
  rcases step_moves { p with replay := rest } byte with fewer | ⟨same, waiting⟩
  · exact .inl (by omega)
  · refine .inr ⟨by omega, ?_⟩
    rw [waiting, h]
    exact Nat.lt_succ_self _

/-- A turn never adds to what is held. -/
theorem buffered_again_le (p : Parser) : p.again.buffered ≤ p.buffered := by
  by_cases idle : p.replay = []
  · exact Nat.le_of_eq (by rw [again_of_nil idle])
  · rcases again_moves idle with fewer | ⟨same, -⟩
    · exact Nat.le_of_lt fewer
    · exact Nat.le_of_eq same

theorem buffered_iterate_again_le (p : Parser) (n : Nat) :
    (again^[n] p).buffered ≤ p.buffered := by
  induction n with
  | zero => exact Nat.le_refl _
  | succ n ih =>
    rw [Function.iterate_succ_apply']
    exact Nat.le_trans (buffered_again_le _) ih

/-- In no turn is a candidate decided on that is longer than any frame, if no more is held. -/
theorem again?_eq (held : p.buffered ≤ Frame.maxSize) : p.again? = some p.again := by
  rw [again?, again]
  cases waiting : p.replay with
  | nil => rfl
  | cons byte rest =>
    refine step?_eq ?_ byte
    have fewer := buffered_of_replay waiting
    have inside : ({ p with replay := rest } : Parser).buffer.length
        ≤ ({ p with replay := rest } : Parser).buffered := Nat.le_add_right ..
    omega

/-- The turns that are left at most.  Whoever holds `n` bytes and gives one up has to go through
fewer than `n` of them again, and `n + (n - 1) + …` is at most `n * n`. -/
def work (p : Parser) : Nat := p.buffered * p.buffered + p.replay.length

theorem work_again_lt (h : p.replay ≠ []) : p.again.work < p.work := by
  have waiting : p.again.replay.length ≤ p.again.buffered := Nat.le_add_left ..
  unfold work
  rcases again_moves h with fewer | ⟨same, moved⟩
  · -- The byte that is given up pays for all those that wait now.
    calc p.again.buffered * p.again.buffered + p.again.replay.length
        ≤ p.again.buffered * p.again.buffered + p.again.buffered := Nat.add_le_add_left waiting _
      _ = p.again.buffered * (p.again.buffered + 1) := (Nat.mul_succ _ _).symm
      _ < (p.again.buffered + 1) * (p.again.buffered + 1) :=
          Nat.mul_lt_mul_of_pos_right (Nat.lt_succ_self _) (Nat.succ_pos _)
      _ ≤ p.buffered * p.buffered := Nat.mul_le_mul fewer fewer
      _ ≤ p.buffered * p.buffered + p.replay.length := Nat.le_add_right ..
  · rw [same]
    exact Nat.add_lt_add_left moved _

theorem work_le {n : Nat} (held : p.buffered ≤ n) : p.work ≤ n * (n + 1) := by
  have waiting : p.replay.length ≤ p.buffered := Nat.le_add_left ..
  calc p.buffered * p.buffered + p.replay.length
      ≤ n * n + n := Nat.add_le_add (Nat.mul_le_mul held held) (Nat.le_trans waiting held)
    _ = n * (n + 1) := (Nat.mul_succ n n).symm

/-- **The loop ends.**  Whatever is held and whatever waits, after that many turns nothing waits
any more. -/
theorem exists_iterate_again (p : Parser) : ∃ n ≤ p.work, again^[n] p = p.drain := by
  induction p using drain.induct with
  | case1 p idle => exact ⟨0, Nat.zero_le _, (drain_of_nil idle).symm⟩
  | case2 p byte rest waiting ih =>
    rw [← again_of_cons waiting] at ih
    obtain ⟨n, few, ended⟩ := ih
    have less : p.again.work < p.work := work_again_lt (by rw [waiting]; exact List.cons_ne_nil _ _)
    refine ⟨n + 1, Nat.le_trans (Nat.succ_le_succ few) less, ?_⟩
    rw [Function.iterate_succ_apply, ended, again_of_cons waiting, drain_of_cons waiting]

/-! ## Reading a byte -/

/-- A byte is read with no more than a frame in both buffers. -/
structure ReadsWithin (p : Parser) (byte : UInt8) : Prop where
  /-- If a candidate is decided on with the byte, it is no longer than a frame can be. -/
  decides : p.step? byte = some (p.step byte)
  /-- Nor is one when bytes are read again. -/
  decides_again : ∀ n, (again^[n] (p.step byte)).again? = some (again^[n + 1] (p.step byte))
  /-- Both buffers together hold no more than a frame, after the byte and after every turn. -/
  held : ∀ n, (again^[n] (p.step byte)).buffered ≤ 280
  /-- The loop ends when nothing waits any more. -/
  ends : ∃ n ≤ 280 * 281, (again^[n] (p.step byte)).replay = [] ∧
    again^[n] (p.step byte) = (p.step byte).drain

theorem buffered_step_le (p : Parser) (byte : UInt8) : (p.step byte).buffered ≤ p.buffered + 1 := by
  rcases step_moves p byte with fewer | ⟨same, -⟩
  · exact Nat.le_of_lt fewer
  · exact Nat.le_of_eq same

/-- A parser that has no bytes to read again takes up a byte with room for it. -/
theorem readsWithin (coherent : p.Coherent) (idle : p.replay = []) (byte : UInt8) :
    p.ReadsWithin byte := by
  have before := coherent.buffered_le idle
  have after : (p.step byte).buffered ≤ 280 :=
    Nat.le_trans (buffered_step_le p byte) (Nat.succ_le_succ before)
  have held : ∀ n, (again^[n] (p.step byte)).buffered ≤ 280 := fun n =>
    Nat.le_trans (buffered_iterate_again_le _ n) after
  have short : p.buffer.length < Frame.maxSize :=
    Nat.lt_of_le_of_lt (Nat.le_trans (Nat.le_add_right ..) before) (by decide)
  refine ⟨step?_eq short byte, fun n => ?_, held, ?_⟩
  · rw [Function.iterate_succ_apply']
    exact again?_eq (held n)
  · obtain ⟨n, few, ended⟩ := (p.step byte).exists_iterate_again
    refine ⟨n, Nat.le_trans few (work_le after), ?_, ended⟩
    rw [ended]
    exact replay_drain _

end Parser

/-! ## Throughout the life of a parser -/

namespace Run

/-- What the parser holds between two calls is the end of what it was given. -/
theorem buffer_suffix_stream {setup : ParserSetup} {s : Scan} {r : Run} (h : Traces setup s r) :
    r.parser.buffer <:+ r.stream := by
  have held := h.agrees.held
  rw [h.steady.idle, List.append_nil] at held
  rw [← held]
  exact List.drop_suffix ..

/-- **What a parser holds.**  Between two calls no byte waits to be read again, and the parser
seeks a marker without a candidate, or its candidate begins with a marker and is short of the
place that it waits for; no such place is behind the end of the longest frame.  So fewer than
280 bytes are held.  While a byte is read both buffers together never hold more than 280 bytes,
no longer candidate is ever decided on, and the loop that reads bytes again ends, however often a
rejection gives it more to do.  Nothing is held when the last 279 bytes were no markers. -/
theorem buffers_bounded (setup : ParserSetup) (acts : List Act) :
    let p := (ofActs setup acts).parser
    (p.replay = [] ∧
      (p.stage = .seek ∧ p.buffer = [] ∨
        ∃ part goal version r, p.stage = .collect part goal ∧
          p.buffer = Version.marker version :: r ∧ p.buffer.length < goal ∧ goal ≤ 280) ∧
      p.buffered ≤ 279) ∧
    (∀ bytes byte, (p.push bytes).ReadsWithin byte) ∧
    ∀ quiet, quiet <:+ acts.flatMap Act.bytes → 279 ≤ quiet.length →
      (∀ byte ∈ quiet, Version.ofMarker? byte = none) → p.buffered = 0 := by
  intro p
  obtain ⟨s, -, traces⟩ : ∃ s, True ∧ Traces setup s (ofActs setup acts) :=
    exists_traces trivial (fun _ _ _ => trivial) (fun _ _ _ => trivial) acts
  have coherent : p.Coherent := traces.steady.coherent
  have idle : p.replay = [] := traces.steady.idle
  have held := coherent.buffered_le idle
  refine ⟨⟨idle, Awaits.short coherent, held⟩, fun bytes byte => ?_,
    fun quiet given long noMarker => ?_⟩
  · exact Parser.readsWithin (Parser.coherent_push coherent bytes)
      (Parser.replay_push idle bytes) byte
  · have kept : p.buffer <:+ acts.flatMap Act.bytes :=
      stream_ofActs setup acts ▸ buffer_suffix_stream traces
    rw [Parser.buffered, idle, List.length_nil, Nat.add_zero] at held ⊢
    have inside : p.buffer <:+ quiet :=
      List.suffix_of_suffix_length_le kept given (Nat.le_trans held long)
    rcases Awaits.short coherent with ⟨-, empty⟩ | ⟨_, _, version, r, -, begun, -, -⟩
    · rw [empty]
      rfl
    · -- A candidate would begin with a marker.
      have marker : version.marker ∈ p.buffer := begun ▸ List.mem_cons_self ..
      have none := noMarker _ (inside.subset marker)
      rw [Version.ofMarker?_marker] at none
      cases none

/-- A header that announces the longest frame, and nothing else that could be one: the parser
holds all but the last byte of that frame, and with the last one nothing. -/
theorem longest_candidate_given_up :
    let setup : ParserSetup := { lookup := ⟨fun _ => none, fun _ => none⟩ }
    let quiet : Bytes := [0xFF, 0x01] ++ List.replicate 277 0
    let begun : Bytes := 0xFD :: quiet.take 278
    let acts : List Act := [.call (.push begun), .call .next, .call (.push (quiet.drop 278))]
    (ofActs setup [.call (.push begun)]).parser.buffered = 279 ∧
      quiet <:+ acts.flatMap Act.bytes ∧ 279 ≤ quiet.length ∧
      (∀ byte ∈ quiet, Version.ofMarker? byte = none) ∧
      (ofActs setup acts).parser.buffered = 0 := by
  intro setup quiet begun acts
  have given : acts.flatMap Act.bytes = [0xFD] ++ quiet := by
    simp only [acts, begun, List.flatMap_cons, List.flatMap_nil, Act.bytes, Call.bytes,
      List.append_nil, List.nil_append, List.cons_append, List.take_append_drop]
  have suffix : quiet <:+ acts.flatMap Act.bytes := given ▸ List.suffix_append ..
  have long : 279 ≤ quiet.length := by decide +kernel
  have noMarker : ∀ byte ∈ quiet, Version.ofMarker? byte = none := by decide +kernel
  refine ⟨?_, suffix, long, noMarker, (buffers_bounded setup acts).2.2 quiet suffix long noMarker⟩
  -- The scan of these bytes stops where it begins.
  have waits : setup.lookup.examine begun = .wait := by decide +kernel
  have stopped : scan setup begun {} = {} := scan_of_wait (by rw [List.drop_zero, waits])
  obtain ⟨-, -, -, -, place, -⟩ := follows_scan setup [.push begun]
  rw [List.flatMap_singleton, Call.bytes, stopped, Nat.zero_add] at place
  have length : begun.length = 279 := by decide +kernel
  exact place.trans length

end Run
end Mavlink
