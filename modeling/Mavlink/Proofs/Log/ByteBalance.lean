import Mathlib
import Mavlink.Proofs.Log.Corruption

/-!
# No byte is lost or read twice

Any bytes can be read as a log.  Each of them is then passed over or belongs to one record, which
takes the timestamp and either its frame or, of a damaged one, the marker (`LogRecord.Spans`).  So
the bytes that are passed over and those of the records make up the log.

The balance holds at every moment, also after an attempt that failed while a record was looked
for: `LogReader.balance_read` is one attempt, `LogReader.balance_answers` any number of them.

* `Lookup.survey_balance` --- what a log says accounts for all of its bytes;
* `LogReader.reads_any_bytes` --- whatever a log holds and however it is delivered, the same is
  told of it, and all of its bytes are accounted for.
-/

namespace Mavlink

/-- How many bytes of a log a record takes. -/
inductive LogRecord.Spans : LogRecord → Nat → Prop
  | frame (timestamp : UInt64) (f : Frame) : Spans ⟨timestamp, .ok f⟩ (8 + f.header.frameSize)
  /-- A frame of a message that is not known is taken as a whole. -/
  | unknown (timestamp : UInt64) {raw : Bytes} {h : Header} (header : Header.decode raw = .ok h)
      (whole : raw.length = h.frameSize) :
      Spans ⟨timestamp, .error (.unknownMessage h.messageId raw)⟩ (8 + h.frameSize)
  /-- Of a damaged frame the marker is taken. -/
  | damage (timestamp : UInt64) {e : DecodeError} (damage : e.isDamage) :
      Spans ⟨timestamp, .error e⟩ 9

/-! ## What a log says -/

namespace Lookup

variable {l : Lookup} {log : Bytes} {r : LogRecord}

/-- A record at the beginning of a log is there with all that it takes. -/
theorem spans_of_headOf (stands : l.headOf log = .record r) :
    r.Spans r.extent ∧ r.extent ≤ log.length := by
  generalize marked : log.drop LogReader.markerOffset = b
  have decoded : Frame.decode (log.drop LogReader.markerOffset) l = Frame.decode b l := by
    rw [marked]
  have length : b.length = log.length - LogReader.markerOffset := by rw [← marked, List.length_drop]
  cases Frame.beginning b with
  | nothing =>
    have tail : l.headOf log = .tail := headOf_of_length_le (List.drop_eq_nil_iff.1 marked)
    cases tail.symm.trans stands
  | noise quiet behind =>
    have noise := Frame.decode_noise (l := l) quiet behind
    cases (headOf_noise (decoded.trans noise)).symm.trans stands
  | marker short =>
    have cut := Frame.decode_of_header_error (l := l) (Header.decode_marker_of_short short)
    cases (headOf_tail (decoded.trans cut)).symm.trans stands
  | refused _ header =>
    have refused := Frame.decode_of_header_error (l := l) header
    cases (headOf_damage (decoded.trans refused) rfl).symm.trans stands
    rw [List.length_cons] at length
    exact ⟨.damage _ rfl, by rw [LogRecord.extent_damage _ rfl]; omega⟩
  | part header short =>
    have cut := Frame.decode_of_short (l := l) header short
    cases (headOf_tail (decoded.trans cut)).symm.trans stands
  | @whole b h header long =>
    have some_bytes := h.frameSize_pos
    rcases Frame.decode_of_long (l := l) header long with
      ⟨f, found, size⟩ | found | ⟨e, found, damage⟩
    · cases (headOf_frame (decoded.trans found)).symm.trans stands
      rw [LogRecord.extent_frame]
      exact ⟨.frame _ f, by omega⟩
    · cases (headOf_unknown (decoded.trans found)).symm.trans stands
      have whole : (b.take h.frameSize).length = h.frameSize := List.length_take_of_le long
      have header := Header.decode_take header h.size_le_frameSize
      rw [LogRecord.extent_unknown, whole]
      exact ⟨.unknown _ header whole, by omega⟩
    · cases (headOf_damage (decoded.trans found) damage).symm.trans stands
      rw [LogRecord.extent_damage _ damage]
      exact ⟨.damage _ damage, by omega⟩

/-- The bytes that are passed over and those that the records take are all bytes of a log. -/
theorem survey_balance (l : Lookup) (log : Bytes) :
    (∀ r ∈ (l.survey log).records, r.Spans r.extent) ∧
      log.length = (l.survey log).skipped + ((l.survey log).records.map LogRecord.extent).sum := by
  induction length : log.length using Nat.strong_induction_on generalizing log with
  | h length ih =>
    subst length
    cases stands : l.headOf log with
    | tail =>
      rw [survey_tail stands]
      exact ⟨nofun, rfl⟩
    | noise =>
      -- A byte that begins no record is one behind which there are eight more.
      have some_bytes : 0 < log.length := by
        refine Nat.pos_of_ne_zero fun none_left => ?_
        rw [headOf_of_length_le (none_left ▸ Nat.zero_le _)] at stands
        cases stands
      obtain ⟨spans, balance⟩ := ih _ (List.length_drop ▸ Nat.sub_lt some_bytes Nat.one_pos) _ rfl
      rw [List.length_drop] at balance
      rw [survey_noise stands]
      refine ⟨spans, ?_⟩
      dsimp only
      omega
    | record r =>
      obtain ⟨span, inside⟩ := spans_of_headOf stands
      have fewer : (log.drop r.extent).length < log.length := by
        have := r.extent_pos
        rw [List.length_drop]
        omega
      obtain ⟨spans, balance⟩ := ih _ fewer _ rfl
      rw [List.length_drop] at balance
      rw [survey_record stands]
      refine ⟨List.forall_mem_cons.2 ⟨span, spans⟩, ?_⟩
      dsimp only
      rw [List.map_cons, List.sum_cons]
      omega

end Lookup

/-! ## Reading a log -/

namespace LogReader

variable {r : LogReader}

/-- How many bytes of a log an answer takes. -/
def answerExtent : Except TransferError (Option LogRecord) → Nat
  | .ok (some record) => record.extent
  | _ => 0

/-- What is passed over and what is left is what the outlook accounts for. -/
theorem length_rest (r : LogReader) :
    r.skipped + r.rest.length
      = r.outlook.skipped + (r.outlook.records.map LogRecord.extent).sum := by
  rw [(r.lookup.survey_balance r.rest).2, ← Nat.add_assoc]
  rfl

/-- An attempt to read, also one that fails, accounts for the bytes that it uses. -/
theorem balance_read (steady : r.source.Steady) :
    r.read.2.source.Steady ∧
      answerExtent r.read.1 + (r.read.2.skipped + r.read.2.rest.length)
        = r.skipped + r.rest.length := by
  have outcome := read_outcome steady
  generalize r.read = answer at outcome
  cases outcome with
  | @record q record steady same first =>
    refine ⟨steady, ?_⟩
    rw [length_rest r, length_rest q, first]
    dsimp only
    rw [List.map_cons, List.sum_cons, answerExtent]
    omega
  | @ended q finished whole empty none_left last =>
    refine ⟨⟨whole, by rw [finished]; nofun⟩, ?_⟩
    rw [length_rest r, last, rest_of_ended finished, empty]
    exact Nat.zero_add _
  | @failed q steady less same =>
    refine ⟨steady, ?_⟩
    rw [length_rest r, length_rest q, same]
    exact Nat.zero_add _

/-- So do any number of attempts. -/
theorem balance_answers (steady : r.source.Steady) (k : Nat) :
    ((answers k r).1.map answerExtent).sum + ((answers k r).2.skipped + (answers k r).2.rest.length)
      = r.skipped + r.rest.length := by
  induction k generalizing r with
  | zero => exact Nat.zero_add _
  | succ k ih =>
    obtain ⟨later, first⟩ := balance_read steady
    rw [answers, List.map_cons, List.sum_cons, Nat.add_assoc, ih later, first]

/-- **What is told of any bytes.**  Take any bytes as a log.  However they are delivered, in
pieces of any size, with interruptions and with failures after which reading goes on, the
same records are told in the same order, then the end of the log, and the same bytes are passed
over.  The log is made up of the bytes that are passed over, of the frames that were read or
whose message is not known, each with its timestamp, and of nine bytes for each damaged frame;
and at every moment, the bytes that have been told or passed over and those that have not been
used are those of the log. -/
theorem reads_any_bytes (l : Lookup) (log : Bytes) :
    (∀ record ∈ (l.survey log).records, record.Spans record.extent) ∧
      log.length = (l.survey log).skipped + ((l.survey log).records.map LogRecord.extent).sum ∧
      ∀ pending, .bytes [] ∉ pending → pending.flatMap Delivery.content = log →
        (∀ n,
          let told := answers ((l.survey log).records.length + pending.count .failed + n)
            (start ⟨pending, false⟩ l)
          told.1.filter (!isFailure ·)
              = (l.survey log).records.map (fun record => .ok (some record))
                ++ List.replicate n (.ok none) ∧
            (0 < n → told.2.skipped = (l.survey log).skipped)) ∧
          ∀ k,
            let told := answers k (start ⟨pending, false⟩ l)
            (told.1.map answerExtent).sum + (told.2.skipped + told.2.rest.length) = log.length := by
  refine ⟨(l.survey_balance log).1, (l.survey_balance log).2, fun pending filled delivered => ?_⟩
  have steady : (start ⟨pending, false⟩ l).source.Steady := ⟨rfl, filled⟩
  have rest : (start ⟨pending, false⟩ l).rest = log := delivered
  have outlook : (start ⟨pending, false⟩ l).outlook = l.survey log := by
    rw [LogReader.outlook, rest, start, Nat.zero_add]
  refine ⟨fun n => ?_, fun k => ?_⟩
  · rw [← outlook]
    exact answers_eq steady n
  · have balance := balance_answers steady k
    rw [rest] at balance
    exact balance.trans (Nat.zero_add _)

/-- A heartbeat, a frame that is not known and a damaged one, behind a byte too many.  The source
fails in the first timestamp, in a header, in a frame and at the end. -/
theorem damaged_log_accounted_for :
    let unknown : Bytes := [0xFE, 0, 0, 1, 1, 7, 42, 0]
    let log : Bytes := 7 :: logOf
      [⟨1, heartbeat.toBytes⟩, ⟨2, unknown⟩, ⟨3, [0xFE, 0, 0, 1, 1, 0, 0, 0]⟩]
    let pending : List Delivery := [.bytes (log.take 5), .failed, .interrupted,
      .bytes ((log.take 12).drop 5), .failed, .bytes ((log.take 45).drop 12), .interrupted, .failed,
      .bytes (log.drop 45), .failed]
    let told := answers 8 (start ⟨pending, false⟩ heartbeatsOnly)
    pending.flatMap Delivery.content = log ∧ .bytes [] ∉ pending ∧
      told.1.filter (!isFailure ·)
        = [.ok (some ⟨1, .ok heartbeat⟩), .ok (some ⟨2, .error (.unknownMessage 7 unknown)⟩),
          .ok (some ⟨3, .error (.crcMismatch 0 0x5C86 0)⟩), .ok none] ∧
      told.2.skipped = 8 ∧ log.length = 8 + ((8 + 21) + (8 + 8) + 9) := by
  let unknown : Bytes := [0xFE, 0, 0, 1, 1, 7, 42, 0]
  let damaged : Bytes := [0xFE, 0, 0, 1, 1, 0, 0, 0]
  let last := LogEntry.toBytes ⟨3, damaged⟩
  let entries : List LogEntry := [⟨1, heartbeat.toBytes⟩, ⟨2, unknown⟩]
  let log : Bytes := 7 :: (logOf entries ++ last)
  let pending : List Delivery := [.bytes (log.take 5), .failed, .interrupted,
    .bytes ((log.take 12).drop 5), .failed, .bytes ((log.take 45).drop 12), .interrupted, .failed,
    .bytes (log.drop 45), .failed]
  have whole : heartbeat.toBytes.length = heartbeat.size := by decide
  have first : LogEntry.Tells heartbeatsOnly ⟨1, heartbeat.toBytes⟩ ⟨1, .ok heartbeat⟩ :=
    .frame heartbeat_readable whole
  let header : Header := ⟨.v1, 0, 0, 0, 0, 1, 1, 7⟩
  have second : LogEntry.Tells heartbeatsOnly ⟨2, unknown⟩
      ⟨2, .error (.unknownMessage 7 unknown)⟩ :=
    .unknown (e := ⟨2, unknown⟩) (h := header) rfl rfl rfl
  have noise : Frame.decode (log.drop markerOffset) heartbeatsOnly = .error (.invalidMarker 1) := by
    decide +kernel
  have mismatch : Frame.decode (last.drop markerOffset) heartbeatsOnly
      = .error (.crcMismatch 0 0x5C86 0) := by decide +kernel
  have survey : heartbeatsOnly.survey log = ⟨[⟨1, .ok heartbeat⟩,
      ⟨2, .error (.unknownMessage 7 unknown)⟩, ⟨3, .error (.crcMismatch 0 0x5C86 0)⟩], 8⟩ := by
    have timestamp : LogRecord.readTimestamp last = 3 := by decide
    have seven_left : (last.drop (markerOffset + 1)).length = 7 := by decide
    have cut : heartbeatsOnly.headOf (last.drop (markerOffset + 1)) = .tail :=
      Lookup.headOf_of_length_le (seven_left ▸ by decide)
    rw [Lookup.survey_noise (Lookup.headOf_noise noise), List.drop_succ_cons, List.drop_zero,
      Lookup.survey_logOf_append (.cons first (.cons second .nil)),
      Lookup.survey_record (Lookup.headOf_damage mismatch rfl), LogRecord.extent_damage _ rfl,
      timestamp, Lookup.survey_tail cut, seven_left]
    rfl
  have filled : .bytes [] ∉ pending := by decide
  have delivered : pending.flatMap Delivery.content = log := by decide
  obtain ⟨-, balance, told⟩ := reads_any_bytes heartbeatsOnly log
  obtain ⟨records, skipped⟩ := (told pending filled delivered).1 1
  rw [survey] at balance records skipped
  exact ⟨delivered, filled, records, skipped (by decide), balance⟩

end LogReader
end Mavlink
