import Mavlink.Proofs.Link.ParserScan
import Mavlink.Proofs.Wire.PartialFrames

/-!
# Finding frames again

A false marker can swallow the frame behind it, for as long as it takes to see that it
is false.  No frame is lost by that.  A parser without a signer finds every frame that
stands in its stream, except where one that it finds before reaches across its first
byte, and has found it with the two hundred and eightieth byte from there on at the
latest.

The argument is about the scan of the stream.  It passes over one byte at a time, except
that it passes over a whole frame where it finds one; so the places that it leaves out are
inside of frames (`Scan.Covers`).  It stops only where less than the longest frame remains
(`Lookup.length_lt_of_examine_wait`).

* `Run.finds_frames` --- no frame is lost by resynchronization.
-/

namespace Mavlink

/-- As many bytes as the longest frame has are never too few. -/
theorem Lookup.length_lt_of_examine_wait {l : Lookup} {b : Bytes} (h : l.examine b = .wait) :
    b.length < 280 := by
  apply Nat.lt_of_not_le
  intro hlong
  unfold examine at h
  split at h
  · exact absurd hlong (by decide)
  · split at h
    · cases h
    · next version _ =>
      split at h
      · next hshort =>
        have hsize : version.headerSize ≤ 10 := by cases version <;> decide
        omega
      · split at h
        · cases h
        · next header _ =>
          split at h
          · cases h
          · split at h
            · next hshort =>
              have hsize := header.frameSize_le
              omega
            · split at h <;> cases h

/-- A parser that has no bytes to read again holds fewer than the longest frame has. -/
theorem Parser.Coherent.buffered_le {p : Parser} (coherent : p.Coherent) (idle : p.replay = []) :
    p.buffered ≤ 279 := by
  have short := Lookup.length_lt_of_examine_wait coherent.examine
  rw [buffered, idle]
  exact Nat.le_of_lt_succ short

/-- A frame is decoded from any bytes that begin with as many as the longest frame has. -/
theorem Frame.decode_append_iff {l : Lookup} {b : Bytes} {f : Frame} (hlong : 280 ≤ b.length)
    (r : Bytes) : Frame.decode (b ++ r) l = .ok f ↔ Frame.decode b l = .ok f := by
  rw [decode_eq_ok_iff, decode_eq_ok_iff]
  refine ⟨?_, ?_⟩
  · rintro ⟨stands, consistent, admits⟩
    have hsize : f.toBytes.length ≤ 280 := consistent.length_toBytes ▸ f.header.frameSize_le
    exact ⟨List.prefix_of_prefix_length_le stands (List.prefix_append b r)
        (Nat.le_trans hsize hlong),
      consistent, admits⟩
  · rintro ⟨stands, consistent, admits⟩
    exact ⟨stands.trans (List.prefix_append b r), consistent, admits⟩

namespace Scan

/-- Reports are never taken back. -/
theorem mem_log_step {setup : ParserSetup} {s : Scan} {finding : Finding} {e : Nat × ParserEvent}
    (h : e ∈ s.log) : e ∈ (s.step setup finding).log := by
  unfold step
  split
  · exact h
  · exact h
  · exact List.mem_append_left _ h
  · split
    · exact List.mem_append_left _ h
    · exact List.mem_append_left _ (List.mem_append_left _ h)

/-- Every frame that is found is accepted if there is no signer. -/
theorem step_frame {setup : ParserSetup} (unsigned : setup.signer = none) (s : Scan) (f : Frame) :
    s.step setup (.frame f) = s.accept setup.trackSequences s.timestamps f := by
  simp only [step, authenticate, unsigned]

/-- A frame is reported only where it is found. -/
theorem frame_mem_log_step {setup : ParserSetup} {s : Scan} {finding : Finding} {q : Nat}
    {g : Frame} (h : (q, .frame g) ∈ (s.step setup finding).log) :
    (q, .frame g) ∈ s.log ∨ q = s.place ∧ finding = .frame g := by
  unfold step at h
  split at h
  · exact .inl h
  · exact .inl h
  · rw [refuse] at h
    rcases List.mem_append.1 h with h | h
    · exact .inl h
    · cases List.mem_singleton.1 h
  · split at h
    · rw [refuse] at h
      rcases List.mem_append.1 h with h | h
      · exact .inl h
      · cases List.mem_singleton.1 h
    · rw [accept] at h
      rcases List.mem_append.1 h with h | h
      · rcases List.mem_append.1 h with h | h
        · exact .inl h
        · obtain ⟨lost, _, h⟩ := Option.map_eq_some_iff.1 (Option.mem_toList.1 h)
          cases h
      · cases List.mem_singleton.1 h
        exact .inr ⟨rfl, rfl⟩

/-- The frame at a place was found, or the place is inside of one that was found. -/
def Covers (s : Scan) (p : Nat) (f : Frame) : Prop :=
  (p, .frame f) ∈ s.log ∨ ∃ q g, (q, .frame g) ∈ s.log ∧ q < p ∧ p < q + g.size

end Scan

section Scanning

variable {setup : ParserSetup} {stream : Bytes} {s : Scan}

theorem mem_log_scan {e : Nat × ParserEvent} (h : e ∈ s.log) : e ∈ (scan setup stream s).log := by
  induction s using scan.induct setup stream with
  | case1 s hw => rwa [scan_of_wait hw]
  | case2 s hw ih =>
    rw [scan_of_ne_wait hw]
    exact ih (Scan.mem_log_step h)

/-- A frame that a scan reports stands in the stream. -/
theorem decode_of_mem_log_scan {q : Nat} {g : Frame}
    (h : (q, .frame g) ∈ (scan setup stream s).log) :
    (q, .frame g) ∈ s.log ∨ Frame.decode (stream.drop q) setup.lookup = .ok g := by
  induction s using scan.induct setup stream with
  | case1 s hw =>
    rw [scan_of_wait hw] at h
    exact .inl h
  | case2 s hw ih =>
    rw [scan_of_ne_wait hw] at h
    rcases ih h with before | stands
    · rcases Scan.frame_mem_log_step before with before | ⟨rfl, found⟩
      · exact .inl before
      · exact .inr (Lookup.examine_eq_frame_iff.1 found)
    · exact .inr stands

/-- **What a scan passes over.**  It passes over no frame, unless it finds another one
around its first byte. -/
theorem covers_scan (unsigned : setup.signer = none) {p : Nat} {f : Frame}
    (stands : Frame.decode (stream.drop p) setup.lookup = .ok f) (ahead : s.place ≤ p)
    (passed : p < (scan setup stream s).place) : (scan setup stream s).Covers p f := by
  induction s using scan.induct setup stream with
  | case1 s hw =>
    rw [scan_of_wait hw] at passed
    exact absurd ahead (Nat.not_le.2 passed)
  | case2 s hw ih =>
    have found : setup.lookup.examine (stream.drop p) = .frame f :=
      Lookup.examine_eq_frame_iff.2 stands
    rw [scan_of_ne_wait hw] at passed ⊢
    by_cases further : (s.step setup (setup.lookup.examine (stream.drop s.place))).place ≤ p
    · exact ih further passed
    · cases hf : setup.lookup.examine (stream.drop s.place) with
      | wait => exact absurd hf hw
      | noise =>
        rw [hf] at further
        have here : s.place = p := Nat.le_antisymm ahead (Nat.lt_succ_iff.1 (Nat.not_le.1 further))
        rw [here, found] at hf
        cases hf
      | fault e =>
        rw [hf] at further
        have here : s.place = p := Nat.le_antisymm ahead (Nat.lt_succ_iff.1 (Nat.not_le.1 further))
        rw [here, found] at hf
        cases hf
      | frame g =>
        rw [hf, Scan.step_frame unsigned] at further
        have reported : (s.place, .frame g) ∈
            (scan setup stream (s.step setup (.frame g))).log := by
          apply mem_log_scan
          rw [Scan.step_frame unsigned]
          exact List.mem_append_right _ (List.mem_singleton.2 rfl)
        rcases Nat.eq_or_lt_of_le ahead with here | before
        · rw [here, found] at hf
          cases hf
          rw [here] at reported
          exact .inl reported
        · exact .inr ⟨s.place, g, reported, before, Nat.not_le.1 further⟩

/-- A scan has passed over all but the last bytes. -/
theorem lt_place_scan {p : Nat} (arrived : p + 280 ≤ stream.length) :
    p < (scan setup stream s).place := by
  apply Nat.lt_of_not_le
  intro hle
  have hshort := Lookup.length_lt_of_examine_wait (examine_scan setup stream s)
  rw [List.length_drop] at hshort
  omega

end Scanning

namespace Run

/-- **No frame is lost by resynchronization.**  Suppose that a frame stands somewhere in
the stream of a parser without a signer, of which at least 280 bytes from there on have
come.  Then the parser has reported it for this place, or another one that begins before
this place and ends behind it.  It has reported it if none that stands before reaches
across this place, whatever other bytes stand there. -/
theorem finds_frames (setup : ParserSetup) (unsigned : setup.signer = none) (calls : List Call)
    (future : Bytes) (p : Nat) (f : Frame)
    (stands : Frame.decode ((calls.flatMap Call.bytes ++ future).drop p) setup.lookup = .ok f)
    (arrived : p + 280 ≤ (calls.flatMap Call.bytes).length) :
    ((p, .frame f) ∈ (ofCalls setup calls).log ∨
      ∃ q g, (q, .frame g) ∈ (ofCalls setup calls).log ∧ q < p ∧ p < q + g.size) ∧
    ((∀ q < p, ∀ g,
        Frame.decode ((calls.flatMap Call.bytes ++ future).drop q) setup.lookup = .ok g →
        q + g.size ≤ p) →
      (p, .frame f) ∈ (ofCalls setup calls).log) := by
  have log : (ofCalls setup calls).log = (scan setup (calls.flatMap Call.bytes) {}).log := by
    rw [← stream_ofCalls setup calls]
    exact (follows_ofCalls setup calls).log
  generalize calls.flatMap Call.bytes = stream at stands arrived log ⊢
  have come : ∀ q ≤ p, ∀ g, Frame.decode ((stream ++ future).drop q) setup.lookup = .ok g ↔
      Frame.decode (stream.drop q) setup.lookup = .ok g := by
    intro q hq g
    rw [List.drop_append_of_le_length (by omega)]
    exact Frame.decode_append_iff (by rw [List.length_drop]; omega) future
  have covered : (scan setup stream {}).Covers p f :=
    covers_scan unsigned ((come p (Nat.le_refl p) f).1 stands) (Nat.zero_le p)
      (lt_place_scan arrived)
  rw [log]
  refine ⟨covered, ?_⟩
  intro clear
  rcases covered with reported | ⟨q, g, reported, before, across⟩
  · exact reported
  · rcases decode_of_mem_log_scan reported with none_before | stands
    · cases none_before
    · exact absurd (clear q before g ((come q (Nat.le_of_lt before) g).2 stands))
        (Nat.not_le.2 across)

/-- A heartbeat behind a marker that begins nothing, in one piece with the bytes after it. -/
theorem finds_heartbeat_behind_marker :
    ∃ f : Frame,
      f.toBytes = [0xFD, 9, 0, 0, 1, 1, 1, 0, 0, 0, 0, 0, 0, 0, 6, 8, 0, 4, 3, 0x1A, 0x0E] ∧
      (1, .frame f) ∈ (ofCalls { lookup := ⟨fun _ => some 50, fun _ => some 9⟩ }
        [.push (0xFD :: f.toBytes ++ List.replicate 260 0)]).log := by
  let f : Frame := ⟨⟨.v2, 9, 0, 0, 1, 1, 1, 0⟩, ⟨0, .v2, [0, 0, 0, 0, 6, 8, 0, 4, 3]⟩, 0x0E1A, none⟩
  let lookup : Lookup := ⟨fun _ => some 50, fun _ => some 9⟩
  have found := finds_frames { lookup := lookup } rfl
    [.push (0xFD :: f.toBytes ++ List.replicate 260 0)] [] 1 f
    (Lookup.examine_eq_frame_iff.1 (by decide +kernel)) (by decide +kernel)
  refine ⟨f, by decide +kernel, found.2 ?_⟩
  intro q hq g stands
  obtain rfl : q = 0 := Nat.lt_one_iff.1 hq
  have refused : lookup.examine (0xFD :: f.toBytes ++ List.replicate 260 0)
      = .fault (.incompatibleFlags 9) := by decide +kernel
  have accepted := Lookup.examine_eq_frame_iff.2 stands
  rw [List.drop_zero, List.append_nil, List.flatMap_singleton] at accepted
  exact absurd (refused.symm.trans accepted) nofun

end Run
end Mavlink
