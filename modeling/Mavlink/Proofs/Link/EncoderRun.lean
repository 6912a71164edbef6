import Mavlink.Proofs.Link.Sending

/-!
# Devices that fail

A device does several things to send a frame: it looks up the layout, encodes the message,
compares versions, looks at the number and the length, draws a timestamp and counts the frame.
Some of these change the device and some can fail.  What was done is not undone if something
fails after it, so it matters in which order they are done.

Here a device acts one step after another, and keeps what it did if it fails.  It turns out that
nothing that can fail comes after a change.  So a device that fails is as it was before, and
acting is the same as sending, which answers with a new device only if it succeeds.

* `Transmitter.Action.result_sendPayload` --- acting is sending;
* `Transmitter.Call.result_perform` --- for every way to send;
* `Transmitter.performAll_numbers` --- a run of calls that succeed or fail.
-/

namespace Mavlink

/-- The frame of a payload before it is signed, and whether it will be. -/
def Frame.unsigned (routing : Routing) (payload : Payload) (fingerprint : UInt8)
    (signed : Bool) : Frame :=
  let header : Header := {
    version := payload.version
    payloadLength := UInt8.ofNat payload.size
    incompatFlags := if signed then Header.signedFlag else 0
    compatFlags := match payload.version with
      | .v1 => 0
      | .v2 => routing.compatFlags
    sequence := routing.sequence
    system := routing.sender.system
    component := routing.sender.component
    messageId := payload.id }
  ⟨header, payload, checksumOf header payload.bytes fingerprint, none⟩

namespace Transmitter

/-- What a device does.  If it fails, it is what it has become until then. -/
abbrev Action := ExceptT EncodeError (StateM Transmitter)

namespace Action

/-- What comes of an action, and the device after it. -/
def result {α : Type} (a : Action α) (t : Transmitter) : Except EncodeError α × Transmitter :=
  Id.run ((ExceptT.run a).run t)

variable {α β : Type} (t : Transmitter)

theorem result_throw (e : EncodeError) : (throw e : Action α).result t = (.error e, t) := rfl

/-- One action after another: the second is begun only if the first succeeds. -/
theorem result_bind (a : Action α) (next : α → Action β) :
    (a >>= next).result t = match a.result t with
      | (.ok x, t') => (next x).result t'
      | (.error e, t') => (.error e, t') := by
  have stepwise : (a >>= next).result t
      = Id.run (ExceptT.bindCont next (a.result t).1 (a.result t).2) := rfl
  rw [stepwise]
  cases a.result t with
  | mk outcome t' => cases outcome <;> rfl

theorem result_get_bind (next : Transmitter → Action β) :
    (get >>= next).result t = (next t).result t := rfl

theorem result_lift_bind (x : Except EncodeError α) (next : α → Action β) :
    ((liftExcept x : Action α) >>= next).result t = match x with
      | .ok x => (next x).result t
      | .error e => (.error e, t) := by
  cases x <;> rfl

/-- What a device does that answers with a new device only if it succeeds. -/
def settle : Except EncodeError (α × Transmitter) → Except EncodeError α × Transmitter
  | .ok (x, t') => (.ok x, t')
  | .error e => (.error e, t)

/-! ## Sending -/

/-- Draws a timestamp. -/
def drawTimestamp (now : Timestamp) : Action Timestamp := do
  let t ← get
  set { t with clock := (t.clock.next now).2 }
  return (t.clock.next now).1

/-- Counts a frame. -/
def countFrame : Action Unit :=
  modify fun t => { t with encoder := { t.encoder with
    sequencer := t.encoder.sequencer.advance.2 } }

/-- Makes a frame of a payload.  A timestamp is drawn only if the frame is signed. -/
def buildFrame (now : Timestamp) (payload : Payload) (fingerprint : UInt8) : Action Frame := do
  let t ← get
  if payload.version.maxMessageId < payload.id then throw (.messageIdTooLarge payload.id)
  else if Payload.maxSize < payload.size then
    throw (.payloadTooLarge payload.size Payload.maxSize)
  else
    let signer := t.encoder.signer.filter (·.shouldSign payload.version payload.id)
    let frame := Frame.unsigned ⟨t.encoder.sequencer.current, t.encoder.sender, 0⟩ payload
      fingerprint signer.isSome
    match signer with
    | none => return frame
    | some s =>
      let timestamp ← drawTimestamp now
      return { frame with signature := some (s.sign frame.signedBytes timestamp) }

/-- Frames a payload. -/
def sendPayload (now : Timestamp) (payload : Payload) (fingerprint : UInt8) : Action Frame := do
  let t ← get
  if payload.version ≠ t.encoder.version then throw .versionMismatch
  else
    let frame ← buildFrame now payload fingerprint
    countFrame
    return frame

variable {now : Timestamp} {payload : Payload} {fingerprint : UInt8}

/-- **Making a frame changes nothing unless a frame is made**, and then draws a timestamp just
if the frame is signed. -/
theorem result_buildFrame : (buildFrame now payload fingerprint).result t
    = settle t ((Frame.build ⟨t.encoder.sequencer.current, t.encoder.sender, 0⟩ payload
        fingerprint t.encoder.signer (t.clock.next now).1).map fun f =>
          (f, { t with clock := if f.signature.isSome then (t.clock.next now).2 else t.clock })) := by
  rw [buildFrame, result_get_bind, Frame.build]
  by_cases large : payload.version.maxMessageId < payload.id
  · rw [if_pos large, if_pos large, result_throw]
    rfl
  · rw [if_neg large, if_neg large]
    by_cases long : Payload.maxSize < payload.size
    · rw [if_pos long, if_pos long, result_throw]
      rfl
    · rw [if_neg long, if_neg long]
      cases t.encoder.signer.filter (·.shouldSign payload.version payload.id) <;> rfl

/-- **Acting is sending.** -/
theorem result_sendPayload : (sendPayload now payload fingerprint).result t
    = settle t (t.sendPayload now payload fingerprint) := by
  rw [sendPayload, result_get_bind, Transmitter.sendPayload]
  by_cases other : payload.version ≠ t.encoder.version
  · rw [if_pos other, if_pos other, result_throw]
    rfl
  · rw [if_neg other, if_neg other, result_bind, result_buildFrame]
    cases built : Frame.build ⟨t.encoder.sequencer.current, t.encoder.sender, 0⟩ payload
        fingerprint t.encoder.signer (t.clock.next now).1 with
    | error e =>
      simp only [Sequencer.advance, built]
      rfl
    | ok f =>
      simp only [Sequencer.advance, built]
      rfl

end Action

/-- A frame is of the version of the device. -/
theorem version_of_sendPayload {t t' : Transmitter} {now : Timestamp} {payload : Payload}
    {fingerprint : UInt8} {f : Frame}
    (h : t.sendPayload now payload fingerprint = .ok (f, t')) :
    f.header.version = t.encoder.version := by
  unfold Transmitter.sendPayload at h
  split at h
  · cases h
  · next version =>
    obtain ⟨g, built, answer⟩ := exists_of_bind_eq_ok h
    obtain ⟨consistent, carried, -⟩ := Frame.of_build built
    cases answer
    rw [← consistent.version, carried, Decidable.not_not.1 version]

/-! ## Calls -/

/-- A way to let a device send. -/
inductive Call : Type 1 where
  /-- A message of a type of its own. -/
  | typed {α : Type} (codec : MessageCodec α) (message : α)
  /-- A message whose fields are given by name. -/
  | value (table : Table) (v : MessageValue)
  /-- A payload that is ready. -/
  | payload (payload : Payload) (fingerprint : UInt8)

namespace Call

/-- What a device answers at a moment. -/
def send (t : Transmitter) (now : Timestamp) : Call → Except EncodeError (Frame × Transmitter)
  | typed codec message => t.sendTyped now codec message
  | value table v => t.sendValue now table v
  | payload p fingerprint => t.sendPayload now p fingerprint

/-- What a device does, one step after another. -/
def perform (now : Timestamp) : Call → Action Frame
  | typed codec message => do
    let t ← get
    let p ← (liftExcept (codec.encode message t.encoder.version) : Action Payload)
    Action.sendPayload now p codec.fingerprint
  | value table v =>
    match table.messages.find? v.id with
    | none => throw (.unknownMessage v.id)
    | some m => do
      let t ← get
      let p ← (liftExcept (table.encode v t.encoder.version) : Action Payload)
      Action.sendPayload now p m.fingerprint
  | payload p fingerprint => Action.sendPayload now p fingerprint

/-- **Acting is sending**, whatever the device is to send.  So a device that fails is as it was
before. -/
theorem result_perform (call : Call) (now : Timestamp) (t : Transmitter) :
    (call.perform now).result t = Action.settle t (call.send t now) := by
  cases call with
  | payload p fingerprint => exact Action.result_sendPayload t
  | typed codec message =>
    rw [perform, Action.result_get_bind, Action.result_lift_bind, send, sendTyped]
    cases codec.encode message t.encoder.version with
    | error e => rfl
    | ok p => exact Action.result_sendPayload t
  | value table v =>
    rw [perform, send, sendValue]
    cases table.messages.find? v.id with
    | none => rfl
    | some m =>
      simp only []
      rw [Action.result_get_bind, Action.result_lift_bind]
      cases table.encode v t.encoder.version with
      | error e => rfl
      | ok p => exact Action.result_sendPayload t

/-- Whatever is sent, it is a payload in the end. -/
theorem exists_of_send {call : Call} {now : Timestamp} {t t' : Transmitter} {f : Frame}
    (h : call.send t now = .ok (f, t')) :
    ∃ p fingerprint, t.sendPayload now p fingerprint = .ok (f, t') := by
  cases call with
  | payload p fingerprint => exact ⟨p, fingerprint, h⟩
  | typed codec message =>
    obtain ⟨p, -, sent⟩ := exists_of_bind_eq_ok h
    exact ⟨p, codec.fingerprint, sent⟩
  | value table v =>
    rw [send, sendValue] at h
    split at h
    · cases h
    · next m _ =>
      obtain ⟨p, -, sent⟩ := exists_of_bind_eq_ok h
      exact ⟨p, m.fingerprint, sent⟩

/-- A device sends a frame and counts it, or stays as it is. -/
theorem perform_cases (call : Call) (now : Timestamp) (t : Transmitter) :
    (∃ e, (call.perform now).result t = (.error e, t)) ∨
      ∃ f t', (call.perform now).result t = (.ok f, t') ∧ t.Sends now f t' ∧
        f.header.version = t.encoder.version := by
  rw [result_perform]
  cases sent : call.send t now with
  | error e => exact .inl ⟨e, rfl⟩
  | ok done =>
    obtain ⟨f, t'⟩ := done
    obtain ⟨p, fingerprint, sent⟩ := exists_of_send sent
    exact .inr ⟨f, t', rfl, sends_of_sendPayload sent, version_of_sendPayload sent⟩

end Call

/-- Lets a device act at one moment after another: its answers, and the device after them. -/
def performAll : Transmitter → List (Timestamp × Call) →
    List (Except EncodeError Frame) × Transmitter
  | t, [] => ([], t)
  | t, (now, call) :: calls =>
    let (answer, later) := (call.perform now).result t
    let (answers, last) := later.performAll calls
    (answer :: answers, last)

/-- The frames among answers. -/
def sent (answers : List (Except EncodeError Frame)) : List Frame :=
  answers.filterMap Except.toOption

theorem toNat_advance (s : Sequencer) :
    s.advance.2.current.toNat = (s.current.toNat + 1) % 256 := UInt8.toNat_add ..

/-- The frames that are sent are numbered on, and so is the device. -/
theorem numbers_of_performAll (start : Transmitter) (calls : List (Timestamp × Call)) :
    (∀ j f, (sent (start.performAll calls).1)[j]? = some f →
      f.header.sequence.toNat = (start.encoder.sequencer.current.toNat + j) % 256 ∧
        f.header.version = start.encoder.version ∧ f.sender = start.encoder.sender) ∧
    (start.performAll calls).2.encoder.sequencer.current.toNat
      = (start.encoder.sequencer.current.toNat + (sent (start.performAll calls).1).length) % 256 := by
  -- What is claimed of the frames behind a call starts from the device after it.
  induction calls generalizing start with
  | nil =>
    have small := start.encoder.sequencer.current.toNat_lt
    exact ⟨nofun, (Nat.mod_eq_of_lt small).symm⟩
  | cons timed calls ih =>
    obtain ⟨now, call⟩ := timed
    rcases call.perform_cases now start with ⟨e, failed⟩ | ⟨f, t, done, sends, version⟩
    · have run : start.performAll ((now, call) :: calls)
          = (.error e :: (start.performAll calls).1, (start.performAll calls).2) := by
        rw [performAll, failed]
      rw [run]
      exact ih start
    · have run : start.performAll ((now, call) :: calls)
          = (.ok f :: (t.performAll calls).1, (t.performAll calls).2) := by
        rw [performAll, done]
      obtain ⟨others, last⟩ := ih t
      rw [sends.encoder, toNat_advance] at others last
      rw [run]
      constructor
      · intro j g there
        cases j with
        | zero =>
          obtain rfl : f = g := Option.some.inj there
          have small := start.encoder.sequencer.current.toNat_lt
          refine ⟨?_, version, sends.sender⟩
          rw [sends.number]
          exact (Nat.mod_eq_of_lt small).symm
        | succ j =>
          obtain ⟨number, same⟩ := others j g there
          refine ⟨?_, same⟩
          rw [number, Nat.mod_add_mod, Nat.add_assoc, Nat.add_comm 1 j]
      · show (t.performAll calls).2.encoder.sequencer.current.toNat
          = (start.encoder.sequencer.current.toNat
            + ((sent (t.performAll calls).1).length + 1)) % 256
        rw [last, Nat.mod_add_mod, Nat.add_assoc, Nat.add_comm 1]

/-- **Runs of a device.**  A device is let send any messages at any moments, and some of them
fail.  The frames that it does send are numbered one after another modulo 256 from its number
at the start, in its version and from its address, and its own number moves on by their count.
A call does just what sending does, and one that fails leaves the whole device as it was, its
number and its clock with it. -/
theorem performAll_numbers (start : Transmitter) (calls : List (Timestamp × Call)) :
    (∀ j f, (sent (start.performAll calls).1)[j]? = some f →
      f.header.sequence.toNat = (start.encoder.sequencer.current.toNat + j) % 256 ∧
        f.header.version = start.encoder.version ∧ f.sender = start.encoder.sender) ∧
    (start.performAll calls).2.encoder.sequencer.current.toNat
      = (start.encoder.sequencer.current.toNat + (sent (start.performAll calls).1).length) % 256 ∧
    ∀ (t : Transmitter) (now : Timestamp) (call : Call),
      (call.perform now).result t = Action.settle t (call.send t now) ∧
        ∀ e t', (call.perform now).result t = (.error e, t') → t' = t := by
  obtain ⟨frames, last⟩ := numbers_of_performAll start calls
  refine ⟨frames, last, fun t now call => ⟨call.result_perform now t, fun e t' failed => ?_⟩⟩
  rcases call.perform_cases now t with ⟨e', unchanged⟩ | ⟨f, later, done, -⟩
  · rw [unchanged] at failed
    exact (congrArg Prod.snd failed).symm
  · rw [done] at failed
    cases failed

end Transmitter
end Mavlink
