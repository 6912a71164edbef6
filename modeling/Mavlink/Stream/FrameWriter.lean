import Mavlink.Link.Encoder
import Mavlink.Stream.Sink

/-!
# Sending frames into a sink

A frame that the sink refuses has been numbered all the same.
-/

namespace Mavlink

/-- A transmitter that writes into a sink. -/
structure FrameWriter where
  sink : Sink
  transmitter : Transmitter

namespace FrameWriter

/-- Writes the frame that the transmitter made, if it made one. -/
def send (w : FrameWriter) (made : Except EncodeError (Frame × Transmitter)) :
    Except Error Frame × FrameWriter :=
  match made with
  | .error error => (.error (.encode error), w)
  | .ok (frame, transmitter) =>
    let (written, sink) := w.sink.write frame.toBytes
    ((written.mapError .transfer).map fun _ => frame, ⟨sink, transmitter⟩)

/-- Makes sure that what was written has arrived. -/
def flush (w : FrameWriter) : Except Error Unit := w.sink.flush.mapError .transfer

end FrameWriter
end Mavlink
