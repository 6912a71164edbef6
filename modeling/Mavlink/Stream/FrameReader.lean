import Mavlink.Link.Parser
import Mavlink.Stream.Source

/-!
# Receiving frames

A reader feeds a parser from a source, and reads on only when the parser has no
event left.  A stream that ends, or fails, is an error; after a failure the caller may
go on receiving.

A reader that blocks until its source has bytes and one that is suspended until then
receive the same.  Both are this one: being woken before there are bytes is no more than
an interruption, after which the source is asked again.
-/

namespace Mavlink

/-- A parser that reads from a source. -/
structure FrameReader where
  source : Source
  parser : Parser

namespace FrameReader

/-- Receives what `take` takes from the parser, reading until there is something. -/
def await {α : Type} (take : Parser → Option α × Parser) (r : FrameReader) :
    Except TransferError α × FrameReader :=
  match take r.parser with
  | (some found, parser) => (.ok found, { r with parser := parser })
  | (none, parser) =>
    match _h : r.source.pending with
    | [] =>
      (.error (if r.source.broken then .readFailed else .endOfStream), { r with parser := parser })
    | .interrupted :: pending => await take ⟨{ r.source with pending := pending }, parser⟩
    | .failed :: pending => (.error .readFailed, ⟨{ r.source with pending := pending }, parser⟩)
    | .bytes [] :: pending => (.error .endOfStream, ⟨{ r.source with pending := pending }, parser⟩)
    | .bytes (b :: chunk) :: pending =>
      await take ⟨{ r.source with pending := pending }, parser.push (b :: chunk)⟩
termination_by r.source.pending.length
decreasing_by all_goals simp [_h]

/-- Receives the next event. -/
def recv : FrameReader → Except TransferError ParserEvent × FrameReader := await Parser.takeEvent

/-- Receives the next frame; the other events before it are passed over. -/
def recvFrame : FrameReader → Except TransferError Frame × FrameReader := await Parser.takeFrame

end FrameReader
end Mavlink
