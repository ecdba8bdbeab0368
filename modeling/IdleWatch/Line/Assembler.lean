import IdleWatch.Line
import IdleWatch.Text.Utf8

/-!
# Lines from chunks of bytes

An assembler is fed the bytes of one stream in chunks of any size and puts lines together. A chunk
is put behind the unfinished line and the whole is cut after its last line feed: what comes behind
it is the new unfinished line, and what stands before it is cut at the other line feeds into lines.
Bytes are read as text only once their line is complete, so a character may lie across two chunks,
and so may the two bytes that a terminal ends a line with.

An empty chunk means that the stream was closed: the unfinished line is discarded.
-/

namespace IdleWatch

/-- The byte that ends a line. -/
def lineFeed : UInt8 := 10

/-- The byte that a terminal puts before a line feed. -/
def carriageReturn : UInt8 := 13

/-- A line is put together from the bytes of one stream. -/
structure Assembler where
  stream : Stream
  /-- The bytes after the last line feed. -/
  pending : Array UInt8 := #[]
  deriving DecidableEq, Repr

/-- One carriage return at the end of a line belongs to the line's end. -/
def dropReturn (raw : List UInt8) : List UInt8 :=
  if raw.getLast? = some carriageReturn then raw.dropLast else raw

/-- Put out the line that these bytes make. -/
def Output.line (out : Output) (stream : Stream) (raw : List UInt8) : Output :=
  let pieces := Text.Utf8.pieces (dropReturn raw)
  { lines := out.lines.push
      { text := String.ofList (pieces.map Text.Utf8.Piece.shown), stream := stream }
    notes :=
      if pieces.all (· != .flaw) then out.notes else out.notes.push (.replaced stream) }

/-- The last place before the `n`th that holds a line feed. -/
def lastFeed? (bytes : Array UInt8) : Nat → Option Nat
  | 0 => none
  | n + 1 => if bytes[n]? = some lineFeed then some n else lastFeed? bytes n

namespace Assembler

/-- Give up the unfinished line, because no more of it can come. -/
def discard (a : Assembler) : Assembler × Output :=
  if a.pending.isEmpty then (a, {})
  else ({ a with pending := #[] }, { notes := #[.discarded a.stream a.pending.size] })

/-- Take one chunk, the empty one standing for the close of the stream. -/
def feed (a : Assembler) (chunk : List UInt8) : Assembler × Output :=
  if chunk.isEmpty then a.discard
  else
    let bytes := a.pending ++ chunk
    match lastFeed? bytes bytes.size with
    | none => ({ a with pending := bytes }, {})
    | some last =>
      let raws := (bytes.take last).toList.splitOn lineFeed
      ({ a with pending := bytes.drop (last + 1) }, raws.foldl (·.line a.stream ·) {})

end Assembler

end IdleWatch
