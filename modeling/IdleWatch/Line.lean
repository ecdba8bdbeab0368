/-!
# Streams, lines and notes

A supervised command writes to two streams. What counts is its lines: a line has a text, the
stream it came from and its place in the order in which lines were emitted. What happens to the
bytes on the way, other than becoming lines, is kept as notes.
-/

namespace IdleWatch

/-- The two streams a command writes to. -/
inductive Stream where
  | stdout
  | stderr
  deriving DecidableEq, Repr

/-- The name of a stream in messages. -/
def Stream.name : Stream → String
  | .stdout => "stdout"
  | .stderr => "stderr"

/-- A completed line. Lines of an assembler are all numbered 0; a run numbers them as emitted. -/
structure Line where
  text : String
  stream : Stream
  seq : Nat := 0
  deriving DecidableEq, Repr

/-- What is worth noting about the bytes of a stream. -/
inductive Note where
  /-- A line had bytes that are not UTF-8, and shows replacement characters instead. -/
  | replaced (stream : Stream)
  /-- The stream was closed in the middle of a line, and these many bytes of it are lost. -/
  | discarded (stream : Stream) (count : Nat)
  /-- The end of the stream was read. -/
  | ended (stream : Stream)
  deriving DecidableEq, Repr

/-- The stream a note is about. -/
def Note.stream : Note → Stream
  | .replaced s => s
  | .discarded s _ => s
  | .ended s => s

/-- The wording of a note. -/
def Note.event : Note → String
  | .replaced _ => "replaced invalid UTF-8 in line"
  | .discarded .. => "discarding unterminated tail on stream close"
  | .ended _ => "end of stream"

/-- What comes out of a stream in one go. -/
structure Output where
  lines : Array Line := #[]
  notes : Array Note := #[]
  deriving DecidableEq, Repr

end IdleWatch
