import IdleWatch.Fault
import IdleWatch.Line
import IdleWatch.Text.Utf8

/-!
# Where the lines of a run go

A sink takes lines one after another: the text and a line feed are written, then flushed. A sink
may fail at one of them, in the writing, by accepting nothing, or in the flushing; a line that
failed in the flushing has been written. In the writing it may fail midway too, with some bytes of
the line taken and the others not.
-/

namespace IdleWatch

/-- How a sink fails. -/
inductive SinkFailure where
  | write
  | zero
  | flush
  /-- After some bytes of the line, with this fault. -/
  | midway (count : Nat) (fault : Fault)
  deriving DecidableEq, Repr

/-- The fault that a failing sink reports. -/
def SinkFailure.fault : SinkFailure → Fault
  | .write => .reported .other "sink full"
  | .zero => .reported .other "failed to write whole buffer"
  | .flush => .reported .other "flush failed"
  | .midway _ fault => fault

/-- A sink, with what was written to it, read as text, and how often it was flushed. -/
structure Sink where
  text : String := ""
  flushes : Nat := 0
  /-- The number of the line at which it fails, and how. -/
  failure : Option (Nat × SinkFailure) := none
  deriving DecidableEq, Repr

namespace Sink

/-- How the sink fails at the line that comes now, if it does. -/
def failing? (s : Sink) : Option SinkFailure :=
  match s.failure with
  | some (n, failure) => if n = s.flushes then some failure else none
  | none => none

/-- The sink after a line was written and flushed. -/
def written (s : Sink) (line : Line) : Sink :=
  { s with text := s.text ++ line.text ++ "\n", flushes := s.flushes + 1 }

/-- The sink after some bytes of a line were written, and no more. -/
def begun (s : Sink) (line : Line) (count : Nat) : Sink :=
  let bytes := (Text.Utf8.encode (line.text ++ "\n")).take count
  { s with text := s.text ++ String.ofList (Text.Utf8.decode bytes) }

/-- Write a line and flush. -/
def accept (s : Sink) (line : Line) : Sink × Option Fault :=
  match s.failing? with
  | none => (s.written line, none)
  | some .flush => (s.written line, some SinkFailure.flush.fault)
  | some (.midway count fault) => (s.begun line count, some fault)
  | some failure => (s, some failure.fault)

end Sink

end IdleWatch
