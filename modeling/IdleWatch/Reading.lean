import IdleWatch.Fault
import IdleWatch.Line.Assembler

/-!
# Reading a stream

Each read of a stream either brings bytes, or finds its end, or finds nothing yet, or fails. An
input/output error and a read of no bytes both mean the end; an interrupted read and one that would
have to wait mean nothing yet, and leave everything as it was. Only bytes that were really read
reach the assembler as a chunk, so that the empty chunk is left to mean the end.
-/

namespace IdleWatch

/-- What one read returned: bytes, or the reason why none. -/
abbrev ReadResult := Except Fault (List UInt8)

/-- What a read means. -/
inductive Reception where
  | data (count : Nat)
  | closed
  | notReady
  | failed (fault : Fault)
  deriving DecidableEq, Repr

/-- The meaning of a read of so many bytes, or of a failed one. -/
def Reception.classify : Except Fault Nat → Reception
  | .ok 0 => .closed
  | .ok n => .data n
  | .error fault =>
    if fault.number? = some 5 then .closed
    else
      match fault.condition with
      | .wouldBlock | .interrupted => .notReady
      | .other => .failed fault

/-- The bytes that a read brought. -/
def received : ReadResult → List UInt8
  | .ok bytes => bytes
  | .error _ => []

/-- A reader asks one stream for at most `chunk` bytes at a time and makes lines of them. -/
structure Reader where
  chunk : Nat
  assembler : Assembler
  deriving DecidableEq, Repr

/-- What one poll of a reader gave. -/
structure Polled where
  output : Output := {}
  stillOpen : Bool := true
  deriving DecidableEq, Repr

namespace Reader

/-- A reader that has read nothing yet. The buffer for a chunk is not part of the model: that there
is memory for it, however large, is taken for granted. -/
def new (stream : Stream) (chunk : Nat) : Reader := { chunk, assembler := { stream } }

/-- The stream that is read. -/
def stream (r : Reader) : Stream := r.assembler.stream

/-- Feed a chunk to the assembler. -/
def feed (r : Reader) (chunk : List UInt8) : Reader × Output :=
  let (assembler, out) := r.assembler.feed chunk
  ({ r with assembler }, out)

/-- Take the result of one read. The reader goes on from what it is then, also after a failure. -/
def poll (r : Reader) (result : ReadResult) : Reader × Except Fault Polled :=
  match Reception.classify (result.map List.length) with
  | .data n =>
    let (r, output) := r.feed ((received result).take n)
    (r, .ok { output })
  | .closed =>
    let (r, output) := r.feed []
    (r, .ok { output := { output with notes := #[.ended r.stream] ++ output.notes },
              stillOpen := false })
  | .notReady => (r, .ok {})
  | .failed fault => (r, .error fault)

end Reader

end IdleWatch
