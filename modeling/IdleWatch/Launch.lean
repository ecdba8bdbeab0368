import IdleWatch.Rehearsal.Scene
import IdleWatch.Shell.Evaluation

/-!
# Starting a program

Starting needs two terminals, with two descriptors each, and a program. A few programs are known by
what they do. Such a program is followed to its end in a world of its own; what it and the processes
that it left behind did there is then put in order of time, as a script to be rehearsed.
-/

namespace IdleWatch.Launch

open Rehearsal (Act Ending rehearse stillborn)
open Shell (Death Exec World)
open Text (Octets)

/-! ## What a program does -/

/-- The variables that programs are started with. -/
def environment : List (Octets × Shell.Variable) :=
  [("HOME", "/root"), ("PATH", "/usr/local/sbin:/usr/local/bin:/usr/sbin:/usr/bin:/sbin:/bin")].map
    fun (name, value) => (name.toList, { value := some value.toList, exported := true })

/-- The process of a program: it reads nothing and writes to the terminals. -/
def newborn (name : Octets) : Shell.Process :=
  { name
    bindings := environment
    descriptors := [(0, .void), (1, .terminal .stdout), (2, .terminal .stderr)] }

/-- How deep commands may nest and how often loops may go round before that counts as for ever. -/
def patience : Nat := 20000

/-- The end of a program, and the world that it leaves behind. -/
def live (program : Shell.Program.Known) (name : Octets) (arguments : List Octets) :
    Death × World :=
  let act := Shell.runProgram patience program name arguments
  let (r, s) := act.run.run { shell := newborn name, world := {} }
  Exec.conclude r s

/-- A stream closes before a time, because nobody keeps it open any more. -/
def closing (w : World) (last : Time) (stream : Stream) : List (Time × Act) :=
  let time := w.lastHold (.terminal stream)
  if time < last then [(time, .close stream)] else []

/-- The last time at which somebody keeps a stream open. -/
def lastOpen (w : World) : Time :=
  max (w.lastHold (.terminal .stdout)) (w.lastHold (.terminal .stderr))

/-- The end of the program, and of what it leaves behind. -/
def endings (d : Death) (w : World) : List (Time × Act) :=
  let last := lastOpen w
  if d.time < last then [(d.time, .detach d.ending), (last, .finish (.code 0))]
  else [(d.time, .finish d.ending)]

/-- What an event adds to each of the streams. -/
def bytesOn (e : Shell.Event) (stream : Stream) : List UInt8 :=
  if e.stream = stream then Octets.toBytes e.bytes else []

/-- What is written at the same time is written before anything is read. -/
def bursts : List Shell.Event → List (Time × Act)
  | [] => []
  | e :: rest =>
    let alone := (e.time, Act.write (bytesOn e .stdout) (bytesOn e .stderr))
    match bursts rest with
    | (time, .write out err) :: more =>
      if time = e.time then
        (time, .write (bytesOn e .stdout ++ out) (bytesOn e .stderr ++ err)) :: more
      else alone :: (time, .write out err) :: more
    | more => alone :: more

/-- All that is seen of a program, with its times; not in their order. -/
def moments (d : Death) (w : World) : List (Time × Act) :=
  let last := max d.time (lastOpen w)
  let events := w.events.reverse.mergeSort fun a b => a.time ≤ b.time
  bursts events ++ closing w last .stdout ++ closing w last .stderr ++ endings d w

/-- Things that happen at times become things that happen one after another. -/
def inTurn : Time → List (Time × Act) → List Act
  | _, [] => []
  | now, (time, act) :: rest =>
    if now < time then .advance (time - now) :: act :: inTurn time rest
    else act :: inTurn now rest

/-- What a program does, one thing after another. -/
def performance (program : Shell.Program.Known) (name : Octets) (arguments : List Octets) :
    List Act :=
  let (d, w) := live program name arguments
  let ordered := (moments d w).mergeSort fun a b => a.1 ≤ b.1
  inTurn 0 (ordered.map fun (time, act) => (time / Exec.ticks, act))

/-! ## Starting it -/

/-- What is said of a program or an argument with a NUL in it. -/
def nulFault : Fault := .reported .other "nul byte found in provided data"

/-- The longest argument that a program can be given, in bytes. -/
def argumentLimit : Nat := 131071

/-- What a program does that is started, or why it cannot be. -/
def start (program : String) (arguments : List String) : Except Fault (List Act) :=
  if (program :: arguments).any (·.toList.contains '\x00') then .error nulFault
  else
    let name := Octets.ofText program
    let arguments := arguments.map Octets.ofText
    match Shell.Program.find? name with
    | none => .error (Shell.Program.startFault name)
    | some known =>
      if arguments.any (argumentLimit < ·.length) then .error .tooLong
      else .ok (performance known name arguments)

/-- Why the terminals cannot be opened with so many descriptors left. -/
def terminalsError? (descriptors : Nat) : Option RunError :=
  if descriptors < 2 then some (.pty .stdout Fault.tooManyFiles)
  else if descriptors < 4 then some (.pty .stderr Fault.tooManyFiles)
  else none

/-- What the program of a run does, or why the run cannot begin. -/
def script (options : Options) (descriptors : Option Nat) : Except RunError (List Act) :=
  match descriptors.bind terminalsError? with
  | some e => .error e
  | none => (start options.program options.args).mapError (.spawn options.program)

/-- A run of a program. -/
def run (options : Options) (sink : Sink) (descriptors : Option Nat) : Run :=
  match script options descriptors with
  | .ok acts => rehearse options sink acts
  | .error e => stillborn options sink e

end IdleWatch.Launch
