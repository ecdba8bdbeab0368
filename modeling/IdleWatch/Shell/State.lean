import IdleWatch.Commands.Numeral
import IdleWatch.Rehearsal.Family
import IdleWatch.Shell.Script
import IdleWatch.Shell.Signal

/-!
# Shells at work

A shell is a process with a clock of its own, descriptors, variables and plans. What processes do
to one another goes through the world they share: what is written to terminals and pipes, who keeps
them open and until when, who has ended and how, and who gets killed.

A process that is started is followed to its end at once, with its own clock. Its parent's clock
moves on to that end only if it waits. So a later kill can find a process that is ahead of its
killer; it then undoes what that process did after the kill.

The clocks count microseconds, because the order of what happens at nearly the same time hangs on
how long it takes to begin a process.
-/

namespace IdleWatch.Shell

open Text (Octets)
open Rehearsal (Ending)

/-- Where a descriptor leads. -/
inductive Place where
  | terminal (stream : Stream)
  | pipe (number : Nat)
  /-- What takes everything and gives nothing. -/
  | void
  deriving DecidableEq, Repr

/-! ## The world -/

/-- Something is written to a terminal. -/
structure Event where
  time : Time
  process : Nat
  stream : Stream
  bytes : Octets
  deriving DecidableEq, Repr

/-- A process keeps a place open up to a time. -/
structure Hold where
  process : Nat
  place : Place
  last : Time
  deriving DecidableEq, Repr

/-- A process ends. -/
structure Death where
  process : Nat
  time : Time
  ending : Ending
  deriving DecidableEq, Repr

/-- A process gets a signal that it dies of. -/
structure Strike where
  process : Nat
  time : Time
  signal : Nat
  deriving DecidableEq, Repr

/-- What processes share. The latest comes first, but in pipes. -/
structure World where
  events : List Event := []
  holds : List Hold := []
  deaths : List Death := []
  strikes : List Strike := []
  pipes : List (Nat × List (Time × Octets)) := []
  /-- The files that were written, by path; each is kept like a pipe that nobody reads. -/
  files : List (Octets × Nat) := []
  /-- The number of the next process or pipe. -/
  next : Nat := 1001

namespace World

/-- What has been written to a pipe and not read. -/
def pipe (w : World) (number : Nat) : List (Time × Octets) :=
  ((w.pipes.find? (·.1 = number)).map (·.2)).getD []

/-- Change what there is to read in a pipe. -/
def setPipe (w : World) (number : Nat) (chunks : List (Time × Octets)) : World :=
  { w with pipes := (number, chunks) :: w.pipes.filter (·.1 ≠ number) }

/-- Nobody uses a pipe any more. -/
def dropPipe (w : World) (number : Nat) : World :=
  { w with
    pipes := w.pipes.filter (·.1 ≠ number)
    holds := w.holds.filter (·.place ≠ .pipe number) }

/-- The last time at which somebody keeps a place open. -/
def lastHold (w : World) (place : Place) : Time :=
  ((w.holds.filter (·.place = place)).map Hold.last).foldl max 0

/-- A process keeps places open up to a time. -/
def hold (w : World) (process : Nat) (places : List Place) (last : Time) : World :=
  { w with holds := places.map (Hold.mk process · last) ++ w.holds }

/-- A process is gone altogether: it need not be told any more who kept places open. -/
def settle (w : World) (process : Nat) : World :=
  let (own, others) := w.holds.partition (·.process = process)
  let last := fun (h : Hold) => ((own.filter (·.place = h.place)).map Hold.last).foldl max h.last
  let known := others.filter (·.process = 0)
  let news := own.filter fun h => !known.any (·.place = h.place)
  { w with holds := (others.map fun h => if h.process = 0 then { h with last := last h } else h) ++
      (news.map fun h => { h with process := 0 }) }

/-- How a process has ended or will end. -/
def death? (w : World) (process : Nat) : Option Death := w.deaths.find? (·.process = process)

/--
A process is killed that is perhaps ahead of its killer: what it did after that is undone. It can be
killed only once.
-/
def strike (w : World) (s : Strike) : World :=
  if w.strikes.any fun k => k.process = s.process && k.time ≤ s.time then w
  else { w with
    strikes := s :: w.strikes
    events := w.events.filter fun e => e.process ≠ s.process || e.time ≤ s.time
    holds := w.holds.map fun h =>
      if h.process = s.process then { h with last := min h.last s.time } else h
    deaths := w.deaths.map fun d =>
      if d.process = s.process && s.time < d.time then ⟨d.process, s.time, .signal s.signal⟩
      else d }

end World

/-! ## Processes -/

/-- A variable. -/
structure Variable where
  value : Option Octets
  exported : Bool := false
  fixed : Bool := false
  deriving DecidableEq, Repr

/-- A process: a shell, or one that has become another program. -/
structure Process where
  number : Nat := 1000
  /-- The number of the shell that it was split from, which scripts take for its own. -/
  main : Nat := 1000
  now : Time := 0
  name : Octets
  arguments : List Octets := []
  bindings : List (Octets × Variable) := []
  functions : List (Octets × Command) := []
  descriptors : List (Nat × Place) := []
  status : Nat := 0
  line : Nat := 0
  /-- The line that reading has come to. -/
  reached : Nat := 0
  /-- The command of its own that it carries out, for complaints. -/
  command : Option Octets := none
  options : List Char := []
  /-- What it does at a signal; nothing at all if that is empty. -/
  traps : List (Nat × Octets) := []
  /-- Signals with a plan that have come. -/
  pending : List Nat := []
  /-- The loops around the command. -/
  loops : Nat := 0
  /-- Variables to be restored at the end of the functions that are under way. -/
  locals : List (List (Octets × Option Variable)) := []
  /-- The processes that it has not waited for, the latest first. -/
  jobs : List Nat := []
  /-- The last process that was put in the background. -/
  background : Option Nat := none
  /-- Processes that had ended by then are gone altogether. -/
  reaped : Time := 0
  /-- The status of the last command whose output was taken. -/
  taken : Nat := 0
  documents : List (Nat × List Piece) := []

/-- Why a command does not go on to its end. -/
inductive Interrupt where
  /-- The shell ends with its status. -/
  | exit
  /-- A fault, which ends the shell unless it is caught. -/
  | fault
  | killed (signal : Nat)
  /-- It never ends. -/
  | endless
  /-- This many loops end, but for the last one, which may go on. -/
  | skip (loops : Nat) (again : Bool)
  /-- The function ends. -/
  | back
  /-- The process, which had become another program, has ended in this way. -/
  | replaced (how : Interrupt)
  deriving DecidableEq, Repr

/-- How the process ended, be it as another program. -/
def Interrupt.inEffect : Interrupt → Interrupt
  | .replaced how => how.inEffect
  | i => i

/-- A process in its world, most often a shell. -/
structure State where
  shell : Process
  world : World

/-- What a shell does. -/
abbrev Exec := ExceptT Interrupt (StateM State)

namespace Exec

/-- The shell as it is. -/
def shell : Exec Process := do return (← get).shell

/-- Change the shell. -/
def setShell (f : Process → Process) : Exec Unit := modify fun s => { s with shell := f s.shell }

/-- Change the world. -/
def setWorld (f : World → World) : Exec Unit := modify fun s => { s with world := f s.world }

/-- The status of the last command. -/
def setStatus (status : Nat) : Exec Unit := setShell fun s => { s with status }

/-- Where a descriptor leads. -/
def place? (descriptor : Nat) : Exec (Option Place) := do
  return ((← shell).descriptors.find? (·.1 = descriptor)).map (·.2)

/-- A descriptor leads somewhere else, or nowhere; where it led was kept open up to now. -/
def setPlace (descriptor : Nat) (place : Option Place) : Exec Unit := do
  let sh ← shell
  if let some p := ← place? descriptor then
    setWorld fun w => w.hold sh.number [p] sh.now
  setShell fun s =>
    let others := s.descriptors.filter (·.1 ≠ descriptor)
    { s with descriptors := match place with
      | some p => (descriptor, p) :: others
      | none => others }

/-- Write to a place. -/
def writeTo (place : Place) (s : Octets) : Exec Unit := do
  let sh ← shell
  if s.isEmpty then return
  match place with
  | .terminal stream =>
    setWorld fun w => { w with events := ⟨sh.now, sh.number, stream, s⟩ :: w.events }
  | .pipe n => setWorld fun w => w.setPipe n (w.pipe n ++ [(sh.now, s)])
  | .void => return

/-- Write to a descriptor, if it leads anywhere. -/
def write (descriptor : Nat) (s : Octets) : Exec Bool := do
  match ← place? descriptor with
  | some p =>
    writeTo p s
    return true
  | none => return s.isEmpty

/-- How complaints begin. -/
def complaintHead : Exec Octets := do
  let sh ← shell
  let command := match sh.command with
    | some c => c ++ [':', ' ']
    | none => []
  return sh.name ++ (s!": {sh.line}: ").toList ++ command

/-- A line to standard error. -/
def warn (s : Octets) : Exec Unit := do
  let _ ← write 2 ((← complaintHead) ++ s ++ ['\n'])

/-- A fault, with a line to standard error. -/
def fault {α : Type} (s : Octets) : Exec α := do
  warn s
  setStatus 2
  throw .fault

/-- What a text is called that should be a number. -/
def illegalNumber {α : Type} (s : Octets) : Exec α := fault ("Illegal number: ".toList ++ s)

/-- The decimal number that a text is, which may have a sign and blanks around it. -/
def decimal (s : Octets) : Exec Int := do
  let (negative, t) := Commands.takeSign (s.dropWhile Commands.isNumberBlank)
  let (ds, rest) := Commands.takeDigits 10 t
  let n : Int := Commands.digitsValue 10 ds
  let n := if negative then -n else n
  if ds.isEmpty || !(rest.dropWhile Commands.isNumberBlank).isEmpty ||
      n < -9223372036854775808 || 9223372036854775807 < n then
    illegalNumber s
  return n

/-- The count that a text is. -/
def count (s : Octets) : Exec Nat := do
  let n ← decimal s
  if n < 0 || 2147483647 < n then illegalNumber s
  return n.toNat

/-! ## Time and processes -/

/-- The ticks of the clocks in a millisecond. -/
def ticks : Time := 1000

/-- A time so far away that nothing is seen of it. -/
def farAway : Time := 1000000000000000000

/-- How long it takes until a new process begins. -/
def forkDelay : Time := 300

/-- How long it takes to load a program. -/
def loadDelay : Time := 500

/-- How long it takes until the end of a process is noticed. -/
def reapDelay : Time := 100

/-- If somebody has killed the process by now, it ends there. -/
def checkStrike : Exec Unit := do
  let s ← get
  match s.world.strikes.find? fun k => k.process = s.shell.number && k.time ≤ s.shell.now with
  | some k =>
    setShell fun sh => { sh with now := k.time }
    throw (.killed k.signal)
  | none => return

/-- The clock moves on to a time. -/
def waitUntil (time : Time) : Exec Unit := do
  setShell fun sh => { sh with now := max sh.now time }
  checkStrike

/-- How a process ends that was interrupted so or came to its end. -/
def endingOf (status : Nat) : Option Interrupt → Ending
  | some (.killed n) => .signal n
  | _ => .code (status % 256)

/-- What a split-off shell keeps of the plans: those to do nothing. -/
def keptTraps (traps : List (Nat × Octets)) : List (Nat × Octets) :=
  traps.filter fun (n, action) => n ≠ 0 && action.isEmpty

/-- A shell as it is when it has been split off. -/
def splitOff (sh : Process) : Process :=
  { sh with traps := keptTraps sh.traps, pending := [], jobs := [], reached := 1 }

/-- The end of a shell's process. -/
def conclude (r : Except Interrupt Unit) (s : State) : Death × World :=
  let sh := s.shell
  let how := match r with
    | .error i => some i.inEffect
    | .ok () => none
  let time := if how = some .endless then sh.now + farAway else sh.now
  let death : Death := ⟨sh.number, time, endingOf sh.status how⟩
  let w := s.world.hold sh.number (sh.descriptors.map (·.2)) time
  (death, { w with deaths := death :: w.deaths })

/-- A new process does something, starting now; its end. The shell itself does not change. -/
def inChild (change : Process → Process) (act : Exec Unit) : Exec Death := do
  let s ← get
  let number := s.world.next
  let child := change { splitOff s.shell with number, now := s.shell.now + forkDelay }
  let (r, t) := act.run.run { shell := child, world := { s.world with next := number + 1 } }
  let (death, world) := conclude r t
  set { s with world }
  return death

/-- The status that a shell sees of a process that has ended. -/
def statusOf : Ending → Nat
  | .code n => n
  | .signal n => 128 + n

/-- Wait for a time at which processes end; those that have ended are gone then. -/
def reapUntil (time : Time) : Exec Unit := do
  waitUntil time
  setShell fun s => { s with reaped := s.now }

/-- Wait for processes; if the last has died of a signal, that is told. -/
def waitForAll (deaths : List Death) : Exec Unit := do
  match deaths.getLast? with
  | none => return
  | some d =>
    reapUntil ((deaths.map Death.time).foldl max d.time + reapDelay)
    setWorld fun w => deaths.foldl (fun w d => w.settle d.process) w
    match d.ending with
    | .signal n =>
      if n ≠ 2 && n ≠ 13 then
        let _ ← write 2 (Signal.epitaph n ++ "\n").toList
    | .code _ => pure ()
    setStatus (statusOf d.ending)

/-! ## Variables -/

/-- The value of a variable. -/
def valueOf? (name : Octets) : Exec (Option Octets) := do
  return ((← shell).bindings.find? (·.1 = name)).bind (·.2.value)

/-- Change a variable as a whole. -/
def putVariable (name : Octets) (v : Option Variable) : Exec Unit :=
  setShell fun s =>
    let others := s.bindings.filter (·.1 ≠ name)
    { s with bindings := match v with
      | some v => (name, v) :: others
      | none => others }

/-- Give a variable a value, unless that is forbidden. -/
def assign (name value : Octets) : Exec Unit := do
  match (← shell).bindings.find? (·.1 = name) with
  | some (_, v) =>
    if v.fixed then fault (name ++ ": is read only".toList)
    putVariable name (some { v with value := some value })
  | none =>
    putVariable name (some { value := some value, exported := (← shell).options.contains 'a' })

/-- The characters that separate fields. -/
def separators : Exec Octets := do
  return (← valueOf? "IFS".toList).getD [' ', '\t', '\n']

end Exec

end IdleWatch.Shell
