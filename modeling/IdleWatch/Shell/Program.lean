import IdleWatch.Commands.Echo
import IdleWatch.Commands.Printf
import IdleWatch.Shell.Test

/-!
# Programs that a shell starts

The programs that are known by what they do: those that print, those that do nothing, and the one
that lets time pass. A program runs in a process of its own and leaves its status there.
-/

namespace IdleWatch.Shell.Program

open Text (Octets)
open Exec

/-- The programs that are known. -/
inductive Known where
  | echo
  | printf
  | true
  | false
  | sleep
  | cat
  | shell
  deriving DecidableEq, Repr

/-- The programs by name. -/
def names : List (String × Known) :=
  [("echo", .echo), ("printf", .printf), ("true", .true), ("false", .false), ("sleep", .sleep),
    ("cat", .cat), ("sh", .shell), ("dash", .shell)]

/-- The directories in which the programs are kept. -/
def homes : List String := ["/usr/bin", "/bin"]

/-- The program that a name or a path means. -/
def find? (name : Octets) : Option Known :=
  let last := (name.reverse.takeWhile (· ≠ '/')).reverse
  let known := names.lookup (String.ofList last)
  if last.length = name.length then known
  else
    let directory := name.take (name.length - last.length - 1)
    if homes.contains (String.ofList directory) then known else none

/--
Why no known program can be started by a name or a path. A name without a slash is looked for where
programs are kept, and the directories in there are no programs.
-/
def startFault (name : Octets) : Fault :=
  if name.contains '/' then
    match Test.position? name with
    | .ok _ => .permissionDenied
    | .error fault => fault
  else if name = ['.'] || name = ['.', '.'] then .permissionDenied
  else if Files.nameLimit < name.length then .nameTooLong
  else .notFound

/-- What a stretch of time is called. -/
def unitOf? : Octets → Option Nat
  | [] | ['s'] => some 1
  | ['m'] => some 60
  | ['h'] => some 3600
  | ['d'] => some 86400
  | _ => none

/-- A stretch of time in ticks: a number of seconds, or of another unit. -/
def stretch? (s : Octets) : Option Time :=
  let (negative, r) := Commands.readReal .extended s
  match unitOf? r.rest, r.value with
  | some unit, .finite _ m e =>
    if !r.found || (negative && m ≠ 0) then none
    else
      let scale := Nat.pow 2 (-e).toNat
      some ((2 * m * Nat.pow 2 e.toNat * unit * 1000 * ticks + scale) / (2 * scale))
  | some _, .infinite _ => if negative then none else some farAway
  | _, _ => none

/-- Complain with a hint where to find more. -/
def refuse (name : Octets) (complaints : List Octets) : Exec Unit := do
  for c in complaints do
    let _ ← write 2 (name ++ [':', ' '] ++ c ++ ['\n'])
  let _ ← write 2 ("Try '".toList ++ name ++ " --help' for more information.\n".toList)
  setStatus 1

/-- Let time pass: as long as all arguments say together. -/
def sleep (name : Octets) (arguments : List Octets) : Exec Unit := do
  let arguments := if arguments.head? = some ['-', '-'] then arguments.tail else arguments
  match arguments.find? fun a => a.head? = some '-' && 1 < a.length with
  | some ('-' :: '-' :: rest) =>
    refuse name ["unrecognized option '--".toList ++ rest ++ ['\'']]
  | some (_ :: c :: _) => refuse name ["invalid option -- '".toList ++ [c, '\'']]
  | _ =>
    if arguments.isEmpty then refuse name ["missing operand".toList]
    else
      let bad := arguments.filter fun a => (stretch? a).isNone
      if bad.isEmpty then
        let total := (arguments.filterMap stretch?).foldl (· + ·) 0
        setStatus 0
        waitUntil ((← shell).now + total)
      else refuse name (bad.map fun a => "invalid time interval ".toList ++ Commands.quoted a)

/-- Print to standard output, or say that it cannot be done. -/
def print (name s : Octets) : Exec Unit := do
  if ← write 1 s then setStatus 0
  else
    let _ ← write 2 (name ++ ": write error: Bad file descriptor\n".toList)
    setStatus 1

/-- Print pieces in their order. -/
def printPieces : List (Stream × Octets) → Exec Unit
  | [] => return
  | (.stdout, s) :: rest => do
    let _ ← write 1 s
    printPieces rest
  | (.stderr, s) :: rest => do
    let _ ← write 2 s
    printPieces rest

/-- Pass on what there is in a pipe, up to its end. -/
def passOn (number : Nat) : Exec Unit := do
  let w := (← get).world
  setWorld fun w => w.setPipe number []
  for (time, s) in w.pipe number do
    waitUntil time
    let _ ← write 1 s
  waitUntil (w.lastHold (.pipe number))

/-- Pass standard input on to standard output. -/
def cat (name : Octets) : Exec Unit := do
  if (← place? 1).isNone then
    let _ ← write 2 (name ++ ": standard output: Bad file descriptor\n".toList)
    setStatus 1
  else
    match ← place? 0 with
    | none =>
      let _ ← write 2 (name ++ ": -: Bad file descriptor\n".toList)
      let _ ← write 2 (name ++ ": closing standard input: Bad file descriptor\n".toList)
      setStatus 1
    | some (.terminal _) => throw .endless
    | some (.pipe number) =>
      passOn number
      setStatus 0
    | some .void => setStatus 0

/-- What a program does that is no shell. -/
def run (program : Known) (name : Octets) (arguments : List Octets) : Exec Unit := do
  match program with
  | .echo => print name (Commands.echo arguments)
  | .printf =>
    let r := (Commands.Printer.program name).printout arguments
    printPieces r.pieces
    setStatus r.status
  | .true => setStatus 0
  | .false => setStatus 1
  | .sleep => sleep name arguments
  | .cat => cat name
  | .shell => setStatus 0

end IdleWatch.Shell.Program
