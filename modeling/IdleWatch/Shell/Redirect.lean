import IdleWatch.Shell.Expansion
import IdleWatch.Shell.Test

/-!
# Redirections

All the words of a command's redirections are expanded first, but for texts in the script; then the
descriptors are led elsewhere one after another, so that a later one sees what an earlier one did.
-/

namespace IdleWatch.Shell

open Text (Octets)
open Exec

/-- A redirection whose word is expanded. -/
inductive Plan where
  | file (descriptor : Nat) (opening : Opening) (path : Octets)
  | copy (descriptor : Nat) (source : Option Nat)
  | document (descriptor : Nat) (number : Nat)
  deriving DecidableEq, Repr

/-- A word means no descriptor, which is told like a mistake of the line that was read last. -/
def badDescriptor {α : Type} : Exec α := do
  setShell fun s => { s with line := s.reached }
  fault "Syntax error: Bad fd number".toList

/-- The descriptor that a word means; a dash means none. -/
def descriptorOf (s : Octets) : Exec (Option Nat) := do
  match s with
  | ['-'] => return none
  | [d] => if d.isDigit then return some (d.toNat - '0'.toNat) else badDescriptor
  | _ => badDescriptor

/-- Expand the word of a redirection. -/
def planOf (run : Command → Exec Octets) (fuel : Nat) : Redirection → Exec Plan
  | .file d opening name => return .file d opening (← expandText run fuel name)
  | .copy d source => return .copy d (← descriptorOf (← expandText run fuel source))
  | .document d number => return .document d number

/-- A new pipe with something in it. -/
def newPipe (s : Octets) : Exec Nat := do
  let now := (← shell).now
  let number := (← get).world.next
  setWorld fun w =>
    { w with next := number + 1 }.setPipe number (if s.isEmpty then [] else [(now, s)])
  return number

/-- The descriptor that a path stands for. -/
def descriptorPath? (path : Octets) : Option Nat :=
  [("/dev/stdin", 0), ("/dev/stdout", 1), ("/dev/stderr", 2), ("/dev/fd/0", 0), ("/dev/fd/1", 1),
    ("/dev/fd/2", 2), ("/proc/self/fd/0", 0), ("/proc/self/fd/1", 1),
    ("/proc/self/fd/2", 2)].lookup (String.ofList path)

/-- A path names a file in a directory that there is. -/
def isInDirectory (path : Octets) : Bool :=
  let parent := (path.reverse.dropWhile (· ≠ '/')).reverse
  !path.isEmpty && (parent.isEmpty || Test.isDirectory parent)

/-- A file cannot be opened. -/
def cannot {α : Type} (opening : Opening) (path : Octets) (why : String) : Exec α :=
  let verb := if opening = .read then "cannot open " else "cannot create "
  fault (verb.toList ++ path ++ (": " ++ why).toList)

/-- Open a file that is no device, for reading or writing. -/
def openFile (opening : Opening) (path : Octets) : Exec Place := do
  let existing := ((← get).world.files.find? (·.1 = path)).map (·.2)
  match opening, existing with
  | .read, none => cannot opening path "No such file"
  | .read, some n =>
    let s := ((← get).world.pipe n).flatMap (·.2)
    return .pipe (← newPipe s)
  | .write, some n =>
    setWorld fun w => w.setPipe n []
    return .pipe n
  | _, some n => return .pipe n
  | _, none =>
    let bare := (path.reverse.dropWhile (· = '/')).reverse
    if !isInDirectory bare then cannot opening path "Directory nonexistent"
    if bare.length < path.length then cannot opening path "Is a directory"
    let n ← newPipe []
    setWorld fun w => { w with files := (path, n) :: w.files }
    return .pipe n

/-- Open a path. -/
def openPath (opening : Opening) (path : Octets) : Exec Place := do
  match descriptorPath? path with
  | some d =>
    match ← place? d with
    | some p => return p
    | none => cannot opening path "No such file"
  | none =>
    if path = "/dev/tty".toList then cannot opening path "No such device or address"
    else if Test.isDevice path then return .void
    else if Test.isDirectory path then
      if opening = .read then return .void else cannot opening path "Is a directory"
    else openFile opening path

/--
Lead a descriptor elsewhere. `saves`: it is put aside first, to be restored later, so that nobody
hears a complaint about standard error itself.
-/
def carryOut (run : Command → Exec Octets) (fuel : Nat) (saves : Bool) : Plan → Exec Unit
  | .file d opening path => do setPlace d (some (← openPath opening path))
  | .copy d none => setPlace d none
  | .copy d (some n) => do
    if n = d then return
    match ← place? n with
    | some p => setPlace d (some p)
    | none =>
      if saves then setPlace d none
      fault (s!"{n}: Bad file descriptor").toList
  | .document d number => do
    let body := ((← shell).documents.find? (·.1 = number)).map (·.2)
    let s := Fragment.text (← expandPieces run fuel false (body.getD []))
    setPlace d (some (.pipe (← newPipe s)))

end IdleWatch.Shell
