import IdleWatch.Commands.Echo
import IdleWatch.Commands.Printf
import IdleWatch.Shell.Test

/-!
# Commands of the shell itself

What the shell does without starting a program. Each command takes its arguments and leaves a
status. Those that need the shell to carry out further commands stand with that.
-/

namespace IdleWatch.Shell.Builtin

open Text (Octets)
open Exec

/-- Print to standard output; nothing can be printed to a descriptor that is closed. -/
def print (s : Octets) : Exec Nat := do
  if ← write 1 s then return 0
  warn ((← shell).command.getD [] ++ ": I/O error".toList)
  return 1

/-- The letters of options at the front of the arguments, and the other arguments. -/
def options (known : List Char) : List Octets → Exec (List Char × List Octets)
  | ['-', '-'] :: rest => return ([], rest)
  | ('-' :: c :: cs) :: rest => do
    match (c :: cs).find? fun l => !known.contains l with
    | some l => fault ("Illegal option -".toList ++ [l])
    | none =>
      let (letters, rest) ← options known rest
      return (c :: cs ++ letters, rest)
  | rest => return ([], rest)

/-! ## Printing -/

/-- Complaints of `printf` come at once, what it prints at its end. -/
def printf (arguments : List Octets) : Exec Nat := do
  let r := (Commands.Printer.shell (← complaintHead)).printout arguments
  for (stream, s) in r.pieces do
    if stream = .stderr then let _ ← write 2 s
  let printed := r.pieces.flatMap fun (stream, s) => if stream = .stdout then s else []
  let status ← print printed
  return if status = 0 then r.status else status

/-! ## Control -/

/-- The shell ends. -/
def exit (arguments : List Octets) : Exec Nat := do
  match arguments with
  | [] => throw .exit
  | a :: _ =>
    setStatus (← count a)
    throw .exit

/-- Loops end, or go on with their next round. -/
def skip (again : Bool) (arguments : List Octets) : Exec Nat := do
  let n ← match arguments with
    | [] => pure 1
    | a :: _ => do
      let n ← count a
      if n = 0 then illegalNumber a
      pure n
  let loops := (← shell).loops
  setStatus 0
  if loops = 0 then return 0
  throw (.skip (min n loops) again)

/-- The function ends. -/
def return_ (arguments : List Octets) : Exec Nat := do
  match arguments with
  | [] => throw .back
  | a :: _ =>
    setStatus (← count a)
    throw .back

/-- Arguments at the front go. -/
def shift (arguments : List Octets) : Exec Nat := do
  let n ← match arguments with
    | [] => pure 1
    | a :: _ => count a
  if (← shell).arguments.length < n then fault "can't shift that many".toList
  setShell fun s => { s with arguments := s.arguments.drop n }
  return 0

/-! ## Variables -/

/-- The letters of the shell's options, in the order in which they are shown, with their names. -/
def optionLetters : List (Char × String) :=
  [('u', "nounset"), ('b', "notify"), ('a', "allexport"), ('C', "noclobber"), ('E', "emacs"),
    ('V', "vi"), ('v', "verbose"), ('x', "xtrace"), ('s', "stdin"), ('n', "noexec"),
    ('m', "monitor"), ('i', "interactive"), ('I', "ignoreeof"), ('f', "noglob"), ('e', "errexit")]

/-- An option is turned on or off. -/
def setOption (letter : Char) (on : Bool) : Exec Unit :=
  setShell fun s =>
    let kept := optionLetters.filter fun (l, _) =>
      if l = letter then on else s.options.contains l
    { s with options := kept.map (·.1) }

/-- An option by its name. -/
def setNamed (name : Octets) (on : Bool) : Exec Unit := do
  match optionLetters.find? (·.2.toList = name) with
  | some (l, _) => setOption l on
  | none => fault ("Illegal option -o ".toList ++ name)

/-- All options and how they stand, for a reader or for a shell. -/
def listOptions (forReader : Bool) : Exec Unit := do
  let sh ← shell
  let lines := optionLetters.reverse.map fun (l, name) =>
    let on := sh.options.contains l
    let blanks := "".pushn ' ' (16 - name.length)
    if forReader then name ++ blanks ++ (if on then "on" else "off") ++ "\n"
    else (if on then "set -o " else "set +o ") ++ name ++ "\n"
  let head := if forReader then "Current option settings\n" else ""
  let _ ← print (head ++ String.join lines).toList

/-- Options from letters, and the names of those that are given by name. -/
def setLetters (invoked on : Bool) : List Char → List Octets → Exec Unit
  | [], _ => return
  | 'o' :: letters, [] => do
    listOptions on
    setLetters invoked on letters []
  | 'o' :: letters, name :: names => do
    setNamed name on
    setLetters invoked on letters names
  | l :: letters, names => do
    if !(invoked && (l = 'c' || l = 'l')) then
      if (optionLetters.find? (·.1 = l)).isNone then fault ("Illegal option -".toList ++ [l])
      setOption l on
    setLetters invoked on letters names

/--
Options at the front of the arguments, those that a shell is `invoked` with or those of `set`, and
the arguments after them. What is told besides is for an invoked shell whether one of them asks for
a script, and for `set` whether the arguments go even if there are no others.
-/
def takeOptions (invoked told : Bool) : List Octets → Exec (Bool × List Octets)
  | [] => return (told, [])
  | ['-'] :: rest => do
    if !invoked then
      setOption 'x' false
      setOption 'v' false
    return (told, rest)
  | ['-', '-'] :: rest => return (told || !invoked, rest)
  | [] :: rest => return (told, [] :: rest)
  | (sign :: letters) :: rest => do
    if sign = '-' || sign = '+' then
      let names := letters.count 'o'
      setLetters invoked (sign = '-') letters (rest.take names)
      takeOptions invoked (told || (invoked && letters.contains 'c')) (rest.drop names)
    else return (told, (sign :: letters) :: rest)
  termination_by arguments => arguments.length
  decreasing_by simp only [List.length_drop, List.length_cons]; omega

/-- Options and arguments of the shell. -/
def set (arguments : List Octets) : Exec Nat := do
  let (told, rest) ← takeOptions false false arguments
  if told || !rest.isEmpty then setShell fun s => { s with arguments := rest }
  return 0

/-- A name that is none. -/
def badName {α : Type} (name : Octets) : Exec α := fault (name ++ ": bad variable name".toList)

/-- Variables or functions go. -/
def unset (arguments : List Octets) : Exec Nat := do
  let (letters, names) ← options ['f', 'v'] arguments
  for name in names do
    if letters.contains 'f' then
      setShell fun s => { s with functions := s.functions.filter (·.1 ≠ name) }
    else
      if !isName name then badName name
      if let some (_, v) := (← shell).bindings.find? (·.1 = name) then
        if v.fixed then fault (name ++ ": is read only".toList)
      putVariable name none
  return 0

/-- The name and the value of an argument that may assign. -/
def assigning (s : Octets) : Octets × Option Octets :=
  let name := s.takeWhile (· ≠ '=')
  (name, if name.length < s.length then some (s.drop (name.length + 1)) else none)

/-- A text in single quotes for a shell. -/
def inQuotes (s : Octets) : Octets :=
  '\'' :: s.flatMap (fun c => if c = '\'' then "'\"'\"'".toList else [c]) ++ ['\'']

/-- Variables get a mark, and perhaps a value; without names, those that have it are listed. -/
def marking (word : String) (has : Variable → Bool) (mark : Variable → Variable)
    (arguments : List Octets) : Exec Nat := do
  let (letters, names) ← options ['p'] arguments
  if letters.contains 'p' || names.isEmpty then
    let marked := (← shell).bindings.filter fun (_, v) => has v
    let sorted := marked.mergeSort fun (a, _) (b, _) => !decide (b < a)
    let lines := sorted.flatMap fun (name, v) =>
      (word ++ " ").toList ++ name ++ (match v.value with
        | some s => '=' :: inQuotes s
        | none => []) ++ ['\n']
    print lines
  else
    for a in names do
      let (name, value) := assigning a
      if !isName name then badName name
      if let some v := value then assign name v
      let before := ((← shell).bindings.find? (·.1 = name)).map (·.2)
      putVariable name (some (mark (before.getD { value := none })))
    return 0

/-- Variables that are restored when the function ends. -/
def local_ (arguments : List Octets) : Exec Nat := do
  if (← shell).locals.isEmpty then fault "not in a function".toList
  for a in arguments do
    let (name, value) := assigning a
    if !isName name then badName name
    setShell fun s =>
      let before := (s.bindings.find? (·.1 = name)).map (·.2)
      { s with locals := match s.locals with
        | [] => []
        | l :: rest => ((name, before) :: l) :: rest }
    if let some v := value then assign name v
  return 0

/-! ## Reading -/

/-- Take the bytes up to a line end from what is in a pipe, and the time of the last of them. -/
def takeLine : List (Time × Octets) → Octets × Time × Bool × List (Time × Octets)
  | [] => ([], 0, false, [])
  | (time, s) :: rest =>
    let front := s.takeWhile (· ≠ '\n')
    if front.length < s.length then
      let left := s.drop (front.length + 1)
      (front, time, true, if left.isEmpty then rest else (time, left) :: rest)
    else
      let (more, last, whole, rest) := takeLine rest
      (front ++ more, max time last, whole, rest)

/-- A line without backslashes that quote, which may join it to the next ones. -/
def unquoteLine (raw : Bool) : Octets → List (Bool × Char)
  | [] => []
  | '\\' :: c :: s =>
    if raw then (false, '\\') :: unquoteLine raw (c :: s) else (true, c) :: unquoteLine raw s
  | '\\' :: [] => if raw then [(false, '\\')] else []
  | c :: s => (false, c) :: unquoteLine raw s

/-- Give the fields of a line to variables, the last of which gets all that is left. -/
def assignFields (separators : Octets) : List Octets → List (Bool × Char) → Exec Unit
  | [], _ => return
  | [name], line => do
    let blank := fun (m : Bool × Char) =>
      !m.1 && separators.contains m.2 && [' ', '\t', '\n'].contains m.2
    assign name (((line.dropWhile blank).reverse.dropWhile blank).reverse.map (·.2))
  | name :: names, line => do
    let separator := fun (m : Bool × Char) => !m.1 && separators.contains m.2
    let blank := fun (m : Bool × Char) => separator m && [' ', '\t', '\n'].contains m.2
    let line := line.dropWhile blank
    let field := line.takeWhile fun m => !separator m
    let rest := (line.drop field.length).dropWhile blank
    let rest := match rest with
      | m :: more => if separator m then more else rest
      | [] => []
    assign name (field.map (·.2))
    assignFields separators names rest

/-- Read a line from standard input. -/
def read (arguments : List Octets) : Exec Nat := do
  let (letters, names) ← options ['r', 'p'] arguments
  let names := if letters.contains 'p' then names.tail else names
  if names.isEmpty then fault "arg count".toList
  let (line, whole) ← match ← place? 0 with
    | some (.pipe n) => do
      let w := (← get).world
      let (line, time, whole, rest) := takeLine (w.pipe n)
      setWorld fun w => w.setPipe n rest
      waitUntil (if whole then time else max time (w.lastHold (.pipe n)))
      pure (line, whole)
    | some (.terminal _) => throw .endless
    | _ => pure ([], false)
  for name in names do
    if !isName name then badName name
  let line := line.filter (· ≠ '\x00')
  assignFields (← separators) names (unquoteLine (letters.contains 'r') line)
  return if whole then 0 else 1

/-! ## Signals and processes -/

/-- What to do at signals. -/
def trap (arguments : List Octets) : Exec Nat := do
  let (_, words) ← options [] arguments
  match words with
  | [] =>
    let sorted := (← shell).traps.mergeSort fun a b => a.1 ≤ b.1
    print (sorted.flatMap fun (n, action) => "trap -- ".toList ++ inQuotes action ++
      (" " ++ (if n = 0 then "EXIT" else Signal.name n) ++ "\n").toList)
  | first :: rest =>
    let single := rest.isEmpty || (Signal.ofNumber? first).isSome
    let action := if single || first = ['-'] then none else some first
    for s in (if single then words else rest) do
      match Signal.of? s with
      | none =>
        let _ ← write 2 ("trap: ".toList ++ s ++ ": bad trap\n".toList)
        return 1
      | some n =>
        setShell fun sh =>
          let others := sh.traps.filter (·.1 ≠ n)
          { sh with traps := match action with
            | some a => (n, a) :: others
            | none => others }
    return 0

/-- The shell gets a signal. -/
def receive (signal : Nat) : Exec Unit := do
  if signal = 0 then return
  let sh ← shell
  match sh.traps.find? (·.1 = signal) with
  | some (_, action) =>
    if Signal.isFinal signal then throw (.killed signal)
    if !action.isEmpty then setShell fun s => { s with pending := s.pending ++ [signal] }
  | none =>
    if Signal.isHarmless signal then return
    if Signal.stops signal then throw .endless
    throw (.killed signal)

/-- Send a signal to a process by its number: is there one? -/
def sendTo (signal : Nat) (process : Nat) : Exec Bool := do
  let sh ← shell
  let w := (← get).world
  let gone := (w.death? process).any fun d => d.time ≤ sh.reaped
  if process < 1000 || w.next ≤ process || gone then return false
  if process = sh.number then receive signal
  else if !Signal.isHarmless signal && !(sh.traps.any fun t => t.1 = signal && t.2.isEmpty) then
    setWorld fun w => w.strike ⟨process, sh.now, signal⟩
  return true

/-- Send a signal to everybody, the shell itself the last. -/
def sendToAll (signal : Nat) : Exec Unit := do
  let sh ← shell
  for n in List.range ((← get).world.next - 1000) do
    if n + 1000 ≠ sh.number then let _ ← sendTo signal (n + 1000)
  let _ ← sendTo signal sh.number

/-- How `kill` is to be used. -/
def killUsage {α : Type} : Exec α :=
  fault ("Usage: kill [-s sigspec | -signum | -sigspec] [pid | job]... or\n" ++
    "kill -l [exitstatus]").toList

/-- The signals of `kill -l`. -/
def listSignals (arguments : List Octets) : Exec Nat := do
  match arguments with
  | [] =>
    let names := (List.range Signal.greatest).map fun n => Signal.name (n + 1) ++ "\n"
    print ("0\n" ++ String.join names).toList
  | a :: _ =>
    let n ← count a
    let n := if 128 < n then n - 128 else n
    if 0 < n && n ≤ Signal.greatest then print (Signal.name n ++ "\n").toList
    else fault ("invalid signal number or exit status: ".toList ++ a)

/-- The options of `kill`: the signal, whether to list, and the rest. -/
def killOptions : Nat → Option Nat → Bool → List Octets →
    Exec (Option Nat × Bool × List Octets)
  | 0, signal, list, rest => return (signal, list, rest)
  | _ + 1, signal, list, ['-', '-'] :: rest => return (signal, list, rest)
  | fuel + 1, signal, _, ['-', 'l'] :: rest => killOptions fuel signal true rest
  | fuel + 1, signal, _, ('-' :: 'l' :: letters) :: rest =>
    killOptions fuel signal true (('-' :: letters) :: rest)
  | fuel + 1, _, list, ('-' :: 's' :: name) :: rest => do
    let (name, rest) ← match name, rest with
      | [], [] => fault "No arg for -s option".toList
      | [], name :: rest => pure (name, rest)
      | name, rest => pure (name, rest)
    match Signal.of? name with
    | some n => killOptions fuel (some n) list rest
    | none => fault ("invalid signal number or name: ".toList ++ name)
  | _ + 1, signal, list, ('-' :: c :: cs) :: rest =>
    if cs.isEmpty && c = '-' then return (signal, list, rest)
    else fault ("Illegal option -".toList ++ [c])
  | _ + 1, signal, list, rest => return (signal, list, rest)

/-- The process that a word means. -/
def killTarget (signal : Nat) (s : Octets) : Exec Bool := do
  match s with
  | '-' :: digits =>
    let n ← count digits
    if n = (← shell).main || n ≤ 1 then
      sendToAll signal
      return true
    else sendTo signal n
  | '%' :: _ =>
    match (← shell).jobs with
    | n :: _ => sendTo signal n
    | [] => fault ("No such job: ".toList ++ s)
  | s =>
    let n ← count s
    if n = 0 then
      sendToAll signal
      return true
    else sendTo signal n

/-- Send a signal. -/
def kill (arguments : List Octets) : Exec Nat := do
  let (signal, list, rest) ← match arguments with
    | [] => killUsage
    | ('-' :: name) :: rest =>
      match Signal.of? name with
      | some n => pure (some n, false, rest)
      | none => killOptions (arguments.length + name.length + 2) none false arguments
    | rest => pure (none, false, rest)
  if list then
    if signal.isSome then killUsage
    listSignals rest
  else
    if rest.isEmpty then killUsage
    let mut status := 0
    for s in rest do
      if !(← killTarget (signal.getD 15) s) then
        warn "No such process\n".toList
        status := 1
    return status

/-- Wait for processes that were not waited for. -/
def wait (arguments : List Octets) : Exec Nat := do
  if arguments.isEmpty then
    for n in (← shell).jobs do
      if let some d := (← get).world.death? n then reapUntil d.time
    return 0
  let mut status := 0
  for a in arguments do
    let n ← match a with
      | '%' :: _ =>
        match (← shell).jobs with
        | n :: _ => pure n
        | [] => fault ("No such job: ".toList ++ a)
      | a => count a
    if (← shell).jobs.contains n then
      if let some d := (← get).world.death? n then
        reapUntil d.time
        status := statusOf d.ending
    else status := 127
  return status

/-! ## All of them -/

/-- A command of the shell: whether it is special, and what it does. -/
structure Known where
  special : Bool
  act : List Octets → Exec Nat

/-- The commands of the shell that need nothing else. -/
def known : List (String × Known) :=
  [(":", ⟨true, fun _ => return 0⟩),
    ("[", ⟨false, Test.run true⟩),
    ("alias", ⟨false, fun _ => return 0⟩),
    ("bg", ⟨false, fun _ => return 0⟩),
    ("break", ⟨true, skip false⟩),
    ("continue", ⟨true, skip true⟩),
    ("echo", ⟨false, fun arguments => print (Commands.shellEcho arguments)⟩),
    ("exit", ⟨true, exit⟩),
    ("export", ⟨true, marking "export" (·.exported) ({ · with exported := true })⟩),
    ("false", ⟨false, fun _ => return 1⟩),
    ("fg", ⟨false, fun _ => return 0⟩),
    ("hash", ⟨false, fun _ => return 0⟩),
    ("jobs", ⟨false, fun _ => return 0⟩),
    ("kill", ⟨false, kill⟩),
    ("local", ⟨true, local_⟩),
    ("printf", ⟨false, printf⟩),
    ("read", ⟨false, read⟩),
    ("readonly", ⟨true, marking "readonly" (·.fixed) ({ · with fixed := true })⟩),
    ("return", ⟨true, return_⟩),
    ("set", ⟨true, set⟩),
    ("shift", ⟨true, shift⟩),
    ("test", ⟨false, Test.run false⟩),
    ("trap", ⟨true, trap⟩),
    ("true", ⟨false, fun _ => return 0⟩),
    ("umask", ⟨false, fun arguments =>
      if arguments.isEmpty then print "0022\n".toList else return 0⟩),
    ("unalias", ⟨false, fun _ => return 0⟩),
    ("unset", ⟨true, unset⟩),
    ("wait", ⟨false, wait⟩)]

/-- The command of the shell of a name. -/
def known? (name : Octets) : Option Known := (known.find? (·.1.toList = name)).map (·.2)

end IdleWatch.Shell.Builtin
