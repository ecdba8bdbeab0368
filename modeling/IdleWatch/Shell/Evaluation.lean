import IdleWatch.Shell.Builtin
import IdleWatch.Shell.Program
import IdleWatch.Shell.Reader
import IdleWatch.Shell.Redirect

/-!
# What shells do

Commands are carried out with fuel, which bounds how deeply they nest and how often a loop goes
round. What runs out of it is taken to go on for ever.

A program runs in a process of its own. But a process that was split off from a shell becomes the
program that it has to run last.
-/

namespace IdleWatch.Shell

open Text (Octets)
open Exec

/-- How a command stands among those that are carried out. -/
structure Role where
  /-- Its status decides something, so that a failure does not end the shell. -/
  tested : Bool := false
  /-- Its process was split off and has nothing to do after it. -/
  last : Bool := false
  deriving DecidableEq, Repr

/-- The role of a command in the middle of one. -/
def Role.inside (role : Role) : Role := { role with last := false }

/-- The role of a condition. -/
def Role.condition : Role := { tested := true }

/-- The role of all that a process has to do that was split off. -/
def Role.whole : Role := { last := true }

/-- Do something, and see how that ended. -/
def observe {α : Type} (act : Exec α) : Exec (Except Interrupt α) := fun s =>
  let (r, s) := act.run.run s
  (.ok r, s)

/-- Go on in the way something ended. -/
def resume {α : Type} : Except Interrupt α → Exec α
  | .ok a => return a
  | .error i => throw i

/-- A shell that ends at failures ends if the status is one. -/
def checkFailure (role : Role) : Exec Unit := do
  let sh ← shell
  if !role.tested && sh.status ≠ 0 && sh.options.contains 'e' then throw .exit

/-- A line of the script is reached. -/
def setLine (line : Nat) : Exec Unit := setShell fun s => { s with line }

/-- The shell goes back to what it was, unless it has become another program. -/
def restoring {α : Type} (restore : Exec Unit) (act : Exec α) : Exec α := do
  let r ← observe act
  match r with
  | .error (.replaced i) => throw (.replaced i)
  | r =>
    restore
    resume r

/-- Descriptors lead elsewhere while something is done. -/
def withDescriptors {α : Type} (act : Exec α) : Exec α := do
  let before := (← shell).descriptors
  restoring (setShell fun s => { s with descriptors := before }) act

/-- Variables are given values while something is done. -/
def withVariables {α : Type} (values : List (Octets × Octets)) (act : Exec α) : Exec α := do
  let before := (← shell).bindings
  for (name, value) in values do
    assign name value
    let v := ((← shell).bindings.find? (·.1 = name)).map (·.2)
    putVariable name (v.map fun v => { v with exported := true })
  restoring
    (for (name, _) in values do putVariable name ((before.find? (·.1 = name)).map (·.2)))
    act

/-- Show a command that is about to be carried out, if that is wanted. -/
def trace (place : Option Place) (values : List (Octets × Octets)) (words : List Octets) :
    Exec Unit := do
  if (← shell).options.contains 'x' then
    let head := (← valueOf? "PS4".toList).getD []
    let parts := values.map (fun (name, value) => name ++ '=' :: value) ++ words
    if let some p := place then writeTo p (head ++ [' '].intercalate parts ++ ['\n'])

/-- A command of the shell itself. A fault in one that is not special is caught. -/
def perform (name : Octets) (special : Bool) (act : Exec Nat) : Exec Unit := do
  let before := (← shell).command
  setShell fun s => { s with command := some name }
  let r ← observe act
  setShell fun s => { s with command := before }
  match r with
  | .ok status => setStatus status
  | .error .fault => if special then throw .fault
  | .error i => throw i

/-- The variables that a program sees. -/
def exportedVariables (vs : List (Octets × Variable)) : List (Octets × Variable) :=
  vs.filter fun (_, v) => v.exported && v.value.isSome

/-- The shell that a process is when its program has been loaded. -/
def bare (sh : Process) : Process :=
  { sh with
    now := sh.now + loadDelay
    bindings := exportedVariables sh.bindings
    functions := [], options := [], locals := [], command := none, traps := keptTraps sh.traps }

/-- The shell has plans to act on. -/
def hasPlans (sh : Process) : Bool := sh.traps.any fun (_, action) => !action.isEmpty

/-- What a shell is to carry out: the script of its arguments, or what it reads. -/
def invocationScript (wants : Bool) (rest : List Octets) : Exec Octets := do
  match wants, rest with
  | true, [] => fault "-c requires an argument".toList
  | true, script :: rest =>
    if let name :: rest := rest then
      setShell fun s => { s with name, arguments := rest }
    return script
  | false, path :: _ =>
    if !(← shell).options.contains 's' then
      if Test.isDirectory path then return []
      fault ("cannot open ".toList ++ path ++ ": No such file".toList)
    setShell fun s => { s with arguments := rest }
    return []
  | false, [] =>
    match ← place? 0 with
    | some (.pipe n) =>
      let w := (← get).world
      setWorld fun w => w.setPipe n []
      waitUntil (w.lastHold (.pipe n))
      return (w.pipe n).flatMap (·.2)
    | _ => return []

/-- The variables that every shell has. -/
def usualVariables : List (Octets × Variable) :=
  [("IFS", " \t\n"), ("OPTIND", "1"), ("PS1", "# "), ("PS2", "> "), ("PS4", "+ ")].map
    fun (name, value) => (name.toList, { value := some value.toList })

/-- Why a program cannot be started, and the status that tells it. -/
def refusal (name : Octets) : String × Nat :=
  let fault := Program.startFault name
  if name.isEmpty then ("Permission denied", 127)
  else if fault = .permissionDenied && name.contains '/' then ("Permission denied", 126)
  else if fault = .nameTooLong && name.contains '/' then ("File name too long", 127)
  else ("not found", 127)

/-- A program does not exist, or cannot be run. -/
def missing (name : Octets) : Exec Unit := do
  let (why, status) := refusal name
  warn (name ++ (": " ++ why).toList)
  setStatus status

/-- The name and the value of an assignment. -/
def valueOf (run : Command → Exec Octets) (fuel : Nat) (w : Word) :
    Exec (Option (Octets × Octets)) := do
  match assignmentWord? w with
  | some (name, w) => return some (name, ← expandText run fuel w)
  | none => return none

/-- How deeply calls of functions can nest. -/
def callLimit : Nat := 1000

mutual

/-- The output of a command, which runs in a shell of its own. -/
def substitute : Nat → Command → Exec Octets
  | 0, _ => throw .endless
  | fuel + 1, command => do
    let number ← newPipe []
    let death ← inChild
      (fun sh => { sh with
        descriptors := (1, .pipe number) :: sh.descriptors.filter (·.1 ≠ 1) })
      (finishing fuel (evaluate fuel .whole command))
    let w := (← get).world
    waitUntil (w.lastHold (.pipe number))
    setWorld fun w => w.dropPipe number
    let status := (← shell).status
    waitForAll [death]
    setShell fun sh => { sh with taken := sh.status, status }
    let s := ((w.pipe number).flatMap (·.2)).filter (· ≠ '\x00')
    return (s.reverse.dropWhile (· = '\n')).reverse

/-- A shell's life, with what it has planned for its end. -/
def finishing : Nat → Exec Unit → Exec Unit
  | 0, _ => throw .endless
  | fuel + 1, act => do
    let r ← observe act
    match r with
    | .error (.killed n) => throw (.killed n)
    | .error .endless => throw .endless
    | .error (.replaced i) => throw (.replaced i)
    | r =>
      let sh ← shell
      match sh.traps.find? (·.1 = 0) with
      | some (_, action) =>
        setShell fun s => { s with traps := s.traps.filter (·.1 ≠ 0) }
        runScript fuel {} action
        setStatus sh.status
      | none => resume r

/-- What is planned for signals that have come. -/
def runTraps : Nat → Exec Unit
  | 0 => throw .endless
  | fuel + 1 => do
    let sh ← shell
    match sh.pending with
    | [] => return
    | n :: rest =>
      setShell fun s => { s with pending := rest }
      match sh.traps.find? (·.1 = n) with
      | some (_, action) =>
        runScript fuel {} action
        setStatus sh.status
        runTraps fuel
      | none => runTraps fuel

/-- The lines of a script, one after another; if there is nothing in them, all is well. -/
def runLines : Nat → Role → Bool → Reading → Exec Unit
  | 0, _, _, _ => throw .endless
  | fuel + 1, role, ran, r => do
    match r.next? with
    | .error complaint =>
      setLine complaint.line
      fault ("Syntax error: " ++ complaint.text).toList
    | .ok (none, _) => if !ran then setStatus 0
    | .ok (some command, r) =>
      setShell fun s => { s with documents := r.documents, reached := r.line }
      evaluate fuel role command
      runLines fuel role (ran || !command matches .nothing) r

/-- A script. -/
def runScript : Nat → Role → Octets → Exec Unit
  | 0, _, _ => throw .endless
  | fuel + 1, role, s => do
    let sh ← shell
    runLines fuel role false { input := s, documents := sh.documents, count := sh.documents.length }
    setShell fun s => { s with reached := sh.reached }

/-- Carry out a command, and what is planned for signals that come meanwhile. -/
def evaluate : Nat → Role → Command → Exec Unit
  | 0, _, _ => throw .endless
  | fuel + 1, role, command => do
    if (← shell).options.contains 'n' then return
    match command with
    | .nothing => return
    | .negated c =>
      evaluate fuel .condition c
      let status := (← shell).status
      setStatus (if status = 0 then 1 else 0)
    | .both a b =>
      evaluate fuel .condition a
      if (← shell).status = 0 then evaluate fuel role b
    | .either a b =>
      evaluate fuel .condition a
      if (← shell).status ≠ 0 then evaluate fuel role b
    | .sequence a b =>
      evaluate fuel role.inside a
      evaluate fuel role b
    | .choice condition yes no =>
      evaluate fuel .condition condition
      if (← shell).status = 0 then evaluate fuel role yes
      else if no matches .nothing then setStatus 0
      else evaluate fuel role no
    | .loop negated condition body =>
      setShell fun s => { s with loops := s.loops + 1 }
      let r ← observe (runLoop fuel role.inside negated condition body 0)
      setShell fun s => { s with loops := s.loops - 1 }
      resume r
    | .each line name words body =>
      setLine line
      let fields ← words.flatMapM (expandFields (substitute fuel) fuel)
      setShell fun s => { s with loops := s.loops + 1 }
      let r ← observe (runEach fuel role.inside name fields body)
      setShell fun s => { s with loops := s.loops - 1 }
      resume r
    | .cases line word items =>
      setLine line
      let s ← expandText (substitute fuel) fuel word
      runCases fuel role s items
    | .define name body =>
      setShell fun s => { s with functions := (name, body) :: s.functions.filter (·.1 ≠ name) }
      setStatus 0
    | .redirected line c rs =>
      setLine line
      let plans ← rs.mapM (planOf (substitute fuel) fuel)
      withDescriptors do
        match ← observe (plans.forM (carryOut (substitute fuel) fuel true)) with
        | .ok () => evaluate fuel role.inside c
        | .error .fault => setStatus 2
        | .error i => throw i
    | .subshell line c rs =>
      setLine line
      let plans ← rs.mapM (planOf (substitute fuel) fuel)
      let act : Exec Unit := do
        plans.forM (carryOut (substitute fuel) fuel false)
        evaluate fuel { role with last := true } c
      let sh ← shell
      if role.last && !hasPlans sh then
        setShell splitOff
        match ← observe act with
        | .ok () | .error (.skip ..) | .error .back => throw .exit
        | .error i => throw i
      else
        let death ← inChild id (finishing fuel act)
        waitForAll [death]
        checkFailure role
    | .background line c rs =>
      setLine (max line (← shell).line)
      let plans ← rs.mapM (planOf (substitute fuel) fuel)
      let death ← inChild
        (fun sh => { sh with descriptors := (0, .void) :: sh.descriptors.filter (·.1 ≠ 0) })
        (finishing fuel do
          plans.forM (carryOut (substitute fuel) fuel false)
          evaluate fuel .whole c)
      setShell fun s =>
        { s with jobs := death.process :: s.jobs, background := some death.process }
      setStatus 0
    | .pipeline cs background =>
      let stdin ← if background then pure (some Place.void) else place? 0
      let deaths ← runPipeline fuel { role with last := true } stdin cs
      if background then
        let number := deaths.getLast?.map Death.process
        setShell fun s => { s with jobs := number.toList ++ s.jobs, background := number }
        setStatus 0
      else
        waitForAll deaths
        checkFailure role
    | .simple line assignments words rs => runSimple fuel role line assignments words rs
    runTraps fuel

/-- The rounds of a loop, with the status of the last. -/
def runLoop : Nat → Role → Bool → Command → Command → Nat → Exec Unit
  | 0, _, _, _, _, _ => throw .endless
  | fuel + 1, role, negated, condition, body, last => do
    let round : Exec Bool := do
      evaluate fuel .condition condition
      let status := (← shell).status
      if (status = 0) = negated then
        setStatus last
        return false
      evaluate fuel role body
      return true
    match ← observe round with
    | .ok true => runLoop fuel role negated condition body (← shell).status
    | .ok false => return
    | .error (.skip n again) =>
      if 1 < n then throw (.skip (n - 1) again)
      if again then runLoop fuel role negated condition body (← shell).status
    | .error i => throw i

/-- A body for each of some words. -/
def runEach : Nat → Role → Octets → List Octets → Command → Exec Unit
  | 0, _, _, _, _ => throw .endless
  | _ + 1, _, _, [], _ => setStatus 0
  | fuel + 1, role, name, s :: rest, body => do
    assign name s
    let go ← match ← observe (evaluate fuel role body) with
      | .ok () => pure true
      | .error (.skip n again) =>
        if 1 < n then throw (.skip (n - 1) again)
        pure again
      | .error i => throw i
    if go && !rest.isEmpty then runEach fuel role name rest body

/-- The first case with a pattern that a text matches. -/
def runCases : Nat → Role → Octets → List (List Word × Command) → Exec Unit
  | 0, _, _, _ => throw .endless
  | _ + 1, _, _, [] => setStatus 0
  | fuel + 1, role, s, (patterns, body) :: rest => do
    if ← matchesAny fuel s patterns then
      if body matches .nothing then setStatus 0 else evaluate fuel role body
    else runCases fuel role s rest

/-- A text matches one of some patterns, which are expanded one by one. -/
def matchesAny : Nat → Octets → List Word → Exec Bool
  | 0, _, _ => throw .endless
  | _ + 1, _, [] => return false
  | fuel + 1, s, w :: rest => do
    let p ← expandPattern (substitute fuel) fuel w
    if p.matches s then return true
    matchesAny fuel s rest

/-- The parts of a pipeline, each in a process of its own; how they end. -/
def runPipeline : Nat → Role → Option Place → List Command → Exec (List Death)
  | 0, _, _, _ => throw .endless
  | _ + 1, _, _, [] => return []
  | fuel + 1, role, stdin, c :: rest => do
    let number ← newPipe []
    let lead := fun (sh : Process) =>
      let others := sh.descriptors.filter fun (d, _) => d ≠ 0 && (d ≠ 1 || rest.isEmpty)
      let out := if rest.isEmpty then [] else [(1, Place.pipe number)]
      { sh with descriptors := (stdin.map fun p => (0, p)).toList ++ out ++ others }
    let death ← inChild lead (finishing fuel (evaluate fuel role c))
    let deaths ← runPipeline fuel role (some (.pipe number)) rest
    setWorld fun w => w.dropPipe number
    return death :: deaths

/-- A command of words: what it is is told by the first of its fields. -/
def runSimple : Nat → Role → Nat → List Word → List Word → List Redirection → Exec Unit
  | 0, _, _, _, _, _ => throw .endless
  | fuel + 1, role, line, assignments, words, rs => do
    setLine line
    setShell fun s => { s with taken := 0 }
    let fields ← words.flatMapM (expandFields (substitute fuel) fuel)
    let plans ← rs.mapM (planOf (substitute fuel) fuel)
    let shown ← place? 2
    let special := match fields with
      | [] => false
      | name :: _ => specialBuiltins.contains (String.ofList name) || name = "local".toList
    let keeps := fields = ["exec".toList]
    let act : Exec Unit := do
      match ← observe (plans.forM (carryOut (substitute fuel) fuel true)) with
      | .error .fault =>
        setStatus 2
        if special then throw .fault
      | .error i => throw i
      | .ok () =>
        match fields with
        | [] => runAssignments fuel shown assignments
        | name :: arguments =>
          let values ← assignments.filterMapM (valueOf (substitute fuel) fuel)
          trace shown values fields
          if special then
            for (n, v) in values do assign n v
            runCommand fuel role true name arguments
          else withVariables values (runCommand fuel role true name arguments)
    if keeps then act else withDescriptors act
    checkFailure role

/-- Assignments that stay, one after another, so that a later word sees an earlier value. -/
def runAssignments : Nat → Option Place → List Word → Exec Unit
  | 0, _, _ => throw .endless
  | fuel + 1, shown, ws => do
    let values ← ws.filterMapM fun w => do
      let value ← valueOf (substitute fuel) fuel w
      if let some (name, s) := value then assign name s
      return value
    if !values.isEmpty then trace shown values []
    setStatus (← shell).taken

/-- A function, a command of the shell, or a program. -/
def runCommand : Nat → Role → Bool → Octets → List Octets → Exec Unit
  | 0, _, _, _, _ => throw .endless
  | fuel + 1, role, functions, name, arguments => do
    let function := ((← shell).functions.find? (·.1 = name)).map (·.2)
    match (if functions then function else none), String.ofList name with
    | some body, _ => callFunction fuel role.inside body arguments
    | none, "eval" =>
      perform name true do
        runScript fuel role.inside ([' '].intercalate arguments)
        return (← shell).status
    | none, "exec" => if arguments.isEmpty then setStatus 0 else replace fuel name arguments
    | none, "command" => runPlain fuel role arguments
    | none, "." =>
      perform name true do
        match arguments with
        | [] => return 0
        | path :: _ =>
          if path.contains '/' then fault ("cannot open ".toList ++ path ++ ": No such file".toList)
          else fault (path ++ ": not found".toList)
    | none, _ =>
      match Builtin.known? name with
      | some known => perform name known.special (known.act arguments)
      | none =>
        match Program.find? name with
        | none => missing name
        | some program =>
          if role.last && !hasPlans (← shell) then become fuel program name arguments
          else
            let death ← inChild bare (runProgram fuel program name arguments)
            waitForAll [death]

/-- A command that is no function, or the question what a name means. -/
def runPlain : Nat → Role → List Octets → Exec Unit
  | 0, _, _ => throw .endless
  | fuel + 1, role, arguments => do
    match arguments with
    | ['-', 'v'] :: name :: _ =>
      let sh ← shell
      let isKnown := (Builtin.known? name).isSome || (sh.functions.any (·.1 = name)) ||
        specialBuiltins.contains (String.ofList name) || (Keyword.ofText? name).isSome
      if isKnown then setStatus (← Builtin.print (name ++ ['\n']))
      else if (Program.find? name).isSome then
        let path := if name.contains '/' then name else "/usr/bin/".toList ++ name
        setStatus (← Builtin.print (path ++ ['\n']))
      else setStatus 127
    | ['-', '-'] :: rest | ['-', 'p'] :: rest => runPlain fuel role rest
    | name :: rest => runCommand fuel role false name rest
    | [] => setStatus 0

/-- A function, with arguments and variables of its own. Calls do not nest without a bound. -/
def callFunction : Nat → Role → Command → List Octets → Exec Unit
  | 0, _, _, _ => throw .endless
  | fuel + 1, role, body, arguments => do
    let sh ← shell
    if callLimit ≤ sh.locals.length then
      fault s!"Maximum function recursion depth ({callLimit}) reached".toList
    setShell fun s => { s with arguments, loops := 0, locals := [] :: s.locals }
    let r ← observe (evaluate fuel role body)
    for (name, v) in ((← shell).locals.head?).getD [] do putVariable name v
    setShell fun s =>
      { s with arguments := sh.arguments, loops := sh.loops, locals := s.locals.tail }
    match r with
    | .error .back => return
    | r => resume r

/-- A program in place of the shell. -/
def replace : Nat → Octets → List Octets → Exec Unit
  | 0, _, _ => throw .endless
  | fuel + 1, name, arguments => do
    match arguments with
    | [] => return
    | program :: arguments =>
      match Program.find? program with
      | some p => become fuel p program arguments
      | none =>
        setShell fun s => { s with command := some name }
        missing program
        throw .exit

/-- The process goes on as another program, to its end. -/
def become : Nat → Program.Known → Octets → List Octets → Exec Unit
  | 0, _, _, _ => throw .endless
  | fuel + 1, program, name, arguments => do
    setShell bare
    match ← observe (runProgram fuel program name arguments) with
    | .ok () => throw (.replaced .exit)
    | .error i => throw (.replaced i)

/-- What a program does; a shell carries out its script. -/
def runProgram : Nat → Program.Known → Octets → List Octets → Exec Unit
  | 0, _, _, _ => throw .endless
  | fuel + 1, program, name, arguments => do
    match program with
    | .shell =>
      setShell fun s =>
        { s with
          name, arguments := [], main := s.number, status := 0, line := 0, loops := 0, jobs := []
          background := none
          documents := [], bindings := usualVariables ++ s.bindings }
      finishing fuel do
        let (wants, rest) ← Builtin.takeOptions true false arguments
        let script ← invocationScript wants rest
        runScript fuel {} script
    | program => Program.run program name arguments

end

end IdleWatch.Shell
