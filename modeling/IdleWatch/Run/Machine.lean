import IdleWatch.Run.Basic
import IdleWatch.Run.Sink
import IdleWatch.Watchdog.System

/-!
# A run, step by step

A run is one supervisor, one watchdog and one child, and time. The supervisor's way is fixed: it
starts the child, arms the watchdog, and then, as long as a stream is live, waits until some are
ready, reads each of these once in order, and writes out the lines this completes one by one,
arming the watchdog anew after each. When no stream is live it cancels the watchdog, reaps the
child and judges. Whatever ends the run, the watchdog is let go of before the child.

Each step takes the watchdog's lock at most once, so the watchdog's own steps, the passing of time,
a request to shut down and the end of the child may come between any two of them. What comes from
outside (which streams are ready, what a read returned) is part of the action.
-/

namespace IdleWatch

/-- How the child stands. -/
inductive Child where
  | alive
  | exited (status : ExitStatus)
  | reaped (status : ExitStatus)
  deriving DecidableEq, Repr

/-- Where the supervisor stands. -/
inductive Stand where
  /-- About to start the child. -/
  | spawning
  /-- About to arm the watchdog for the first time. -/
  | arming
  /-- Waiting for a ready stream or a request to shut down. -/
  | waiting
  /-- Serving the streams that were ready. -/
  | serving
  /-- A line was written; about to arm the watchdog anew. -/
  | rearming
  /-- No stream is live; about to cancel the watchdog. -/
  | leaving
  /-- Waiting for the child to end. -/
  | reaping
  /-- The child is reaped; about to judge. -/
  | judging
  /-- The outcome is known; about to cancel the watchdog, should it not be cancelled yet. -/
  | dropping (outcome : Outcome)
  /-- The watchdog is cancelled; about to let go of it. -/
  | aborting (outcome : Outcome)
  /-- About to let go of the child. -/
  | releasing (outcome : Outcome)
  | ended (outcome : Outcome)
  deriving DecidableEq, Repr

/-- A run under way. -/
structure Run where
  options : Options
  dog : Watchdog.System := {}
  stand : Stand := .spawning
  /-- The readers of the streams that have not closed. -/
  live : List Reader := []
  /-- The places in `live` that were ready in this round and are still to be read. -/
  todo : List Nat := []
  /-- The places in `live` that have closed in this round, the latest first. -/
  closed : List Nat := []
  /-- The lines of the last read that are still to be written. -/
  outbox : List Line := []
  /-- The lines written. -/
  lines : Array Line := #[]
  notes : Array Note := #[]
  sink : Sink := {}
  /-- A shutdown has been asked for. -/
  requested : Bool := false
  /-- The child was killed because of that. -/
  interrupted : Bool := false
  child : Child := .alive
  effects : Array Effect := #[.entered .spawning]
  deriving DecidableEq, Repr

namespace Run

/-- What may happen next in a run. -/
inductive Action where
  /-- The child was started, or could not be. -/
  | spawned (result : Except RunError Unit)
  /-- The streams at these places in `live` are ready. -/
  | ready (places : List Nat)
  /-- Waiting for the streams failed. -/
  | unready (stream : Stream) (fault : Fault)
  /-- The supervisor takes notice of the request to shut down. -/
  | interrupt
  /-- The next ready stream is read. -/
  | read (result : ReadResult)
  /-- The supervisor takes a step that needs nothing from outside. -/
  | next
  /-- The child is reaped, or that fails. -/
  | reaped (result : Except Fault Unit)
  /-- A shutdown is asked for. -/
  | request
  /-- The child ends, by itself or killed. -/
  | exit (status : ExitStatus)
  /-- A step of the watchdog, or of time. -/
  | dog (a : Watchdog.Action)

/-- Add an effect. -/
def note (r : Run) (e : Effect) : Run := { r with effects := r.effects.push e }

/-- Enter a phase. -/
def enter (r : Run) (phase : Phase) : Run := r.note (.entered phase)

/-- At the top of the loop: wait if a stream is live, else leave. -/
def atTop (r : Run) : Run :=
  if r.live.isEmpty then { r.enter .draining with stand := .leaving }
  else { r with stand := .waiting }

/-- Without the elements at these places, which are given in decreasing order. -/
def eraseAll {α : Type} (l : List α) (places : List Nat) : List α :=
  places.foldl (fun l i => l.eraseIdx i) l

/-- Give up with an outcome. -/
def giveUp (r : Run) (outcome : Outcome) : Run := { r with stand := .dropping outcome }

/-- Arm the watchdog and go on, or give up if the deadline cannot be represented. -/
def arm (r : Run) (goOn : Run → Run) : Option Run :=
  match (r.dog.lock.arm r.dog.now r.options.idleTimeout).2,
    r.dog.step (.arm r.options.idleTimeout)
  with
  | .overflowed, some dog => some ({ r with dog }.giveUp .overflow)
  | _, some dog => some (goOn { r with dog })
  | _, none => none

/-- Write the first line of the outbox, numbered by the lines before it. -/
def write (r : Run) (line : Line) (rest : List Line) : Run :=
  let line := { line with seq := r.lines.size }
  match r.sink.accept line with
  | (sink, none) =>
    { r with sink, outbox := rest, lines := r.lines.push line, stand := .rearming }
  | (sink, some fault) => { r with sink }.giveUp (.error (.output fault))

/-- How the run ended: an expiry outweighs a shutdown. -/
def termination (r : Run) : Termination :=
  if r.dog.lock.hasFired then .idleTimeout
  else if r.interrupted then .interrupted
  else .natural

/-- The report on a reaped child: only a command that ended by itself is judged by its last line. -/
def report (r : Run) (status : ExitStatus) : Report :=
  { verdict :=
      match r.termination with
      | .natural => Verdict.ofLastLine r.lines.back? r.options.sentinel
      | .idleTimeout | .interrupted => .failure
    termination := r.termination
    exitStatus := status
    lines := r.lines.toList }

/-- The supervisor's next step, where it needs nothing from outside. -/
def next? (r : Run) : Option Run :=
  if 0 < r.dog.owed then (r.dog.step .notify).map ({ r with dog := · })
  else
    match r.stand with
    | .arming => r.arm (fun r => (r.enter .running).atTop)
    | .serving =>
      match r.outbox, r.todo with
      | line :: rest, _ => some (r.write line rest)
      | [], [] => some { r with live := eraseAll r.live r.closed, closed := [] }.atTop
      | [], _ :: _ => none
    | .rearming => r.arm ({ · with stand := .serving })
    | .leaving => (r.dog.step .cancel).map ({ r with dog := ·, stand := .reaping })
    | .judging =>
      match r.child with
      | .reaped status =>
        some { r.enter .terminated with stand := .dropping (.report (r.report status)) }
      | _ => none
    | .dropping outcome =>
      (r.dog.step .cancel).map ({ r with dog := ·, stand := .aborting outcome })
    | .aborting outcome =>
      (r.dog.step .abort).map ({ r with dog := ·, stand := .releasing outcome })
    | .releasing outcome => some { r.note .released with stand := .ended outcome }
    | _ => none

/-- The supervisor can react to these places being ready: some, in order, all of live streams. -/
def canServe (r : Run) (places : List Nat) : Bool :=
  r.stand = .waiting && r.dog.owed = 0 && !places.isEmpty &&
    decide (places.Pairwise (· < ·)) && places.all (· < r.live.length)

/-- A step that belongs to the watchdog's task or to time, not to a caller. -/
def isDogs : Watchdog.Action → Bool
  | .tick _ | .snapshot | .wake | .elapse | .expire => true
  | _ => false

/-- A step of the watchdog: if it fires, the child is killed. -/
def stepDog (r : Run) (a : Watchdog.Action) : Option Run :=
  (r.dog.step a).map fun dog =>
    let r' := { r with dog }
    if r.dog.shared.fired < dog.shared.fired then r'.note (.killed .watchdog) else r'

/-- Read the next ready stream once. -/
def readNext (r : Run) (result : ReadResult) : Option Run :=
  match r.stand, r.outbox, r.todo with
  | .serving, [], place :: todo =>
    match r.live[place]? with
    | none => none
    | some reader =>
      let stream := reader.stream
      match reader.poll result with
      | (reader, .error fault) =>
        some ({ r with live := r.live.set place reader }.giveUp (.error (.read stream fault)))
      | (reader, .ok polled) =>
        some { r with
          live := r.live.set place reader
          todo
          closed := if polled.stillOpen then r.closed else place :: r.closed
          outbox := polled.output.lines.toList
          notes := r.notes ++ polled.output.notes }
  | _, _, _ => none

/-- The run after an action, if that can happen now. -/
def step (r : Run) : Action → Option Run
  | .spawned result =>
    match r.stand, result with
    | .spawning, .ok () =>
      some { r with
        live := [.new .stdout r.options.readChunk, .new .stderr r.options.readChunk]
        stand := .arming }
    | .spawning, .error e => some { r with stand := .ended (.error e) }
    | _, _ => none
  | .ready places =>
    if r.canServe places then some { r with stand := .serving, todo := places, closed := [] }
    else none
  | .unready stream fault =>
    if r.stand = .waiting ∧ r.dog.owed = 0 then some (r.giveUp (.error (.register stream fault)))
    else none
  | .interrupt =>
    if r.stand = .waiting ∧ r.dog.owed = 0 ∧ r.requested ∧ ¬r.interrupted then
      some { r.note (.killed .shutdown) with interrupted := true }
    else none
  | .read result => if r.dog.owed = 0 then r.readNext result else none
  | .next => r.next?
  | .reaped result =>
    if r.stand = .reaping ∧ r.dog.owed = 0 then
      match result, r.child with
      | .ok (), .exited status =>
        some { r.note .reaped with child := .reaped status, stand := .judging }
      | .error fault, _ => some (r.giveUp (.error (.wait fault)))
      | _, _ => none
    else none
  | .request => some { r with requested := true }
  | .exit status =>
    match r.stand, r.child with
    | .spawning, _ => none
    | _, .alive => some { r.note .exited with child := .exited status }
    | _, _ => none
  | .dog a => if isDogs a then r.stepDog a else none

/-- Runs that actions lead to from the start with these options and sink. -/
inductive Reachable (options : Options) (sink : Sink) : Run → Prop where
  | start : Reachable options sink { options, sink }
  | step {r s : Run} {a : Action} :
      Reachable options sink r → r.step a = some s → Reachable options sink s

/-- The outcome of a run that has ended. -/
def outcome? (r : Run) : Option Outcome :=
  match r.stand with
  | .ended outcome => some outcome
  | _ => none

/-- The phases entered so far. -/
def phases (r : Run) : List Phase := r.effects.toList.filterMap Effect.phase?

/-- The kills so far. -/
def kills (r : Run) : List Killer := r.effects.toList.filterMap Effect.killer?

/-- How many bytes of unfinished lines a stream has lost. -/
def discarded (r : Run) (stream : Stream) : Nat :=
  r.notes.toList.foldl
    (fun sum n => match n with
      | .discarded s count => if s = stream then sum + count else sum
      | _ => sum) 0

/-- How many lines of a stream had bytes that are not UTF-8. -/
def replaced (r : Run) (stream : Stream) : Nat := r.notes.toList.count (.replaced stream)

end Run

end IdleWatch
