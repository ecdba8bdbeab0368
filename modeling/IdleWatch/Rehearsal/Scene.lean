import IdleWatch.Rehearsal.Family
import IdleWatch.Run.Schedule
import IdleWatch.Terminal

/-!
# Runs rehearsed with a scripted child

A script says what the child does, and what happens around it, one thing after another on a
virtual clock. Each thing is handled completely before the next one. The streams are two terminals;
when both have something to read they are read in turn, standard output first. The end of the
working process closes both, and a kill that reaches it ends the script.
-/

namespace IdleWatch.Rehearsal

/-- One thing that happens in a script. -/
inductive Act where
  /-- The worker writes to both streams before anything is read. -/
  | write (stdout stderr : List UInt8)
  | close (stream : Stream)
  | advance (d : Time)
  | shutDown
  | fork
  | detach (ending : Ending)
  | finish (ending : Ending)
  deriving DecidableEq, Repr

/-- A rehearsal under way. -/
structure Scene where
  run : Run
  stdout : Terminal := {}
  stderr : Terminal := {}
  work : Work := .own
  /-- The process that does the script is alive. -/
  working : Bool := true
  deriving DecidableEq, Repr

namespace Scene

/-- The terminal of a stream. -/
def terminal (s : Scene) : Stream → Terminal
  | .stdout => s.stdout
  | .stderr => s.stderr

/-- Change the terminal of a stream. -/
def setTerminal (s : Scene) (t : Terminal) : Stream → Scene
  | .stdout => { s with stdout := t }
  | .stderr => { s with stderr := t }

/-- The streams that are live and ready, with their places. -/
def ready (s : Scene) : List (Nat × Reader) :=
  (s.run.live.zipIdx.map (fun (reader, place) => (place, reader))).filter
    fun (_, reader) => (s.terminal reader.stream).isReady

/-- Read each of the ready streams once; the terminals that this leaves, and what was read. -/
def readAll (s : Scene) : List (Nat × Reader) → Scene × List (Nat × ReadResult)
  | [] => (s, [])
  | (place, reader) :: rest =>
    let (t, result) := (s.terminal reader.stream).read reader.chunk
    let (s, results) := (s.setTerminal t reader.stream).readAll rest
    (s, (place, result) :: results)

/-- The supervisor serves the ready streams, at most so many times. -/
def attendFor : Nat → Scene → Scene
  | 0, s => s
  | fuel + 1, s =>
    if s.run.stand = .waiting then
      match s.ready with
      | [] => s
      | ready =>
        let (s, reads) := s.readAll ready
        attendFor fuel { s with run := s.run.serve reads }
    else s

/--
The supervisor does all there is to do: every round reads a byte or closes a stream. Once no
stream is live, it reaps the child if that has ended.
-/
def attend (s : Scene) : Scene :=
  let s := s.attendFor (s.stdout.unread.length + s.stderr.unread.length + 3)
  { s with run := s.run.reap }

/-- The child ends with a status, if there is one. -/
def childEnds (s : Scene) : Option ExitStatus → Scene
  | some status => { s with run := s.run.childEnds status }
  | none => s

/-- The working process is gone, and with it its side of the streams. -/
def workerGone (s : Scene) : Scene :=
  { s with working := false, stdout := s.stdout.close, stderr := s.stderr.close }

/-- Kills were sent since there were `before`: they take effect. -/
def suffer (s : Scene) (before : Nat) : Scene :=
  if before < s.run.kills.length then
    let (dead, work, status) := s.work.kill s.run.options.processGroup
    let s := { s with work }.childEnds status
    if dead then s.workerGone else s
  else s

/-- One thing happens. Nothing does once the working process is gone. -/
def perform (s : Scene) (act : Act) : Scene :=
  if !s.working then s
  else
    let kills := s.run.kills.length
    match act with
    | .write out err =>
      { s with stdout := s.stdout.write out, stderr := s.stderr.write err }.attend
    | .close stream => (s.setTerminal (s.terminal stream).close stream).attend
    | .advance d => ({ s with run := s.run.pass d }.suffer kills).attend
    | .shutDown => ({ s with run := s.run.shutDown }.suffer kills).attend
    | .fork => { s with work := s.work.fork }
    | .detach ending =>
      let (work, status) := s.work.detach ending
      ({ s with work }.childEnds status).attend
    | .finish ending => (s.childEnds (s.work.finish ending)).workerGone.attend

/-- The start: the child runs and the supervisor waits for it. -/
def start (options : Options) (sink : Sink) : Scene :=
  { run := ({ options, sink : Run }).begin }

/-- The whole script, with a child that ends well when it has nothing more to do. -/
def play (s : Scene) (script : List Act) : Scene :=
  (script.foldl perform s).perform (.finish (.code 0))

/-- One thing happens; a shutdown is asked for before time passes after the first line. -/
def performInterrupted (s : Scene) (act : Act) : Scene :=
  let passes := match act with
    | .advance d => 0 < d
    | _ => false
  if passes && !s.run.lines.isEmpty && !s.run.requested then (s.perform .shutDown).perform act
  else s.perform act

/-- The whole script, with a shutdown asked for once a line is written and time is to pass. -/
def playInterrupted (s : Scene) (script : List Act) : Scene :=
  (script.foldl performInterrupted s).perform (.finish (.code 0))

end Scene

/-- Rehearse a script. -/
def rehearse (options : Options) (sink : Sink) (script : List Act) : Run :=
  ((Scene.start options sink).play script).run

/-- Rehearse a script, with a shutdown asked for once a line is written and time is to pass. -/
def rehearseInterrupted (options : Options) (sink : Sink) (script : List Act) : Run :=
  ((Scene.start options sink).playInterrupted script).run

/-- A run whose child cannot be started. -/
def stillborn (options : Options) (sink : Sink) (e : RunError) : Run :=
  ({ options, sink : Run }).act (.spawned (.error e))

end IdleWatch.Rehearsal
