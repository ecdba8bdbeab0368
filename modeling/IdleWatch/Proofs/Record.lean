import IdleWatch.Proofs.Framing
import IdleWatch.Run.Machine

/-!
# The record of a run

Two streams are read in turns, in pieces of any size, and their lines go into one list. To say what
has to come out, what has been read is recorded beside the run, round by round; a round is one
wake-up of the supervisor. The record alone then says it: in each round the lines that its bytes
complete, those of standard output first.

That no line is lost or moved from its stream is a fact about records and needs no run,
`filter_emitted`. What the run has to do with it is in `emitted_add`: if standard output is read
before standard error, and each once, the lines of a read come behind all others.
-/

namespace IdleWatch.Run

/-! ## The record of what was read -/

/-- The bytes that one round has read from each stream. -/
abbrev Round := Stream → List UInt8

/-- What a run has read, round by round. -/
structure Record where
  past : List Round := []
  /-- The round under way. -/
  now : Round := fun _ => []

namespace Record

/-- All rounds, in order. -/
def rounds (c : Record) : List Round := c.past ++ [c.now]

/-- All that was read from a stream. -/
def bytes (c : Record) (stream : Stream) : List UInt8 :=
  c.rounds.flatMap (fun round => round stream)

/-- A round begins. -/
def begin (c : Record) : Record := { past := c.past ++ [c.now] }

/-- Bytes were read from a stream. -/
def add (c : Record) (stream : Stream) (bytes : List UInt8) : Record :=
  { c with now := fun s => if s = stream then c.now s ++ bytes else c.now s }

end Record

/-- The stream that a run reads next. -/
def source? (r : Run) : Option Stream :=
  match r.todo with
  | place :: _ => r.live[place]?.map Reader.stream
  | [] => none

/-- The record after an action of the run. -/
def recorded (r : Run) (c : Record) : Action → Record
  | .ready _ => c.begin
  | .read result =>
    match r.source? with
    | some stream => c.add stream (received result)
    | none => c
  | _ => c

/-- The record of a whole run of actions. -/
def record (r : Run) (c : Record) : List Action → Record
  | [] => c
  | a :: more =>
    match r.step a with
    | some s => s.record (r.recorded c a) more
    | none => c

theorem record_of_step {r s : Run} {a : Action} (h : r.step a = some s) (c : Record)
    (more : List Action) : r.record c (a :: more) = s.record (r.recorded c a) more := by
  rw [record, h]

/-! ## What has to come out -/

/-- The lines of a stream that a round completes, when `front` is what was read before it. -/
def completed (front now : Round) (stream : Stream) : List (Stream × String) :=
  ((Framing.texts (front stream ++ now stream)).drop (Framing.texts (front stream)).length).map
    (fun text => (stream, text))

/-- The lines that rounds complete, round by round, those of standard output first in each. -/
def emitted (front : Round) : List Round → List (Stream × String)
  | [] => []
  | now :: more =>
    completed front now .stdout ++ completed front now .stderr
      ++ emitted (fun stream => front stream ++ now stream) more

theorem completed_eq (front now : Round) (stream : Stream) :
    completed front now stream
      = (Framing.texts (Framing.tail (front stream) ++ now stream)).map
          (fun text => (stream, text)) := by
  rw [completed, Framing.texts_append, List.drop_left]

/-- A round that has read nothing from a stream completes no line of it. -/
theorem completed_nil {front now : Round} {stream : Stream} (h : now stream = []) :
    completed front now stream = [] := by
  rw [completed, h, List.append_nil, List.drop_length, List.map_nil]

theorem completed_congr {front now now' : Round} {stream : Stream}
    (h : now stream = now' stream) :
    completed front now stream = completed front now' stream := by
  rw [completed, completed, h]

theorem emitted_concat (front : Round) (past : List Round) (now : Round) :
    emitted front (past ++ [now])
      = emitted front past
        ++ (completed (fun s => front s ++ past.flatMap (fun round => round s)) now .stdout
          ++ completed (fun s => front s ++ past.flatMap (fun round => round s)) now .stderr) := by
  induction past generalizing front with
  | nil => simp [emitted]
  | cons round past ih =>
      rw [List.cons_append, emitted, ih, emitted]
      simp [List.append_assoc]

/-- Of lines that are all of one stream, a filter for a stream leaves all or none. -/
theorem filter_tagged (s stream : Stream) (texts : List String) :
    ((texts.map (fun text => (s, text))).filter (fun l => l.1 = stream)).map Prod.snd
      = if s = stream then texts else [] := by
  by_cases h : s = stream
  · simp [List.filter_map, Function.comp_def, h]
  · simp [List.filter_map, Function.comp_def, h]

/-- **Each stream's lines are all there**, in order, whatever the other stream does. -/
theorem filter_emitted (front : Round) (rounds : List Round) (stream : Stream) :
    ((emitted front rounds).filter (fun l => l.1 = stream)).map Prod.snd
      = (Framing.texts (front stream ++ rounds.flatMap (fun round => round stream))).drop
          (Framing.texts (front stream)).length := by
  induction rounds generalizing front with
  | nil => simp [emitted]
  | cons now more ih =>
      have hall : Framing.texts (front stream ++ (now :: more).flatMap (fun round => round stream))
          = Framing.texts (front stream)
            ++ (Framing.texts (Framing.tail (front stream) ++ now stream)
            ++ Framing.texts (Framing.tail (front stream ++ now stream)
              ++ more.flatMap (fun round => round stream))) := by
        rw [List.flatMap_cons, ← List.append_assoc,
          Framing.texts_append (front stream ++ now stream), Framing.texts_append (front stream),
          List.append_assoc]
      have hmore := ih (fun s => front s ++ now s)
      rw [Framing.texts_append (front stream ++ now stream), List.drop_left] at hmore
      rw [hall, List.drop_left, emitted, List.filter_append, List.map_append, hmore,
        List.filter_append, List.map_append, completed_eq, completed_eq, filter_tagged,
        filter_tagged]
      cases stream with
      | stdout => simp
      | stderr => simp

/-! ## The record as it grows -/

theorem bytes_begin (c : Record) (stream : Stream) : c.begin.bytes stream = c.bytes stream := by
  simp [Record.bytes, Record.rounds, Record.begin]

/-- A round that has read nothing yet completes no line. -/
theorem emitted_begin (front : Round) (c : Record) :
    emitted front c.begin.rounds = emitted front c.rounds := by
  have hnow : c.begin.rounds = c.rounds ++ [fun _ => []] := rfl
  rw [hnow, emitted_concat, completed_nil rfl, completed_nil rfl, List.append_nil, List.append_nil]

theorem add_nil (c : Record) (stream : Stream) : c.add stream [] = c := by
  simp [Record.add]

/-- Bytes were read from a stream: they are the last of all that was read from it. -/
theorem bytes_add (c : Record) (stream : Stream) (bytes : List UInt8) (s : Stream) :
    (c.add stream bytes).bytes s = if s = stream then c.bytes s ++ bytes else c.bytes s := by
  simp only [Record.bytes, Record.rounds, Record.add, List.flatMap_append, List.flatMap_singleton]
  split
  · rw [List.append_assoc]
  · rfl

/-- **A read brings out the lines its bytes complete**, behind all others: nothing was read from
its stream in this round, nor from standard error, which comes last. -/
theorem emitted_add (c : Record) {stream : Stream} (hstream : c.now stream = [])
    (hstderr : c.now .stderr = []) (bytes : List UInt8) :
    emitted (fun _ => []) (c.add stream bytes).rounds
      = emitted (fun _ => []) c.rounds
        ++ (Framing.texts (Framing.tail (c.bytes stream) ++ bytes)).map
          (fun text => (stream, text)) := by
  have hbytes : c.bytes stream = c.past.flatMap (fun round => round stream) := by
    simp [Record.bytes, Record.rounds, hstream]
  rw [Record.rounds, Record.rounds, emitted_concat, emitted_concat, hbytes, List.append_assoc]
  refine congrArg _ ?_
  cases stream with
  | stdout =>
      have hlast : (c.add .stdout bytes).now .stderr = [] := by
        simp [Record.add, hstderr]
      rw [completed_nil hlast, completed_nil hstream, completed_nil hstderr, completed_eq]
      simp [Record.add, hstream]
  | stderr =>
      have hfirst : (c.add .stderr bytes).now .stdout = c.now .stdout := by
        simp [Record.add]
      rw [completed_congr hfirst, completed_nil hstderr, completed_eq _ (c.add _ _).now .stderr,
        List.append_nil]
      simp [Record.add, hstderr]

end IdleWatch.Run
