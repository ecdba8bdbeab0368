import IdleWatch.Run.Machine
import IdleWatch.Watchdog.Schedule

/-!
# A run on a virtual clock

Here the supervisor goes on as far as it can whenever something has come from outside, and the
watchdog acts as soon as its deadline is reached. So a run is told what happens and when: time
passes, streams are read, a shutdown is asked for.
-/

namespace IdleWatch.Run

/-- Do an action, if it can happen now. -/
def act (r : Run) (a : Action) : Run := (r.step a).getD r

/-- The supervisor takes at most so many steps of its own. -/
def goOn : Nat → Run → Run
  | 0, r => r
  | fuel + 1, r =>
    match r.next? with
    | some r => goOn fuel r
    | none => r

/--
The supervisor goes on until it needs something from outside. Each line takes three steps (it is
written, the watchdog is armed, the notification sent); leaving the loop or giving up takes a few
more.
-/
def proceed (r : Run) : Run := r.goOn (3 * r.outbox.length + 12)

/-- The watchdog's task, which takes its timer first when it may go by that or by a permit. -/
def dogTask (_ : Watchdog.System) : Bool := true

/-- The watchdog's task does at most so many steps. -/
def runDog : Nat → Run → Run
  | 0, r => r
  | fuel + 1, r =>
    match r.dog.next? dogTask with
    | some a => runDog fuel (r.act (.dog a))
    | none => r

/-- The watchdog's task runs until it has to wait. -/
def settle (r : Run) : Run := r.runDog 8

/-- The clock moves on to a later moment. -/
def advanceTo (r : Run) (time : Time) : Run := r.act (.dog (.tick (time - r.dog.now)))

/-- Time passes, and a deadline that is reached on the way takes effect at its own time. -/
def pass (r : Run) (d : Time) : Run :=
  let target := r.dog.now + d
  let r := r.settle
  let r := match r.dog.alarm? with
    | some time => if time ≤ target then (r.advanceTo time).settle else r
    | none => r
  r.advanceTo target

/-- The child was started, and the supervisor goes on to wait for it. -/
def begin (r : Run) : Run := (r.act (.spawned (.ok ()))).proceed

/-- The streams at these places are ready, and each read returns what is given with its place. -/
def serve (r : Run) (reads : List (Nat × ReadResult)) : Run :=
  reads.foldl (fun r read => (r.act (.read read.2)).proceed)
    (r.act (.ready (reads.map Prod.fst))).proceed

/-- A shutdown is asked for, and the supervisor takes notice if it still listens. -/
def shutDown (r : Run) : Run := ((r.act .request).act .interrupt).proceed

/-- The child has come to its end, and is reaped if the supervisor waits for that. -/
def childEnds (r : Run) (status : ExitStatus) : Run := r.act (.exit status)

/-- The child is reaped if it has ended and the supervisor waits for that. -/
def reap (r : Run) : Run := (r.act (.reaped (.ok ()))).proceed

end IdleWatch.Run
