import IdleWatch.Watchdog.Schedule

/-!
# Scripts for a watchdog

A script is what one owner of a watchdog does with it on a virtual clock. After it has let the
watchdog go there is nothing left to arm or to cancel. An arm whose deadline the clock cannot
represent fails, and the script goes on.
-/

namespace IdleWatch.Watchdog

/-- One thing that the owner does. -/
inductive Act where
  | arm (timeout : Time)
  | cancel
  | drop
  | sleep (d : Time)
  | yield
  deriving DecidableEq, Repr

/-- A script under way. -/
structure Session where
  system : System := {}
  dropped : Bool := false
  deriving DecidableEq, Repr

namespace Session

/-- One act, and whether it failed. -/
def perform (timerFirst : System → Bool) (s : Session) : Act → Session × Bool
  | .arm timeout =>
    if s.dropped then (s, false)
    else
      let failed := (s.system.lock.arm s.system.now timeout).2 = .overflowed
      ({ s with system := s.system.call (.arm timeout) }, failed)
  | .cancel =>
    if s.dropped then (s, false) else ({ s with system := s.system.call .cancel }, false)
  | .drop =>
    if s.dropped then (s, false)
    else ({ system := (s.system.call .cancel).act .abort, dropped := true }, false)
  | .sleep d => ({ s with system := s.system.sleep timerFirst d }, false)
  | .yield => ({ s with system := s.system.settle timerFirst }, false)

end Session

/-- What can be seen after an act. The counters belong to the watchdog and go with it. -/
structure Sight where
  now : Time
  fires : List Time
  count : Option Nat
  failed : Bool
  deriving DecidableEq, Repr

/-- What is seen of a session. -/
def Session.sight (s : Session) (failed : Bool) : Sight :=
  { now := s.system.now
    fires := s.system.fires
    count := if s.dropped then none else some s.system.lock.fired
    failed }

/-- What is seen after each act of a script. -/
def Session.play (timerFirst : System → Bool) : Session → List Act → List Sight
  | _, [] => []
  | s, act :: rest =>
    let (s, failed) := s.perform timerFirst act
    s.sight failed :: s.play timerFirst rest

end IdleWatch.Watchdog
