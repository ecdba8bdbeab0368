import IdleWatch.Watchdog.Script

/-!
# A timer with one deadline

The plainest thing that can be armed, cancelled and dropped on a virtual clock: one optional
deadline. A sleep fires it if the deadline comes before the sleep ends, a yield if it has come.
-/

namespace IdleWatch.Watchdog

/-- One deadline and the moments at which it was reached. -/
structure Timer where
  now : Time := 0
  deadline : Option Time := none
  /-- It cannot be armed any more. -/
  cancelled : Bool := false
  dropped : Bool := false
  /-- The latest first. -/
  fires : List Time := []
  deriving DecidableEq, Repr

namespace Timer

/-- Fire at the deadline if it comes before `time`. -/
def fireBefore (t : Timer) (time : Time) : Timer :=
  match t.deadline with
  | some d => if d < time then { t with deadline := none, fires := d :: t.fires } else t
  | none => t

/-- One act. An arm whose deadline the clock cannot represent changes nothing. -/
def perform (t : Timer) : Act → Timer
  | .arm timeout =>
    if t.cancelled then t
    else
      match Time.after? t.now timeout with
      | some d => { t with deadline := some d }
      | none => t
  | .cancel => { t with deadline := none, cancelled := true }
  | .drop => { t with deadline := none, cancelled := true, dropped := true }
  | .sleep d => { t.fireBefore (t.now + d) with now := t.now + d }
  | .yield => t.fireBefore (t.now + 1)

/-- An act fails if it is an arm whose deadline the clock cannot represent. -/
def refuses (t : Timer) : Act → Bool
  | .arm timeout => !t.cancelled && (Time.after? t.now timeout).isNone
  | _ => false

/-- What is seen of a timer. -/
def sight (t : Timer) (failed : Bool) : Sight :=
  { now := t.now
    fires := t.fires.reverse
    count := if t.dropped then none else some t.fires.length
    failed }

/-- What is seen after each act of a script. -/
def play : Timer → List Act → List Sight
  | _, [] => []
  | t, act :: rest => (t.perform act).sight (t.refuses act) :: (t.perform act).play rest

end Timer

end IdleWatch.Watchdog
