import IdleWatch.Watchdog.System

/-!
# A watchdog on a virtual clock

Here the task gets to run only while its caller sleeps or yields, and then it runs until it has to
wait. When its timer has run out and a permit is stored as well, it may go by either; that choice
is left to a function of the whole state, which never is the same at two such moments because the
generation has grown in between.
-/

namespace IdleWatch.Watchdog.System

/-- Do an action that is known to be possible. -/
def act (s : System) (a : Action) : System := (s.step a).getD s

/-- The task's timer has run out. -/
def isDue (s : System) : Bool :=
  match s.task with
  | .waiting ⟨_, some deadline⟩ => deadline ≤ s.now
  | _ => false

/-- What the task does next; nothing when it has to wait. -/
def next? (timerFirst : System → Bool) (s : System) : Option Action :=
  match s.task with
  | .starting => some .snapshot
  | .expiring _ => some .expire
  | .stopped => none
  | .waiting _ =>
    match s.permit, s.isDue with
    | true, true => some (if timerFirst s then .elapse else .wake)
    | true, false => some .wake
    | false, true => some .elapse
    | false, false => none

/-- The task does at most so many steps. -/
def runTask (timerFirst : System → Bool) : Nat → System → System
  | 0, s => s
  | fuel + 1, s =>
    match s.next? timerFirst with
    | some a => runTask timerFirst fuel (s.act a)
    | none => s

/--
The task runs until it has to wait. Eight steps are enough: it can use up one permit, find one
timer outdated and fire once, and each time it goes back to sleep.
-/
def settle (timerFirst : System → Bool) (s : System) : System := s.runTask timerFirst 8

/-- The moment up to which the task is asleep, if no notification comes. -/
def alarm? (s : System) : Option Time :=
  match s.task with
  | .waiting seen => seen.deadline
  | _ => none

/-- The clock moves on to a later moment. -/
def advanceTo (s : System) (time : Time) : System := s.act (.tick (time - s.now))

/--
The caller sleeps: what is due before the moment it wakes is done, at its own time. A sleep of no
length is over at once, and the task does not get to run.
-/
def sleep (timerFirst : System → Bool) (d : Time) (s : System) : System :=
  if d = 0 then s
  else
    let target := s.now + d
    let s := s.settle timerFirst
    let s := match s.alarm? with
      | some time => if time < target then (s.advanceTo time).settle timerFirst else s
      | none => s
    s.advanceTo target

/-- A caller's call, with the notification that it owes at the end. -/
def call (s : System) (a : Action) : System :=
  let s := s.act a
  if s.owed = 0 then s else s.act .notify

end IdleWatch.Watchdog.System
