import IdleWatch.Watchdog.Shared

/-!
# A watchdog and its callers at work

Callers arm and cancel, the task takes snapshots, sleeps and expires, and time passes: each of
these is one step, and the steps may come in any order. A caller's step has two halves, what it
does while it holds the lock and the notification it sends after letting go; between the two a
notification is **owed**. A notification is stored as a **permit**, of which there is at most one,
until the task wakes by it.

A call that fails while it holds the lock leaves it **poisoned**, for good. Whoever takes the lock
from then on is told so, and gets the words behind it all the same.

Every successful arm, every failed one, the cancel and every callback leave an event in the
history, the latest first.
-/

namespace IdleWatch.Watchdog

/-- Where the task stands. -/
inductive Task where
  /-- About to take a snapshot. -/
  | starting
  /-- Asleep until a notification comes or the deadline it has seen, if any, is reached. -/
  | waiting (seen : Snapshot)
  /-- Its timer has run out, and it is about to take the lock. -/
  | expiring (generation : Nat)
  | stopped
  deriving DecidableEq, Repr

/-- What has happened while the lock was held. -/
inductive Event where
  | armed (deadline : Time)
  | overflowed
  | cancelled
  /-- The callback ran. -/
  | fired (time : Time)
  deriving DecidableEq, Repr

/-- The time of a callback. -/
def Event.fireTime? : Event → Option Time
  | .fired time => some time
  | _ => none

/-- The watchdog's shared words, its task, and what lies between the task and the callers. -/
structure System where
  now : Time := 0
  shared : Shared := {}
  /-- Somebody has failed while holding the lock. -/
  poisoned : Bool := false
  permit : Bool := false
  owed : Nat := 0
  task : Task := .starting
  history : List Event := []
  deriving DecidableEq, Repr

/-- One step of somebody. -/
inductive Action where
  /-- A caller arms, and owes a notification if that succeeds. -/
  | arm (timeout : Time)
  /-- A caller cancels, and owes a notification if it is the first to do so. -/
  | cancel
  /-- A caller sends a notification it owes. -/
  | notify
  /-- The owner lets the watchdog go, after cancelling: a task asleep is not woken any more. -/
  | abort
  /-- Time passes. -/
  | tick (d : Time)
  /-- The task takes a snapshot, and stops if there is none. -/
  | snapshot
  /-- The task uses up the permit. -/
  | wake
  /-- The task's timer runs out. -/
  | elapse
  /-- The task takes the lock and fires, unless its timer no longer counts. -/
  | expire
  deriving DecidableEq, Repr

namespace System

/-- What an attempt to take the lock gives: the words behind it, as an error if it is poisoned. -/
def tryLock (s : System) : Except Shared Shared :=
  if s.poisoned then .error s.shared else .ok s.shared

/-- Take the lock. Poison is no obstacle: the words are taken out of the error. -/
def lock (s : System) : Shared :=
  match s.tryLock with
  | .ok shared => shared
  | .error shared => shared

/-- The state after an action, if it can be done now. -/
def step (s : System) : Action → Option System
  | .arm timeout =>
    match s.lock.arm s.now timeout with
    | (_, .ignored) => some s
    | (shared, .overflowed) =>
      some { s with shared, poisoned := true, history := .overflowed :: s.history }
    | (shared, .armed deadline) =>
      some { s with shared, owed := s.owed + 1, history := .armed deadline :: s.history }
  | .cancel =>
    if s.lock.cancelled then some s
    else
      some { s with
        shared := s.lock.cancel, owed := s.owed + 1, history := .cancelled :: s.history }
  | .notify => if s.owed = 0 then none else some { s with owed := s.owed - 1, permit := true }
  | .abort =>
    if s.shared.cancelled then
      match s.task with
      | .expiring _ => some s
      | _ => some { s with task := .stopped }
    else none
  | .tick d => some { s with now := s.now + d }
  | .snapshot =>
    match s.task with
    | .starting =>
      match s.lock.snapshot with
      | some seen => some { s with task := .waiting seen }
      | none => some { s with task := .stopped }
    | _ => none
  | .wake =>
    match s.task with
    | .waiting _ => if s.permit then some { s with permit := false, task := .starting } else none
    | _ => none
  | .elapse =>
    match s.task with
    | .waiting ⟨generation, some deadline⟩ =>
      if deadline ≤ s.now then some { s with task := .expiring generation } else none
    | _ => none
  | .expire =>
    match s.task with
    | .expiring generation =>
      let s := { s with task := .starting }
      if s.lock.isCurrent generation then
        some { s with shared := s.lock.expire generation, history := .fired s.now :: s.history }
      else some s
    | _ => none

/-- The moments at which the callback ran, in order. -/
def fires (s : System) : List Time := s.history.reverse.filterMap Event.fireTime?

/-- Systems that steps lead to from the start. -/
inductive Reachable : System → Prop where
  | start : Reachable {}
  | step {s t : System} {a : Action} : Reachable s → s.step a = some t → Reachable t

end System

end IdleWatch.Watchdog
