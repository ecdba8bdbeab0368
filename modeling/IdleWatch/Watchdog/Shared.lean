/-!
# What a watchdog and its callers share

A watchdog calls back when nobody has armed it for a while. Its callers and its own task share a
few words behind a lock: the deadline, whether it was cancelled for good, how often it has fired,
and a **generation** that grows with every arm and with the cancel. The task goes to sleep on a
snapshot of these, and when its timer has run out it fires only if the generation it slept on is
still the current one.

Time is counted in milliseconds from the start of the clock. The clock holds whole seconds as
signed numbers of 64 bits, so a deadline beyond that cannot be represented.

The generation and the count of fires have no bound here, where the program has 64 bits for the one
and 32 for the other. It is assumed throughout that neither wraps around: that a watchdog is armed
and cancelled fewer than 2^64 times, and fires fewer than 2^32 times.
-/

namespace IdleWatch

/-- A moment, or a stretch of time, in milliseconds. -/
abbrev Time := Nat

/-- The first moment that the clock cannot represent. -/
def Time.limit : Time := 9223372036854775808 * 1000

/-- The moment `timeout` after `now`, if the clock can represent it. -/
def Time.after? (now timeout : Time) : Option Time :=
  if now + timeout < Time.limit then some (now + timeout) else none

/-- What is said when the clock cannot represent a deadline. -/
def Time.overflowMessage : String := "overflow when adding duration to instant"

namespace Watchdog

/-- What lies behind the lock. -/
structure Shared where
  generation : Nat := 0
  deadline : Option Time := none
  cancelled : Bool := false
  fired : Nat := 0
  deriving DecidableEq, Repr

/-- What the task goes to sleep on. -/
structure Snapshot where
  generation : Nat
  deadline : Option Time
  deriving DecidableEq, Repr

/-- How an attempt to arm ended. -/
inductive Arming where
  /-- The watchdog was cancelled before, so nothing happened. -/
  | ignored
  /-- The deadline is set. -/
  | armed (deadline : Time)
  /-- There is no such moment; the old deadline stays. -/
  | overflowed
  deriving DecidableEq, Repr

namespace Shared

/-- Arm at `now`: a new generation, then the new deadline if there is one. -/
def arm (s : Shared) (now timeout : Time) : Shared × Arming :=
  if s.cancelled then (s, .ignored)
  else
    let s := { s with generation := s.generation + 1 }
    match Time.after? now timeout with
    | some deadline => ({ s with deadline := some deadline }, .armed deadline)
    | none => (s, .overflowed)

/-- Disarm for good. -/
def cancel (s : Shared) : Shared :=
  if s.cancelled then s
  else { s with cancelled := true, generation := s.generation + 1, deadline := none }

/-- What the task sees; nothing once the watchdog is cancelled. -/
def snapshot (s : Shared) : Option Snapshot :=
  if s.cancelled then none else some { generation := s.generation, deadline := s.deadline }

/-- A timer set in `generation` still counts. -/
def isCurrent (s : Shared) (generation : Nat) : Bool :=
  !s.cancelled && s.generation == generation

/-- The timer set in `generation` has run out: fire, unless it no longer counts. -/
def expire (s : Shared) (generation : Nat) : Shared :=
  if s.isCurrent generation then { s with deadline := none, fired := s.fired + 1 } else s

/-- It has fired at least once. -/
def hasFired (s : Shared) : Bool := 0 < s.fired

end Shared

end Watchdog

end IdleWatch
