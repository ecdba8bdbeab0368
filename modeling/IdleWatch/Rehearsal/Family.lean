import IdleWatch.Run.Machine

/-!
# The processes behind a run

The child may hand its work on: it forks, and either waits for the new process and then ends as
that one did, or ends at once. The new process, which now does the work and holds the streams, may
do the same. What is left to know is how the child itself stands, whether somebody else does the
work, and whether the child still waits for that work to end.
-/

namespace IdleWatch.Rehearsal

/-- How a process ends. -/
inductive Ending where
  | code (n : Nat)
  | signal (n : Nat)
  deriving DecidableEq, Repr

/-- The exit status that the process's own parent sees. -/
def Ending.status : Ending → ExitStatus
  | .code n => some n
  | .signal _ => none

/-- The exit code of a process that waited for this one: a signal is counted from 128. -/
def Ending.passedOn : Ending → ExitStatus
  | .code n => some n
  | .signal n => some (128 + n)

/-- Who does the work, seen from the child. -/
inductive Work where
  /-- The child itself. -/
  | own
  /-- Another process, which the child waits for, perhaps through others. -/
  | awaited
  /-- Another process, while the child has ended. -/
  | foreign
  deriving DecidableEq, Repr

namespace Work

/-- The worker forks, and waits for the new worker. -/
def fork : Work → Work
  | .own => .awaited
  | w => w

/-- The worker ends; the status of the child if that ends it. -/
def finish (ending : Ending) : Work → Option ExitStatus
  | .own => some ending.status
  | .awaited => some ending.passedOn
  | .foreign => none

/-- The worker forks and ends; the work goes on elsewhere. -/
def detach (ending : Ending) (w : Work) : Work × Option ExitStatus :=
  (.foreign, w.finish ending)

/--
The child is killed, with its whole group or alone: whether the worker is dead, the work that is
left, and the status of the child if it was alive.
-/
def kill (group : Bool) : Work → Bool × Work × Option ExitStatus
  | .own => (true, .own, some none)
  | .awaited => (group, .foreign, some none)
  | .foreign => (group, .foreign, none)

end Work

end IdleWatch.Rehearsal
