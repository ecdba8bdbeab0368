import IdleWatch.Line

/-!
# The verdict on a run

A command has succeeded when the last line it wrote, on whichever stream, is exactly the sentinel.
Its exit status does not count.
-/

namespace IdleWatch

/-- Success or failure of a supervised command. -/
inductive Verdict where
  | success
  | failure
  deriving DecidableEq, Repr

namespace Verdict

/-- The verdict that the last line of a run gives. -/
def ofLastLine (last : Option Line) (sentinel : String) : Verdict :=
  match last with
  | some line => if line.text = sentinel then .success else .failure
  | none => .failure

/-- The name of a verdict. -/
def name : Verdict → String
  | .success => "Success"
  | .failure => "Failure"

/-- The exit code that tells a verdict. -/
def exitCode : Verdict → Nat
  | .success => 0
  | .failure => 1

end Verdict

end IdleWatch
