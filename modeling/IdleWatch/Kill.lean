import IdleWatch.Run.Basic

/-!
# Killing a process by its number

A kill goes to one process or to the group of its number. A process that has ended keeps its number
until it is reaped, so a kill still finds it, without effect. A kill that finds nobody is as good
as one that does.
-/

namespace IdleWatch.Kill

/-- How the target stands. -/
inductive Target where
  | live
  /-- It has ended and is not reaped. -/
  | zombie
  | reaped
  /-- There never was a process of that number. -/
  | nonexistent
  deriving DecidableEq, Repr

/-- Who is meant: one process or a group, and whether there is a group of that number. -/
structure Aim where
  group : Bool := true
  ownGroup : Bool := true
  deriving DecidableEq, Repr

/-- The kill finds somebody. -/
def finds (aim : Aim) : Target → Bool
  | .live | .zombie => !aim.group || aim.ownGroup
  | .reaped | .nonexistent => false

/-- How the target stands after a kill. -/
def struck (aim : Aim) : Target → Target
  | .live => if finds aim .live then .zombie else .live
  | t => t

/-- How many of so many kills find nobody. -/
def misses (aim : Aim) : Nat → Target → Nat
  | 0, _ => 0
  | times + 1, t => (if finds aim t then 0 else 1) + misses aim times (struck aim t)

/-- How the target's own parent sees it end, if it has ever lived: by code or by signal. -/
def ending : Target → Option (ExitStatus × Option Nat)
  | .live => some (none, some 9)
  | .zombie | .reaped => some (some 0, none)
  | .nonexistent => none

end IdleWatch.Kill
