import IdleWatch.Fault.Numbers

/-!
# Faults of system calls

A fault is what a failed system call reports: mostly an error number, sometimes only the condition
it stands for and a text. Two texts are in use for an error number: the long one ends in the
number, the short one begins with its symbol.
-/

namespace IdleWatch

/-- The conditions a reader of a stream tells apart. -/
inductive Condition where
  /-- The call was interrupted before anything happened. -/
  | interrupted
  /-- The call would have had to wait. -/
  | wouldBlock
  | other
  deriving DecidableEq, Repr

/-- Why a system call failed. -/
inductive Fault where
  | number (n : Int)
  | reported (condition : Condition) (text : String)
  deriving DecidableEq, Repr

namespace Fault

/-- No such file or directory. -/
def notFound : Fault := .number 2

/-- Input/output error: how a terminal tells its reader that the other side has hung up. -/
def hangUp : Fault := .number 5

/-- Argument list too long. -/
def tooLong : Fault := .number 7

/-- Bad file descriptor. -/
def badDescriptor : Fault := .number 9

/-- Resource temporarily unavailable. -/
def tryAgain : Fault := .number 11

/-- Permission denied. -/
def permissionDenied : Fault := .number 13

/-- Not a directory. -/
def notADirectory : Fault := .number 20

/-- Is a directory. -/
def isADirectory : Fault := .number 21

/-- The error number for too many open files. -/
def tooManyFiles : Int := 24

/-- File name too long. -/
def nameTooLong : Fault := .number 36

/-- The condition that a fault stands for. -/
def condition : Fault → Condition
  | .number n => if n = 4 then .interrupted else if n = 11 then .wouldBlock else .other
  | .reported c _ => c

/-- The error number of a fault that has one. -/
def number? : Fault → Option Int
  | .number n => some n
  | .reported .. => none

/-- The text of a fault. -/
def message : Fault → String
  | .number n =>
    let text := match entry? n with
      | some e => e.long
      | none => s!"Unknown error {n}"
    s!"{text} (os error {n})"
  | .reported _ text => text

/-- The short text of an error number. -/
def symbolic (n : Int) : String :=
  match entry? n with
  | some e => s!"{e.symbol}: {e.short}"
  | none => "UnknownErrno: Unknown errno"

end Fault

end IdleWatch
