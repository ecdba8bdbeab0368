import IdleWatch.Text.Octets

/-!
# Signals by number and name

A process that gets a signal dies of it, stops, or does not mind, unless it has other plans.
-/

namespace IdleWatch.Shell.Signal

open Text (Octets)

/-- The names of signals, and what is said of a process that died of one. -/
def table : List (Nat × String × String) :=
  [(1, "HUP", "Hangup"), (2, "INT", "Interrupt"), (3, "QUIT", "Quit"),
    (4, "ILL", "Illegal instruction"), (5, "TRAP", "Trace/breakpoint trap"),
    (6, "ABRT", "Aborted"), (7, "BUS", "Bus error"), (8, "FPE", "Floating point exception"),
    (9, "KILL", "Killed"), (10, "USR1", "User defined signal 1"),
    (11, "SEGV", "Segmentation fault"), (12, "USR2", "User defined signal 2"),
    (13, "PIPE", "Broken pipe"), (14, "ALRM", "Alarm clock"), (15, "TERM", "Terminated"),
    (16, "16", "Stack fault"), (17, "CHLD", "Child exited"), (18, "CONT", "Continued"),
    (19, "STOP", "Stopped (signal)"), (20, "TSTP", "Stopped"), (21, "TTIN", "Stopped (tty input)"),
    (22, "TTOU", "Stopped (tty output)"), (23, "URG", "Urgent I/O condition"),
    (24, "XCPU", "CPU time limit exceeded"), (25, "XFSZ", "File size limit exceeded"),
    (26, "VTALRM", "Virtual timer expired"), (27, "PROF", "Profiling timer expired"),
    (28, "WINCH", "Window changed"), (29, "IO", "I/O possible"), (30, "PWR", "Power failure"),
    (31, "SYS", "Bad system call")]

/-- The greatest number of a signal. -/
def greatest : Nat := 64

/-- The least number of a signal for programs that need exact timing. -/
def leastExact : Nat := 34

/-- The names of those signals, counted from the least one or from the greatest one. -/
def exactName? (n : Nat) : Option String :=
  if n < leastExact || greatest < n then none
  else if n = leastExact then some "RTMIN"
  else if n = greatest then some "RTMAX"
  else if n ≤ 49 then some s!"RTMIN+{n - leastExact}"
  else some s!"RTMAX-{greatest - n}"

/-- The name of a signal, which may be its number. -/
def name (n : Nat) : String :=
  ((table.find? (·.1 = n)).map (·.2.1)).getD ((exactName? n).getD (toString n))

/-- What is said of a process that died of a signal. -/
def epitaph (n : Nat) : String :=
  match table.find? (·.1 = n) with
  | some (_, _, text) => text
  | none =>
    if n < leastExact then s!"Unknown signal {n}" else s!"Real-time signal {n - leastExact}"

/-- The signal of a name, in any case of its letters; `EXIT` counts as nought. -/
def ofName? (s : Octets) : Option Nat :=
  let s := String.ofList (s.map Char.toUpper)
  if s = "EXIT" then some 0
  else (List.range (greatest + 1)).find? fun n => 0 < n && name n = s

/-- A signal given by its number. -/
def ofNumber? (s : Octets) : Option Nat :=
  if s.isEmpty || !s.all Char.isDigit then none
  else
    let n := (String.ofList s).toNat?.getD (greatest + 1)
    if n ≤ greatest then some n else none

/-- A signal given by its number or its name. -/
def of? (s : Octets) : Option Nat := (ofNumber? s).or (ofName? s)

/-- A process does not mind this signal. -/
def isHarmless (n : Nat) : Bool := [0, 17, 18, 23, 28].contains n

/-- A process stops at this signal. -/
def stops (n : Nat) : Bool := 19 ≤ n && n ≤ 22

/-- Nothing can be planned against this signal. -/
def isFinal (n : Nat) : Bool := n = 9 || n = 19

end IdleWatch.Shell.Signal
