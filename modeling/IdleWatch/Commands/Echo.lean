import IdleWatch.Commands.Escape

/-!
# What `echo` prints

`echo` prints its arguments with blanks between them and a line end. The program takes options that
leave out the line end and turn escapes on and off; the shell's own `echo` always reads escapes and
knows one option.
-/

namespace IdleWatch.Commands

open Text (Octets)

/-- How `echo` prints: with a line end, and reading escapes. -/
structure EchoStyle where
  newline : Bool := true
  escapes : Bool := false
  deriving DecidableEq, Repr

/-- An argument of `echo` that is an option: a dash and some of its letters. -/
def isEchoOption : Octets → Bool
  | '-' :: c :: s => (c :: s).all (['n', 'e', 'E'].contains ·)
  | _ => false

/-- What a letter of an option changes. -/
def EchoStyle.set (style : EchoStyle) : Char → EchoStyle
  | 'n' => { style with newline := false }
  | 'e' => { style with escapes := true }
  | 'E' => { style with escapes := false }
  | _ => style

/-- The options at the front of the arguments. -/
def echoOptions (style : EchoStyle) : List Octets → EchoStyle × List Octets
  | [] => (style, [])
  | a :: rest =>
    if isEchoOption a then echoOptions (a.foldl EchoStyle.set style) rest else (style, a :: rest)

/-- Arguments with blanks between them, up to a stop, and whether there was one. -/
def echoWords (read : Octets → Octets × TextEnd) : List Octets → Octets × Bool
  | [] => ([], false)
  | a :: rest =>
    match read a with
    | (s, .whole) =>
      if rest.isEmpty then (s, false)
      else
        let (t, stopped) := echoWords read rest
        (s ++ ' ' :: t, stopped)
    | (s, _) => (s, true)

/-- The text of some arguments in a style. A stop leaves out the line end too. -/
def echoText (style : EchoStyle) (rules : EscapeRules) (arguments : List Octets) : Octets :=
  let read := if style.escapes then unescape rules else fun s => (s, .whole)
  let (s, stopped) := echoWords read arguments
  if style.newline && !stopped then s ++ ['\n'] else s

/-- What the program `echo` prints. -/
def echo (arguments : List Octets) : Octets :=
  let (style, arguments) := echoOptions {} arguments
  echoText style .echo arguments

/-- What the shell's own `echo` prints. -/
def shellEcho (arguments : List Octets) : Octets :=
  if arguments.head? = some ['-', 'n'] then
    echoText { newline := false, escapes := true } .shellArgument arguments.tail
  else echoText { escapes := true } .shellArgument arguments

end IdleWatch.Commands
