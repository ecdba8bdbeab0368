import IdleWatch.Commands.Directive
import IdleWatch.Commands.Numeral
import IdleWatch.Commands.Quoting
import IdleWatch.Line

/-!
# What `printf` prints

`printf` prints a format, in which directives take arguments; it starts again at the front of the
format as long as it has arguments left and takes some. The program and the shell's own `printf`
agree on that. They differ in their escapes, in the directives they accept, in the size of their
floating point numbers, and in the words of their complaints; so a `Printer` says which it is.
-/

namespace IdleWatch.Commands

open Text (Octets)

/-- What a command prints, piece by piece, and the status it ends with. -/
structure Printout where
  pieces : List (Stream × Octets)
  status : Nat
  deriving DecidableEq, Repr

/-- Pieces for the same stream that follow one another become one. -/
def joinPieces : List (Stream × Octets) → List (Stream × Octets)
  | [] => []
  | (stream, s) :: rest =>
    match joinPieces rest with
    | [] => [(stream, s)]
    | (other, t) :: rest =>
      if stream = other then (stream, s ++ t) :: rest else (stream, s) :: (other, t) :: rest

/-- Which `printf` prints, and how its complaints begin. -/
inductive Printer where
  | program (name : Octets)
  | shell (head : Octets)
  deriving DecidableEq, Repr

/-- Where printing has come to: the pieces so far, backwards. -/
structure Printing where
  pieces : List (Stream × Octets) := []
  arguments : List Octets
  status : Nat := 0

/-- Printing may end before the format does. -/
abbrev Print := ExceptT Unit (StateM Printing)

namespace Print

/-- Print bytes. -/
def put (s : Octets) : Print Unit :=
  modify fun p => { p with pieces := (.stdout, s) :: p.pieces }

/-- The next argument, if there is one. -/
def take? : Print (Option Octets) := do
  match (← get).arguments with
  | [] => return none
  | a :: rest =>
    modify fun p => { p with arguments := rest }
    return some a

/-- Nothing more is printed. -/
def stop : Print Unit := throw ()

/-- A status to end with. -/
def setStatus (status : Nat) : Print Unit := modify fun p => { p with status }

end Print

namespace Printer

open Print

/-- The escapes of the format. -/
def formatEscapes : Printer → EscapeRules
  | .program _ => .printfFormat
  | .shell _ => .shellFormat

/-- The escapes of an argument that may have some. -/
def argumentEscapes : Printer → EscapeRules
  | .program _ => .printfArgument
  | .shell _ => .shellArgument

/-- The precision of numbers that may have a fraction. -/
def precision : Printer → Precision
  | .program _ => .extended
  | .shell _ => .double

/-- How complaints begin. -/
def head : Printer → Octets
  | .program name => name ++ [':', ' ']
  | .shell head => head

/-- A line to standard error. -/
def warn (k : Printer) (s : Octets) : Print Unit :=
  modify fun p => { p with pieces := (.stderr, k.head ++ s ++ ['\n']) :: p.pieces }

/-- A line to standard error, and a status of failure. -/
def complain (k : Printer) (s : Octets) : Print Unit := do
  k.warn s
  setStatus 1

/-- A line to standard error, and nothing more. -/
def giveUp (k : Printer) (s : Octets) : Print Unit := do
  k.warn s
  setStatus (match k with
    | .program _ => 1
    | .shell _ => 2)
  stop

/-! ## Arguments -/

/-- What is said of a number that is out of range. -/
def rangeText : String := "Numerical result out of range"

/-- Complain of what was not read, or of a number out of range. -/
def checkNumeral {α : Type} (k : Printer) (argument : Octets) (r : Numeral α) : Print Unit :=
  match k with
  | .program _ =>
    let complainOf := fun (text : String) => k.complain (quoted argument ++ (": " ++ text).toList)
    if !r.inRange then complainOf rangeText
    else if r.rest.isEmpty then pure ()
    else complainOf (if r.found then "value not completely converted"
      else "expected a numeric value")
  | .shell _ =>
    let complainOf := fun (text : String) => k.complain (argument ++ (": " ++ text).toList)
    if !r.rest.isEmpty then
      complainOf (if r.found then "not completely converted" else "expected numeric value")
    else if !r.inRange then complainOf rangeText
    else pure ()

/-- The byte that an argument stands for that begins with a quote, and a warning of what follows. -/
def quotedByte? (k : Printer) (argument : Octets) : Option (Nat × Print Unit) :=
  match k, argument with
  | .program _, q :: c :: rest =>
    if q = '\'' || q = '"' then
      some (c.toNat, if rest.isEmpty then pure () else
        k.warn ("warning: ".toList ++ rest ++
          ": character(s) following character constant have been ignored".toList))
    else none
  | .shell _, q :: rest =>
    if q = '\'' || q = '"' then some ((rest.head?.getD '\x00').toNat, pure ()) else none
  | _, _ => none

/-- A whole number from the next argument, or nought. -/
def takeWhole (k : Printer) (signed : Bool) : Print Int := do
  match ← take? with
  | none => return 0
  | some a =>
    match k.quotedByte? a with
    | some (n, warning) =>
      warning
      return n
    | none =>
      let r := if signed then readSigned a else readUnsigned a
      k.checkNumeral a r
      return r.value

/-- A number that may have a fraction from the next argument, or nought, with its sign. -/
def takeReal (k : Printer) : Print (Bool × Binary) := do
  match ← take? with
  | none => return (false, .finite false 0 0)
  | some a =>
    match k.quotedByte? a with
    | some (n, warning) =>
      warning
      return (false, .ofFraction k.precision false n 1)
    | none =>
      let (negative, r) := readReal k.precision a
      k.checkNumeral a r
      return (negative, r.value)

/-- A text from the next argument, or none at all. -/
def takeText : Print Octets := do return (← take?).getD []

/-! ## Directives -/

/-- The greatest width and precision. -/
def sizeLimit : Int := 2147483647

/-- The flags that may stand in front. -/
def flagSet : Printer → List Char
  | .program _ => ['-', '+', ' ', '#', '0', '\'', 'I']
  | .shell _ => ['-', '+', ' ', '#', '0']

/-- The letters for the size of a number, which say nothing. -/
def sizeSet : Printer → List Char
  | .program _ => ['l', 'L', 'h', 'j', 't', 'z']
  | .shell _ => []

/-- A number that comes from an argument, in place of digits. -/
def takeSize (k : Printer) (what : String) (least : Int) : Print Int := do
  let argument := (← get).arguments.head?.getD []
  let n ← k.takeWhole true
  match k with
  | .program _ =>
    if n < least || sizeLimit < n then
      k.giveUp (("invalid " ++ what ++ ": ").toList ++ quoted argument)
    return n
  | .shell _ => return n.bmod 4294967296

/-- A width, and the rest of the format. -/
def takeWidth (k : Printer) (s : Octets) : Print (Int × Octets) := do
  match s with
  | '*' :: s => return (← k.takeSize "field width" (-sizeLimit - 1), s)
  | s =>
    let (ds, rest) := takeDigits 10 s
    return (digitsValue 10 ds, rest)

/-- A precision after its point, if there is one, and the rest of the format. -/
def takePrecision (k : Printer) (s : Octets) : Print (Option Nat × Octets) := do
  match s with
  | '.' :: '*' :: s =>
    let n ← k.takeSize "precision" (-9223372036854775808)
    return (if n < 0 then none else some n.toNat, s)
  | '.' :: s =>
    let (ds, rest) := takeDigits 10 s
    return (some (digitsValue 10 ds), rest)
  | s => return (none, s)

/-- A conversion that the flags and the precision allow. -/
def allows (k : Printer) (d : Directive) (pointed : Bool) : Bool :=
  let c := d.conversion
  match k with
  | .shell _ =>
    ['d', 'i', 'o', 'u', 'x', 'X', 'a', 'A', 'e', 'E', 'f', 'F', 'g', 'G', 'c', 's', 'b'].contains c
  | .program _ =>
    if c = 'd' || c = 'i' || c = 'u' then !d.has '#'
    else if c = 'f' || c = 'F' || c = 'g' || c = 'G' then true
    else if ['o', 'x', 'X', 'a', 'A', 'e', 'E'].contains c then !(d.has '\'' || d.has 'I')
    else if c = 's' then !(d.has '\'' || d.has 'I' || d.has '#' || d.has '0')
    else if c = 'c' then !(d.has '\'' || d.has 'I' || d.has '#' || d.has '0') && !pointed
    else false

/-- Print an argument with escapes, which may end the printing. -/
def putEscaped (k : Printer) (layOut : Octets → Octets) (s : Octets) : Print Unit := do
  let (s, ending) := unescape k.argumentEscapes s
  put (layOut s)
  match ending, k with
  | .whole, _ => return
  | .stopped, .program _ =>
    setStatus 0
    stop
  | .stopped, .shell _ => stop
  | .refused why, _ => k.giveUp why.toList

/-- Print what a directive that is allowed makes of its argument. -/
def putDirective (k : Printer) (d : Directive) : Print Unit := do
  match d.conversion with
  | 'd' | 'i' => put (d.signed (← k.takeWhole true))
  | 'o' | 'u' | 'x' | 'X' => put (d.unsigned (← k.takeWhole false).toNat)
  | 'c' => put (d.single ((← takeText).head?.getD '\x00'))
  | 's' => put (d.text (← takeText))
  | 'b' => k.putEscaped d.text (← takeText)
  | _ =>
    let (negative, x) ← k.takeReal
    put (d.real k.precision negative x)

/-- What is said of a directive that is not allowed. -/
def directiveFault (k : Printer) (source : Octets) : Octets :=
  source ++ (match k with
    | .program _ => ": invalid conversion specification".toList
    | .shell _ => ": invalid directive".toList)

/-- One directive after its mark, and the rest of the format. -/
def directive (k : Printer) (s : Octets) : Print Octets := do
  let flags := s.takeWhile k.flagSet.contains
  let (width, t) ← k.takeWidth (s.drop flags.length)
  let (precision, u) ← k.takePrecision t
  let u := u.dropWhile k.sizeSet.contains
  let d : Directive := { flags, width, precision, conversion := u.head?.getD '\x00' }
  if u.isEmpty && k matches .shell _ then
    k.giveUp "missing format character".toList
  else if !k.allows d (t.head? = some '.') then
    k.giveUp (k.directiveFault ('%' :: s.take (s.length + 1 - u.length)))
  else if sizeLimit < width || sizeLimit < precision.getD 0 then stop
  else k.putDirective d
  return u.tail

/-! ## Formats -/

/-- One pass over a format. Every step takes a byte of it, so its length is fuel enough. -/
def pass (k : Printer) : Nat → Octets → Print Unit
  | 0, _ => pure ()
  | _ + 1, [] => pure ()
  | fuel + 1, '%' :: '%' :: s => do
    put ['%']
    k.pass fuel s
  | fuel + 1, '%' :: s => do
    match k, s with
    | .program _, 'b' :: s =>
      if let some a ← take? then k.putEscaped id a
      k.pass fuel s
    | .program _, 'q' :: s =>
      if let some a ← take? then put (shellQuoted a)
      k.pass fuel s
    | _, s =>
      let s ← k.directive s
      k.pass fuel s
  | fuel + 1, '\\' :: s =>
    match escape k.formatEscapes s with
    | (.text t, s) => do
      put t
      k.pass fuel s
    | (.stop, _) => do
      setStatus 0
      stop
    | (.refused why, _) => k.giveUp why.toList
  | fuel + 1, c :: s => do
    put [c]
    k.pass fuel s

/-- Passes over a format until no arguments are left or none are taken. -/
def passes (k : Printer) (format : Octets) : Nat → Print Unit
  | 0 => pure ()
  | fuel + 1 => do
    let before := (← get).arguments.length
    k.pass (format.length + 1) format
    let after := (← get).arguments.length
    if after ≠ 0 && after ≠ before then k.passes format fuel

/-- The arguments without a mark that ends the options. -/
def operands (k : Printer) : List Octets → Print (List Octets)
  | ['-', '-'] :: rest => return rest
  | a :: rest => do
    match k, a with
    | .shell _, '-' :: c :: _ => k.giveUp ("Illegal option -".toList ++ [c])
    | _, _ => pure ()
    return a :: rest
  | [] => return []

/-- What is said when there is no format. -/
def usage (k : Printer) : Print Unit :=
  match k with
  | .shell _ => k.giveUp "usage: printf format [arg ...]".toList
  | .program name => do
    k.warn "missing operand".toList
    modify fun p => { p with pieces :=
      (.stderr, "Try '".toList ++ name ++ " --help' for more information.\n".toList) :: p.pieces }
    setStatus 1
    stop

/-- The whole printing. -/
def print (k : Printer) (arguments : List Octets) : Print Unit := do
  match ← k.operands arguments with
  | [] => k.usage
  | format :: arguments =>
    modify fun p => { p with arguments }
    k.passes format (arguments.length + 1)
    match k, (← get).arguments with
    | .program _, a :: _ =>
      k.warn ("warning: ignoring excess arguments, starting with ".toList ++ quoted a)
    | _, _ => pure ()

/-- What `printf` prints for its arguments. -/
def printout (k : Printer) (arguments : List Octets) : Printout :=
  let (_, p) := (k.print arguments).run.run { arguments }
  ⟨joinPieces p.pieces.reverse, p.status⟩

end Printer

end IdleWatch.Commands
