import IdleWatch.Text.Octets

/-!
# Backslash escapes of commands that print

A backslash and some of what follows it stand for other bytes. Commands differ in the escapes they
know, so these are a record. What is no escape stands for itself, the backslash included.
-/

namespace IdleWatch.Commands

open Text (Octets)

/-- What an escape stands for. -/
inductive Escape where
  | text (s : Octets)
  /-- Nothing more is printed. -/
  | stop
  /-- It cannot be meant, and the command says so. -/
  | refused (why : String)
  deriving DecidableEq, Repr

/-- What becomes of an `x` after a backslash. -/
inductive HexRule where
  | noEscape
  /-- Without a digit it is no escape. -/
  | lenient
  /-- Without a digit it is refused. -/
  | strict
  deriving DecidableEq, Repr

/-- The escapes that a command knows besides single letters and octal numbers. -/
structure EscapeRules where
  /-- An octal number may have a nought in front of its three digits. -/
  nought : Bool
  hex : HexRule
  /-- Characters are given by `u` with four digits or `U` with eight. -/
  characters : Bool
  quote : Bool
  stop : Bool
  /-- What is no escape takes its character with it. -/
  whole : Bool
  deriving DecidableEq, Repr

/-- An octal digit. -/
def isOctalDigit (c : Char) : Bool := '0' ≤ c && c ≤ '7'

/-- A hexadecimal digit. -/
def isHexDigit (c : Char) : Bool :=
  c.isDigit || ('a' ≤ c && c ≤ 'f') || ('A' ≤ c && c ≤ 'F')

/-- The value of a digit or letter. -/
def digitValue (c : Char) : Nat :=
  if c.isDigit then c.toNat - '0'.toNat
  else if 'a' ≤ c && c ≤ 'z' then c.toNat - 'a'.toNat + 10
  else c.toNat - 'A'.toNat + 10

/-- The number that digits write. -/
def digitsValue (base : Nat) (ds : List Char) : Nat :=
  ds.foldl (fun n c => n * base + digitValue c) 0

/-- At most so many digits from the front, and the rest. -/
def spanDigits (isDigit : Char → Bool) (count : Nat) (s : Octets) : Octets × Octets :=
  let ds := (s.take count).takeWhile isDigit
  (ds, s.drop ds.length)

/-- The escapes that are one letter. -/
def letterEscape? : Char → Option Char
  | 'a' => some '\x07'
  | 'b' => some '\x08'
  | 'e' => some '\x1b'
  | 'f' => some '\x0c'
  | 'n' => some '\n'
  | 'r' => some '\r'
  | 't' => some '\t'
  | 'v' => some '\x0b'
  | '\\' => some '\\'
  | _ => none

/-- An octal number: the byte it counts to, round from 256, and the rest. -/
def octalEscape (s : Octets) : Escape × Octets :=
  let (ds, rest) := spanDigits isOctalDigit 3 s
  (.text [Octets.byte (digitsValue 8 ds)], rest)

/-- A number in capital hexadecimal digits, at least so many. -/
def capitalHex (n count : Nat) : List Char :=
  let ds := (Nat.toDigits 16 n).map Char.toUpper
  List.replicate (count - ds.length) '0' ++ ds

/-- How a character is printed that is given by its number: only those of ASCII can be. -/
def characterText (n : Nat) : Octets :=
  if n < 0x80 then [Char.ofNat n]
  else if n < 0x10000 then '\\' :: 'u' :: capitalHex n 4
  else '\\' :: 'U' :: capitalHex n 8

/-- A character that is given by its number with so many digits. -/
def characterEscape (mark : Char) (count : Nat) (s : Octets) : Escape × Octets :=
  let (ds, rest) := spanDigits isHexDigit count s
  let n := digitsValue 16 ds
  if ds.length < count then (.refused "missing hexadecimal number in escape", rest)
  else if 0xD800 ≤ n ∧ n ≤ 0xDFFF then
    (.refused (String.ofList ("invalid universal character name \\".toList ++
      mark :: ds.map Char.toLower)), rest)
  else (.text (characterText n), rest)

/-- What stands for itself, and the rest. -/
def unescaped (rules : EscapeRules) : Octets → Escape × Octets
  | [] => (.text ['\\'], [])
  | c :: s => if rules.whole then (.text ['\\', c], s) else (.text ['\\'], c :: s)

/-- What a backslash in front of these bytes stands for, with what it takes of them. -/
def escape (rules : EscapeRules) : Octets → Escape × Octets
  | [] => (.text ['\\'], [])
  | c :: s =>
    if isOctalDigit c then
      if rules.nought && c = '0' then octalEscape s else octalEscape (c :: s)
    else if c = 'x' && rules.hex ≠ .noEscape then
      match spanDigits isHexDigit 2 s, rules.hex with
      | ([], rest), .strict => (.refused "missing hexadecimal number in escape", rest)
      | ([], _), _ => unescaped rules (c :: s)
      | (ds, rest), _ => (.text [Octets.byte (digitsValue 16 ds)], rest)
    else if c = 'u' && rules.characters then characterEscape c 4 s
    else if c = 'U' && rules.characters then characterEscape c 8 s
    else if c = '"' && rules.quote then (.text [c], s)
    else if c = 'c' && rules.stop then (.stop, s)
    else
      match letterEscape? c with
      | some b => (.text [b], s)
      | none => unescaped rules (c :: s)

/-! ## Whole texts -/

/-- How the printing of a text with escapes ends. -/
inductive TextEnd where
  | whole
  | stopped
  | refused (why : String)
  deriving DecidableEq, Repr

/--
The bytes of a text with escapes, and how it ends. Every escape takes a byte, so the text's length
is fuel enough.
-/
def unescapeFor (rules : EscapeRules) : Nat → Octets → Octets × TextEnd
  | 0, _ => ([], .whole)
  | _ + 1, [] => ([], .whole)
  | fuel + 1, '\\' :: s =>
    match escape rules s with
    | (.stop, _) => ([], .stopped)
    | (.refused why, _) => ([], .refused why)
    | (.text t, s) =>
      let (rest, ending) := unescapeFor rules fuel s
      (t ++ rest, ending)
  | fuel + 1, c :: s =>
    let (rest, ending) := unescapeFor rules fuel s
    (c :: rest, ending)

/-- The bytes of a text with escapes, and how it ends. -/
def unescape (rules : EscapeRules) (s : Octets) : Octets × TextEnd :=
  unescapeFor rules (s.length + 1) s

/-! ## The rules of the commands -/

/-- The escapes of the program `echo`. -/
def EscapeRules.echo : EscapeRules :=
  { nought := true, hex := .lenient, characters := false, quote := false, stop := true,
    whole := false }

/-- The escapes in a format of the program `printf`. -/
def EscapeRules.printfFormat : EscapeRules :=
  { nought := false, hex := .strict, characters := true, quote := true, stop := true,
    whole := true }

/-- The escapes in an argument of the program `printf`. -/
def EscapeRules.printfArgument : EscapeRules := { EscapeRules.printfFormat with nought := true }

/-- The escapes in a format of the shell's own `printf`. -/
def EscapeRules.shellFormat : EscapeRules :=
  { nought := false, hex := .noEscape, characters := false, quote := false, stop := false,
    whole := false }

/-- The escapes in an argument of the shell's own `echo` and `printf`. -/
def EscapeRules.shellArgument : EscapeRules :=
  { EscapeRules.shellFormat with nought := true, stop := true }

end IdleWatch.Commands
