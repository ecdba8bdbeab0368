import IdleWatch.Commands.Escape

/-!
# Arguments in quotes

A complaint shows an argument in single quotes, with escapes for what cannot be printed. An
argument can also be written so that a shell reads it back: as it is, in quotes, or with escapes
where nothing else will do.
-/

namespace IdleWatch.Commands

open Text (Octets)

/-- What can be printed: the characters of ASCII that are no controls. -/
def isPrintable (c : Char) : Bool := ' ' ≤ c && c ≤ '~'

/-- The letter of the escape for a control character that has one. -/
def controlLetter? : Char → Option Char
  | '\x07' => some 'a'
  | '\x08' => some 'b'
  | '\t' => some 't'
  | '\n' => some 'n'
  | '\x0b' => some 'v'
  | '\x0c' => some 'f'
  | '\r' => some 'r'
  | _ => none

/-- The three octal digits of a byte. -/
def octalDigits (c : Char) : Octets :=
  let n := c.toNat
  [Nat.digitChar (n / 64), Nat.digitChar (n / 8 % 8), Nat.digitChar (n % 8)]

/-- The escape for a byte that cannot be printed. -/
def controlEscape (c : Char) : Octets :=
  match controlLetter? c with
  | some l => ['\\', l]
  | none => '\\' :: octalDigits c

/-- An argument as a complaint shows it. -/
def quoted (s : Octets) : Octets :=
  '\'' :: (s.flatMap fun c =>
    if c = '\'' || c = '\\' then ['\\', c]
    else if isPrintable c then [c]
    else controlEscape c) ++ ['\'']

/-! ## For a shell -/

/-- A character that a shell takes as it is, wherever it stands. -/
def isPlain (c : Char) : Bool :=
  c.isAlphanum || ['%', '+', ',', '-', '.', '/', ':', '@', ']', '_'].contains c

/-- A character that a shell takes as it is at this place of a text. -/
def isPlainAt (first alone : Bool) (c : Char) : Bool :=
  isPlain c || ((c = '#' || c = '~') && !first) || ((c = '\x7b' || c = '\x7d') && !alone)

/-- A shell takes the whole text as it is. -/
def isPlainText : Octets → Bool
  | [] => false
  | c :: s => isPlainAt true s.isEmpty c && s.all (isPlainAt false false)

/-- In double quotes, a text with single quotes in it can be written with nothing else to escape. -/
def fitsDouble : Octets → Bool
  | [] => true
  | c :: s =>
    let fits := fun c => isPlain c || c = ' ' || c = '\''
    (fits c || c = '#' || c = '~') && s.all fits

/--
In single quotes; `escaping` while a passage of escapes is open. A single quote in the text closes
what is open, whichever it is.
-/
def singleQuoted (escaping : Bool) : Octets → Octets
  | [] => ['\'']
  | '\'' :: s => '\'' :: '\\' :: '\'' :: '\'' :: singleQuoted false s
  | c :: s =>
    if isPrintable c then
      (if escaping then ['\'', '\'', c] else [c]) ++ singleQuoted false s
    else (if escaping then [] else ['\'', '$', '\'']) ++ controlEscape c ++ singleQuoted true s

/-- A text as a shell reads it back. -/
def shellQuoted (s : Octets) : Octets :=
  if isPlainText s then s
  else if s.contains '\'' && fitsDouble s then '"' :: s ++ ['"']
  else '\'' :: singleQuoted false s

end IdleWatch.Commands
