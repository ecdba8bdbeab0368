import IdleWatch.Text.Octets

/-!
# Patterns

A pattern is text in which a star stands for any text, a question mark for any byte, and brackets
for one byte of a set. What is quoted stands for itself.
-/

namespace IdleWatch.Shell

open Text (Octets)

/-- A byte of a pattern, and whether it stands for itself. -/
structure Mark where
  quoted : Bool
  char : Char
  deriving DecidableEq, Repr

/-- A pattern: its bytes in order. -/
abbrev Pattern := List Mark

/-- The pattern that stands for a text. -/
def Pattern.ofText (quoted : Bool) (s : Octets) : Pattern := s.map (Mark.mk quoted)

/-- The text of a pattern. -/
def Pattern.text (p : Pattern) : Octets := p.map Mark.char

/-- A byte of a pattern that is not quoted and is this character. -/
def Mark.is (m : Mark) (c : Char) : Bool := !m.quoted && m.char = c

/-- The classes that brackets can name. -/
def classes : List (String × (Char → Bool)) :=
  [("alpha", Char.isAlpha), ("digit", Char.isDigit), ("alnum", Char.isAlphanum),
    ("upper", Char.isUpper), ("lower", Char.isLower),
    ("space", fun c => c = ' ' || ('\t' ≤ c && c ≤ '\r')),
    ("blank", fun c => c = ' ' || c = '\t'),
    ("xdigit", fun c => c.isDigit || ('a' ≤ c && c ≤ 'f') || ('A' ≤ c && c ≤ 'F')),
    ("print", fun c => ' ' ≤ c && c ≤ '~'), ("graph", fun c => '!' ≤ c && c ≤ '~'),
    ("punct", fun c => '!' ≤ c && c ≤ '~' && !c.isAlphanum),
    ("cntrl", fun c => c < ' ' || c = '\x7f')]

/-- A class at the front of what stands in brackets, and the rest. -/
def takeClass? : Pattern → Option ((Char → Bool) × Pattern)
  | open_ :: colon :: rest =>
    if open_.is '[' && colon.is ':' then
      let name := rest.takeWhile fun m => m.char ≠ ':'
      match rest.drop name.length with
      | c :: d :: rest =>
        if c.char = ':' && d.char = ']' then
          (classes.find? (·.1.toList = Pattern.text name)).map fun (_, p) => (p, rest)
        else none
      | _ => none
    else none
  | _ => none

/--
The set that stands in brackets up to the closing one, and the rest; a closing bracket that is
`first` belongs to the set. Every step takes a byte.
-/
def takeSet : Nat → Bool → Pattern → Option ((Char → Bool) × Pattern)
  | 0, _, _ => none
  | _ + 1, _, [] => none
  | fuel + 1, first, m :: rest =>
    if m.is ']' && !first then some (fun _ => false, rest)
    else
      match takeClass? (m :: rest) with
      | some (p, rest) => (takeSet fuel false rest).map fun (q, r) => (fun c => p c || q c, r)
      | none =>
        match rest with
        | dash :: last :: rest' =>
          if dash.is '-' && !last.is ']' then
            (takeSet fuel false rest').map fun (q, r) =>
              (fun c => (m.char ≤ c && c ≤ last.char) || q c, r)
          else (takeSet fuel false rest).map fun (q, r) => (fun c => c = m.char || q c, r)
        | _ => (takeSet fuel false rest).map fun (q, r) => (fun c => c = m.char || q c, r)

/-- The set of a pair of brackets after the first of them, and the rest. -/
def takeBrackets (p : Pattern) : Option ((Char → Bool) × Pattern) :=
  match p with
  | [] => none
  | m :: rest =>
    if m.is '!' || m.is '^' then
      (takeSet (p.length + 1) true rest).map fun (q, r) => (fun c => !q c, r)
    else takeSet (p.length + 1) true p

/-- A text matches a pattern as a whole. Every step takes a byte of one of the two. -/
def Pattern.matchesFor : Nat → Pattern → Octets → Bool
  | 0, _, _ => false
  | _ + 1, [], s => s.isEmpty
  | fuel + 1, m :: p, s =>
    if m.is '*' then
      matchesFor fuel p s || match s with
        | [] => false
        | _ :: t => matchesFor fuel (m :: p) t
    else
      match s with
      | [] => false
      | c :: t =>
        if m.is '?' then matchesFor fuel p t
        else if m.is '[' then
          match takeBrackets p with
          | some (set, rest) => set c && matchesFor fuel rest t
          | none => c = '[' && matchesFor fuel p t
        else c = m.char && matchesFor fuel p t

/-- A text matches a pattern as a whole. -/
def Pattern.matches (p : Pattern) (s : Octets) : Bool :=
  p.matchesFor (p.length + s.length + 1) s

/-- The lengths from nought to that of a text, the longest first if that is asked for. -/
def lengths (longest : Bool) (s : Octets) : List Nat :=
  let ns := List.range (s.length + 1)
  if longest then ns.reverse else ns

/-- A text without what matches a pattern at its front or its end. -/
def Pattern.cut (p : Pattern) (front longest : Bool) (s : Octets) : Octets :=
  if front then
    match (lengths longest s).find? fun n => p.matches (s.take n) with
    | some n => s.drop n
    | none => s
  else
    match (lengths longest s).find? fun n => p.matches (s.drop (s.length - n)) with
    | some n => s.take (s.length - n)
    | none => s

end IdleWatch.Shell
