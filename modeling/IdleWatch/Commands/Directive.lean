import IdleWatch.Commands.Escape
import IdleWatch.Decimal.Places

/-!
# Directives of a format

A directive says how one argument is laid out: with flags, a least width, a precision and a
conversion. A width below nought means its size, to the left.
-/

namespace IdleWatch.Commands

open Text (Octets)

/-- How an argument is laid out. -/
structure Directive where
  flags : List Char := []
  width : Int := 0
  precision : Option Nat := none
  conversion : Char := 's'
  deriving DecidableEq, Repr

namespace Directive

/-- A flag is given. -/
def has (d : Directive) (flag : Char) : Bool := d.flags.contains flag

/--
What is laid out, at its least width: blanks after it, noughts between its head and its body where
that is allowed, or blanks before it.
-/
def padded (d : Directive) (noughts : Bool) (head body : Octets) : Octets :=
  let missing := d.width.natAbs - (head.length + body.length)
  if d.has '-' || d.width < 0 then head ++ body ++ List.replicate missing ' '
  else if noughts && d.has '0' then head ++ List.replicate missing '0' ++ body
  else List.replicate missing ' ' ++ head ++ body

/-- The sign in front of a number. -/
def sign (d : Directive) (negative : Bool) : Octets :=
  if negative then ['-'] else if d.has '+' then ['+'] else if d.has ' ' then [' '] else []

/-- A text, or as much of it as the precision says. -/
def text (d : Directive) (s : Octets) : Octets :=
  d.padded false [] (match d.precision with
    | some n => s.take n
    | none => s)

/-- One byte. -/
def single (d : Directive) (c : Char) : Octets := d.padded false [] [c]

/-- The digits of a whole number, at least as many as the precision says; nought may have none. -/
def digits (d : Directive) (base n : Nat) : Octets :=
  let ds := if n = 0 && d.precision = some 0 then [] else Nat.toDigits base n
  List.replicate (d.precision.getD 1 - ds.length) '0' ++ ds

/-- A whole number with a sign. -/
def signed (d : Directive) (n : Int) : Octets :=
  d.padded d.precision.isNone (d.sign (n < 0)) (d.digits 10 n.natAbs)

/-- A whole number without a sign. -/
def unsigned (d : Directive) (n : Nat) : Octets :=
  match d.conversion with
  | 'o' =>
    let ds := d.digits 8 n
    let marked := d.has '#' && ds.head? ≠ some '0'
    d.padded d.precision.isNone [] (if marked then '0' :: ds else ds)
  | 'x' | 'X' =>
    let head := if d.has '#' && n ≠ 0 then ['0', 'x'] else []
    let s := d.padded d.precision.isNone head (d.digits 16 n)
    if d.conversion = 'X' then s.map Char.toUpper else s
  | _ => d.padded d.precision.isNone [] (d.digits 10 n)

/-- The layout that a conversion means. -/
def layout (d : Directive) : Binary.Layout :=
  match d.conversion.toLower with
  | 'e' => .scientific
  | 'g' => .general
  | 'a' => .hexadecimal
  | _ => .positional

/-- A number that may have a fraction, and its sign. -/
def real (d : Directive) (p : Precision) (negative : Bool) (x : Binary) : Octets :=
  let s := match x with
    | .finite _ m e =>
      let head := if d.layout = .hexadecimal then ['0', 'x'] else []
      d.padded true (d.sign negative ++ head)
        (Binary.laidOut p d.layout m e d.precision (d.has '#'))
    | .infinite _ => d.padded false (d.sign negative) ['i', 'n', 'f']
    | .nan => d.padded false (d.sign negative) ['n', 'a', 'n']
  if d.conversion.isUpper then s.map Char.toUpper else s

end Directive

end IdleWatch.Commands
