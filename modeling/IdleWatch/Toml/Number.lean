import IdleWatch.Toml.Text
import IdleWatch.Toml.Value

/-!
# Numbers of TOML

Digits may be set apart by single underscores. A decimal number has no leading noughts. With a
fraction or an exponent it is a floating point number, else an integer, which has to fit into 64
bits with a sign. Whole numbers can also be written in base 16, 8 and 2, without a sign.
-/

namespace IdleWatch.Toml

/-- A decimal digit. -/
def isDigit (c : Char) : Bool := '0' ≤ c && c ≤ '9'

/-- An octal digit. -/
def isOctal (c : Char) : Bool := '0' ≤ c && c ≤ '7'

/-- A binary digit. -/
def isBinary (c : Char) : Bool := c = '0' || c = '1'

/-- A hexadecimal digit. -/
def isHex (c : Char) : Bool := (hexDigit? c).isSome

/-- The digits that follow a digit; an underscore stands only between two digits. -/
def moreDigits (ok : Char → Bool) (acc : List Char) : Reads (List Char)
  | '_' :: c :: s => if ok c then moreDigits ok (c :: acc) s else none
  | '_' :: [] => none
  | c :: s => if ok c then moreDigits ok (c :: acc) s else some (acc.reverse, c :: s)
  | [] => some (acc.reverse, [])

/-- One digit or more. -/
def digits (ok : Char → Bool) : Reads (List Char)
  | c :: s => if ok c then moreDigits ok [c] s else none
  | [] => none

/-- The number that digits of a base write. -/
def numberOf (base : Nat) (ds : List Char) : Nat :=
  ds.foldl (fun n c => n * base + (hexDigit? c).getD 0) 0

/-- A sign, if there is one: whether it is a minus. -/
def sign : List Char → Bool × List Char
  | '+' :: s => (false, s)
  | '-' :: s => (true, s)
  | s => (false, s)

/-- The digits of a whole number without leading noughts. -/
def wholeDigits : Reads (List Char)
  | '0' :: s => some (['0'], s)
  | s => digits isDigit s

/-- The least integer. -/
def minInteger : Int := -9223372036854775808

/-- The greatest integer. -/
def maxInteger : Int := 9223372036854775807

/-- An integer, if it fits. -/
def integer? (n : Int) : Option Value :=
  if minInteger ≤ n ∧ n ≤ maxInteger then some (.integer n) else none

/-- A whole number in another base, after its mark. -/
def based (base : Nat) (ok : Char → Bool) (s : List Char) : Option (Value × List Char) := do
  let (ds, s) ← digits ok s
  let v ← integer? (numberOf base ds)
  some (v, s)

/-- A fraction, if one follows: its digits. -/
def fraction? : List Char → Option (Option (List Char) × List Char)
  | '.' :: s => (digits isDigit s).map fun (ds, s) => (some ds, s)
  | s => some (none, s)

/-- The value of an exponent, after its letter. -/
def exponentValue (s : List Char) : Option (Int × List Char) := do
  let (negative, s) := sign s
  let (ds, s) ← digits isDigit s
  let n : Int := numberOf 10 ds
  some (if negative then -n else n, s)

/-- An exponent, if one follows. -/
def exponent? : List Char → Option (Option Int × List Char)
  | 'e' :: s | 'E' :: s => (exponentValue s).map fun (n, s) => (some n, s)
  | s => some (none, s)

/-- A floating point number, unless it is too great. One that is too small for a negative one is. -/
def float? (negative : Bool) (ds : List Char) (exponent : Int) : Option Value :=
  let x := Binary.ofDecimal .double negative (numberOf 10 ds) exponent
  if x = .infinite false then none else some (.float x)

/-- A decimal number after its sign. -/
def decimal (negative : Bool) (s : List Char) : Option (Value × List Char) := do
  let (whole, s) ← wholeDigits s
  let (frac, s) ← fraction? s
  let (exp, s) ← exponent? s
  let v ←
    if frac.isNone ∧ exp.isNone then
      let n : Int := numberOf 10 whole
      integer? (if negative then -n else n)
    else
      let places := frac.getD []
      float? negative (whole ++ places) (exp.getD 0 - places.length)
  some (v, s)

/-- A number, also an infinite one or none at all. -/
def number : Reads Value
  | '0' :: 'x' :: s => based 16 isHex s
  | '0' :: 'o' :: s => based 8 isOctal s
  | '0' :: 'b' :: s => based 2 isBinary s
  | s =>
    match sign s with
    | (negative, 'i' :: 'n' :: 'f' :: s) => some (.float (.infinite negative), s)
    | (_, 'n' :: 'a' :: 'n' :: s) => some (.float .nan, s)
    | (negative, s) => decimal negative s

end IdleWatch.Toml
