import IdleWatch.Decimal.Binary

/-!
# Floating point numbers with so many places

A number is written with a given count of digits, rounded once from its exact value, a half going
to the even neighbour. There are four layouts: with a point and no exponent, with one digit before
the point and an exponent, the shorter of these without its last noughts, and in hexadecimal with
an exponent of two. Signs are left to the caller.
-/

namespace IdleWatch.Binary

/-- Where the digits of a number go. -/
inductive Layout where
  | positional
  | scientific
  | general
  | hexadecimal
  deriving DecidableEq, Repr

/-- The number `m * 2 ^ e * 10 ^ places`, rounded. -/
def shifted (m : Nat) (e places : Int) : Nat :=
  roundDiv (m * Nat.pow 2 e.toNat * Nat.pow 10 places.toNat)
    (Nat.pow 2 (-e).toNat * Nat.pow 10 (-places).toNat)

/-- Digits with so many of them after a point, which stands alone only if it is asked for. -/
def withPoint (t places : Nat) (point : Bool) : List Char :=
  let digits := Nat.toDigits 10 t
  let digits := List.replicate (places + 1 - digits.length) '0' ++ digits
  let whole := digits.length - places
  digits.take whole ++ (if places = 0 && !point then [] else '.' :: digits.drop whole)

/-- The last noughts go, and a point that is left at the end. -/
def trimmed (s : List Char) : List Char :=
  let s := s.reverse.dropWhile (· = '0')
  ((if s.head? = some '.' then s.tail else s)).reverse

/-- The digits of a number with one before the point, and the exponent of ten. -/
def significant (m : Nat) (e : Int) (places : Nat) : Nat × Int :=
  if m = 0 then (0, 0)
  else
    let x := magnitude m e - 1
    let t := shifted m e (places - x)
    if t < Nat.pow 10 (places + 1) then (t, x) else (t / 10, x + 1)

/-- An exponent with its sign and at least so many digits. -/
def exponentText (mark : Char) (width : Nat) (x : Int) : List Char :=
  let digits := Nat.toDigits 10 x.natAbs
  mark :: (if x < 0 then '-' else '+') :: (List.replicate (width - digits.length) '0' ++ digits)

/-- One digit before the point, and an exponent. -/
def scientific (m : Nat) (e : Int) (places : Nat) (point : Bool) : List Char :=
  let (t, x) := significant m e places
  withPoint t places point ++ exponentText 'e' 2 x

/-- The exponent decides between the two layouts; `keep` leaves the last noughts. -/
def general (m : Nat) (e : Int) (precision : Nat) (keep : Bool) : List Char :=
  let count := max 1 precision
  let (t, x) := significant m e (count - 1)
  let trim := fun s : List Char => if keep || !s.contains '.' then s else trimmed s
  if -4 ≤ x ∧ x < count then
    let places := (count - 1 - x).toNat
    trim (withPoint (shifted m e places) places keep)
  else trim (withPoint t (count - 1) keep) ++ exponentText 'e' 2 x

/-- Hexadecimal digits, at least so many. -/
def hexDigits (n count : Nat) : List Char :=
  let digits := Nat.toDigits 16 n
  List.replicate (count - digits.length) '0' ++ digits

/--
In hexadecimal: the digit before the point holds the bits of the significand that do not fill a
digit after it. A digit that rounding makes too great is carried into the exponent.
-/
def hexadecimal (p : Precision) (m : Nat) (e : Int) (places : Option Nat) (point : Bool) :
    List Char :=
  let full := (p.bits - 1) / 4
  let x := if m = 0 then 0 else e + 4 * full
  let count := places.getD full
  let q := if count < full then roundDiv m (Nat.pow 16 (full - count))
    else m * Nat.pow 16 (count - full)
  let lead := q / Nat.pow 16 count
  let (lead, x) := if lead < 16 then (lead, x) else (1, x + 4)
  let after := if count = 0 then [] else hexDigits (q % Nat.pow 16 count) count
  let after := if places.isNone then trimmed after else after
  Nat.digitChar lead :: ((if after.isEmpty && !point then [] else '.' :: after) ++
    exponentText 'p' 1 x)

/-- The finite number `m * 2 ^ e` in a layout, with a precision or as many places as usual. -/
def laidOut (p : Precision) (layout : Layout) (m : Nat) (e : Int) (precision : Option Nat)
    (point : Bool) : List Char :=
  match layout with
  | .positional =>
    let places := precision.getD 6
    withPoint (shifted m e places) places point
  | .scientific => scientific m e (precision.getD 6) point
  | .general => general m e (precision.getD 6) point
  | .hexadecimal => hexadecimal p m e precision point

end IdleWatch.Binary
