/-!
# Binary floating point numbers

A number is a significand and a power of two. A precision says how many significant bits there
are and which powers there are. A number is read by rounding an exact fraction once, to the nearest
number of the precision, a half going to the even neighbour. All arithmetic is on natural numbers.
-/

namespace IdleWatch

/-- The numbers that a format can hold. -/
structure Precision where
  /-- The count of significant bits. -/
  bits : Nat
  /-- The least power of two. -/
  minExponent : Int
  /-- The greatest power of two. -/
  maxExponent : Int
  /--
  A decimal with more digits than this before its point is infinite, and one with more noughts
  than this after its point is zero.
  -/
  reach : Nat
  deriving DecidableEq, Repr

namespace Precision

/-- Numbers of 64 bits. -/
def double : Precision := ⟨53, -1074, 971, 400⟩

/-- Numbers of 80 bits. -/
def extended : Precision := ⟨64, -16445, 16320, 5000⟩

/-- The least significand of full length. -/
def leastFull (p : Precision) : Nat := Nat.pow 2 (p.bits - 1)

end Precision

/-- A floating point number: `finite negative m e` is `m * 2 ^ e` with its sign. -/
inductive Binary where
  | finite (negative : Bool) (m : Nat) (e : Int)
  | infinite (negative : Bool)
  | nan
  deriving DecidableEq, Repr

namespace Binary

/-- `n / d` to the nearest whole number, a half going to the even one. -/
def roundDiv (n d : Nat) : Nat :=
  let q := n / d
  let twice := 2 * (n % d)
  if twice < d then q
  else if d < twice then q + 1
  else if q % 2 = 0 then q
  else q + 1

/-- `n / (d * 2 ^ e)` as a fraction. -/
def scaled (n d : Nat) (e : Int) : Nat × Nat :=
  if 0 ≤ e then (n, d * Nat.pow 2 e.toNat) else (n * Nat.pow 2 (-e).toNat, d)

/--
The exponent at which `n / d` has all its significant bits before the point, or the least exponent
if that is greater.
-/
def exponentOf (p : Precision) (n d : Nat) : Int :=
  let e : Int := (Nat.log2 n : Int) - Nat.log2 d - p.bits
  let (a, b) := scaled n d e
  max p.minExponent (if a / b < p.leastFull * 2 then e else e + 1)

/-- The number nearest to the fraction `n / d`, where `d` is positive. -/
def ofFraction (p : Precision) (negative : Bool) (n d : Nat) : Binary :=
  if n = 0 then .finite negative 0 p.minExponent
  else
    let e := exponentOf p n d
    let (a, b) := scaled n d e
    let m := roundDiv a b
    let (m, e) := if m = p.leastFull * 2 then (p.leastFull, e + 1) else (m, e)
    if p.maxExponent < e then .infinite negative else .finite negative m e

/-- The number of decimal digits of `n`, which is not zero. -/
def digitCount (n : Nat) : Nat := (Nat.toDigits 10 n).length

/--
The number nearest to `digits * 10 ^ exponent`. What is out of reach is infinite or zero at once, so
that no huge power is ever computed.
-/
def ofDecimal (p : Precision) (negative : Bool) (digits : Nat) (exponent : Int) : Binary :=
  let magnitude := (digitCount digits : Int) + exponent
  if digits = 0 || magnitude < -(p.reach : Int) then .finite negative 0 p.minExponent
  else if (p.reach : Int) < magnitude then .infinite negative
  else if 0 ≤ exponent then ofFraction p negative (digits * Nat.pow 10 exponent.toNat) 1
  else ofFraction p negative digits (Nat.pow 10 (-exponent).toNat)

/-- The number `m * 2 ^ e` lies below `10 ^ k`. -/
def isBelow (m : Nat) (e k : Int) : Bool :=
  m * Nat.pow 2 e.toNat * Nat.pow 10 (-k).toNat < Nat.pow 2 (-e).toNat * Nat.pow 10 k.toNat

/-- The least `k` from a start on, within `fuel` tries, for which the number lies below `10 ^ k`. -/
def magnitudeFrom (m : Nat) (e : Int) : Nat → Int → Int
  | 0, k => k
  | fuel + 1, k => if isBelow m e k then k else magnitudeFrom m e fuel (k + 1)

/--
The least `k` for which `m * 2 ^ e`, which is not zero, lies below `10 ^ k`. The logarithm of two is
close enough to 0.30103 for the search to start at most a few places below.
-/
def magnitude (m : Nat) (e : Int) : Int :=
  magnitudeFrom m e 8 (((Nat.log2 m : Int) + e) * 30103 / 100000 - 2)

end Binary

end IdleWatch
