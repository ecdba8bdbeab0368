import IdleWatch.Decimal.Binary

/-!
# The shortest decimal of a floating point number

The decimals that round to a number form an interval around it; its ends belong to it when the
number's significand is even. The digits written are the fewest that lie in the interval, and of
those the nearest to the number, the greater one if two are equally near. For each count of digits
only the two neighbours of the number on that decimal grid need a look.

The layout is positional whatever the size, and a whole number keeps one nought after the point.
-/

namespace IdleWatch.Binary

/-- The interval that rounds to a number, over one denominator. -/
structure Interval where
  low : Nat
  value : Nat
  high : Nat
  den : Nat
  closed : Bool

/--
The interval around `m * 2 ^ e`, a number of precision `p`. Below a power of two the neighbour is half
as far away.
-/
def Interval.around (p : Precision) (m : Nat) (e : Int) : Interval :=
  let below := if m = p.leastFull && p.minExponent < e then 1 else 2
  let shift := e - 2
  let up := Nat.pow 2 shift.toNat
  { low := (4 * m - below) * up
    value := 4 * m * up
    high := (4 * m + 2) * up
    den := Nat.pow 2 (-shift).toNat
    closed := m % 2 = 0 }

/-- The decimal `t * 10 ^ g` lies in the interval. -/
def Interval.holds (i : Interval) (t : Nat) (g : Int) : Bool :=
  let a := t * Nat.pow 10 g.toNat * i.den
  let scale := Nat.pow 10 (-g).toNat
  if i.closed then i.low * scale ≤ a && a ≤ i.high * scale
  else i.low * scale < a && a < i.high * scale

/-- The greatest `t` for which `t * 10 ^ g` is not above the number. -/
def Interval.floor (i : Interval) (g : Int) : Nat :=
  i.value * Nat.pow 10 (-g).toNat / (i.den * Nat.pow 10 g.toNat)

/-- Twice the number lies at or above the sum of the neighbours `t` and `t + 1` on grid `g`. -/
def Interval.nearerAbove (i : Interval) (t : Nat) (g : Int) : Bool :=
  (2 * t + 1) * Nat.pow 10 g.toNat * i.den ≤ 2 * i.value * Nat.pow 10 (-g).toNat

/-- The choice on the grid of step `10 ^ g`, if a point of it lies in the interval. -/
def Interval.pick (i : Interval) (g : Int) : Option Nat :=
  let t := i.floor g
  match i.holds t g, i.holds (t + 1) g with
  | true, true => some (if i.nearerAbove t g then t + 1 else t)
  | true, false => some t
  | false, true => some (t + 1)
  | false, false => none

/-- The first grid with a choice, from the coarsest on. -/
def Interval.search (i : Interval) (magnitude : Int) : Nat → Nat → Nat × Int
  | 0, count => (i.floor (magnitude - count), magnitude - count)
  | fuel + 1, count =>
    let g := magnitude - count
    match i.pick g with
    | some t => (t, g)
    | none => i.search magnitude fuel (count + 1)

/--
The shortest decimal `t * 10 ^ g` of the double `m * 2 ^ e`, where `m` is positive. A choice that is
ten units of its grid, which happens just below a power of ten, is one unit of the next.
-/
def shortest (m : Nat) (e : Int) : Nat × Int :=
  let i := Interval.around .double m e
  let (t, g) := i.search (magnitude m e) 17 1
  if t % 10 = 0 then (t / 10, g + 1) else (t, g)

/-- Digits laid out without an exponent. -/
def positional (t : Nat) (g : Int) : List Char :=
  let digits := Nat.toDigits 10 t
  if 0 ≤ g then digits ++ List.replicate g.toNat '0' ++ ['.', '0']
  else
    let places := (-g).toNat
    let digits := List.replicate (places + 1 - digits.length) '0' ++ digits
    let whole := digits.length - places
    digits.take whole ++ '.' :: digits.drop whole

/-- The text of a double in a message. -/
def text : Binary → String
  | .nan => "NaN"
  | .infinite negative => if negative then "-inf" else "inf"
  | .finite negative m e =>
    let sign := if negative then ['-'] else []
    let body :=
      if m = 0 then ['0', '.', '0']
      else
        let (t, g) := shortest m e
        positional t g
    String.ofList (sign ++ body)

end IdleWatch.Binary
