import IdleWatch.Commands.Escape
import IdleWatch.Decimal.Binary

/-!
# Numbers in arguments

A number is read from the front of a text: blanks, a sign, and digits. A whole number with a nought
in front is octal, with `0x` hexadecimal and with `0b` binary. A number that may have a fraction is
decimal or hexadecimal, with an exponent, or one of the words for infinity and for no number. What
is left of the text is for the caller to complain about, and so is a number out of range, which is
read as the nearest in range.
-/

namespace IdleWatch.Commands

open Text (Octets)

/-- What is read from the front of a text. -/
structure Numeral (α : Type) where
  value : α
  /-- Some digits, or a word for a number, were there. -/
  found : Bool
  inRange : Bool
  rest : Octets
  deriving Repr

/-- The blanks that may stand in front of a number. -/
def isNumberBlank (c : Char) : Bool :=
  c = ' ' || ('\t' ≤ c && c ≤ '\r')

/-- The sign at the front: whether it is negative, and the rest. -/
def takeSign : Octets → Bool × Octets
  | '-' :: s => (true, s)
  | '+' :: s => (false, s)
  | s => (false, s)

/-- A digit of a base. -/
def isDigitOf (base : Nat) (c : Char) : Bool := isHexDigit c && digitValue c < base

/-- All the digits of a base at the front, and the rest. -/
def takeDigits (base : Nat) (s : Octets) : Octets × Octets :=
  (s.takeWhile (isDigitOf base), s.dropWhile (isDigitOf base))

/-- The first byte is a digit of the base. -/
def startsWithDigit (base : Nat) (s : Octets) : Bool := (s.head?.map (isDigitOf base)).getD false

/-- The base that the front of a number tells, and the number without that mark. -/
def takeBase : Octets → Nat × Octets
  | '0' :: x :: s =>
    if (x = 'x' || x = 'X') && startsWithDigit 16 s then (16, s)
    else if (x = 'b' || x = 'B') && startsWithDigit 2 s then (2, s)
    else (8, '0' :: x :: s)
  | s => (if s.head? = some '0' then 8 else 10, s)

/-- A whole number of any size. -/
def readWhole (s : Octets) : Numeral Int :=
  let (negative, t) := takeSign (s.dropWhile isNumberBlank)
  let (base, t) := takeBase t
  let (ds, rest) := takeDigits base t
  let n : Int := digitsValue base ds
  if ds.isEmpty then ⟨0, false, true, s⟩ else ⟨if negative then -n else n, true, true, rest⟩

/-- A whole number of 64 bits with a sign. -/
def readSigned (s : Octets) : Numeral Int :=
  let r := readWhole s
  let value := max (-9223372036854775808) (min 9223372036854775807 r.value)
  { r with value, inRange := value = r.value }

/-- A whole number of 64 bits without a sign; a negative one counts from the end. -/
def readUnsigned (s : Octets) : Numeral Int :=
  let r := readWhole s
  if r.value.natAbs < 18446744073709551616 then { r with value := r.value % 18446744073709551616 }
  else { r with value := 18446744073709551615, inRange := false }

/-! ## Numbers with a fraction -/

/-- The byte for a number that is no digit but stands at the front, if it is there. -/
def skip? (c : Char) : Octets → Option Octets
  | d :: s => if d.toLower = c then some s else none
  | [] => none

/-- A word at the front, in any case of its letters. -/
def skipWord? : List Char → Octets → Option Octets
  | [], s => some s
  | c :: word, s => (skip? c s).bind (skipWord? word)

/-- An exponent after its mark; without digits there is none. -/
def takeExponent (mark : Char) (s : Octets) : Int × Octets :=
  match skip? mark s with
  | none => (0, s)
  | some t =>
    let (negative, t) := takeSign t
    let (ds, rest) := takeDigits 10 t
    if ds.isEmpty then (0, s)
    else
      let n : Int := digitsValue 10 ds
      (if negative then -n else n, rest)

/-- Digits with a point somewhere: all the digits, how many stand after the point, and the rest. -/
def takeFraction (base : Nat) (s : Octets) : Octets × Nat × Octets :=
  let (ds, rest) := takeDigits base s
  match rest with
  | '.' :: t =>
    let (fs, rest') := takeDigits base t
    if ds.isEmpty && fs.isEmpty then ([], 0, s) else (ds ++ fs, fs.length, rest')
  | _ => (ds, 0, rest)

/-- What is read of an exact `n * base ^ exponent`; `exact` of what was rounded. -/
def rounded (p : Precision) (x : Binary) (isZero exact : Bool) (rest : Octets) : Numeral Binary :=
  let inRange := match x with
    | .finite _ m _ => isZero || exact || p.leastFull ≤ m
    | _ => false
  ⟨x, true, inRange, rest⟩

/-- The number `m * 2 ^ e` is `n * 2 ^ k`. -/
def sameDyadic (m : Nat) (e : Int) (n : Nat) (k : Int) : Bool :=
  m * Nat.pow 2 (e - k).toNat = n * Nat.pow 2 (k - e).toNat

/-- A decimal number, if one is there. -/
def readDecimal? (p : Precision) (s : Octets) : Option (Numeral Binary) :=
  let (ds, places, rest) := takeFraction 10 s
  if ds.isEmpty then none
  else
    let (x, rest) := takeExponent 'e' rest
    let n := digitsValue 10 ds
    some (rounded p (Binary.ofDecimal p false n (x - places)) (n = 0) false rest)

/-- A hexadecimal number, if one is there. -/
def readHexadecimal? (p : Precision) : Octets → Option (Numeral Binary)
  | '0' :: x :: s =>
    let (ds, places, rest) := takeFraction 16 s
    if (x ≠ 'x' && x ≠ 'X') || ds.isEmpty then none
    else
      let (k, rest) := takeExponent 'p' rest
      let n := digitsValue 16 ds
      let k := k - 4 * places
      let magnitude := (Nat.log2 n : Int) + k
      let limit : Int := 8 * p.reach
      if n = 0 || magnitude < -limit then
        some (rounded p (.finite false 0 p.minExponent) (n = 0) false rest)
      else if limit < magnitude then some (rounded p (.infinite false) false false rest)
      else
        let y := Binary.ofFraction p false (n * Nat.pow 2 k.toNat) (Nat.pow 2 (-k).toNat)
        let exact := match y with
          | .finite _ m e => sameDyadic m e n k
          | _ => false
        some (rounded p y false exact rest)
  | _ => none

/-- What may stand in brackets after the word for no number. -/
def isPayload (c : Char) : Bool := c.isAlphanum || c = '_'

/-- The brackets after the word for no number, if they are well formed. -/
def skipPayload : Octets → Octets
  | '(' :: s =>
    match s.dropWhile isPayload with
    | ')' :: rest => rest
    | _ => '(' :: s
  | s => s

/-- A word for a number, if one is there. -/
def readWord? (s : Octets) : Option (Numeral Binary) :=
  match skipWord? ['i', 'n', 'f'] s with
  | some rest =>
    some ⟨.infinite false, true, true, (skipWord? ['i', 'n', 'i', 't', 'y'] rest).getD rest⟩
  | none => (skipWord? ['n', 'a', 'n'] s).map fun rest => ⟨.nan, true, true, skipPayload rest⟩

/-- A number that may have a fraction, without its sign, and whether it is negative. -/
def readReal (p : Precision) (s : Octets) : Bool × Numeral Binary :=
  let (negative, t) := takeSign (s.dropWhile isNumberBlank)
  match ((readWord? t).or (readHexadecimal? p t)).or (readDecimal? p t) with
  | some r => (negative, r)
  | none => (false, ⟨.finite false 0 p.minExponent, false, true, s⟩)

end IdleWatch.Commands
