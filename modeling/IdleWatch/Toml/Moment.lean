import IdleWatch.Toml.Number

/-!
# Dates and times of TOML

A date, a time of day, or a date with a time and perhaps an offset. The day has to exist in its
month; the second may be 60.
-/

namespace IdleWatch.Toml

/-- A number of two digits, in a range. -/
def twoDigits (low high : Nat) : Reads Nat
  | a :: b :: s =>
    if isDigit a && isDigit b then
      let n := numberOf 10 [a, b]
      if low ≤ n ∧ n ≤ high then some (n, s) else none
    else none
  | _ => none

/-- A number of four digits. -/
def fourDigits : Reads Nat
  | a :: b :: c :: d :: s =>
    if [a, b, c, d].all isDigit then some (numberOf 10 [a, b, c, d], s) else none
  | _ => none

/-- One certain character. -/
def mark (c : Char) : List Char → Option (List Char)
  | d :: s => if d = c then some s else none
  | [] => none

/-- A leap year. -/
def isLeap (year : Nat) : Bool := year % 4 = 0 && (year % 100 ≠ 0 || year % 400 = 0)

/-- The number of days in a month. -/
def daysIn (year month : Nat) : Nat :=
  if month = 2 then (if isLeap year then 29 else 28)
  else if month = 4 || month = 6 || month = 9 || month = 11 then 30
  else 31

/-- A date: the rest of the text after it. -/
def date? (s : List Char) : Option (List Char) := do
  let (year, s) ← fourDigits s
  let s ← mark '-' s
  let (month, s) ← twoDigits 1 12 s
  let s ← mark '-' s
  let (_, s) ← twoDigits 1 (daysIn year month) s
  some s

/-- The fraction of a second, if there is one. -/
def secondFraction (s : List Char) : List Char :=
  match s with
  | '.' :: c :: rest => if isDigit c then rest.dropWhile isDigit else s
  | _ => s

/-- A time of day: the rest of the text after it. -/
def time? (s : List Char) : Option (List Char) := do
  let (_, s) ← twoDigits 0 23 s
  let s ← mark ':' s
  let (_, s) ← twoDigits 0 59 s
  let s ← mark ':' s
  let (_, s) ← twoDigits 0 60 s
  some (secondFraction s)

/-- An offset from universal time, if there is one. -/
def offset? : List Char → Option (List Char)
  | 'Z' :: s | 'z' :: s => some s
  | c :: s =>
    if c = '+' ∨ c = '-' then do
      let (_, s) ← twoDigits 0 23 s
      let s ← mark ':' s
      let (_, s) ← twoDigits 0 59 s
      some s
    else some (c :: s)
  | [] => some []

/-- A time that follows a date, after the letter or blank between them. -/
def timeOfDate? (s : List Char) : Option (List Char) :=
  match s with
  | c :: rest => if c = 'T' ∨ c = 't' ∨ c = ' ' then time? rest else none
  | [] => none

/-- A date, a time, or both. -/
def moment (s : List Char) : Option (Value × List Char) :=
  match date? s with
  | some s =>
    match timeOfDate? s with
    | some s => (offset? s).map (.moment, ·)
    | none => some (.moment, s)
  | none => (time? s).map (.moment, ·)

end IdleWatch.Toml
