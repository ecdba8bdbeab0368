/-!
# UTF-8, written strictly and read leniently

Writing a character gives one to four bytes. Reading accepts every byte sequence: where no
character can be made out, one **flaw** stands for each maximal run of bytes that began like a
character and was broken off, and is shown as the replacement character.

The reader is a machine that takes one byte at a time, so reading a sequence is a fold, and what
it does with `xs ++ ys` is what it does with `ys` from the place where `xs` left it. Whatever the
place, a byte below 0x80 is read as itself and leaves the machine between characters: that is why
a line feed is a boundary that no broken character can swallow.
-/

namespace IdleWatch.Text.Utf8

/-! ## Writing -/

/-- The bytes of one character. -/
def encodeChar (c : Char) : List UInt8 :=
  let n := c.toNat
  if n < 0x80 then [UInt8.ofNat n]
  else if n < 0x800 then [UInt8.ofNat (0xC0 + n / 64), UInt8.ofNat (0x80 + n % 64)]
  else if n < 0x10000 then
    [UInt8.ofNat (0xE0 + n / 4096), UInt8.ofNat (0x80 + n / 64 % 64), UInt8.ofNat (0x80 + n % 64)]
  else
    [UInt8.ofNat (0xF0 + n / 262144), UInt8.ofNat (0x80 + n / 4096 % 64),
      UInt8.ofNat (0x80 + n / 64 % 64), UInt8.ofNat (0x80 + n % 64)]

/-- The bytes of a text, character after character. -/
def encode (text : String) : List UInt8 := text.toList.flatMap encodeChar

/-! ## Reading -/

/-- What reading makes out: a character, or a **flaw**, a run of bytes that is none. -/
inductive Piece where
  | char (c : Char)
  | flaw
  deriving DecidableEq, Repr

/-- The character shown in place of a flaw, U+FFFD. -/
def replacement : Char := Char.ofNat 0xFFFD

/-- How a piece is shown. -/
def Piece.shown : Piece → Char
  | .char c => c
  | .flaw => replacement

/--
Where the reader stands: between characters, or inside one, with `left` bytes to come, the next of
them from `low` to `high`, and `value` made of the bytes so far.
-/
inductive Place where
  | between
  | inside (left low high value : Nat)
  deriving DecidableEq, Repr

/-- The place after a byte read between characters, and the piece this byte completes. -/
def first (b : Nat) : Place × List Piece :=
  if b < 0x80 then (.between, [.char (Char.ofNat b)])
  else if 0xC2 ≤ b ∧ b ≤ 0xDF then (.inside 1 0x80 0xBF (b - 0xC0), [])
  else if b = 0xE0 then (.inside 2 0xA0 0xBF 0x0, [])
  else if b = 0xED then (.inside 2 0x80 0x9F 0xD, [])
  else if 0xE1 ≤ b ∧ b ≤ 0xEF then (.inside 2 0x80 0xBF (b - 0xE0), [])
  else if b = 0xF0 then (.inside 3 0x90 0xBF 0x0, [])
  else if 0xF1 ≤ b ∧ b ≤ 0xF3 then (.inside 3 0x80 0xBF (b - 0xF0), [])
  else if b = 0xF4 then (.inside 3 0x80 0x8F 0x4, [])
  else (.between, [.flaw])

/--
The place after one more byte, and the pieces this byte completes. A byte that cannot continue the
character begun makes a flaw of what was begun, and is then read afresh.
-/
def step : Place → Nat → Place × List Piece
  | .between, b => first b
  | .inside left low high value, b =>
    if low ≤ b ∧ b ≤ high then
      let value := value * 64 + (b - 0x80)
      if left = 1 then (.between, [.char (Char.ofNat value)])
      else (.inside (left - 1) 0x80 0xBF value, [])
    else ((first b).1, .flaw :: (first b).2)

/-- A character broken off by the end of the bytes is a flaw. -/
def atEnd : Place → List Piece
  | .between => []
  | .inside .. => [.flaw]

/-- The reader part of the way through a sequence: where it stands and what it has made out. -/
structure Reading where
  place : Place := .between
  found : Array Piece := #[]

/-- One more byte. -/
def Reading.push (r : Reading) (b : UInt8) : Reading :=
  { place := (step r.place b.toNat).1, found := r.found ++ (step r.place b.toNat).2 }

/-- The pieces of a byte sequence, in order. -/
def pieces (bytes : List UInt8) : List Piece :=
  let r := bytes.foldl Reading.push {}
  r.found.toList ++ atEnd r.place

/-- The characters shown for a byte sequence. -/
def decode (bytes : List UInt8) : List Char := (pieces bytes).map Piece.shown

/-- A byte sequence is well formed when reading it finds no flaw. -/
def wellFormed (bytes : List UInt8) : Bool := (pieces bytes).all (· != .flaw)

/-- The text of a byte sequence, if it is well formed. -/
def decode? (bytes : List UInt8) : Option String :=
  let found := pieces bytes
  if found.all (· != .flaw) then some (String.ofList (found.map Piece.shown)) else none

end IdleWatch.Text.Utf8
