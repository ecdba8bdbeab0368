import IdleWatch.Text.Utf8

/-!
# Byte sequences that are looked at like text

Commands look at their scripts, formats and arguments byte by byte, whatever the bytes may mean. So
that a byte can be compared with an ASCII character, each byte is kept as the character of its
number.
-/

namespace IdleWatch.Text

/-- A byte sequence: each byte is the character of its number. -/
abbrev Octets := List Char

namespace Octets

/-- Bytes, each as the character of its number. -/
def ofBytes (bytes : List UInt8) : Octets := bytes.map fun b => Char.ofNat b.toNat

/-- The bytes themselves. -/
def toBytes (s : Octets) : List UInt8 := s.map fun c => UInt8.ofNat c.toNat

/-- The bytes of a text. -/
def ofText (text : String) : Octets := ofBytes (Utf8.encode text)

/-- The byte of a number, counted round from 256. -/
def byte (n : Nat) : Char := Char.ofNat (n % 256)

end Octets

end IdleWatch.Text
