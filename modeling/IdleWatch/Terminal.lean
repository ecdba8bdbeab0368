import IdleWatch.Reading

/-!
# A terminal between a command and its reader

What a command writes to a terminal arrives with a carriage return before each line feed and is
kept until it is read. Reading takes the oldest bytes, at most as many as asked for. When none are
left, a read has to be tried again while the command's side is open and finds the end once it is
closed. A read into no space at all returns no bytes, as soon as there is something to do.
-/

namespace IdleWatch

/-- A terminal: the bytes written and not yet read, and whether more can be written. -/
structure Terminal where
  unread : List UInt8 := []
  isOpen : Bool := true
  deriving DecidableEq, Repr

namespace Terminal

/-- How one byte arrives. -/
def arriving (b : UInt8) : List UInt8 :=
  if b = lineFeed then [carriageReturn, lineFeed] else [b]

/-- The command writes; after its side is closed this is lost. -/
def write (t : Terminal) (bytes : List UInt8) : Terminal :=
  if t.isOpen then { t with unread := t.unread ++ bytes.flatMap arriving } else t

/-- The command's side closes. -/
def close (t : Terminal) : Terminal := { t with isOpen := false }

/-- There is something to read, or the end. -/
def isReady (t : Terminal) : Bool := !t.unread.isEmpty || !t.isOpen

/-- One read of at most `size` bytes. -/
def read (t : Terminal) (size : Nat) : Terminal × ReadResult :=
  if t.unread.isEmpty then
    if t.isOpen then (t, .error .tryAgain)
    else if size = 0 then (t, .ok [])
    else (t, .error .hangUp)
  else ({ t with unread := t.unread.drop size }, .ok (t.unread.take size))

end Terminal

end IdleWatch
