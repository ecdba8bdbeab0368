import IdleWatch.Line
import IdleWatch.Text.Utf8

/-!
# Lines of a whole byte sequence

The lines of a byte sequence that is there all at once: one for each line feed, and what comes
after the last of them is no line. This says what an assembler has to bring out, without saying
anything about chunks.
-/

namespace IdleWatch.Framing

/-- The stretches between the marks `d`, and what is left after the last one. -/
def split {α : Type} [DecidableEq α] (d : α) : List α → List (List α) × List α
  | [] => ([], [])
  | x :: xs =>
    let (done, rest) := split d xs
    if x = d then ([] :: done, rest)
    else
      match done with
      | [] => ([], x :: rest)
      | first :: more => ((x :: first) :: more, rest)

/-- Without one `x` at the end, if there is one. -/
def dropLast {α : Type} [DecidableEq α] (x : α) (l : List α) : List α :=
  if l.getLast? = some x then l.dropLast else l

/-- The bytes of each line, its end cut off. -/
def lineBytes (bytes : List UInt8) : List (List UInt8) :=
  (split 10 bytes).1.map (dropLast 13)

/-- The bytes of the unfinished line. -/
def tail (bytes : List UInt8) : List UInt8 := (split 10 bytes).2

/-- The texts of the lines. -/
def texts (bytes : List UInt8) : List String :=
  (lineBytes bytes).map (fun b => String.ofList (Text.Utf8.decode b))

/-- The texts got by reading all the bytes as text first and cutting that into lines. -/
def textsOfDecoded (bytes : List UInt8) : List String :=
  ((split '\n' (Text.Utf8.decode bytes)).1.map (dropLast '\r')).map String.ofList

end IdleWatch.Framing
