import IdleWatch.Files
import IdleWatch.Shell.State

/-!
# Conditions

The command `test` and its twin in brackets tell by their status whether a condition holds. A
condition of up to four words is read by their count; a longer one by its operators, of which those
that bind more loosely are looked for first.
-/

namespace IdleWatch.Shell.Test

open Text (Octets)
open Exec

/-- What a condition asks of a file. -/
inductive FileTest where
  | exists
  | directory
  | regular
  | device
  | allowed
  | full
  | other
  deriving DecidableEq, Repr

/-- Operators with one operand. -/
inductive Unary where
  | empty
  | full
  | terminal
  | file (t : FileTest)
  deriving DecidableEq, Repr

/-- Operators with two operands. -/
inductive Binary where
  | text (holds : Ordering → Bool)
  | number (holds : Ordering → Bool)
  | file

/-- What a word of a condition can be. -/
inductive Part where
  | unary (u : Unary)
  | binary (b : Binary)
  | bang
  | and
  | or
  | openParen
  | closeParen

/-- The words that are operators. -/
def parts : List (String × Part) :=
  [("-z", .unary .empty), ("-n", .unary .full), ("-t", .unary .terminal),
    ("-e", .unary (.file .exists)), ("-d", .unary (.file .directory)),
    ("-f", .unary (.file .regular)), ("-c", .unary (.file .device)),
    ("-r", .unary (.file .allowed)), ("-w", .unary (.file .allowed)),
    ("-x", .unary (.file .directory)), ("-s", .unary (.file .full)),
    ("-b", .unary (.file .other)), ("-p", .unary (.file .other)), ("-u", .unary (.file .other)),
    ("-g", .unary (.file .other)), ("-k", .unary (.file .other)), ("-L", .unary (.file .other)),
    ("-h", .unary (.file .other)), ("-S", .unary (.file .other)), ("-O", .unary (.file .allowed)),
    ("-G", .unary (.file .allowed)),
    ("=", .binary (.text Ordering.isEq)), ("!=", .binary (.text Ordering.isNe)),
    ("<", .binary (.text Ordering.isLT)), (">", .binary (.text Ordering.isGT)),
    ("-eq", .binary (.number Ordering.isEq)), ("-ne", .binary (.number Ordering.isNe)),
    ("-lt", .binary (.number Ordering.isLT)), ("-le", .binary (.number Ordering.isLE)),
    ("-gt", .binary (.number Ordering.isGT)), ("-ge", .binary (.number Ordering.isGE)),
    ("-nt", .binary .file), ("-ot", .binary .file), ("-ef", .binary .file),
    ("!", .bang), ("-a", .and), ("-o", .or), ("(", .openParen), (")", .closeParen)]

/-- The operator that a word is. -/
def part? (s : Octets) : Option Part := (parts.find? (·.1.toList = s)).map (·.2)

/-- A word is an operator with two operands. -/
def isBinary (s : Octets) : Bool :=
  match part? s with
  | some (.binary _) => true
  | _ => false

/-- The operator at the front, unless it has to be an operand there. -/
def frontPart? : List Octets → Option Part
  | [] => none
  | s :: rest =>
    match part? s with
    | some (.unary u) =>
      match rest with
      | [] => none
      | [_] => some (.unary u)
      | next :: _ => if isBinary next then none else some (.unary u)
    | some .openParen => if rest.isEmpty then none else some .openParen
    | p => p

/-- What is wrong with a condition, at a word or as such. -/
def mistake {α : Type} (at_ : Octets) (text : String) : Exec α :=
  fault (if at_.isEmpty then text.toList else at_ ++ (": " ++ text).toList)

/-- A path leads to a device. -/
def isDevice (s : Octets) : Bool :=
  ["/dev/null", "/dev/zero", "/dev/tty"].contains (String.ofList s)

/-- What is found at a path, with no files in the working directory. -/
def position? (s : Octets) : Except Fault Files.Position :=
  if s.isEmpty then .error .notFound else Files.resolve {} (String.ofList s)

/-- A path leads to a directory. -/
def isDirectory (s : Octets) : Bool :=
  match position? s with
  | .ok (.atFile _) | .error _ => false
  | .ok _ => true

/-- A path leads to something. -/
def isThere (s : Octets) : Bool := (position? s).isOk

/-- An operator with one operand. -/
def unary (u : Unary) (s : Octets) : Exec Bool := do
  match u with
  | .empty => return s.isEmpty
  | .full => return !s.isEmpty
  | .terminal =>
    let n ← decimal s
    if n < 0 then return false
    match ← place? n.toNat with
    | some (.terminal _) => return true
    | _ => return false
  | .file t =>
    return match t with
      | .exists | .allowed => isDevice s || isThere s
      | .directory => isDirectory s
      | .device => isDevice s
      | .regular => isThere s && !isDirectory s && !isDevice s
      | .full => isThere s && !isDevice s
      | .other => false

/-- An operator with two operands. -/
def binary (b : Binary) (x y : Octets) : Exec Bool := do
  match b with
  | .text holds => return holds (compareOfLessAndEq x y)
  | .number holds => return holds (compare (← decimal x) (← decimal y))
  | .file => return false

mutual

/-- Conditions of which one has to hold; what is left begins with the last word looked at. -/
def disjunction : Nat → List Octets → Exec (Bool × List Octets)
  | 0, _ => throw .endless
  | fuel + 1, ws => do
    let (a, rest) ← conjunction fuel ws
    match frontPart? rest.tail with
    | some .or =>
      let (b, rest) ← disjunction fuel (rest.drop 2)
      return (a || b, rest)
    | _ => return (a, rest)

/-- Conditions that all have to hold. -/
def conjunction : Nat → List Octets → Exec (Bool × List Octets)
  | 0, _ => throw .endless
  | fuel + 1, ws => do
    let (a, rest) ← negation fuel ws
    match frontPart? rest.tail with
    | some .and =>
      let (b, rest) ← conjunction fuel (rest.drop 2)
      return (a && b, rest)
    | _ => return (a, rest)

/-- A condition, perhaps one that must not hold. -/
def negation : Nat → List Octets → Exec (Bool × List Octets)
  | 0, _ => throw .endless
  | fuel + 1, ws => do
    match frontPart? ws with
    | some .bang =>
      if ws.tail.isEmpty then return (true, ws)
      let (a, rest) ← negation fuel ws.tail
      return (!a, rest)
    | _ => primary fuel ws

/-- A condition without operators around it. -/
def primary : Nat → List Octets → Exec (Bool × List Octets)
  | 0, _ => throw .endless
  | _ + 1, [] => return (false, [])
  | fuel + 1, w :: ws => do
    match frontPart? (w :: ws) with
    | some .openParen =>
      match frontPart? ws with
      | some .closeParen => return (false, ws)
      | _ =>
        let (a, rest) ← disjunction fuel ws
        match frontPart? rest.tail with
        | some .closeParen => return (a, rest.tail)
        | _ => mistake [] "closing paren expected"
    | some (.unary u) =>
      match ws with
      | [] => mistake w "argument expected"
      | x :: _ => return (← unary u x, ws)
    | _ =>
      match frontPart? ws with
      | some (.binary b) =>
        match ws with
        | op :: y :: _ => do
          let _ := op
          return (← binary b w y, ws.tail)
        | op :: [] => mistake op "argument expected"
        | [] => return (!w.isEmpty, w :: ws)
      | _ => return (!w.isEmpty, w :: ws)

end

/-- A condition of any length. -/
def general (ws : List Octets) : Exec Bool := do
  let (a, rest) ← disjunction (4 * ws.length + 8) ws
  match rest with
  | w :: _ :: _ => mistake w "unexpected operator"
  | _ => return a

/-- A condition of three words with an operator in the middle. -/
def isTriple : List Octets → Bool
  | [_, op, _] => isBinary op
  | _ => false

/-- A condition by the count of its words. -/
def holds : Nat → List Octets → Exec Bool
  | 0, _ => throw .endless
  | _ + 1, [] => return false
  | fuel + 1, w :: ws => do
    let all := w :: ws
    if isTriple all then
      match all with
      | [x, op, y] =>
        match part? op with
        | some (.binary b) => binary b x y
        | _ => general all
      | _ => general all
    else if all.length = 3 || all.length = 4 then
      if w = ['('] && all.getLast? = some [')'] then general ws.dropLast
      else if w = ['!'] then return !(← holds fuel ws)
      else general all
    else general all

/-- The status of a condition. -/
def run (bracket : Bool) (ws : List Octets) : Exec Nat := do
  let ws ←
    if bracket then
      if (ws.getLast?.bind List.head?) = some ']' then pure ws.dropLast
      else fault "missing ]".toList
    else pure ws
  return if ← holds (ws.length + 1) ws then 0 else 1

end IdleWatch.Shell.Test
