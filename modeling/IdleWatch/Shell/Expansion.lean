import IdleWatch.Shell.Arithmetic
import IdleWatch.Shell.Pattern
import IdleWatch.Shell.State

/-!
# Expansion of words

A word becomes a sequence of bytes that remember whether they were quoted and whether separators
among them end a field. From that come the fields of a command, a single text, or a pattern.
-/

namespace IdleWatch.Shell

open Text (Octets)
open Exec

/-- A part of an expanded word. -/
inductive Fragment where
  | byte (quoted splits : Bool) (c : Char)
  /-- There is a field here, be it empty. -/
  | present
  /-- Another field begins. -/
  | next
  deriving DecidableEq, Repr

namespace Fragment

/-- A text whose separators end fields unless it is quoted. -/
def ofValue (quoted : Bool) (s : Octets) : List Fragment :=
  let bytes := s.map (.byte quoted !quoted)
  if quoted then .present :: bytes else bytes

/-- Texts, each a field of its own. -/
def ofValues (quoted : Bool) : List Octets → List Fragment
  | [] => []
  | [s] => ofValue quoted s
  | s :: rest => ofValue quoted s ++ .next :: ofValues quoted rest

/-- The marks of a fragment; another field is set off by a blank. -/
def marks : Fragment → Pattern
  | .byte q _ c => [⟨q, c⟩]
  | .present => []
  | .next => [⟨true, ' '⟩]

/-- One text. -/
def text (fs : List Fragment) : Octets := fs.flatMap fun f => (marks f).map Mark.char

/-- One pattern. -/
def pattern (fs : List Fragment) : Pattern := fs.flatMap marks

end Fragment

/-! ## Fields -/

/-- Where splitting has come to. -/
structure Splitting where
  /-- The fields that have ended, the latest first. -/
  done : List Octets := []
  /-- The field that has begun, backwards. -/
  current : Option Octets := none
  /-- Blanks have ended a field, so that another separator ends no further one. -/
  afterBlank : Bool := false

namespace Splitting

/-- The field that has begun ends. -/
def close (s : Splitting) : Splitting :=
  match s.current with
  | some f => { s with done := f.reverse :: s.done, current := none }
  | none => s

/-- One more fragment. -/
def push (separators : Octets) (s : Splitting) : Fragment → Splitting
  | .byte _ splits c =>
    if splits && separators.contains c then
      if c = ' ' || c = '\t' || c = '\n' then
        { s.close with afterBlank := s.current.isSome || s.afterBlank }
      else if s.current.isSome || s.afterBlank then { s.close with afterBlank := false }
      else { s with done := [] :: s.done }
    else { s with current := some (c :: s.current.getD []), afterBlank := false }
  | .present => { s with current := some (s.current.getD []), afterBlank := false }
  | .next => { s.close with afterBlank := false }

end Splitting

/-- The fields of an expanded word. -/
def fieldsOf (separators : Octets) (fs : List Fragment) : List Octets :=
  (fs.foldl (Splitting.push separators) {}).close.done.reverse

/-! ## Parameters -/

/-- The number that a name of digits is. -/
def positionOf? (name : Octets) : Option Nat :=
  if !name.isEmpty && name.all Char.isDigit then (String.ofList name).toNat? else none

/-- The value of a parameter that has one value. -/
def parameter? (name : Octets) : Exec (Option Octets) := do
  let sh ← shell
  let number := fun (n : Nat) => some (toString n).toList
  match name with
  | ['?'] => return number sh.status
  | ['$'] => return number sh.main
  | ['!'] => return sh.background.map fun n => (toString n).toList
  | ['#'] => return number sh.arguments.length
  | ['-'] => return some sh.options
  | ['0'] => return some sh.name
  | _ =>
    match positionOf? name with
    | some n => return sh.arguments[n - 1]?
    | none => if name = "LINENO".toList then return number sh.line else valueOf? name

/-- A parameter has no value where it needs one. -/
def unset {α : Type} (name message : Octets) : Exec α := fault (name ++ [':', ' '] ++ message)

/-- The fields of all arguments: one each, or in quotes all in one, joined by a separator. -/
def argumentFields (quoted star : Bool) : Exec (List Fragment) := do
  let arguments := (← shell).arguments
  if quoted && star then
    let joint := (← separators).take 1
    return Fragment.ofValue true (joint.intercalate arguments)
  else return Fragment.ofValues quoted arguments

/-- A value that may be wanting. -/
def isWanting (colon : Bool) : Option Octets → Bool
  | none => true
  | some s => colon && s.isEmpty

/-- The tilde at the front of a word means the home directory. -/
def expandTilde (ps : List Piece) : Exec (List Piece) := do
  match ps with
  | .text false ('~' :: s) :: rest =>
    if s.head?.getD '/' = '/' && (!s.isEmpty || rest.isEmpty) then
      match ← valueOf? "HOME".toList with
      | some home => return .text true home :: .text false s :: rest
      | none => return ps
    else return ps
  | _ => return ps

mutual

/--
The fragments of pieces. `run` gives the output of a command; `inside` the braces of a parameter
text that is not quoted is split.
-/
def expandPieces (run : Command → Exec Octets) :
    Nat → Bool → List Piece → Exec (List Fragment)
  | 0, _, _ => throw .endless
  | _ + 1, _, [] => return []
  | fuel + 1, inside, .text q s :: rest => do
    let alone := (← shell).arguments.isEmpty && s.isEmpty && match rest with
      | .parameter true ['@'] .value _ :: _ => true
      | _ => false
    let bytes := s.map (.byte q (inside && !q))
    let here := if q && !alone then .present :: bytes else bytes
    return here ++ (← expandPieces run fuel inside rest)
  | fuel + 1, inside, .parameter q name use word :: rest => do
    let here ← expandParameter run fuel q name use word
    return here ++ (← expandPieces run fuel inside rest)
  | fuel + 1, inside, .output q command :: rest => do
    let s ← run command
    return Fragment.ofValue q s ++ (← expandPieces run fuel inside rest)
  | fuel + 1, inside, .arithmetic q expression :: rest => do
    let s := Fragment.text (← expandPieces run fuel false expression)
    let sh ← get
    let lookUp := fun name =>
      ((sh.shell.bindings.find? (·.1 = name)).bind (·.2.value)).getD []
    match Arithmetic.evaluate lookUp s with
    | .error (.expression text) =>
      fault (("arithmetic expression: " ++ text ++ ": \"").toList ++ s ++ ['"'])
    | .error (.variable value) => illegalNumber value
    | .ok (n, assigned) =>
      for (name, value) in assigned do
        assign name (toString value).toList
      return Fragment.ofValue q (toString n).toList ++ (← expandPieces run fuel inside rest)

/-- The fragments of a parameter in one of its uses. -/
def expandParameter (run : Command → Exec Octets) :
    Nat → Bool → Octets → Use → List Piece → Exec (List Fragment)
  | 0, _, _, _, _ => throw .endless
  | fuel + 1, q, name, use, word => do
    let many := name = ['@'] || name = ['*']
    let sh ← shell
    let value ←
      if many then
        pure (if sh.arguments.isEmpty then none else some ([' '].intercalate sh.arguments))
      else parameter? name
    let whole : Exec (List Fragment) :=
      if many then argumentFields q (name = ['*'])
      else return Fragment.ofValue q (value.getD [])
    let strict := sh.options.contains 'u' && !many
    match use with
    | .bad => fault "Bad substitution".toList
    | .value =>
      if strict && value.isNone then unset name "parameter not set".toList
      whole
    | .length =>
      if strict && value.isNone then unset name "parameter not set".toList
      return Fragment.ofValue q (toString (value.getD []).length).toList
    | .otherwise colon =>
      if isWanting colon value then expandPieces run fuel true word else whole
    | .alternative colon =>
      if isWanting colon value then return if q then [.present] else []
      else expandPieces run fuel true word
    | .assign colon =>
      if isWanting colon value then
        let s := Fragment.text (← expandPieces run fuel true word)
        if !isName name then unset name "bad variable name".toList
        assign name s
        return Fragment.ofValue q s
      else whole
    | .demand colon =>
      if isWanting colon value then
        if word.isEmpty then
          unset name (if colon then "parameter not set or null" else "parameter not set").toList
        else unset name (Fragment.text (← expandPieces run fuel true word))
      else whole
    | .cut front longest =>
      if strict && value.isNone then unset name "parameter not set".toList
      let p := Fragment.pattern (← expandPieces run fuel true word)
      return Fragment.ofValue q (p.cut front longest (value.getD []))

end

/-- The fields of a word of a command. -/
def expandFields (run : Command → Exec Octets) (fuel : Nat) (w : Word) : Exec (List Octets) := do
  let fs ← expandPieces run fuel false (← expandTilde w)
  return fieldsOf (← separators) fs

/-- The single text that a word stands for. -/
def expandText (run : Command → Exec Octets) (fuel : Nat) (w : Word) : Exec Octets := do
  return Fragment.text (← expandPieces run fuel false (← expandTilde w))

/-- The pattern that a word stands for. -/
def expandPattern (run : Command → Exec Octets) (fuel : Nat) (w : Word) : Exec Pattern := do
  return Fragment.pattern (← expandPieces run fuel false (← expandTilde w))

end IdleWatch.Shell
