import IdleWatch.Commands.Numeral
import IdleWatch.Shell.Script

/-!
# Arithmetic expressions of the shell

Whole numbers of 64 bits with the usual operators and assignments to variables. What is not reached
because a condition decides is parsed, but neither evaluated nor assigned.
-/

namespace IdleWatch.Shell.Arithmetic

open Text (Octets)
open Commands (readSigned isNumberBlank)

/-- Operators between two numbers. -/
inductive Operator where
  | mul
  | div
  | rem
  | add
  | sub
  | shiftLeft
  | shiftRight
  | lt
  | le
  | gt
  | ge
  | eq
  | ne
  | and
  | xor
  | or
  deriving DecidableEq, Repr

/-- How loosely an operator binds. -/
def Operator.level : Operator → Nat
  | .mul | .div | .rem => 0
  | .add | .sub => 1
  | .shiftLeft | .shiftRight => 2
  | .lt | .le | .gt | .ge => 3
  | .eq | .ne => 4
  | .and => 5
  | .xor => 6
  | .or => 7

/-- The level above all operators. -/
def topLevel : Nat := 8

/-- What expressions are made of. -/
inductive Symbol where
  | number (n : Int)
  | name (s : Octets)
  | operator (o : Operator)
  | assign (o : Option Operator)
  | andAnd
  | orOr
  | bang
  | tilde
  | question
  | colon
  | openParen
  | closeParen
  /-- What belongs to no expression. -/
  | stray
  deriving DecidableEq, Repr

/-- Operators that are one character and can be assignments. -/
def operatorOf? : Char → Option Operator
  | '*' => some .mul
  | '/' => some .div
  | '%' => some .rem
  | '+' => some .add
  | '-' => some .sub
  | '&' => some .and
  | '^' => some .xor
  | '|' => some .or
  | _ => none

/-- The symbol at the front of what is not blank, and the rest. -/
def takeSymbol : Octets → Symbol × Octets
  | '=' :: '=' :: s => (.operator .eq, s)
  | '=' :: s => (.assign none, s)
  | '!' :: '=' :: s => (.operator .ne, s)
  | '!' :: s => (.bang, s)
  | '<' :: '<' :: '=' :: s => (.assign (some .shiftLeft), s)
  | '<' :: '<' :: s => (.operator .shiftLeft, s)
  | '<' :: '=' :: s => (.operator .le, s)
  | '<' :: s => (.operator .lt, s)
  | '>' :: '>' :: '=' :: s => (.assign (some .shiftRight), s)
  | '>' :: '>' :: s => (.operator .shiftRight, s)
  | '>' :: '=' :: s => (.operator .ge, s)
  | '>' :: s => (.operator .gt, s)
  | '&' :: '&' :: s => (.andAnd, s)
  | '|' :: '|' :: s => (.orOr, s)
  | '~' :: s => (.tilde, s)
  | '?' :: s => (.question, s)
  | ':' :: s => (.colon, s)
  | '(' :: s => (.openParen, s)
  | ')' :: s => (.closeParen, s)
  | c :: s =>
    match operatorOf? c, s with
    | some o, '=' :: s => (.assign (some o), s)
    | some o, s => (.operator o, s)
    | none, s =>
      if c.isDigit then
        let r := readSigned (c :: s)
        (.number r.value, r.rest)
      else if isNameStart c then
        let name := (c :: s).takeWhile isNameChar
        (.name name, (c :: s).drop name.length)
      else (.stray, s)
  | [] => (.stray, [])

/-- The symbols of an expression; what follows a stray one is not looked at. -/
def symbolsFor : Nat → Octets → List Symbol
  | 0, _ => []
  | fuel + 1, s =>
    match s.dropWhile (fun c => c = ' ' || c = '\t' || c = '\n') with
    | [] => []
    | s =>
      match takeSymbol s with
      | (.stray, _) => [.stray]
      | (t, rest) => t :: symbolsFor fuel rest

/-- Why an expression has no value. -/
inductive Fault where
  /-- Something is wrong with the expression. -/
  | expression (text : String)
  /-- A variable holds no number. -/
  | variable (value : Octets)
  deriving DecidableEq, Repr

/-- Where evaluation has come to: the symbols to come, and the assignments, the latest first. -/
structure Progress where
  symbols : List Symbol
  assigned : List (Octets × Int) := []

/-- Evaluation, with the values that variables have at first. -/
abbrev Eval := ReaderT (Octets → Octets) (StateT Progress (Except Fault))

/-- A number of 64 bits, round the corner if need be. -/
def wrap (n : Int) : Int := n.bmod 18446744073709551616

/-- Something is wrong with the expression. -/
def fail {α : Type} (text : String) : Eval α := throw (.expression text)

/-- The next symbol, which stays. -/
def look? : Eval (Option Symbol) := do return (← get).symbols.head?

/-- The next symbol, which is taken. -/
def take? : Eval (Option Symbol) := do
  let p ← get
  set { p with symbols := p.symbols.tail }
  return p.symbols.head?

/-- The number that a text is, as the value of a variable. -/
def numberOf (s : Octets) : Except Fault Int :=
  let r := readSigned s
  if r.inRange && (r.rest.dropWhile isNumberBlank).isEmpty then .ok r.value
  else .error (.variable s)

/-- The number that a variable holds. -/
def valueOf (name : Octets) : Eval Int := do
  match (← get).assigned.find? (·.1 = name) with
  | some (_, n) => return n
  | none =>
    match numberOf ((← read) name) with
    | .ok n => return n
    | .error e => throw e

/-- What an operator makes of two numbers. -/
def apply (o : Operator) (a b : Int) : Eval Int := do
  let truth := fun (p : Bool) => if p then (1 : Int) else 0
  let word := fun (n : Int) => (n % 18446744073709551616).toNat
  let places := (b % 64).toNat
  match o with
  | .mul => return wrap (a * b)
  | .div => if b = 0 then fail "division by zero" else return wrap (Int.tdiv a b)
  | .rem => if b = 0 then fail "division by zero" else return wrap (Int.tmod a b)
  | .add => return wrap (a + b)
  | .sub => return wrap (a - b)
  | .shiftLeft => return wrap (a * Nat.pow 2 places)
  | .shiftRight => return Int.fdiv a (Nat.pow 2 places)
  | .lt => return truth (a < b)
  | .le => return truth (a ≤ b)
  | .gt => return truth (b < a)
  | .ge => return truth (b ≤ a)
  | .eq => return truth (a = b)
  | .ne => return truth (a ≠ b)
  | .and => return wrap (word a &&& word b : Nat)
  | .xor => return wrap (word a ^^^ word b : Nat)
  | .or => return wrap (word a ||| word b : Nat)

mutual

/-- A number, a variable, or an expression in parentheses, with operators in front. -/
def primary : Nat → Bool → Eval Int
  | 0, _ => fail "too deep"
  | fuel + 1, skip => do
    match ← take? with
    | some .openParen =>
      let n ← assignment fuel skip
      match ← take? with
      | some .closeParen => return n
      | _ => fail "expecting ')'"
    | some (.number n) => return n
    | some (.name s) => if skip then return 0 else valueOf s
    | some (.operator .add) => primary fuel skip
    | some (.operator .sub) => return wrap (-(← primary fuel skip))
    | some .bang => return if (← primary fuel skip) = 0 then 1 else 0
    | some .tilde => return wrap (-(← primary fuel skip) - 1)
    | _ => fail "expecting primary"

/-- Operators that bind more tightly than a level, after a first number. -/
def operations : Nat → Nat → Bool → Int → Eval Int
  | 0, _, _, _ => fail "too deep"
  | fuel + 1, level, skip, a => do
    match ← look? with
    | some (.operator o) =>
      if o.level < level then
        let _ ← take?
        let b ← primary fuel skip
        let b ← operations fuel o.level skip b
        let c ← if skip then pure b else apply o a b
        operations fuel level skip c
      else return a
    | _ => return a

/-- Numbers of which all have to be true. -/
def conjunction : Nat → Bool → Eval Int
  | 0, _ => fail "too deep"
  | fuel + 1, skip => do
    let a ← operations fuel topLevel skip (← primary fuel skip)
    match ← look? with
    | some .andAnd =>
      let _ ← take?
      let b ← conjunction fuel (skip || a = 0)
      return if a ≠ 0 ∧ b ≠ 0 then 1 else 0
    | _ => return a

/-- Numbers of which one has to be true. -/
def disjunction : Nat → Bool → Eval Int
  | 0, _ => fail "too deep"
  | fuel + 1, skip => do
    let a ← conjunction fuel skip
    match ← look? with
    | some .orOr =>
      let _ ← take?
      let b ← disjunction fuel (skip || a ≠ 0)
      return if a ≠ 0 ∨ b ≠ 0 then 1 else 0
    | _ => return a

/-- A choice between two numbers. -/
def conditional : Nat → Bool → Eval Int
  | 0, _ => fail "too deep"
  | fuel + 1, skip => do
    let a ← disjunction fuel skip
    match ← look? with
    | some .question =>
      let _ ← take?
      let b ← assignment fuel (skip || a = 0)
      match ← take? with
      | some .colon =>
        let c ← conditional fuel (skip || a ≠ 0)
        return if a ≠ 0 then b else c
      | _ => fail "expecting ':'"
    | _ => return a

/-- An assignment, or any other expression. -/
def assignment : Nat → Bool → Eval Int
  | 0, _ => fail "too deep"
  | fuel + 1, skip => do
    match (← get).symbols with
    | .name s :: .assign o :: rest =>
      modify fun p => { p with symbols := rest }
      let n ← assignment fuel skip
      if skip then return n
      let n ← match o with
        | none => pure n
        | some o => do apply o (← valueOf s) n
      modify fun p => { p with assigned := (s, n) :: p.assigned }
      return n
    | _ => conditional fuel skip

end

/-- A whole expression: its value and the assignments it makes, in their order. -/
def evaluate (lookUp : Octets → Octets) (s : Octets) :
    Except Fault (Int × List (Octets × Int)) := do
  let whole : Eval Int := do
    let n ← assignment (8 * s.length + 64) false
    match ← look? with
    | none => return n
    | some _ => fail "expecting EOF"
  let (n, p) ← (whole.run lookUp).run { symbols := symbolsFor (s.length + 1) s }
  return (n, p.assigned.reverse)

end IdleWatch.Shell.Arithmetic
