import IdleWatch.Toml.Moment

/-!
# The grammar of TOML

Keys, values and the lines of a document. Arrays and inline tables may be nested 79 deep, and a
dotted key may have 79 parts.
-/

namespace IdleWatch.Toml

/-- How deep values may be nested, and how many parts a key may have. -/
def nestingLimit : Nat := 79

/-! ## Keys -/

/-- Characters of a key without quotes. -/
def isBare (c : Char) : Bool :=
  ('a' ≤ c && c ≤ 'z') || ('A' ≤ c && c ≤ 'Z') || isDigit c || c = '_' || c = '-'

/-- One part of a key. -/
def keyPart : Reads String
  | '"' :: s => (basicBody [] s).map fun (cs, s) => (String.ofList cs, s)
  | '\'' :: s => (literalBody [] s).map fun (cs, s) => (String.ofList cs, s)
  | s =>
    match s.span isBare with
    | ([], _) => none
    | (cs, s) => some (String.ofList cs, s)

/-- A key of at most so many parts, and the blanks after it. -/
def keyParts : Nat → Reads (List String)
  | 0, _ => none
  | limit + 1, s => do
    let (part, s) ← keyPart s
    match skipBlanks s with
    | '.' :: s =>
      let (parts, s) ← keyParts limit (skipBlanks s)
      some (part :: parts, s)
    | s => some ([part], s)

/-- A key: the path of tables it passes through, and its last part. -/
structure Key where
  path : List String
  last : String
  deriving DecidableEq, Repr

/-- The key with these parts. -/
def Key.ofParts? : List String → Option Key
  | [] => none
  | [last] => some { path := [], last }
  | part :: rest => (ofParts? rest).map fun k => { k with path := part :: k.path }

/-- A key and the blanks after it. -/
def key (s : List Char) : Option (Key × List Char) := do
  let (parts, s) ← keyParts nestingLimit s
  let k ← Key.ofParts? parts
  some (k, s)

/-- A key, the sign after it, and a value. -/
def assignment (value : Reads Value) (s : List Char) : Option ((Key × Value) × List Char) := do
  let (k, s) ← key s
  let s ← mark '=' s
  let (v, s) ← value (skipBlanks s)
  some ((k, v), s)

/-! ## Values -/

/-- The elements of an array, each read by `value`, after the opening bracket. -/
def elements (value : Reads Value) : Nat → Reads (List Value)
  | 0, _ => none
  | fuel + 1, s =>
    match skipVoid false s with
    | ']' :: s => some ([], s)
    | s => do
      let (v, s) ← value s
      match skipVoid false s with
      | ']' :: s => some ([v], s)
      | ',' :: s =>
        let (vs, s) ← elements value fuel s
        some (v :: vs, s)
      | _ => none

/-- The assignments of an inline table, after the opening brace, which is not closed at once. -/
def members (value : Reads Value) : Nat → Reads (List (Key × Value))
  | 0, _ => none
  | fuel + 1, s => do
    let (m, s) ← assignment value (skipBlanks s)
    match skipBlanks s with
    | '\x7d' :: s => some ([m], s)
    | ',' :: s =>
      let (ms, s) ← members value fuel s
      some (m :: ms, s)
    | _ => none

/-- The inline table that assignments make. -/
def inlineTable? (ms : List (Key × Value)) : Option Value :=
  (ms.foldlM (fun (t : Table) (m : Key × Value) => t.assign m.1.path m.1.last m.2)
    ({ origin := .inline } : Table)).map Table.toValue

/-- A value that holds no other values. -/
def scalar (s : List Char) : Option (Value × List Char) :=
  match s with
  | 't' :: 'r' :: 'u' :: 'e' :: s => some (.boolean true, s)
  | 'f' :: 'a' :: 'l' :: 's' :: 'e' :: s => some (.boolean false, s)
  | '"' :: _ | '\'' :: _ => (string s).map fun (text, s) => (.string text, s)
  | s =>
    match moment s with
    | some r => some r
    | none => number s

/-- A value in which others are nested at most so deep. -/
def value : Nat → Reads Value
  | 0, s => scalar s
  | depth + 1, '[' :: s =>
    (elements (value depth) (s.length + 1) s).map fun (vs, s) => (.array vs, s)
  | depth + 1, '\x7b' :: s =>
    match skipBlanks s with
    | '\x7d' :: s => some (.table .inline [], s)
    | s => do
      let (ms, s) ← members (value depth) (s.length + 1) s
      let v ← inlineTable? ms
      some (v, s)
  | _ + 1, s => scalar s

/-! ## Lines -/

/-- A line that says something. -/
inductive Statement where
  | assign (key : Key) (value : Value)
  /-- A header, which opens a table. -/
  | table (key : Key)
  /-- A double header, which opens an element of an array of tables. -/
  | element (key : Key)

/-- A statement, without the end of its line. -/
def statement : Reads Statement
  | '[' :: '[' :: s => do
    let (k, s) ← key (skipBlanks s)
    let s ← mark ']' s
    let s ← mark ']' s
    some (.element k, s)
  | '[' :: s => do
    let (k, s) ← key (skipBlanks s)
    let s ← mark ']' s
    some (.table k, s)
  | s => (assignment (value nestingLimit) s).map fun ((k, v), s) => (.assign k v, s)

/-- All statements of a text, if it has at most so many lines. -/
def statements : Nat → List Char → Option (List Statement)
  | 0, _ => none
  | fuel + 1, s =>
    match skipBlanks s with
    | [] => some []
    | s =>
      match lineEnd? s with
      | some s => statements fuel s
      | none => do
        let (st, s) ← statement s
        let s ← lineEnd? s
        let sts ← statements fuel s
        some (st :: sts)

end IdleWatch.Toml
