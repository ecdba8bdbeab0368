/-!
# Blanks, comments and strings of TOML

Readers take the characters of a text from the front and return what they read with the rest of the
text, or nothing where the text cannot be read. Line ends are a line feed or a carriage return with
a line feed; no other control character than the tab may stand in a comment or a string.
-/

namespace IdleWatch.Toml

/-- A reader: it returns what it read and the rest of the text. -/
abbrev Reads (α : Type) := List Char → Option (α × List Char)

/-! ## Blanks, comments and line ends -/

/-- Blanks do not end a line. -/
def isBlank (c : Char) : Bool := c = ' ' || c = '\t'

/-- Skip blanks. -/
def skipBlanks (s : List Char) : List Char := s.dropWhile isBlank

/-- Characters of comments and of strings between apostrophes. -/
def isPlain (c : Char) : Bool := c = '\t' || (' ' ≤ c && c ≠ '\x7f')

/-- Skip a comment, if there is one. -/
def skipComment : List Char → List Char
  | '#' :: s => s.dropWhile isPlain
  | s => s

/-- One line end. -/
def newline? : List Char → Option (List Char)
  | '\n' :: s => some s
  | '\r' :: '\n' :: s => some s
  | _ => none

/-- The rest of a line on which nothing but a comment may follow. -/
def lineEnd? (s : List Char) : Option (List Char) :=
  match skipComment (skipBlanks s) with
  | [] => some []
  | s => newline? s

/-- Skip blanks, line ends and comments; `true` means inside a comment. -/
def skipVoid : Bool → List Char → List Char
  | _, [] => []
  | _, '\n' :: s => skipVoid false s
  | _, '\r' :: s =>
    match s with
    | '\n' :: s => skipVoid false s
    | s => '\r' :: s
  | true, c :: s => if isPlain c then skipVoid true s else c :: s
  | false, '#' :: s => skipVoid true s
  | false, c :: s => if isBlank c then skipVoid false s else c :: s

/-! ## Strings -/

/-- The value of a hexadecimal digit. -/
def hexDigit? (c : Char) : Option Nat :=
  if '0' ≤ c ∧ c ≤ '9' then some (c.toNat - '0'.toNat)
  else if 'a' ≤ c ∧ c ≤ 'f' then some (c.toNat - 'a'.toNat + 10)
  else if 'A' ≤ c ∧ c ≤ 'F' then some (c.toNat - 'A'.toNat + 10)
  else none

/-- The character with this number, unless it is a surrogate or beyond the last one. -/
def scalar? (n : Nat) : Option Char :=
  if n < 0xD800 ∨ (0xDFFF < n ∧ n < 0x110000) then some (Char.ofNat n) else none

/-- The character that these hexadecimal digits number. -/
def scalarOfHex? (digits : List Char) : Option Char :=
  (digits.foldlM (fun n c => (hexDigit? c).map (n * 16 + ·)) 0).bind scalar?

/-- What stands for a character in a string between quotes, after the backslash. -/
def shortEscape? : Char → Option Char
  | 'b' => some '\x08'
  | 't' => some '\t'
  | 'n' => some '\n'
  | 'f' => some '\x0c'
  | 'r' => some '\r'
  | '"' => some '"'
  | '\\' => some '\\'
  | _ => none

/-- Characters that stand for themselves between quotes. -/
def isBasic (c : Char) : Bool := isPlain c && c ≠ '"' && c ≠ '\\'

/-- A string between quotes, on one line, after its opening quote. -/
def basicBody (acc : List Char) : Reads (List Char)
  | '"' :: s => some (acc.reverse, s)
  | '\\' :: 'u' :: a :: b :: c :: d :: s =>
    match scalarOfHex? [a, b, c, d] with
    | some x => basicBody (x :: acc) s
    | none => none
  | '\\' :: 'U' :: a :: b :: c :: d :: e :: f :: g :: h :: s =>
    match scalarOfHex? [a, b, c, d, e, f, g, h] with
    | some x => basicBody (x :: acc) s
    | none => none
  | '\\' :: c :: s =>
    match shortEscape? c with
    | some x => basicBody (x :: acc) s
    | none => none
  | c :: s => if isBasic c then basicBody (c :: acc) s else none
  | [] => none

/-- A string between apostrophes, on one line, after its opening apostrophe. -/
def literalBody (acc : List Char) : Reads (List Char)
  | '\'' :: s => some (acc.reverse, s)
  | c :: s => if isPlain c then literalBody (c :: acc) s else none
  | [] => none

/-- What a backslash at the end of a line swallows: blanks and line ends. -/
inductive Trim where
  /-- Nothing is being swallowed. -/
  | off
  /-- Blanks after the backslash; a line end has to come. -/
  | line
  /-- Blanks and line ends after that. -/
  | void
  deriving DecidableEq, Repr

/-- The line end at the front of a string of several lines does not belong to it. -/
def skipFirstNewline (s : List Char) : List Char := (newline? s).getD s

/--
A string of several lines, after its three opening quotes. Up to two quotes may stand anywhere in
it, also right before the three that close it; a carriage return stands only before a line feed and
is dropped there.
-/
def multiBasicBody (trim : Trim) (acc : List Char) : Reads (List Char)
  | '\n' :: s =>
    match trim with
    | .off => multiBasicBody .off ('\n' :: acc) s
    | _ => multiBasicBody .void acc s
  | '\r' :: '\n' :: s =>
    match trim with
    | .off => multiBasicBody .off ('\n' :: acc) s
    | _ => multiBasicBody .void acc s
  | c :: s =>
    if trim ≠ .off ∧ isBlank c then multiBasicBody trim acc s
    else if trim = .line then none
    else
      match c, s with
      | '"', '"' :: '"' :: '"' :: '"' :: s => some (('"' :: '"' :: acc).reverse, s)
      | '"', '"' :: '"' :: '"' :: s => some (('"' :: acc).reverse, s)
      | '"', '"' :: '"' :: s => some (acc.reverse, s)
      | '"', s => multiBasicBody .off ('"' :: acc) s
      | '\\', 'u' :: a :: b :: c :: d :: s =>
        match scalarOfHex? [a, b, c, d] with
        | some x => multiBasicBody .off (x :: acc) s
        | none => none
      | '\\', 'U' :: a :: b :: c :: d :: e :: f :: g :: h :: s =>
        match scalarOfHex? [a, b, c, d, e, f, g, h] with
        | some x => multiBasicBody .off (x :: acc) s
        | none => none
      | '\\', c :: s =>
        match shortEscape? c with
        | some x => multiBasicBody .off (x :: acc) s
        | none => multiBasicBody .line acc (c :: s)
      | c, s => if isBasic c then multiBasicBody .off (c :: acc) s else none
  | [] => none

/-- A string of several lines, after its three opening apostrophes. -/
def multiLiteralBody (acc : List Char) : Reads (List Char)
  | '\'' :: '\'' :: '\'' :: '\'' :: '\'' :: s => some (('\'' :: '\'' :: acc).reverse, s)
  | '\'' :: '\'' :: '\'' :: '\'' :: s => some (('\'' :: acc).reverse, s)
  | '\'' :: '\'' :: '\'' :: s => some (acc.reverse, s)
  | '\n' :: s => multiLiteralBody ('\n' :: acc) s
  | '\r' :: '\n' :: s => multiLiteralBody ('\n' :: acc) s
  | c :: s => if isPlain c then multiLiteralBody (c :: acc) s else none
  | [] => none

/-- A string in one of its four forms. -/
def string : Reads String
  | '"' :: '"' :: '"' :: s => (multiBasicBody .off [] (skipFirstNewline s)).map asString
  | '"' :: s => (basicBody [] s).map asString
  | '\'' :: '\'' :: '\'' :: s => (multiLiteralBody [] (skipFirstNewline s)).map asString
  | '\'' :: s => (literalBody [] s).map asString
  | _ => none
where
  /-- The characters read, as a text. -/
  asString : List Char × List Char → String × List Char
    | (cs, rest) => (String.ofList cs, rest)

end IdleWatch.Toml
