import IdleWatch.Shell.Token

/-!
# Reading shell scripts

Scripts are read line by line, because a shell carries out a line before it looks at the next one:
a mistake in a later line does not undo what the earlier ones did. Reading is by descent. A token
can be put back, and is then read again, perhaps as a keyword. Words are read character by
character in a mode that says what ends them and what is special in them.

A backslash before a line end joins two lines everywhere but in single quotes and comments.
-/

namespace IdleWatch.Shell

open Text (Octets)

/-- What is wrong with a script, and in which line. -/
structure Complaint where
  line : Nat
  text : String
  deriving DecidableEq, Repr

/-- A text in the script that a redirection waits for. -/
structure Awaited where
  number : Nat
  delimiter : Octets
  strip : Bool
  /-- It is taken as it stands. -/
  verbatim : Bool
  deriving DecidableEq, Repr

/-- Where reading a script has come to. -/
structure Reading where
  input : Octets
  line : Nat := 1
  putBack : Option Token := none
  awaited : List Awaited := []
  /-- The text that is being read, which ends whatever is open in it. -/
  within : Option Awaited := none
  /-- The texts read so far, by number. -/
  documents : List (Nat × Word) := []
  /-- The number of the next text. -/
  count : Nat := 0

/-- Reading goes on until there is something wrong. -/
abbrev Read := StateT Reading (Except Complaint)

namespace Read

/-- Something is wrong. -/
def complain {α : Type} (text : String) : Read α := do
  throw ⟨(← get).line, text⟩

/-- A token does not fit; perhaps another one should stand there. -/
def unexpected {α : Type} (t : Token) (wanted : Option Token) : Read α :=
  complain (match wanted with
    | some w => s!"{t.name} unexpected (expecting {w.name})"
    | none => s!"{t.name} unexpected")

/-- Join lines at the front, counting them. -/
def joined : Nat → Octets → Nat × Octets
  | line, '\\' :: '\n' :: s => joined (line + 1) s
  | line, s => (line, s)

/-- The next character, which stays where it is. -/
def look? : Read (Option Char) := do
  let r ← get
  let (line, input) := joined r.line r.input
  set { r with line, input }
  return input.head?

/-- The next character as it stands, which is taken. -/
def takeRaw? : Read (Option Char) := do
  let r ← get
  match r.input with
  | [] => return none
  | c :: input =>
    set { r with input, line := if c = '\n' then r.line + 1 else r.line }
    return some c

/-- The next character, which is taken. -/
def take? : Read (Option Char) := do
  let _ ← look?
  takeRaw?

/-- The next character goes; if it is a line end, that is not counted. -/
def skipChar : Read Unit := do
  let _ ← look?
  modify fun r => { r with input := r.input.tail }

/-- Take the next character if it is this one. -/
def takeIf (c : Char) : Read Bool := do
  if (← look?) = some c then
    let _ ← takeRaw?
    return true
  else return false

/-- Take the characters of a class at the front, at most so many. -/
def takeWhile (p : Char → Bool) : Nat → Read Octets
  | 0 => return []
  | fuel + 1 => do
    match ← look? with
    | some c =>
      if p c then
        let _ ← takeRaw?
        return c :: (← takeWhile p fuel)
      else return []
    | none => return []

/-- How much there is left to read, as a bound on what can be taken. -/
def remaining : Read Nat := do return (← get).input.length

/-- The rest of a comment goes; its line end stays. -/
def skipComment : Read Unit :=
  modify fun r => { r with input := r.input.dropWhile (· ≠ '\n') }

/-- Put a token back. -/
def putBack (t : Token) : Read Unit := modify fun r => { r with putBack := some t }

end Read

open Read

/-- What ends a word and what is special in it. -/
inductive Mode where
  | word
  /-- A word that ends a text: there are no expansions. -/
  | delimiter
  | double
  /-- In the braces of a parameter, in quotes or not, perhaps in quotes of its own. -/
  | braces (quoted inner : Bool)
  /-- In a text, up to a line that is its delimiter. -/
  | document
  /-- In an arithmetic expression, with so many parentheses open. -/
  | arithmetic (depth : Nat)
  deriving DecidableEq, Repr

namespace Mode

/-- What is read in this mode counts as quoted. -/
def quotes : Mode → Bool
  | .word | .delimiter => false
  | .braces q _ => q
  | _ => true

/-- The mode ends before blanks and operators. -/
def isBare : Mode → Bool
  | .word | .delimiter => true
  | _ => false

/-- A character that keeps its backslash out, where quotes are on. -/
def escapes (m : Mode) (c : Char) : Bool :=
  ['\\', '\x60', '$'].contains c || match m with
    | .document => false
    | .braces .. => c = '"' || c = '\x7d'
    | _ => c = '"'

/-- What is wrong if the script ends here, or a text in it that we are in. -/
def atEnd? (within : Bool) : Mode → Option String
  | .word | .delimiter | .document => none
  | .arithmetic _ => some "Missing '))'"
  | .braces q _ =>
    some (if q && !within then "Unterminated quoted string" else "Missing '\x7d'")
  | .double => some "Unterminated quoted string"

end Mode

/-- A character that ends a word outside quotes. -/
def endsWord (c : Char) : Bool := [' ', '\t', '\n', '&', '|', ';', '(', ')', '<', '>'].contains c

/-- The parameters that are one character and no name. -/
def isSpecial (c : Char) : Bool := c.isDigit || ['!', '?', '$', '-', '@', '*', '#'].contains c

/-- The rest of a text in single quotes. -/
def takeSingle : Read Octets := do
  let r ← get
  let inside := r.input.takeWhile (· ≠ '\'')
  let rest := r.input.drop inside.length
  set { r with input := rest.tail, line := r.line + inside.count '\n' }
  if rest.isEmpty then complain "Unterminated quoted string"
  return inside

/-- What follows a backslash. -/
def takeEscaped (m : Mode) : Read Piece := do
  match ← takeRaw? with
  | none => return .text true ['\\']
  | some c => return .text true (if !m.quotes || m.escapes c then [c] else ['\\', c])

/-- The script of a command in backquotes, where some backslashes go. -/
def takeBackquoted (quoted : Bool) : Nat → Read Octets
  | 0 => complain "EOF in backquote substitution"
  | fuel + 1 => do
    match ← take? with
    | none => complain "EOF in backquote substitution"
    | some '\x60' => return []
    | some '\\' =>
      match ← takeRaw? with
      | none => complain "EOF in backquote substitution"
      | some c =>
        let plain := ['\\', '\x60', '$'].contains c || (quoted && c = '"')
        let rest ← takeBackquoted quoted fuel
        return if plain then c :: rest else '\\' :: c :: rest
    | some c => return c :: (← takeBackquoted quoted fuel)

/-- The line at the front is the delimiter of a text: what comes after it. -/
def afterDelimiter? (delimiter : Octets) (strip : Bool) (s : Octets) : Option Octets :=
  let s := if strip then s.dropWhile (· = '\t') else s
  if s.take delimiter.length = delimiter then
    match s.drop delimiter.length with
    | [] => if delimiter.isEmpty then none else some []
    | '\n' :: rest => some rest
    | _ => none
  else none

/-- Is the next line of a text its delimiter? Then it is taken; else its tabs may go. -/
def takeDelimiter (delimiter : Octets) (strip : Bool) : Read Bool := do
  let r ← get
  match afterDelimiter? delimiter strip r.input with
  | some input =>
    set { r with input, line := r.line + 1 }
    return true
  | none =>
    if strip then set { r with input := r.input.dropWhile (· = '\t') }
    return r.input.isEmpty

/-- A text that is taken as it stands. -/
def takeVerbatim (delimiter : Octets) (strip : Bool) : Nat → Read Octets
  | 0 => return []
  | fuel + 1 => do
    if ← takeDelimiter delimiter strip then return []
    let r ← get
    let line := r.input.takeWhile (· ≠ '\n')
    let rest := r.input.drop line.length
    set { r with input := rest.tail, line := r.line + (rest.take 1).length }
    return line ++ rest.take 1 ++ (← takeVerbatim delimiter strip fuel)

/-- The name of a parameter in braces or without. -/
def takeParameter (braced : Bool) : Read Octets := do
  let bound ← remaining
  match ← look? with
  | some c =>
    if isNameStart c then takeWhile isNameChar bound
    else if c.isDigit then takeWhile Char.isDigit (if braced then bound else 1)
    else if isSpecial c then
      let _ ← takeRaw?
      return [c]
    else return []
  | none => return []

/-- The use of a parameter that is told by what follows its name, and whether a word follows. -/
def takeUse : Read (Use × Bool) := do
  let colon ← takeIf ':'
  match ← look? with
  | some '-' => let _ ← takeRaw?; return (.otherwise colon, true)
  | some '+' => let _ ← takeRaw?; return (.alternative colon, true)
  | some '?' => let _ ← takeRaw?; return (.demand colon, true)
  | some '=' => let _ ← takeRaw?; return (.assign colon, true)
  | some '\x7d' => let _ ← takeRaw?; return (.value, colon)
  | some '%' =>
    let _ ← takeRaw?
    if colon then return (.bad, true)
    return (.cut false (← takeIf '%'), true)
  | some '#' =>
    let _ ← takeRaw?
    if colon then return (.bad, true)
    return (.cut true (← takeIf '#'), true)
  | _ =>
    skipChar
    return (.bad, true)

/-- A parameter after its brace: its name, its use, and whether a word follows. -/
def takeBraced : Read (Octets × Use × Bool) := do
  if ← takeIf '#' then
    let r ← get
    let name ← takeParameter true
    if name.isEmpty then
      let (use, more) ← takeUse
      return (['#'], use, more)
    else if ← takeIf '\x7d' then return (name, .length, false)
    else if (name.head?.map isNameChar).getD false then return (name, .bad, true)
    else
      -- no length after all: the mark is the parameter
      set r
      let (use, more) ← takeUse
      return (['#'], use, more)
  else
    let name ← takeParameter true
    if name.isEmpty then
      if (← look?) ≠ some '\x7d' then skipChar
      return ([], .bad, true)
    let (use, more) ← takeUse
    return (name, use, more)

/-- A redirection, if the word before its arrow is empty or the digit of a descriptor. -/
def lexArrow (w : Word) (arrow : Char) : Read Token := do
  let usual := if arrow = '<' then 0 else 1
  let descriptor? : Option Nat := match w with
    | [] => some usual
    | [.text false [d]] => if d.isDigit then some (d.toNat - '0'.toNat) else none
    | _ => none
  match descriptor? with
  | none => return .word w
  | some d =>
    let _ ← takeRaw?
    if ← takeIf '&' then return .redirection d .copy
    if arrow = '>' then
      if ← takeIf '>' then return .redirection d (.file .append)
      let _ ← takeIf '|'
      return .redirection d (.file .write)
    else
      if ← takeIf '<' then return .redirection d (.document (← takeIf '-'))
      if ← takeIf '>' then return .redirection d (.file .both)
      return .redirection d (.file .read)

mutual

/-- The pieces of a word, up to what ends it in this mode; those read so far stand backwards. -/
def readPieces : Nat → Mode → List Piece → Read Word
  | 0, _, _ => complain "too deep"
  | fuel + 1, m, before => do
    match ← look? with
    | none =>
      match m.atEnd? (← get).within.isSome with
      | some text => complain text
      | none => return joinText before.reverse
    | some c =>
      if m.isBare && endsWord c then return joinText before.reverse
      let _ ← takeRaw?
      let literal := .text m.quotes [c] :: before
      match c, m with
      | '\\', m => readPieces fuel m ((← takeEscaped m) :: before)
      | '\'', .word | '\'', .delimiter | '\'', .braces false _ =>
        readPieces fuel m (.text true (← takeSingle) :: before)
      | '"', .double => return joinText before.reverse
      | '"', .braces true inner => readPieces fuel (.braces true !inner) (.text true [] :: before)
      | '"', .document | '"', .arithmetic _ => readPieces fuel m literal
      | '"', m =>
        let inside ← readPieces fuel .double []
        readPieces fuel m (inside.reverse ++ .text true [] :: before)
      | '$', .delimiter | '\x60', .delimiter => readPieces fuel m literal
      | '$', m => readPieces fuel m ((← readDollar fuel m) :: before)
      | '\x60', m => readPieces fuel m ((← readBackquote fuel m.quotes) :: before)
      | '\x7d', .braces _ false => return joinText before.reverse
      | '(', .arithmetic depth => readPieces fuel (.arithmetic (depth + 1)) literal
      | ')', .arithmetic 0 =>
        if ← takeIf ')' then return joinText before.reverse else readPieces fuel m literal
      | ')', .arithmetic (depth + 1) => readPieces fuel (.arithmetic depth) literal
      | '\n', m =>
        match (← get).within with
        | none => readPieces fuel m literal
        | some a =>
          if ← takeDelimiter a.delimiter a.strip then
            match m.atEnd? true with
            | some text => complain text
            | none => return joinText literal.reverse
          else readPieces fuel m literal
      | _, m => readPieces fuel m literal

/-- What follows a dollar sign. -/
def readDollar : Nat → Mode → Read Piece
  | 0, _ => complain "too deep"
  | fuel + 1, m => do
    match ← look? with
    | some '(' =>
      let _ ← takeRaw?
      if ← takeIf '(' then
        return .arithmetic m.quotes (← readPieces fuel (.arithmetic 0) [])
      else
        let command ← readSubstitution fuel
        return .output m.quotes command
    | some '\x7b' =>
      let _ ← takeRaw?
      let (name, use, more) ← takeBraced
      if more then
        let quoted := match use with
          | .cut .. => false
          | _ => m.quotes
        let word ← readPieces fuel (.braces quoted false) []
        return .parameter m.quotes name use word
      else return .parameter m.quotes name use []
    | some c =>
      if isNameStart c || isSpecial c then
        return .parameter m.quotes (← takeParameter false) .value []
      else return .text m.quotes ['$']
    | none => return .text m.quotes ['$']

/-- A command whose output is taken, after its opening parenthesis. -/
def readSubstitution : Nat → Read Command
  | 0 => complain "too deep"
  | fuel + 1 => do
    let before ← get
    modify fun r => { r with awaited := [], within := none }
    let command ← readList fuel .body none
    let t ← readToken fuel false false
    match t with
    | .closeParen =>
      modify fun r => { r with awaited := before.awaited, within := before.within }
      return command
    | t => unexpected t (some .closeParen)

/-- A command in backquotes, which is read on its own, with lines of its own. -/
def readBackquote : Nat → Bool → Read Piece
  | 0, _ => complain "too deep"
  | fuel + 1, quoted => do
    let s ← takeBackquoted quoted (← remaining).succ
    let r ← get
    set { r with input := s, line := 1, awaited := [], within := none }
    let command ← readList fuel .body none
    modify fun inner => { r with documents := inner.documents, count := inner.count }
    return .output quoted command

/-- The next token as it is lexed. -/
def lexToken : Nat → Mode → Read Token
  | 0, _ => complain "too deep"
  | fuel + 1, m => do
    match ← look? with
    | none => return .eof
    | some c =>
      match c with
      | ' ' | '\t' =>
        let _ ← takeRaw?
        lexToken fuel m
      | '#' =>
        skipComment
        lexToken fuel m
      | '\n' =>
        let _ ← takeRaw?
        return .newline
      | '&' =>
        let _ ← takeRaw?
        return if ← takeIf '&' then .andAnd else .ampersand
      | '|' =>
        let _ ← takeRaw?
        return if ← takeIf '|' then .orOr else .pipe
      | ';' =>
        let _ ← takeRaw?
        return if ← takeIf ';' then .endCase else .semicolon
      | '(' =>
        let _ ← takeRaw?
        return .openParen
      | ')' =>
        let _ ← takeRaw?
        return .closeParen
      | _ =>
        let w ← readPieces fuel m []
        match ← look? with
        | some '<' => lexArrow w '<'
        | some '>' => lexArrow w '>'
        | _ => return .word w

/-- The next token, after line ends if those do not matter, and as a keyword if it can be one. -/
def readToken : Nat → Bool → Bool → Read Token
  | 0, _, _ => complain "too deep"
  | fuel + 1, newlines, words => do
    let t ← match (← get).putBack with
      | some t =>
        modify fun r => { r with putBack := none }
        pure t
      | none => lexToken fuel .word
    match t with
    | .newline =>
      if newlines then
        readDocuments fuel
        readToken fuel newlines words
      else return t
    | t => return if words then t.asKeyword else t

/-- The texts that redirections wait for. -/
def readDocuments : Nat → Read Unit
  | 0 => complain "too deep"
  | fuel + 1 => do
    match (← get).awaited with
    | [] => return
    | a :: rest =>
      modify fun r => { r with awaited := rest }
      let body ←
        if a.verbatim then
          let s ← takeVerbatim a.delimiter a.strip (← remaining).succ
          pure [Piece.text true s]
        else if ← takeDelimiter a.delimiter a.strip then pure []
        else
          modify fun r => { r with within := some a }
          readPieces fuel .document []
      modify fun r => { r with within := none, documents := (a.number, body) :: r.documents }
      readDocuments fuel

/-- The word after an arrow. -/
def readTarget : Nat → Nat → Arrow → Read Redirection
  | 0, _, _ => complain "too deep"
  | fuel + 1, d, arrow => do
    let mode : Mode := match arrow with
      | .document _ => .delimiter
      | _ => .word
    match ← lexToken fuel mode with
    | .word w =>
      match arrow with
      | .file opening => return .file d opening w
      | .copy => return .copy d w
      | .document strip =>
        let number := (← get).count
        let delimiter := w.flatMap fun
          | .text _ s => s
          | _ => []
        modify fun r => { r with
          count := number + 1
          awaited := r.awaited ++ [⟨number, delimiter, strip, isQuoted w⟩] }
        return .document d number
    | t => unexpected t none

/-- Redirections at the end of a command. Only the first token can be a keyword instead. -/
def readRedirections : Nat → Bool → Read (List Redirection)
  | 0, _ => complain "too deep"
  | fuel + 1, words => do
    match ← readToken fuel false words with
    | .redirection d arrow =>
      let r ← readTarget fuel d arrow
      return r :: (← readRedirections fuel false)
    | t =>
      putBack t
      return []

/-- Commands up to the end of their extent; the first ones may be read already. -/
def readList : Nat → Extent → Option Command → Read Command
  | 0, _, _ => complain "too deep"
  | fuel + 1, extent, before => do
    let t ← readToken fuel (extent ≠ .line) true
    match t, extent with
    | .newline, .line =>
      readDocuments fuel
      return before.getD .nothing
    | .eof, _ =>
      readDocuments fuel
      putBack .eof
      return before.getD .nothing
    | t, extent =>
      putBack t
      if t.endsList && (extent = .body || (extent = .block && before.isSome)) then
        return before.getD .nothing
      let command ← readAndOr fuel
      let t ← readToken fuel false false
      let command := match t, command with
        | .ampersand, .pipeline cs _ => .pipeline cs true
        | .ampersand, .redirected line c rs => .background line c rs
        | .ampersand, c => .background 0 c []
        | _, c => c
      let all := match before with
        | some b => .sequence b command
        | none => command
      match t with
      | .eof =>
        readDocuments fuel
        putBack .eof
        return all
      | .newline =>
        putBack t
        readList fuel extent (some all)
      | .ampersand | .semicolon => readList fuel extent (some all)
      | t =>
        if extent = .line then unexpected t none
        putBack t
        return all

/-- Pipelines with `&&` and `||` between them. -/
def readAndOr : Nat → Read Command
  | 0 => complain "too deep"
  | fuel + 1 => do
    let first ← readPipeline fuel false
    readMore fuel first

/-- What follows a command with `&&` or `||`. -/
def readMore : Nat → Command → Read Command
  | 0, _ => complain "too deep"
  | fuel + 1, first => do
    match ← readToken fuel false false with
    | .andAnd =>
      let second ← readPipeline fuel true
      readMore fuel (.both first second)
    | .orOr =>
      let second ← readPipeline fuel true
      readMore fuel (.either first second)
    | t =>
      putBack t
      return first

/-- Commands with `|` between them, perhaps negated. -/
def readPipeline : Nat → Bool → Read Command
  | 0, _ => complain "too deep"
  | fuel + 1, newlines => do
    let t ← readToken fuel newlines true
    let negated := t.isKeyword .bang
    if !negated then putBack t
    let first ← readCommand fuel false
    let rest ← readPipes fuel
    let whole := if rest.isEmpty then first else .pipeline (first :: rest) false
    return if negated then .negated whole else whole

/-- The commands after the first of a pipeline. -/
def readPipes : Nat → Read (List Command)
  | 0 => complain "too deep"
  | fuel + 1 => do
    match ← readToken fuel false false with
    | .pipe =>
      let c ← readCommand fuel true
      return c :: (← readPipes fuel)
    | t =>
      putBack t
      return []

/-- The part of a choice after its condition's keyword. -/
def readChoice : Nat → Read Command
  | 0 => complain "too deep"
  | fuel + 1 => do
    let condition ← readList fuel .block none
    let t ← readToken fuel false false
    if !t.isKeyword .then_ then unexpected t (some (.keyword .then_))
    let yes ← readList fuel .block none
    let t ← readToken fuel false false
    match t with
    | .keyword .elif_ => return .choice condition yes (← readChoice fuel)
    | .keyword .else_ => return .choice condition yes (← readList fuel .block none)
    | t =>
      putBack t
      return .choice condition yes .nothing

/-- A token that has to come. -/
def expect : Nat → Token → Bool → Read Unit
  | 0, _, _ => complain "too deep"
  | fuel + 1, wanted, newlines => do
    let t ← readToken fuel newlines newlines
    if t.name ≠ wanted.name then unexpected t (some wanted)

/-- The words of a loop over words. -/
def readLoopWords : Nat → Read (List Word)
  | 0 => complain "too deep"
  | fuel + 1 => do
    match ← readToken fuel false false with
    | .word w => return w :: (← readLoopWords fuel)
    | .newline | .semicolon => return []
    | t => unexpected t none

/-- The patterns of a case, after the first token of them. -/
def readPatterns : Nat → Token → Read (List Word)
  | 0, _ => complain "too deep"
  | fuel + 1, t => do
    match ← readToken fuel false false with
    | .pipe =>
      let next ← readToken fuel false false
      return t.asWord :: (← readPatterns fuel next)
    | .closeParen => return [t.asWord]
    | other => unexpected other (some .closeParen)

/-- The cases up to the end of them. -/
def readCases : Nat → Read (List (List Word × Command))
  | 0 => complain "too deep"
  | fuel + 1 => do
    let t ← readToken fuel true true
    if t.isKeyword .esac then return []
    let first ← match t with
      | .openParen => readToken fuel false false
      | t => pure t
    let patterns ← readPatterns fuel first
    let body ← readList fuel .body none
    let t ← readToken fuel true true
    if t.isKeyword .esac then return [(patterns, body)]
    match t with
    | .endCase => return (patterns, body) :: (← readCases fuel)
    | t => unexpected t (some .endCase)

/-- One command, with the redirections after it. -/
def readCommand : Nat → Bool → Read Command
  | 0, _ => complain "too deep"
  | fuel + 1, newlines => do
    let line := (← get).line
    let t ← readToken fuel newlines true
    let finish := fun (command : Command) => do
      let rs ← readRedirections fuel true
      return if rs.isEmpty then command else .redirected line command rs
    match t with
    | .keyword .if_ =>
      let c ← readChoice fuel
      expect fuel (.keyword .fi) false
      finish c
    | .keyword .while_ | .keyword .until_ =>
      let condition ← readList fuel .block none
      expect fuel (.keyword .do_) false
      let body ← readList fuel .block none
      expect fuel (.keyword .done_) false
      finish (.loop (t.isKeyword .until_) condition body)
    | .keyword .for_ =>
      let name ← match ← readToken fuel false false with
        | .word w =>
          match plainText? w with
          | some s => if isName s then pure s else complain "Bad for loop variable"
          | none => complain "Bad for loop variable"
        | _ => complain "Bad for loop variable"
      let t ← readToken fuel true true
      let words ← match t with
        | .keyword .in_ => readLoopWords fuel
        | .semicolon => pure [[.parameter true ['@'] .value []]]
        | t =>
          putBack t
          pure [[.parameter true ['@'] .value []]]
      expect fuel (.keyword .do_) true
      let body ← readList fuel .block none
      expect fuel (.keyword .done_) false
      finish (.each line name words body)
    | .keyword .case_ =>
      let word ← match ← readToken fuel false false with
        | .word w => pure w
        | t => unexpected t (some (.word []))
      expect fuel (.keyword .in_) true
      let items ← readCases fuel
      finish (.cases line word items)
    | .openParen =>
      let body ← readList fuel .block none
      expect fuel .closeParen false
      let rs ← readRedirections fuel true
      return .subshell line body rs
    | .keyword .openBrace =>
      let body ← readList fuel .block none
      expect fuel (.keyword .closeBrace) false
      finish body
    | .word _ | .redirection .. =>
      putBack t
      readSimple fuel (← get).line [] [] []
    | t => unexpected t none

/-- A command of words, whose parts are collected backwards. -/
def readSimple : Nat → Nat → List Word → List Word → List Redirection → Read Command
  | 0, _, _, _, _ => complain "too deep"
  | fuel + 1, line, assignments, words, redirections => do
    match ← readToken fuel false false with
    | .word w =>
      if words.isEmpty && (assignmentWord? w).isSome then
        readSimple fuel line (w :: assignments) words redirections
      else readSimple fuel line assignments (w :: words) redirections
    | .redirection d arrow =>
      let r ← readTarget fuel d arrow
      readSimple fuel line assignments words (r :: redirections)
    | .openParen =>
      match words, assignments, redirections with
      | [w], [], [] =>
        expect fuel .closeParen false
        match plainText? w with
        | some name =>
          if !isName name || specialBuiltins.contains (String.ofList name) then
            complain "Bad function name"
          return .define name (← readCommand fuel true)
        | none => complain "Bad function name"
      | _, _, _ =>
        putBack .openParen
        return .simple line assignments.reverse words.reverse redirections.reverse
    | t =>
      putBack t
      return .simple line assignments.reverse words.reverse redirections.reverse

end

/-- Fuel enough for a script: every nesting takes a character of it. -/
def Reading.fuel (r : Reading) : Nat := 16 * r.input.length + 256

/-- The commands of the next line, unless the script has ended. -/
def Reading.next? (r : Reading) : Except Complaint (Option Command × Reading) := do
  if r.putBack matches some .eof then return (none, r)
  let (c, r) ← (readList r.fuel .line none).run r
  return (some c, r)

end IdleWatch.Shell
