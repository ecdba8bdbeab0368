import IdleWatch.Shell.Script

/-!
# Tokens of shell scripts

What the grammar of scripts is made of. A word can be a keyword, but is one only where the grammar
looks for keywords, so a token is a word first. The names are those of complaints.
-/

namespace IdleWatch.Shell

open Text (Octets)

/-- The words that the grammar knows. -/
inductive Keyword where
  | bang
  | case_
  | do_
  | done_
  | elif_
  | else_
  | esac
  | fi
  | for_
  | if_
  | in_
  | then_
  | until_
  | while_
  | openBrace
  | closeBrace
  deriving DecidableEq, Repr

/-- All keywords, with their spelling. -/
def keywords : List (Keyword × String) :=
  [(.bang, "!"), (.case_, "case"), (.do_, "do"), (.done_, "done"), (.elif_, "elif"),
    (.else_, "else"), (.esac, "esac"), (.fi, "fi"), (.for_, "for"), (.if_, "if"), (.in_, "in"),
    (.then_, "then"), (.until_, "until"), (.while_, "while"), (.openBrace, "\x7b"),
    (.closeBrace, "\x7d")]

/-- The spelling of a keyword. -/
def Keyword.text (k : Keyword) : String := ((keywords.find? (·.1 = k)).map (·.2)).getD ""

/-- The keyword that is spelt so. -/
def Keyword.ofText? (s : Octets) : Option Keyword :=
  (keywords.find? (·.2.toList = s)).map (·.1)

/-- A keyword ends the list of commands before it. -/
def Keyword.endsList : Keyword → Bool
  | .do_ | .done_ | .elif_ | .else_ | .esac | .fi | .then_ | .closeBrace => true
  | _ => false

/-- What a redirection does with the word after it. -/
inductive Arrow where
  | file (opening : Opening)
  | copy
  /-- The word ends a text; `strip`: tabs at the front of its lines go. -/
  | document (strip : Bool)
  deriving DecidableEq, Repr

/-- What the grammar is made of. -/
inductive Token where
  | eof
  | newline
  | semicolon
  | ampersand
  | andAnd
  | orOr
  | pipe
  | openParen
  | closeParen
  | endCase
  | redirection (descriptor : Nat) (arrow : Arrow)
  | word (w : Word)
  | keyword (k : Keyword)

namespace Token

/-- How a complaint names a token. -/
def name : Token → String
  | .eof => "end of file"
  | .newline => "newline"
  | .semicolon => "\";\""
  | .ampersand => "\"&\""
  | .andAnd => "\"&&\""
  | .orOr => "\"||\""
  | .pipe => "\"|\""
  | .openParen => "\"(\""
  | .closeParen => "\")\""
  | .endCase => "\";;\""
  | .redirection .. => "redirection"
  | .word _ => "word"
  | .keyword k => "\"" ++ k.text ++ "\""

/-- A token ends the list of commands before it. -/
def endsList : Token → Bool
  | .eof | .closeParen | .endCase => true
  | .keyword k => k.endsList
  | _ => false

/-- A keyword, where a word is one. -/
def asKeyword : Token → Token
  | .word w =>
    match (plainText? w).bind Keyword.ofText? with
    | some k => .keyword k
    | none => .word w
  | t => t

/-- The word that a token is, if it is one, be it a keyword or not. -/
def asWord : Token → Word
  | .word w => w
  | .keyword k => [.text false k.text.toList]
  | _ => []

/-- A token is this keyword. -/
def isKeyword (t : Token) (k : Keyword) : Bool :=
  match t with
  | .keyword l => k = l
  | _ => false

end Token

/-- The commands of the shell that no function can be named for. -/
def specialBuiltins : List String :=
  [".", ":", "break", "continue", "eval", "exec", "exit", "export", "readonly", "return", "set",
    "shift", "times", "trap", "unset"]

/-- How lists of commands begin and end. -/
inductive Extent where
  /-- At a line end. -/
  | line
  /-- At a token that ends lists; there is at least one command. -/
  | block
  /-- The same, but there may be no command. -/
  | body
  deriving DecidableEq, Repr

end IdleWatch.Shell
