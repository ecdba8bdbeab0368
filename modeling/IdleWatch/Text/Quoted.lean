import IdleWatch.Text.Shown

/-!
# Quoted texts in messages

A message that quotes a text puts it between double quotes on one line: the quote and the
backslash are escaped, the common controls have short escapes, and any other character that is not
shown as itself is written by its number, `\u` and the number in braces, in lower-case
hexadecimal without leading zeros.
-/

namespace IdleWatch.Text

/-- One character between quotes. -/
def quoteChar (c : Char) : List Char :=
  match c with
  | '"' => ['\\', '"']
  | '\\' => ['\\', '\\']
  | '\n' => ['\\', 'n']
  | '\r' => ['\\', 'r']
  | '\t' => ['\\', 't']
  | '\x00' => ['\\', '0']
  | c =>
    if isShown c then [c]
    else ['\\', 'u', '\x7b'] ++ Nat.toDigits 16 c.toNat ++ ['\x7d']

/-- The text between quotes. -/
def quote (text : String) : String :=
  String.ofList ('"' :: text.toList.flatMap quoteChar ++ ['"'])

end IdleWatch.Text
