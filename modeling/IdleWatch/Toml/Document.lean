import IdleWatch.Toml.Grammar

/-!
# TOML documents

A document is read line by line into statements, and the statements build one table: an assignment
goes to the table that the last header opened. A byte order mark at the front of the text is
skipped. Reading says only whether the text is a document, not what is wrong with it.
-/

namespace IdleWatch.Toml

/-- A document under construction: its table, and the path of the table opened last. -/
structure Draft where
  root : Table := {}
  current : List String := []

namespace Draft

/-- Take in one statement. -/
def add (d : Draft) : Statement → Option Draft
  | .assign k v => do
    let root ← d.root.descend false (Table.assign k.path k.last v) d.current
    some { d with root }
  | .table k => do
    let root ← d.root.descend false (Table.openTable k.last) k.path
    some { root, current := k.path ++ [k.last] }
  | .element k => do
    let root ← d.root.descend false (Table.openElement k.last) k.path
    some { root, current := k.path ++ [k.last] }

end Draft

/-- The table that statements build. -/
def build (sts : List Statement) : Option Entries :=
  (sts.foldlM Draft.add {}).map (·.root.entries)

/-- The character that may stand in front of a text to tell its encoding. -/
def byteOrderMark : Char := Char.ofNat 0xFEFF

/-- The text without a byte order mark. -/
def skipMark : List Char → List Char
  | c :: s => if c = byteOrderMark then s else c :: s
  | [] => []

/-- The keys and values of a document, if the text is one. -/
def parse? (text : String) : Option Entries :=
  let s := skipMark text.toList
  (statements (s.length + 1) s).bind build

end IdleWatch.Toml
