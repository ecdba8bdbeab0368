import IdleWatch.Decimal.Binary

/-!
# TOML values and tables

A document is a table, and tables keep their keys in order. A table remembers how it came about,
because that decides who may add to it: a table written between braces is closed; one that a header
names is open to the lines under that header only; one that only a longer header or a dotted key
mentions can still be extended.
-/

namespace IdleWatch.Toml

/-- How a table came about. -/
inductive Origin where
  /-- It was written between braces. -/
  | inline
  /-- A header names it. -/
  | headed
  /-- A longer header passes through it. -/
  | implied
  /-- A dotted key passes through it. -/
  | dotted
  deriving DecidableEq, Repr

/-- A TOML value. Of a date or a time only the fact is kept that it is one. -/
inductive Value where
  | string (text : String)
  | integer (n : Int)
  | float (x : Binary)
  | boolean (b : Bool)
  | moment
  | array (items : List Value)
  | table (origin : Origin) (entries : List (String × Value))
  /-- An array whose elements are tables with headers. -/
  | tables (elements : List Value)

/-- The keys of a table with their values, in order. -/
abbrev Entries := List (String × Value)

namespace Entries

/-- The value of a key. -/
def get? (entries : Entries) (key : String) : Option Value := entries.lookup key

/-- Give a key that is there another value, in its place. -/
def replace (entries : Entries) (key : String) (value : Value) : Entries :=
  entries.map fun (k, v) => if k = key then (k, value) else (k, v)

/-- Without a key. -/
def remove (entries : Entries) (key : String) : Entries := entries.filter fun (k, _) => k ≠ key

/-- With one more key at the end. -/
def append (entries : Entries) (key : String) (value : Value) : Entries := entries ++ [(key, value)]

end Entries

/-- A table under construction. -/
structure Table where
  origin : Origin := .headed
  entries : Entries := []

namespace Table

/-- The table as a value. -/
def toValue (t : Table) : Value := .table t.origin t.entries

/-- Tables that a dotted key may pass through. -/
def isExtensible : Origin → Bool
  | .implied | .dotted => true
  | .inline | .headed => false

/--
Change the table at the end of a path. Keys that are missing on the way are given tables; of an
array of tables the last element is meant. A dotted key passes only through tables that are
extensible, a header through all that are not inline.
-/
def descend (dotted : Bool) (change : Table → Option Table) : List String → Table → Option Table
  | [], t => change t
  | key :: path, t =>
    match t.entries.get? key with
    | none => do
      let sub ← descend dotted change path { origin := if dotted then .dotted else .implied }
      some { t with entries := t.entries.append key sub.toValue }
    | some (.table origin entries) =>
      if origin = .inline ∨ (dotted ∧ ¬isExtensible origin) then none
      else do
        let sub ← descend dotted change path { origin, entries }
        some { t with entries := t.entries.replace key sub.toValue }
    | some (.tables elements) =>
      match elements.getLast? with
      | some (.table origin entries) => do
        let sub ← descend dotted change path { origin, entries }
        some { t with entries :=
          t.entries.replace key (.tables (elements.dropLast ++ [sub.toValue])) }
      | _ => none
    | some _ => none

/-- Add a key, to a table that a dotted key has made if and only if the key was dotted. -/
def insert (dotted : Bool) (key : String) (value : Value) (t : Table) : Option Table :=
  if (t.origin == .dotted) != dotted then none
  else
    match t.entries.get? key with
    | some _ => none
    | none => some { t with entries := t.entries.append key value }

/-- Add `path.key = value`. -/
def assign (path : List String) (key : String) (value : Value) (t : Table) : Option Table :=
  t.descend true (insert (!path.isEmpty) key value) path

/--
Open the table that a header names. If a longer header was there before, what it put into the table
stays, and the table moves to the end.
-/
def openTable (key : String) (t : Table) : Option Table :=
  match t.entries.get? key with
  | none => some { t with entries := t.entries.append key (.table .headed []) }
  | some (.table .implied entries) =>
    some { t with entries := (t.entries.remove key).append key (.table .headed entries) }
  | some _ => none

/-- Open one more element of the array of tables that a header names. -/
def openElement (key : String) (t : Table) : Option Table :=
  match t.entries.get? key with
  | none => some { t with entries := t.entries.append key (.tables [.table .headed []]) }
  | some (.tables elements) =>
    some { t with entries := t.entries.replace key (.tables (elements ++ [.table .headed []])) }
  | some _ => none

end Table

end IdleWatch.Toml
