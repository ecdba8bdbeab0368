import IdleWatch.Decimal.Shortest
import IdleWatch.Settings.Section
import IdleWatch.Text.Quoted
import IdleWatch.Toml.Document

/-!
# Settings from a document

The keys of a document are taken in order, and a key that means nothing here is passed over. What
is not mentioned keeps its default. The first value that does not fit is reported. A section may
also be an array that gives its fields by position.
-/

namespace IdleWatch.Settings

/-- A value that does not fit. -/
inductive Misfit where
  /-- It is of another type than wanted. -/
  | type (found : Toml.Value) (wanted : String)
  /-- It is a negative number. -/
  | negative (n : Int) (wanted : String)

/-- How messages name a value that was found. A date counts as a table. -/
def describe : Toml.Value → String
  | .string text => s!"string {Text.quote text}"
  | .integer n => s!"integer `{n}`"
  | .float x => s!"floating point `{x.text}`"
  | .boolean b => s!"boolean `{b}`"
  | .moment => "map"
  | .array _ => "sequence"
  | .table _ _ => "map"
  | .tables _ => "sequence"

/-- The message about a value that does not fit. -/
def Misfit.message : Misfit → String
  | .type found wanted => s!"invalid type: {describe found}, expected {wanted}"
  | .negative n wanted => s!"invalid value: integer `{n}`, expected {wanted}"

/-! ## Values of fields -/

/-- A string. -/
def asString : Toml.Value → Except Misfit String
  | .string text => .ok text
  | v => .error (.type v "a string")

/-- An array of strings. -/
def asStrings : Toml.Value → Except Misfit (List String)
  | .array items => items.mapM asString
  | .tables items => items.mapM asString
  | v => .error (.type v "a sequence")

/-- A truth value. -/
def asBool : Toml.Value → Except Misfit Bool
  | .boolean b => .ok b
  | v => .error (.type v "a boolean")

/-- A whole number that is not negative. -/
def asNat (wanted : String) : Toml.Value → Except Misfit Nat
  | .integer n => if 0 ≤ n then .ok n.toNat else .error (.negative n wanted)
  | v => .error (.type v wanted)

/-- The settings with a field set to a value. -/
def set (s : Settings) (v : Toml.Value) : Field → Except Misfit Settings
  | .program => (asString v).map fun program => { s with program }
  | .args => (asStrings v).map fun args => { s with args }
  | .processGroup => (asBool v).map fun processGroup => { s with processGroup }
  | .idleTimeoutSecs => (asNat "u64" v).map fun idleTimeoutSecs => { s with idleTimeoutSecs }
  | .sentinel => (asString v).map fun sentinel => { s with sentinel }
  | .readChunk => (asNat "usize" v).map fun readChunk => { s with readChunk }

/-! ## Sections and documents -/

/-- Set what the entries of a section give, by key. -/
def setEntries (part : Part) (s : Settings) (entries : Toml.Entries) : Except Misfit Settings :=
  entries.foldlM (fun s (key, v) =>
    match part.field? key with
    | some field => s.set v field
    | none => .ok s) s

/-- Set what the elements of a section give, by position. -/
def setElements (part : Part) (s : Settings) (elements : List Toml.Value) :
    Except Misfit Settings :=
  (part.fields.zip elements).foldlM (fun s (field, v) => s.set v field) s

/-- Set what a section gives. -/
def setPart (part : Part) (s : Settings) : Toml.Value → Except Misfit Settings
  | .table _ entries => setEntries part s entries
  | .moment => .ok s
  | .array elements => setElements part s elements
  | .tables elements => setElements part s elements
  | v => .error (.type v part.wanted)

/-- The settings that the entries of a document give. -/
def ofEntries (entries : Toml.Entries) : Except Misfit Settings :=
  entries.foldlM (fun s (key, v) =>
    match Part.ofKey? key with
    | some part => setPart part s v
    | none => .ok s) {}

/-- Why a text gives no settings. -/
inductive ParseError where
  /-- It is not a TOML document. -/
  | syntactic
  | misfit (misfit : Misfit)

/-- The settings that a text gives. -/
def parse (text : String) : Except ParseError Settings :=
  match Toml.parse? text with
  | none => .error .syntactic
  | some entries => (ofEntries entries).mapError .misfit

end IdleWatch.Settings
