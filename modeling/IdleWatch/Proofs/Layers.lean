import IdleWatch.Proofs.Integers
import IdleWatch.Settings.Resolve

/-!
# Layers of settings

Settings come in layers: the defaults, over them what a document gives, and over that what the
arguments ask for. Each layer speaks about some of the fields and leaves the others to the layer
below. So everything is said field by field. What a field holds depends on the field, and settings
are the same if all their fields hold the same.

A document gives fields in a certain order, and setting them one after the other leaves in each
field what was given for it last. Where nothing was given, the default is still there.
-/

namespace IdleWatch

namespace Settings

/-! ## Fields -/

/-- The type of what a field holds. -/
abbrev Field.Kind : Field → Type
  | .program => String
  | .args => List String
  | .processGroup => Bool
  | .idleTimeoutSecs => Nat
  | .sentinel => String
  | .readChunk => Nat

/-- What a value means for a field, if it fits. -/
def Field.read : (f : Field) → Toml.Value → Except Misfit f.Kind
  | .program => asString
  | .args => asStrings
  | .processGroup => asBool
  | .idleTimeoutSecs => asNat "u64"
  | .sentinel => asString
  | .readChunk => asNat "usize"

/-- What a field holds. -/
def get (s : Settings) : (f : Field) → f.Kind
  | .program => s.program
  | .args => s.args
  | .processGroup => s.processGroup
  | .idleTimeoutSecs => s.idleTimeoutSecs
  | .sentinel => s.sentinel
  | .readChunk => s.readChunk

/-- The settings with something else in a field. -/
def put (s : Settings) : (f : Field) → f.Kind → Settings
  | .program, program => { s with program }
  | .args, args => { s with args }
  | .processGroup, processGroup => { s with processGroup }
  | .idleTimeoutSecs, idleTimeoutSecs => { s with idleTimeoutSecs }
  | .sentinel, sentinel => { s with sentinel }
  | .readChunk, readChunk => { s with readChunk }

theorem set_eq_map_put (s : Settings) (v : Toml.Value) (f : Field) :
    s.set v f = (f.read v).map (s.put f) := by
  cases f <;> rfl

@[simp] theorem get_put_self (s : Settings) (f : Field) (x : f.Kind) : (s.put f x).get f = x := by
  cases f <;> rfl

theorem get_put_of_ne (s : Settings) {f g : Field} (x : g.Kind) (hne : f ≠ g) :
    (s.put g x).get f = s.get f := by
  cases g <;> cases f <;> first | rfl | exact absurd rfl hne

theorem ext_get {s t : Settings} (h : ∀ f, s.get f = t.get f) : s = t := by
  obtain ⟨program, args, processGroup, idleTimeoutSecs, sentinel, readChunk⟩ := s
  obtain rfl : program = _ := h .program
  obtain rfl : args = _ := h .args
  obtain rfl : processGroup = _ := h .processGroup
  obtain rfl : idleTimeoutSecs = _ := h .idleTimeoutSecs
  obtain rfl : sentinel = _ := h .sentinel
  obtain rfl : readChunk = _ := h .readChunk
  rfl

/-! ## What a document gives -/

/-- The fields that a section gives, with their values. -/
def Part.given (part : Part) : Toml.Value → List (Field × Toml.Value)
  | .table _ entries => entries.filterMap fun (key, v) => (part.field? key).map (·, v)
  | .array elements => part.fields.zip elements
  | .tables elements => part.fields.zip elements
  | _ => []

/-- The fields that a document gives, with their values. -/
def given (entries : Toml.Entries) : List (Field × Toml.Value) :=
  entries.flatMap fun (key, v) =>
    match Part.ofKey? key with
    | some part => part.given v
    | none => []

/-- The value that a document gives for a field; the last one counts. -/
def value? (entries : Toml.Entries) (f : Field) : Option Toml.Value :=
  (given entries).reverse.lookup f

/-- Set fields to values, one after the other. -/
def assign (s : Settings) (given : List (Field × Toml.Value)) : Except Misfit Settings :=
  given.foldlM (fun s (f, v) => s.set v f) s

/-- What a field is to hold: what its value means if it was given one, else what it held. -/
def Field.readOr (f : Field) (held : f.Kind) : Option Toml.Value → Except Misfit f.Kind
  | some v => f.read v
  | none => .ok held

theorem assign_append (s : Settings) (given more : List (Field × Toml.Value)) :
    s.assign (given ++ more) = (s.assign given).bind (·.assign more) :=
  List.foldlM_append

theorem setEntries_eq_assign (part : Part) (s : Settings) (origin : Toml.Origin)
    (entries : Toml.Entries) :
    setEntries part s entries = s.assign (part.given (.table origin entries)) := by
  rw [assign, Part.given, List.foldlM_filterMap]
  unfold setEntries
  congr 1
  funext s ⟨key, v⟩
  dsimp only
  cases part.field? key with
  | some f => rfl
  | none => rfl

/-- A section is taken for what it gives. -/
theorem assign_of_setPart {part : Part} {s t : Settings} {v : Toml.Value}
    (h : setPart part s v = .ok t) : s.assign (part.given v) = .ok t := by
  cases v with
  | table origin entries => exact (setEntries_eq_assign part s origin entries).symm.trans h
  | array elements | tables elements => exact h
  | moment => exact h
  | string | integer | float | boolean => injection h

theorem given_cons (entry : String × Toml.Value) (entries : Toml.Entries) :
    given (entry :: entries) = given [entry] ++ given entries := by
  simp [given]

/-- A document is taken for what it gives. -/
theorem assign_of_ofEntries {entries : Toml.Entries} {s : Settings}
    (h : ofEntries entries = .ok s) : assign {} (given entries) = .ok s := by
  unfold ofEntries at h
  -- the sections before may have set something already
  generalize ({} : Settings) = start at h ⊢
  induction entries generalizing start with
  | nil => exact h
  | cons entry entries ih =>
      obtain ⟨key, v⟩ := entry
      obtain ⟨t, hfirst, hrest⟩ := ok_of_foldlM_cons h
      have hsection : start.assign (given [(key, v)]) = .ok t := by
        rw [given, List.flatMap_singleton]
        dsimp only at hfirst ⊢
        cases hkey : Part.ofKey? key with
        | none =>
            rw [hkey] at hfirst
            exact hfirst
        | some part =>
            rw [hkey] at hfirst
            exact assign_of_setPart hfirst
      rw [given_cons, assign_append, hsection]
      exact ih t hrest

/-- **Each field is left with what was given for it last**, else with what it held. -/
theorem readOr_of_assign {s t : Settings} {given : List (Field × Toml.Value)}
    (h : s.assign given = .ok t) (f : Field) :
    f.readOr (s.get f) (given.reverse.lookup f) = .ok (t.get f) := by
  induction given generalizing s with
  | nil =>
      injection h with h
      exact h ▸ rfl
  | cons entry given ih =>
      obtain ⟨g, v⟩ := entry
      obtain ⟨s', hset, hrest⟩ := ok_of_foldlM_cons h
      have hlast := ih hrest
      rw [List.reverse_cons, List.lookup_append]
      cases hlookup : given.reverse.lookup f with
      | some w =>
          rw [hlookup] at hlast
          exact hlast
      | none =>
          rw [hlookup] at hlast
          obtain ⟨x, hread, rfl⟩ := eq_ok_of_map ((set_eq_map_put s v g).symm.trans hset)
          by_cases hfg : f = g
          · subst hfg
            rw [get_put_self] at hlast
            rw [Option.none_or, List.lookup_cons_self]
            exact hread.trans hlast
          · rw [get_put_of_ne s x hfg] at hlast
            have hother : List.lookup f [(g, v)] = none := by simp [hfg]
            rw [hother]
            exact hlast

/-- **What a document says counts field by field**, and elsewhere the defaults do. -/
theorem readOr_of_ofEntries {entries : Toml.Entries} {s : Settings}
    (h : ofEntries entries = .ok s) (f : Field) :
    f.readOr (({} : Settings).get f) (value? entries f) = .ok (s.get f) :=
  readOr_of_assign (assign_of_ofEntries h) f

end Settings

/-! ## What the arguments ask for -/

/-- What the arguments ask for in a field. A command asks for its own arguments too. -/
def Args.asked (a : Args) : (f : Settings.Field) → Option f.Kind
  | .program => a.command.head?
  | .args => a.command.head?.map fun _ => a.command.tail
  | .processGroup => none
  | .idleTimeoutSecs => a.timeout
  | .sentinel => a.sentinel
  | .readChunk => none

/-- **What is asked for counts field by field**, and elsewhere what was there before. -/
theorem Settings.get_overlay (s : Settings) (a : Args) (f : Field) :
    (s.overlay a).get f = (a.asked f).getD (s.get f) := by
  obtain ⟨command, _, timeout, sentinel, _, _, _⟩ := a
  cases f <;> cases command <;> cases timeout <;> cases sentinel <;> rfl

end IdleWatch
