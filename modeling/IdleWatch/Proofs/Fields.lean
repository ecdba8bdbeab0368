import IdleWatch.Proofs.Layers
import IdleWatch.Proofs.RoundTrip
import IdleWatch.Proofs.Sections

/-!
# Settings from a partial document

A document need not mention every section, nor a section every field. What it says about a field
stands in one place, under the key of the field in the table under the key of its section, because
no table has a key twice. The rest does not count: not the order, not the keys that mean nothing
here, and not how a table was written.

So a document is taken field by field. It gives settings if and only if each field that it mentions
suits, and then each field is what the document says, or else the default.
-/

namespace IdleWatch.Settings

open Toml

/-! ## Where a field stands -/

/-- The section of a field. -/
def Field.part : Field → Part
  | .program | .args | .processGroup => .command
  | .idleTimeoutSecs => .watchdog
  | .sentinel => .verdict
  | .readChunk => .stream

variable {entries : Entries} {part : Part} {f : Field} {v : Value}

theorem ofKey?_eq_some {key : String} : Part.ofKey? key = some part ↔ part.key = key := by
  constructor
  · intro h
    simpa using List.find?_some h
  · rintro rfl
    cases part <;> rfl

theorem field?_eq_some {key : String} :
    part.field? key = some f ↔ f.part = part ∧ f.key = key := by
  constructor
  · intro h
    refine ⟨?_, by simpa using List.find?_some h⟩
    have hmem := List.mem_of_find?_eq_some h
    revert hmem
    cases part <;> cases f <;> simp [Part.fields, Field.part]
  · rintro ⟨rfl, rfl⟩
    cases f <;> rfl

/-- The sections that are there are tables. -/
def Sectioned (entries : Entries) : Prop :=
  ∀ (part : Part) (v : Value), entries.get? part.key = some v → v.IsTable

/-- A document whose sections are tables. -/
structure Regular (entries : Entries) : Prop where
  distinct : entries.Distinct
  formed : ∀ e ∈ entries, WellFormed e.2
  sectioned : Sectioned entries

theorem regular_of_parse? {text : String} (h : Toml.parse? text = some entries)
    (hs : Sectioned entries) : Regular entries where
  distinct := (wellFormed_parse? h).1
  formed := (wellFormed_parse? h).2
  sectioned := hs

/-- What a document says about a field. -/
def at? (entries : Entries) (f : Field) : Option Value :=
  match entries.get? f.part.key with
  | some (.table _ fields) => Entries.get? fields f.key
  | _ => none

theorem at?_eq_some :
    at? entries f = some v ↔ ∃ origin fields,
      entries.get? f.part.key = some (.table origin fields)
        ∧ Entries.get? fields f.key = some v := by
  unfold at?
  split
  · rename_i origin fields hsection
    rw [hsection]
    constructor
    · exact fun h => ⟨origin, fields, rfl, h⟩
    · rintro ⟨_, _, heq, h⟩
      injection heq with heq
      injection heq with _ heq
      exact heq ▸ h
  · rename_i hno
    refine iff_of_false (by simp) ?_
    rintro ⟨origin, fields, hsection, _⟩
    exact hno origin fields hsection

theorem Regular.at? (h : Regular entries) (hat : at? entries f = some v) : WellFormed v := by
  obtain ⟨origin, fields, hsection, hfield⟩ := at?_eq_some.mp hat
  exact (h.formed _ (mem_of_get? hsection)).get? hfield

/-- **A document gives a field what it says about it**, and gives no field anything else. -/
theorem mem_given_iff (hr : Regular entries) : (f, v) ∈ given entries ↔ at? entries f = some v := by
  rw [at?_eq_some]
  constructor
  · intro h
    obtain ⟨⟨key, w⟩, hentry, hgiven⟩ := List.mem_flatMap.mp h
    dsimp only at hgiven
    cases hkey : Part.ofKey? key with
    | none =>
        rw [hkey] at hgiven
        exact absurd hgiven List.not_mem_nil
    | some part =>
        rw [hkey] at hgiven
        obtain rfl := ofKey?_eq_some.mp hkey
        have hget := get?_of_mem hr.distinct hentry
        have htable := hr.sectioned part w hget
        cases w with
        | table origin fields =>
            obtain ⟨⟨k, u⟩, hfield, heq⟩ := List.mem_filterMap.mp hgiven
            obtain ⟨g, hg, heq⟩ := Option.map_eq_some_iff.mp heq
            injection heq with hgf huv
            subst hgf huv
            obtain ⟨rfl, rfl⟩ := field?_eq_some.mp hg
            have hfields := (hr.formed _ hentry).of_table.1
            exact ⟨origin, fields, hget, get?_of_mem hfields hfield⟩
        | _ => exact htable.elim
  · rintro ⟨origin, fields, hsection, hfield⟩
    refine List.mem_flatMap.mpr ⟨_, mem_of_get? hsection, ?_⟩
    dsimp only
    rw [ofKey?_eq_some.mpr rfl]
    refine List.mem_filterMap.mpr ⟨_, mem_of_get? hfield, ?_⟩
    dsimp only
    rw [field?_eq_some.mpr ⟨rfl, rfl⟩]
    rfl

/-- The last value that is given for a field is the only one. -/
theorem value?_eq_at? (hr : Regular entries) (f : Field) : value? entries f = at? entries f := by
  have hmem := fun v => mem_given_iff (f := f) (v := v) hr
  cases hvalue : value? entries f with
  | some v =>
      obtain ⟨l, l', hl, _⟩ := List.lookup_eq_some_iff.mp hvalue
      have hgiven : (f, v) ∈ (given entries).reverse := by
        rw [hl]
        exact List.mem_append_right l List.mem_cons_self
      exact ((hmem v).mp (List.mem_reverse.mp hgiven)).symm
  | none =>
      cases hat : at? entries f with
      | none => rfl
      | some v =>
          have hgiven := List.mem_reverse.mpr ((hmem v).mpr hat)
          exact absurd (List.lookup_eq_none_iff.mp hvalue _ hgiven) (by simp)

/-! ## What suits a field -/

/-- The value is one for the field, and this is what it means. -/
def Field.Suits : (f : Field) → Value → f.Kind → Prop
  | .program, v, text | .sentinel, v, text => v = .string text
  | .args, v, texts => v = .array (texts.map .string)
  | .processGroup, v, b => v = .boolean b
  | .idleTimeoutSecs, v, n | .readChunk, v, n => v = .integer n ∧ n ≤ 9223372036854775807

theorem asString_eq_ok {text : String} : asString v = .ok text ↔ v = .string text := by
  cases v <;> simp [asString]

theorem asBool_eq_ok {b : Bool} : asBool v = .ok b ↔ v = .boolean b := by
  cases v <;> simp [asBool]

theorem asNat_eq_ok {wanted : String} {n : Nat} (hv : WellFormed v) :
    asNat wanted v = .ok n ↔ v = .integer n ∧ n ≤ 9223372036854775807 := by
  constructor
  · intro h
    refine ⟨?_, le_of_asNat hv h⟩
    unfold asNat at h
    split at h
    · split at h
      · rename_i hpos
        injection h with h
        rw [← h, Int.toNat_of_nonneg hpos]
      · exact absurd h (by simp)
    · exact absurd h (by simp)
  · rintro ⟨rfl, _⟩
    exact asNat_natCast wanted n

theorem mapM_asString_eq_ok {items : List Value} {texts : List String} :
    items.mapM asString = .ok texts ↔ items = texts.map .string := by
  constructor
  · intro h
    induction items generalizing texts with
    | nil =>
        injection h with h
        exact h ▸ rfl
    | cons item items ih =>
        rw [List.mapM_cons] at h
        cases hitem : asString item with
        | error e =>
            rw [hitem] at h
            injection h
        | ok text =>
            cases hitems : items.mapM asString with
            | error e =>
                rw [hitem, hitems] at h
                injection h
            | ok texts' =>
                rw [hitem, hitems] at h
                injection h with h
                rw [← h, asString_eq_ok.mp hitem, ih hitems, List.map_cons]
  · rintro rfl
    exact mapM_asString texts

theorem asStrings_eq_ok {texts : List String} (hv : WellFormed v) :
    asStrings v = .ok texts ↔ v = .array (texts.map .string) := by
  cases hv with
  | array => exact mapM_asString_eq_ok.trans (by simp)
  | @tables elements hne htables _ =>
      -- its first element is a table and no string
      refine iff_of_false ?_ (by simp)
      intro h
      have helements := mapM_asString_eq_ok.mp h
      obtain ⟨first, hfirst⟩ := List.exists_mem_of_ne_nil elements hne
      obtain ⟨text, _, rfl⟩ := List.mem_map.mp (helements ▸ hfirst)
      exact htables _ hfirst
  | _ => exact iff_of_false (by simp [asStrings]) (by simp)

/-- **A value of a document is read if and only if it suits.** -/
theorem read_eq_ok (hv : WellFormed v) {x : f.Kind} : f.read v = .ok x ↔ f.Suits v x := by
  cases f with
  | program | sentinel => exact asString_eq_ok
  | args => exact asStrings_eq_ok hv
  | processGroup => exact asBool_eq_ok
  | idleTimeoutSecs | readChunk => exact asNat_eq_ok hv

theorem Field.Suits.unique (hv : WellFormed v) {x y : f.Kind} (hx : f.Suits v x)
    (hy : f.Suits v y) : x = y := by
  have hread := (read_eq_ok hv).mpr hx
  rw [(read_eq_ok hv).mpr hy] at hread
  injection hread with hread
  exact hread.symm

/-! ## Taking a document -/

/-- What fails is the reading of a value that was given. -/
theorem misfit_of_assign {s : Settings} {given : List (Field × Value)} {m : Misfit}
    (h : s.assign given = .error m) : ∃ f v, (f, v) ∈ given ∧ f.read v = .error m := by
  induction given generalizing s with
  | nil => injection h
  | cons entry given ih =>
      obtain ⟨f, v⟩ := entry
      rw [assign, List.foldlM_cons] at h
      dsimp only at h
      rw [set_eq_map_put] at h
      cases hread : f.read v with
      | error m' =>
          rw [hread] at h
          injection h with h
          exact ⟨f, v, List.mem_cons_self, h ▸ hread⟩
      | ok x =>
          rw [hread] at h
          obtain ⟨g, w, hmem, hm⟩ := ih h
          exact ⟨g, w, List.mem_cons_of_mem _ hmem, hm⟩

theorem read_of_assign {s t : Settings} {given : List (Field × Value)}
    (h : s.assign given = .ok t) (hmem : (f, v) ∈ given) : ∃ x, f.read v = .ok x := by
  induction given generalizing s with
  | nil => exact absurd hmem List.not_mem_nil
  | cons entry given ih =>
      obtain ⟨s', hset, hrest⟩ := ok_of_foldlM_cons h
      rcases List.mem_cons.mp hmem with rfl | hmem
      · obtain ⟨x, hread, _⟩ := eq_ok_of_map ((set_eq_map_put s v f).symm.trans hset)
        exact ⟨x, hread⟩
      · exact ih hrest hmem

/-- A document whose sections are tables is nothing but what it gives. -/
theorem ofEntries_eq_assign (hr : Regular entries) :
    ofEntries entries = assign {} (given entries) := by
  have htables : ∀ e ∈ entries, ∀ part, Part.ofKey? e.1 = some part → e.2.IsTable := by
    intro e he part hkey
    refine hr.sectioned part e.2 ?_
    rw [ofKey?_eq_some.mp hkey]
    exact get?_of_mem hr.distinct he
  unfold ofEntries
  generalize ({} : Settings) = start
  clear hr
  induction entries generalizing start with
  | nil => rfl
  | cons entry entries ih =>
      obtain ⟨key, v⟩ := entry
      rw [given_cons, assign_append, List.foldlM_cons]
      have hrest := funext (ih (fun e he => htables e (List.mem_cons_of_mem _ he)))
      refine Eq.trans (congrArg (Except.bind · _) ?_) (congrArg (Except.bind _) hrest)
      -- the first entry is a section, or means nothing here
      rw [given, List.flatMap_singleton]
      dsimp only
      cases hkey : Part.ofKey? key with
      | none => rfl
      | some part =>
          have htable := htables _ List.mem_cons_self part hkey
          cases v with
          | table origin fields => exact setEntries_eq_assign part start origin fields
          | _ => exact htable.elim

/-- A document gives settings if every field that it mentions suits, and only then. -/
theorem exists_ofEntries_iff (hr : Regular entries) :
    (∃ s, ofEntries entries = .ok s) ↔ ∀ f v, at? entries f = some v → ∃ x, f.Suits v x := by
  rw [ofEntries_eq_assign hr]
  constructor
  · intro ⟨s, hs⟩ f v hat
    obtain ⟨x, hread⟩ := read_of_assign hs ((mem_given_iff hr).mpr hat)
    exact ⟨x, (read_eq_ok (hr.at? hat)).mp hread⟩
  · intro hsuits
    cases hassign : assign {} (given entries) with
    | ok s => exact ⟨s, rfl⟩
    | error m =>
        obtain ⟨f, v, hmem, hread⟩ := misfit_of_assign hassign
        have hat := (mem_given_iff hr).mp hmem
        obtain ⟨x, hsuit⟩ := hsuits f v hat
        rw [(read_eq_ok (hr.at? hat)).mpr hsuit] at hread
        exact absurd hread (by simp)

/-- Then each field is what the document says, or else the default. -/
theorem get_of_ofEntries (hr : Regular entries) {s : Settings} (h : ofEntries entries = .ok s)
    (f : Field) :
    (∀ v, at? entries f = some v → f.Suits v (s.get f))
      ∧ (at? entries f = none → s.get f = ({} : Settings).get f) := by
  have hread := readOr_of_ofEntries h f
  rw [value?_eq_at? hr] at hread
  constructor
  · intro v hat
    rw [hat] at hread
    exact (read_eq_ok (hr.at? hat)).mp hread
  · intro hat
    rw [hat] at hread
    injection hread with hread
    exact hread.symm

/-- Otherwise what is reported is a field that does not suit. -/
theorem misfit_of_ofEntries (hr : Regular entries) {m : Misfit} (h : ofEntries entries = .error m) :
    ∃ f v, at? entries f = some v ∧ (∀ x, ¬ f.Suits v x) ∧ f.read v = .error m := by
  rw [ofEntries_eq_assign hr] at h
  obtain ⟨f, v, hmem, hread⟩ := misfit_of_assign h
  have hat := (mem_given_iff hr).mp hmem
  refine ⟨f, v, hat, fun x hsuit => ?_, hread⟩
  rw [(read_eq_ok (hr.at? hat)).mpr hsuit] at hread
  exact absurd hread (by simp)

/-! ## Documents that agree -/

/-- A document says this about a field. -/
def Says (entries : Entries) (f : Field) (x : f.Kind) : Prop :=
  ∃ v, at? entries f = some v ∧ f.Suits v x

/-- **Documents agree on the fields**: both mention a field or neither does, and what the one says
about it the other says. -/
def Agree (entries entries' : Entries) : Prop :=
  ∀ f, ((at? entries f).isSome ↔ (at? entries' f).isSome)
    ∧ ∀ x, Says entries f x ↔ Says entries' f x

variable {entries' : Entries}

theorem Agree.symm (h : Agree entries entries') : Agree entries' entries :=
  fun f => ⟨(h f).1.symm, fun x => ((h f).2 x).symm⟩

theorem ofEntries_of_agree (hr : Regular entries) (hr' : Regular entries')
    (h : Agree entries entries') {s : Settings} (hs : ofEntries entries = .ok s) :
    ofEntries entries' = .ok s := by
  have hheld := get_of_ofEntries hr hs
  -- what the second mentions the first mentions too, so the settings of the first suit it
  have hmeans : ∀ f v', at? entries' f = some v' → f.Suits v' (s.get f) := by
    intro f v' hat'
    obtain ⟨v, hat⟩ := Option.isSome_iff_exists.mp ((h f).1.mpr (by simp [hat']))
    obtain ⟨w, hw, hsuit⟩ := ((h f).2 _).mp ⟨v, hat, (hheld f).1 v hat⟩
    obtain rfl := Option.some.inj (hw.symm.trans hat')
    exact hsuit
  obtain ⟨t, ht⟩ := (exists_ofEntries_iff hr').mpr (fun f v' hat' => ⟨_, hmeans f v' hat'⟩)
  have hsame : t = s := by
    refine ext_get (fun f => ?_)
    cases hat' : at? entries' f with
    | some v' =>
        exact ((get_of_ofEntries hr' ht f).1 v' hat').unique (hr'.at? hat') (hmeans f v' hat')
    | none =>
        have hat : at? entries f = none := by
          simpa [hat'] using (h f).1
        rw [(get_of_ofEntries hr' ht f).2 hat', (hheld f).2 hat]
  rw [ht, hsame]

/-- **Documents that agree on the fields give the same settings**, or none. -/
theorem toOption_of_agree (hr : Regular entries) (hr' : Regular entries')
    (h : Agree entries entries') :
    (ofEntries entries').toOption = (ofEntries entries).toOption := by
  cases hs : ofEntries entries with
  | ok s => rw [ofEntries_of_agree hr hr' h hs]
  | error m =>
      cases ht : ofEntries entries' with
      | error m' => rfl
      | ok t =>
          rw [ofEntries_of_agree hr' hr h.symm ht] at hs
          exact absurd hs (by simp)

/-- Documents that hold the same fields agree, whatever else they hold. -/
theorem agree_of_eq (h : ∀ f, at? entries f = at? entries' f) : Agree entries entries' := by
  intro f
  rw [h f]
  refine ⟨Iff.rfl, fun x => ?_⟩
  rw [Says, Says, h f]

/-! ## Documents as they are written -/

/-- What sections mention of a field. -/
def mention? (sections : List Section) (f : Field) : Option Value :=
  (sections.find? (·.key = f.part.key)).bind (·.fields.get? f.key)

/-- A document says what its sections mention, in whichever way they are written. -/
theorem at?_sections (sections : List Section) (f : Field) :
    at? (sections.map Section.entry) f = mention? sections f := by
  rw [at?, get?_sections, mention?]
  cases sections.find? (·.key = f.part.key) with
  | none => rfl
  | some sec => rfl

/--
**A document is taken field by field.**

Let its sections, where they are there, be tables. It gives settings if and only if every field that
it mentions has a value that suits, and then each of these fields is what the document says, and
every other field the default. Otherwise the error is about a field that it mentions and whose value
does not suit. Documents that agree on the fields give the same settings or none: neither the order
of sections and keys counts, nor the keys that mean nothing, nor whether a section stands under a
header, has dotted keys, or stands between braces.
-/
theorem parse_field_by_field {text : String} {entries : Entries}
    (h : Toml.parse? text = some entries) (hs : Sectioned entries) :
    ((∃ s, parse text = .ok s) ↔ ∀ f v, at? entries f = some v → ∃ x, f.Suits v x)
      ∧ (∀ s, parse text = .ok s → ∀ f,
        (∀ v, at? entries f = some v → f.Suits v (s.get f))
          ∧ (at? entries f = none → s.get f = ({} : Settings).get f))
      ∧ (∀ e, parse text = .error e → ∃ f v m, at? entries f = some v
        ∧ (∀ x, ¬ f.Suits v x) ∧ f.read v = .error m ∧ e = .misfit m)
      ∧ (∀ text' entries', Toml.parse? text' = some entries' → Sectioned entries' →
        Agree entries entries' → (parse text').toOption = (parse text).toOption)
      ∧ ∀ sections : List Section, Written sections →
        ∃ written, build (sections.flatMap Section.statements) = some written
          ∧ ∀ f, at? written f = mention? sections f := by
  have hr := regular_of_parse? h hs
  refine ⟨?_, ?_, ?_, ?_, ?_⟩
  · rw [← exists_ofEntries_iff hr]
    exact exists_congr (fun s => parse_eq_ok h)
  · exact fun s hok => get_of_ofEntries hr ((parse_eq_ok h).mp hok)
  · intro e herror
    rw [parse_eq h] at herror
    cases hentries : ofEntries entries with
    | ok s =>
        rw [hentries] at herror
        injection herror
    | error m =>
        rw [hentries] at herror
        injection herror with herror
        obtain ⟨f, v, hat, hno, hread⟩ := misfit_of_ofEntries hr hentries
        exact ⟨f, v, m, hat, hno, hread, herror.symm⟩
  · intro text' entries' h' hs' hagree
    have hsame := toOption_of_agree hr (regular_of_parse? h' hs') hagree
    have hdrop : ∀ x : Except Misfit Settings,
        (x.mapError ParseError.misfit).toOption = x.toOption := fun x => by cases x <;> rfl
    rw [parse_eq h, parse_eq h', hdrop, hdrop, hsame]
  · intro sections hw
    exact ⟨_, build_sections hw, at?_sections sections⟩

/-- Two headers, the later section first, and a key that means nothing. -/
def headedText : String :=
  "[verdict]\nsentinel = 'DONE'\nday = 1979-05-27\n[command]\nargs = ['-x', '']\n"

/-- Dotted keys, a section between braces, and other keys that mean nothing. -/
def mixedText : String :=
  "n = 1\ncommand.args = ['-x', \"\"]\ncommand.n.m = [[]]\nverdict = \x7bsentinel = 'DONE'\x7d\n"

/-- What the texts hold of the arguments. -/
def twoArgs : Value := .array [.string "-x", .string ""]

def headedEntries : Entries :=
  [("verdict", .table .headed [("sentinel", .string "DONE"), ("day", .moment)]),
    ("command", .table .headed [("args", twoArgs)])]

def mixedEntries : Entries :=
  [("n", .integer 1),
    ("command",
      .table .dotted [("args", twoArgs), ("n", .table .dotted [("m", .array [.array []])])]),
    ("verdict", .table .inline [("sentinel", .string "DONE")])]

theorem parse_field_by_field_mixed :
    ∃ s, parse headedText = .ok s ∧ parse mixedText = .ok s
      ∧ s.args = ["-x", ""] ∧ s.sentinel = "DONE" ∧ s.program = "pros" := by
  have hheaded : Toml.parse? headedText = some headedEntries := rfl
  have hmixed : Toml.parse? mixedText = some mixedEntries := rfl
  have hs : Sectioned headedEntries := by
    intro part v h
    cases part <;> cases h <;> trivial
  have hs' : Sectioned mixedEntries := by
    intro part v h
    cases part <;> cases h <;> trivial
  obtain ⟨hexists, hfields, _, hsame, _⟩ := parse_field_by_field hheaded hs
  have hsuits : ∀ f v, at? headedEntries f = some v → ∃ x, f.Suits v x := by
    intro f v h
    cases f <;> cases h
    · exact ⟨["-x", ""], rfl⟩
    · exact ⟨"DONE", rfl⟩
  obtain ⟨s, hok⟩ := hexists.mpr hsuits
  have hagree : Agree headedEntries mixedEntries := agree_of_eq (fun f => by cases f <;> rfl)
  have hboth := hsame mixedText mixedEntries hmixed hs' hagree
  rw [hok] at hboth
  have hr := regular_of_parse? hheaded hs
  refine ⟨s, hok, ?_, ?_, ?_, ?_⟩
  · cases hmix : parse mixedText with
    | ok t =>
        rw [hmix] at hboth
        exact congrArg Except.ok (Option.some.inj hboth)
    | error e =>
        rw [hmix] at hboth
        exact absurd hboth (by simp [Except.toOption])
  · exact ((hfields s hok .args).1 twoArgs rfl).unique (hr.at? (f := .args) rfl) rfl
  · exact (Value.string.inj ((hfields s hok .sentinel).1 _ rfl)).symm
  · exact (hfields s hok .program).2 rfl

end IdleWatch.Settings
