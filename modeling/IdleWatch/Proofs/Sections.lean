import IdleWatch.Proofs.WellFormed

/-!
# Ways to write a section

A section of a document can be written under a header, with dotted keys, or between braces. The
table that comes about remembers which way it was, and that is all the difference: its key and its
fields are the same.

Statement by statement, each field is put at the end of the table that is being written, which is
the last one of the document. A header leaves the top of the document for good, so what is written
without one has to come first.
-/

namespace IdleWatch.Toml

/-- A way to write a section. -/
inductive Layout where
  /-- The fields stand under a header. -/
  | headed
  /-- Each field has a key that begins with the key of the section. -/
  | dotted
  /-- The fields stand between braces. -/
  | braced
  deriving DecidableEq, Repr

/-- How a table that is written so came about. -/
def Layout.origin : Layout → Origin
  | .headed => .headed
  | .dotted => .dotted
  | .braced => .inline

/-- A section, and the way in which it is written. -/
structure Section where
  layout : Layout
  key : String
  fields : Entries

/-- What a document has to hold of a section. -/
def Section.entry (sec : Section) : String × Value :=
  (sec.key, .table sec.layout.origin sec.fields)

/-- The statements that a section is written with. -/
def Section.statements (sec : Section) : List Statement :=
  match sec.layout with
  | .headed => .table ⟨[], sec.key⟩ :: sec.fields.map fun (name, v) => .assign ⟨[], name⟩ v
  | .dotted => sec.fields.map fun (name, v) => .assign ⟨[sec.key], name⟩ v
  | .braced =>
    (inlineTable? (sec.fields.map fun (name, v) => (⟨[], name⟩, v))).toList.map
      (.assign ⟨[], sec.key⟩)

/-- **Sections that can be written one after the other**: no key comes twice, a section with dotted
keys has at least one, and after a header there are only headers. -/
structure Written (sections : List Section) : Prop where
  keys : (sections.map Section.key).Nodup
  fields : ∀ sec ∈ sections, sec.fields.Distinct
  dotted : ∀ sec ∈ sections, sec.layout = .dotted → sec.fields ≠ []
  order : sections.Pairwise fun sec later => sec.layout = .headed → later.layout = .headed

/-! ## The last table of a document -/

variable {origin : Origin} {entries fields : Entries} {key name : String} {v : Value}

theorem get?_of_notMem (h : key ∉ entries.map Prod.fst) : entries.get? key = none := by
  rw [Entries.get?, List.lookup_eq_none_iff]
  intro e he
  have hkey : e.1 ∈ entries.map Prod.fst := List.mem_map_of_mem he
  have hne : key ≠ e.1 := fun heq => h (heq ▸ hkey)
  simpa using hne

theorem get?_concat (h : key ∉ entries.map Prod.fst) (v : Value) :
    Entries.get? (entries ++ [(key, v)]) key = some v := by
  rw [Entries.get?, List.lookup_append, ← Entries.get?, get?_of_notMem h]
  simp

theorem replace_concat (h : key ∉ entries.map Prod.fst) (v w : Value) :
    Entries.replace (entries ++ [(key, v)]) key w = entries ++ [(key, w)] := by
  have hsame : entries.map (fun (k, v) => if k = key then (k, w) else (k, v)) = entries := by
    refine (List.map_congr_left fun (k, u) he => ?_).trans (List.map_id _)
    have hkey : k ∈ entries.map Prod.fst := List.mem_map.mpr ⟨_, he, rfl⟩
    exact if_neg (fun heq : k = key => h (heq ▸ hkey))
  rw [Entries.replace, List.map_append, hsame]
  simp

/-- A field is put at the end of a table that is open to it. -/
theorem insert_eq (origin : Origin) (field : String × Value)
    (h : field.1 ∉ fields.map Prod.fst) :
    Table.insert (origin == .dotted) field.1 field.2 { origin, entries := fields }
      = some { origin, entries := fields ++ [field] } := by
  rw [Table.insert, if_neg (by simp)]
  dsimp only
  rw [get?_of_notMem h]
  rfl

/-- To change the last table of a document is to change it at the end of the document. -/
theorem descend_last {dotted : Bool} {change : Table → Option Table} {sub : Table}
    (h : key ∉ entries.map Prod.fst)
    (hopen : ¬ (origin = .inline ∨ dotted ∧ ¬ Table.isExtensible origin))
    (hsub : change { origin, entries := fields } = some sub) :
    Table.descend dotted change [key] { entries := entries ++ [(key, .table origin fields)] }
      = some { entries := entries ++ [(key, sub.toValue)] } := by
  rw [Table.descend]
  dsimp only
  rw [get?_concat h]
  dsimp only
  rw [if_neg hopen, Table.descend, hsub]
  dsimp only [Option.bind_eq_bind, Option.bind_some]
  rw [replace_concat h]

/-! ## Sections -/

/-- Fields are put in one after the other. -/
theorem foldlM_fields {α β : Type} (f : β → α → Option β) (state : Entries → β)
    (statement : String × Value → α)
    (step : ∀ (done : Entries) (field : String × Value), field.1 ∉ done.map Prod.fst →
      f (state done) (statement field) = some (state (done ++ [field])))
    (done : Entries) {more : Entries} (h : Entries.Distinct (done ++ more)) :
    (more.map statement).foldlM f (state done) = some (state (done ++ more)) := by
  induction more generalizing done with
  | nil => simp
  | cons field more ih =>
      rw [List.append_cons] at h ⊢
      have hnew : field.1 ∉ done.map Prod.fst := by
        intro hmem
        rw [Entries.Distinct, List.map_append, List.map_append] at h
        have hfront := (List.nodup_append.mp (List.nodup_append.mp h).1).2.2
        exact hfront _ hmem _ (by simp) rfl
      rw [List.map_cons, List.foldlM_cons, step done field hnew]
      exact ih _ h

/-- Between braces, the fields make the table that is assigned. -/
theorem inlineTable?_eq (h : fields.Distinct) :
    inlineTable? (fields.map fun (name, v) => (⟨[], name⟩, v)) = some (.table .inline fields) := by
  have hfold := foldlM_fields (fun (t : Table) (m : Key × Value) => t.assign m.1.path m.1.last m.2)
    (fun done => { origin := .inline, entries := done }) (fun field => (⟨[], field.1⟩, field.2))
    (fun _ _ hnew => insert_eq .inline _ hnew) [] h
  exact congrArg (Option.map Table.toValue) hfold

theorem add_assign {d : Draft} {k : Key} {root : Table}
    (h : d.root.descend false (Table.assign k.path k.last v) d.current = some root) :
    d.add (.assign k v) = some { d with root } := by
  rw [Draft.add, h]
  rfl

/-- Under its header, the fields are put into the table that the header opened. -/
theorem headed_eq (h : key ∉ entries.map Prod.fst) (hfields : fields.Distinct)
    (current : List String) :
    (Section.statements ⟨.headed, key, fields⟩).foldlM Draft.add ⟨{ entries }, current⟩
      = some ⟨{ entries := entries ++ [(key, .table .headed fields)] }, [key]⟩ := by
  have hopen : Draft.add ⟨{ entries }, current⟩ (.table ⟨[], key⟩)
      = some ⟨{ entries := entries ++ [(key, .table .headed [])] }, [key]⟩ := by
    rw [Draft.add, Table.descend, Table.openTable, get?_of_notMem h]
    rfl
  have hput : ∀ (done : Entries) (field : String × Value), field.1 ∉ done.map Prod.fst →
      Draft.add ⟨{ entries := entries ++ [(key, .table .headed done)] }, [key]⟩
        (.assign ⟨[], field.1⟩ field.2)
        = some ⟨{ entries := entries ++ [(key, .table .headed (done ++ [field]))] }, [key]⟩ := by
    intro done field hnew
    have hinsert : Table.assign [] field.1 field.2 { origin := .headed, entries := done }
        = some { origin := .headed, entries := done ++ [field] } := insert_eq .headed _ hnew
    exact add_assign (descend_last h (by simp) hinsert)
  rw [Section.statements, List.foldlM_cons, hopen]
  exact foldlM_fields Draft.add
    (fun done => ⟨{ entries := entries ++ [(key, .table .headed done)] }, [key]⟩) _ hput [] hfields

/-- The first of the dotted keys makes the table, and the others find it. -/
theorem dotted_eq (h : key ∉ entries.map Prod.fst) (hfields : fields.Distinct)
    (hne : fields ≠ []) :
    (Section.statements ⟨.dotted, key, fields⟩).foldlM Draft.add ⟨{ entries }, []⟩
      = some ⟨{ entries := entries ++ [(key, .table .dotted fields)] }, []⟩ := by
  obtain ⟨first, more, rfl⟩ := List.exists_cons_of_ne_nil hne
  have hfirst : Draft.add ⟨{ entries }, []⟩ (.assign ⟨[key], first.1⟩ first.2)
      = some ⟨{ entries := entries ++ [(key, .table .dotted [first])] }, []⟩ := by
    have hroot : Table.descend true (Table.insert true first.1 first.2) [key] { entries }
        = some { entries := entries ++ [(key, .table .dotted [first])] } := by
      rw [Table.descend, get?_of_notMem h]
      rfl
    exact add_assign hroot
  have hput : ∀ (done : Entries) (field : String × Value), field.1 ∉ done.map Prod.fst →
      Draft.add ⟨{ entries := entries ++ [(key, .table .dotted done)] }, []⟩
        (.assign ⟨[key], field.1⟩ field.2)
        = some ⟨{ entries := entries ++ [(key, .table .dotted (done ++ [field]))] }, []⟩ := by
    intro done field hnew
    have hinsert : Table.insert true field.1 field.2 { origin := .dotted, entries := done }
        = some { origin := .dotted, entries := done ++ [field] } := insert_eq .dotted _ hnew
    exact add_assign (descend_last h (by simp [Table.isExtensible]) hinsert)
  have hstatements : Section.statements ⟨.dotted, key, first :: more⟩
      = .assign ⟨[key], first.1⟩ first.2
        :: more.map fun field => .assign ⟨[key], field.1⟩ field.2 := rfl
  rw [hstatements, List.foldlM_cons, hfirst]
  exact foldlM_fields Draft.add
    (fun done => ⟨{ entries := entries ++ [(key, .table .dotted done)] }, []⟩) _ hput
    [first] hfields

/-- A table between braces is put in as it is. -/
theorem braced_eq (h : key ∉ entries.map Prod.fst) (hfields : fields.Distinct) :
    (Section.statements ⟨.braced, key, fields⟩).foldlM Draft.add ⟨{ entries }, []⟩
      = some ⟨{ entries := entries ++ [(key, .table .inline fields)] }, []⟩ := by
  have hput : Draft.add ⟨{ entries }, []⟩ (.assign ⟨[], key⟩ (.table .inline fields))
      = some ⟨{ entries := entries ++ [(key, .table .inline fields)] }, []⟩ := by
    have hinsert : Table.assign [] key (.table .inline fields) { entries }
        = some { entries := entries ++ [(key, .table .inline fields)] } :=
      insert_eq .headed (key, _) h
    exact add_assign hinsert
  rw [Section.statements]
  dsimp only
  rw [inlineTable?_eq hfields, Option.toList_some, List.map_singleton, List.foldlM_cons, hput]
  rfl

/-- **A section is put at the end of the document**, in whichever way it is written. -/
theorem section_eq {sec : Section} (h : sec.key ∉ entries.map Prod.fst)
    (hfields : sec.fields.Distinct) (hdotted : sec.layout = .dotted → sec.fields ≠ [])
    {current : List String} (htop : sec.layout ≠ .headed → current = []) :
    ∃ current', sec.statements.foldlM Draft.add ⟨{ entries }, current⟩
        = some ⟨{ entries := entries ++ [sec.entry] }, current'⟩
      ∧ (sec.layout ≠ .headed → current' = []) := by
  obtain ⟨layout, key, fields⟩ := sec
  cases layout with
  | headed => exact ⟨_, headed_eq h hfields current, fun hne => absurd rfl hne⟩
  | dotted =>
      obtain rfl := htop (by simp)
      exact ⟨_, dotted_eq h hfields (hdotted rfl), fun _ => rfl⟩
  | braced =>
      obtain rfl := htop (by simp)
      exact ⟨_, braced_eq h hfields, fun _ => rfl⟩

theorem foldlM_sections {sections : List Section} (hw : Written sections)
    (hkeys : ∀ sec ∈ sections, sec.key ∉ entries.map Prod.fst) {current : List String}
    (htop : ∀ sec ∈ sections, sec.layout ≠ .headed → current = []) :
    ∃ current', (sections.flatMap Section.statements).foldlM Draft.add ⟨{ entries }, current⟩
      = some ⟨{ entries := entries ++ sections.map Section.entry }, current'⟩ := by
  induction sections generalizing entries current with
  | nil => exact ⟨current, by simp⟩
  | cons sec sections ih =>
      obtain ⟨hnew, hkeys'⟩ := List.nodup_cons.mp hw.keys
      obtain ⟨horder, horder'⟩ := List.pairwise_cons.mp hw.order
      obtain ⟨current', hsection, htop'⟩ := section_eq (hkeys sec List.mem_cons_self)
        (hw.fields sec List.mem_cons_self) (hw.dotted sec List.mem_cons_self)
        (htop sec List.mem_cons_self)
      have hw' : Written sections := {
        keys := hkeys'
        fields := fun later hlater => hw.fields later (List.mem_cons_of_mem _ hlater)
        dotted := fun later hlater => hw.dotted later (List.mem_cons_of_mem _ hlater)
        order := horder' }
      have hapart : ∀ later ∈ sections,
          later.key ∉ (entries ++ [sec.entry]).map Prod.fst := by
        intro later hlater hmem
        rw [List.map_append, List.mem_append] at hmem
        rcases hmem with hmem | hmem
        · exact hkeys later (List.mem_cons_of_mem _ hlater) hmem
        · have hsame : later.key = sec.key := List.mem_singleton.mp hmem
          exact hnew (hsame ▸ List.mem_map_of_mem hlater)
      -- only headers come after a header, so whoever needs the top still finds it
      obtain ⟨final, hrest⟩ := ih hw' hapart (fun later hlater hne =>
        htop' (fun hheaded => hne (horder later hlater hheaded)))
      refine ⟨final, ?_⟩
      rw [List.flatMap_cons, List.foldlM_append, hsection, List.map_cons,
        List.append_cons entries sec.entry (sections.map Section.entry)]
      exact hrest

/-- **A document holds the sections that are written in it.** -/
theorem build_sections {sections : List Section} (hw : Written sections) :
    build (sections.flatMap Section.statements) = some (sections.map Section.entry) := by
  have htop : ∀ sec ∈ sections, sec.key ∉ ([] : Entries).map Prod.fst := by simp
  obtain ⟨_, hfold⟩ := foldlM_sections hw htop (fun _ _ _ => rfl)
  exact congrArg (Option.map (·.root.entries)) hfold

/-- What a document holds under a key is what is written first under it. -/
theorem get?_sections (sections : List Section) (key : String) :
    Entries.get? (sections.map Section.entry) key
      = (sections.find? (·.key = key)).map (fun sec => .table sec.layout.origin sec.fields) := by
  induction sections with
  | nil => rfl
  | cons sec sections ih =>
      rw [List.map_cons, Entries.get?, Section.entry, List.lookup_cons, List.find?_cons]
      by_cases hkey : sec.key = key
      · simp [hkey]
      · rw [beq_false_of_ne (Ne.symm hkey), decide_eq_false hkey]
        exact ih

end IdleWatch.Toml
