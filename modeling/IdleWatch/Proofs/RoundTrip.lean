import IdleWatch.Proofs.Integers
import IdleWatch.Proofs.Numeral

/-!
# Settings that are written can be read

A settings file that is written has a line for each header, each field and each blank line, and is
read line by line; a string or an array may go over several lines but is one value. The statements
that come out build one table with four sections, and that gives the settings back.
-/

namespace IdleWatch

namespace Toml

/-! ## Lines -/

/-- A line that says something: what it says is read, and then the lines after it. -/
theorem statements_of_statement {c : Char} {t rest : List Char} {st : Statement}
    (hblank : isBlank c = false) (hcomment : c ≠ '#') (hnewline : c ≠ '\n') (hreturn : c ≠ '\r')
    (hst : statement (c :: t) = some (st, '\n' :: rest)) (fuel : Nat) :
    statements (fuel + 1) (c :: t) = (statements fuel rest).map (st :: ·) := by
  have hskip : skipBlanks (c :: t) = c :: t := by
    rw [skipBlanks, List.dropWhile_cons_of_neg (by simp [hblank])]
  have hno : lineEnd? (c :: t) = none := by
    have hplain : skipComment (c :: t) = c :: t := by
      rw [skipComment]
      exact fun _ e => hcomment (List.cons.inj e).1
    rw [lineEnd?, hskip, hplain]
    dsimp only
    rw [newline?]
    · exact fun _ e => hnewline (List.cons.inj e).1
    · exact fun _ e => hreturn (List.cons.inj e).1
  rw [statements, hskip]
  dsimp only
  rw [hno, hst]
  show (statements fuel rest).bind _ = _
  cases statements fuel rest <;> rfl

theorem statements_blank (fuel : Nat) (s : List Char) :
    statements (fuel + 1) ('\n' :: s) = statements fuel s := rfl

/-- More lines may be allowed for. -/
theorem statements_mono {fuel fuel' : Nat} {s : List Char} {sts : List Statement}
    (h : statements fuel s = some sts) (hle : fuel ≤ fuel') : statements fuel' s = some sts := by
  induction fuel generalizing fuel' s sts with
  | zero => exact absurd h (by simp [statements])
  | succ fuel ih =>
      cases fuel' with
      | zero => exact absurd hle (by simp)
      | succ fuel' =>
          have hle' := Nat.le_of_succ_le_succ hle
          rw [statements] at h ⊢
          split at h
          · exact h
          · split at h
            · exact ih h hle'
            · obtain ⟨⟨st, s⟩, hst, h⟩ := Option.bind_eq_some_iff.mp h
              obtain ⟨s', hs', h⟩ := Option.bind_eq_some_iff.mp h
              obtain ⟨sts', hsts', h⟩ := Option.bind_eq_some_iff.mp h
              refine Option.bind_eq_some_iff.mpr ⟨_, hst, ?_⟩
              refine Option.bind_eq_some_iff.mpr ⟨_, hs', ?_⟩
              exact Option.bind_eq_some_iff.mpr ⟨_, ih hsts' hle', h⟩

end Toml

namespace Settings

open Toml

/-- A field as a value of a document. -/
def fieldValue (s : Settings) : Field → Value
  | .program => .string s.program
  | .args => .array (s.args.map .string)
  | .processGroup => .boolean s.processGroup
  | .idleTimeoutSecs => .integer s.idleTimeoutSecs
  | .sentinel => .string s.sentinel
  | .readChunk => .integer s.readChunk

/-- **Every field is read back.** -/
theorem value_printField {s : Settings} (h : s.Writable) (field : Field) (rest : List Char) :
    value nestingLimit (s.printField field ++ '\n' :: rest)
      = some (s.fieldValue field, '\n' :: rest) := by
  have hbound : ∀ n : Nat, n ≤ maxNumber → (n : Int) ≤ maxInteger := by
    intro n hn
    exact Int.ofNat_le.mpr hn
  cases field with
  | program | sentinel => exact value_printString _ _ (by simp) (by simp)
  | args => exact value_printStrings 78 _ _
  | processGroup => exact value_printBool _ _ _
  | idleTimeoutSecs => exact value_printNat _ (hbound _ h.1) _
  | readChunk => exact value_printNat _ (hbound _ h.2) _

theorem printField_cons (s : Settings) (field : Field) :
    ∃ c t, s.printField field = c :: t ∧ isBlank c = false := by
  have hstring : ∀ text, ∃ c t, printString text = c :: t ∧ isBlank c = false := by
    intro text
    obtain ⟨c, t, e, rfl | rfl⟩ := printString_cons text
    · exact ⟨_, t, e, rfl⟩
    · exact ⟨_, t, e, rfl⟩
  have hnat : ∀ n, ∃ c t, printNat n = c :: t ∧ isBlank c = false := by
    intro n
    cases hn : printNat n with
    | nil => exact absurd hn Nat.toDigits_ne_nil
    | cons c t =>
        have hdigit : isDigit c = true := isDigit_of_mem_printNat (hn ▸ List.mem_cons_self)
        refine ⟨c, t, rfl, ?_⟩
        simp only [isBlank, Bool.or_eq_false_iff, decide_eq_false_iff_not]
        constructor
        · rintro rfl
          exact absurd hdigit (by decide)
        · rintro rfl
          exact absurd hdigit (by decide)
  cases field with
  | program | sentinel => exact hstring _
  | idleTimeoutSecs | readChunk => exact hnat _
  | processGroup =>
      show ∃ c t, printBool s.processGroup = c :: t ∧ isBlank c = false
      cases s.processGroup with
      | true => exact ⟨_, _, rfl, rfl⟩
      | false => exact ⟨_, _, rfl, rfl⟩
  | args =>
      show ∃ c t, printStrings s.args = c :: t ∧ isBlank c = false
      match s.args with
      | [] => exact ⟨_, _, rfl, rfl⟩
      | [_] => exact ⟨_, _, rfl, rfl⟩
      | _ :: _ :: _ => exact ⟨_, _, rfl, rfl⟩

theorem key_field (field : Field) (t : List Char) :
    key (field.key.toList ++ ' ' :: '=' :: t) = some (⟨[], field.key⟩, '=' :: t) := by
  cases field <;> rfl

theorem statement_header (part : Part) (t : List Char) :
    statement ('[' :: (part.key.toList ++ ']' :: t)) = some (.table ⟨[], part.key⟩, t) := by
  cases part <;> rfl

/-- What a line of a section says. -/
def fieldStatement (s : Settings) (field : Field) : Statement :=
  .assign ⟨[], field.key⟩ (s.fieldValue field)

/-- What a section says. -/
def partStatements (s : Settings) (part : Part) : List Statement :=
  .table ⟨[], part.key⟩ :: part.fields.map s.fieldStatement

theorem field_key_cons (field : Field) :
    ∃ c t, field.key.toList = c :: t ∧ isBlank c = false ∧ c ≠ '#' ∧ c ≠ '\n' ∧ c ≠ '\r'
      ∧ c ≠ '[' := by
  cases field <;> exact ⟨_, _, rfl, by decide⟩

theorem statement_field {s : Settings} (h : s.Writable) (field : Field) (rest : List Char) :
    statement (s.printLine field ++ rest) = some (s.fieldStatement field, '\n' :: rest) := by
  have hline : s.printLine field ++ rest
      = field.key.toList ++ ' ' :: '=' :: ' ' :: (s.printField field ++ '\n' :: rest) := by
    simp [printLine]
  have hskip : skipBlanks (' ' :: (s.printField field ++ '\n' :: rest))
      = s.printField field ++ '\n' :: rest := by
    obtain ⟨c, t, e, hc⟩ := s.printField_cons field
    rw [e]
    show List.dropWhile isBlank (c :: _) = _
    rw [List.dropWhile_cons_of_neg (by simp [hc])]
    rfl
  -- the key, the sign and the value, up to the end of the line
  have hassign : assignment (value nestingLimit) (s.printLine field ++ rest)
      = some ((⟨[], field.key⟩, s.fieldValue field), '\n' :: rest) := by
    rw [hline, assignment, key_field]
    show (value nestingLimit (skipBlanks _)).bind _ = _
    rw [hskip, value_printField h]
    rfl
  obtain ⟨c, t, e, _, _, _, _, hc⟩ := field_key_cons field
  rw [hline, e, List.cons_append] at hassign ⊢
  rw [statement, hassign]
  · rfl
  · exact fun _ e => hc (List.cons.inj e).1
  · exact fun _ e => hc (List.cons.inj e).1

theorem statements_fields {s : Settings} (h : s.Writable) (fields : List Field) (fuel : Nat)
    (rest : List Char) :
    statements (fuel + fields.length) (fields.flatMap s.printLine ++ rest)
      = (statements fuel rest).map (fields.map s.fieldStatement ++ ·) := by
  induction fields with
  | nil =>
      rw [List.flatMap_nil, List.nil_append, List.map_nil]
      show statements fuel rest = _
      cases statements fuel rest <;> rfl
  | cons field fields ih =>
      have hst := statement_field h field (fields.flatMap s.printLine ++ rest)
      rw [List.flatMap_cons, List.append_assoc]
      obtain ⟨c, t, e, hblank, hcomment, hnewline, hreturn, _⟩ := field_key_cons field
      have hcons : ∃ u, s.printLine field ++ (fields.flatMap s.printLine ++ rest) = c :: u := by
        rw [printLine, e]
        exact ⟨_, rfl⟩
      obtain ⟨u, hu⟩ := hcons
      rw [hu] at hst ⊢
      rw [List.length_cons, ← Nat.add_assoc,
        statements_of_statement hblank hcomment hnewline hreturn hst, ih, Option.map_map]
      rfl

/-- **A section is read** as its header and its fields. -/
theorem statements_part {s : Settings} (h : s.Writable) (part : Part) (fuel : Nat)
    (rest : List Char) :
    statements (fuel + part.fields.length + 1) (s.printPart part ++ rest)
      = (statements fuel rest).map (s.partStatements part ++ ·) := by
  have hpart : s.printPart part ++ rest
      = '[' :: (part.key.toList ++ ']' :: '\n' :: (part.fields.flatMap s.printLine ++ rest)) := by
    simp [printPart]
  have hst := statement_header part ('\n' :: (part.fields.flatMap s.printLine ++ rest))
  rw [hpart, statements_of_statement (by decide) (by decide) (by decide) (by decide) hst,
    statements_fields h, Option.map_map]
  rfl

/-! ## The document -/

/-- What all sections say. -/
def allStatements (s : Settings) : List Statement := Part.all.flatMap s.partStatements

theorem printParts_eq (s : Settings) :
    s.printParts = s.printPart .command ++ '\n' :: (s.printPart .watchdog
      ++ '\n' :: (s.printPart .verdict ++ '\n' :: (s.printPart .stream ++ []))) := by
  simp [printParts, Part.all, List.intercalate]

/-- The header of the first section alone is longer than all lines are many. -/
theorem length_printParts (s : Settings) : 13 ≤ s.printParts.length := by
  have hcommand : 13 ≤ (s.printPart .command).length := by
    simp only [printPart, Part.key, Part.fields, printLine, Field.key, List.flatMap_cons,
      List.length_append, List.length_cons]
    simp
    omega
  rw [printParts_eq, List.length_append]
  exact Nat.le_add_right_of_le hcommand

/-- **The document is read** as its sections; a line that is blank says nothing. -/
theorem statements_printParts {s : Settings} (h : s.Writable) :
    statements (s.printParts.length + 1) s.printParts = some s.allStatements := by
  -- from the last section backwards: with each one the lines allowed for grow by its own
  have hstream : statements 3 (s.printPart .stream ++ []) = some (s.partStatements .stream ++ []) :=
    statements_part h .stream 1 []
  have hverdict : statements 6 (s.printPart .verdict ++ '\n' :: _)
      = (statements 4 ('\n' :: (s.printPart .stream ++ []))).map (s.partStatements .verdict ++ ·) :=
    statements_part h .verdict 4 _
  rw [statements_blank, hstream] at hverdict
  have hwatchdog : statements 9 (s.printPart .watchdog ++ '\n' :: _)
      = (statements 7 ('\n' :: (s.printPart .verdict ++ '\n' :: (s.printPart .stream ++ [])))).map
        (s.partStatements .watchdog ++ ·) :=
    statements_part h .watchdog 7 _
  rw [statements_blank, hverdict] at hwatchdog
  have hcommand : statements 14 (s.printPart .command ++ '\n' :: _)
      = (statements 10 ('\n' :: (s.printPart .watchdog ++ '\n' :: (s.printPart .verdict
        ++ '\n' :: (s.printPart .stream ++ []))))).map (s.partStatements .command ++ ·) :=
    statements_part h .command 10 _
  rw [statements_blank, hwatchdog, ← printParts_eq] at hcommand
  exact statements_mono hcommand (Nat.succ_le_succ s.length_printParts)

theorem build_allStatements (s : Settings) :
    build s.allStatements = some (Part.all.map (fun part =>
      (part.key, .table .headed (part.fields.map (fun field => (field.key, s.fieldValue field)))))) := by
  rfl

theorem mapM_asString (texts : List String) :
    (texts.map Value.string).mapM asString = Except.ok texts := by
  induction texts with
  | nil => rfl
  | cons text texts ih =>
      rw [List.map_cons, List.mapM_cons, ih]
      rfl

theorem asNat_natCast (wanted : String) (n : Nat) : asNat wanted (.integer n) = .ok n := by
  rw [asNat, if_pos (Int.natCast_nonneg n), Int.toNat_natCast]

/-- The settings with one field as others have it. -/
def adopt (t s : Settings) : Field → Settings
  | .program => { t with program := s.program }
  | .args => { t with args := s.args }
  | .processGroup => { t with processGroup := s.processGroup }
  | .idleTimeoutSecs => { t with idleTimeoutSecs := s.idleTimeoutSecs }
  | .sentinel => { t with sentinel := s.sentinel }
  | .readChunk => { t with readChunk := s.readChunk }

theorem set_fieldValue (t s : Settings) (field : Field) :
    t.set (s.fieldValue field) field = .ok (t.adopt s field) := by
  cases field with
  | program | processGroup | sentinel => rfl
  | args => simp only [set, fieldValue, asStrings, mapM_asString, Except.map, adopt]
  | idleTimeoutSecs | readChunk => simp only [set, fieldValue, asNat_natCast, Except.map, adopt]

/-- **The entries give the settings back**, every field of them. -/
theorem ofEntries_eq (s : Settings) :
    ofEntries (Part.all.map (fun part =>
      (part.key, .table .headed (part.fields.map (fun field => (field.key, s.fieldValue field))))))
      = .ok s := by
  simp [ofEntries, Part.all, Part.ofKey?, Part.key, Part.fields, setPart, setEntries, Part.field?,
    Field.key, set_fieldValue]
  rfl

/-- **Settings that are written are read back.** -/
theorem parse_printParts {s : Settings} (h : s.Writable) :
    parse (String.ofList s.printParts) = .ok s := by
  -- the text begins with a bracket and not with a byte order mark
  have hmark : Toml.skipMark s.printParts = s.printParts := by
    rw [printParts_eq]
    rfl
  have hparse : Toml.parse? (String.ofList s.printParts) = build s.allStatements := by
    rw [Toml.parse?, String.toList_ofList, hmark, statements_printParts h]
    rfl
  rw [parse, hparse, build_allStatements]
  dsimp only
  rw [ofEntries_eq]
  rfl

/-! ## The round trip -/

theorem render?_eq_some {s : Settings} {text : String} :
    s.render? = some text ↔ s.Writable ∧ String.ofList s.printParts = text := by
  unfold render?
  split
  · rename_i h
    rw [Option.some.injEq]
    exact ⟨fun e => ⟨h, e⟩, fun e => e.2⟩
  · rename_i h
    exact ⟨fun e => absurd e (by simp), fun e => absurd e.1 h⟩

/--
**Settings survive being written and read.**

They cannot be written exactly if a number does not fit into 63 bits. Otherwise the text that is
written is read as the very same settings, whatever characters the strings hold and however many
arguments there are. And settings that were read can always be written.
-/
theorem render_parse (s : Settings) :
    (s.render? = none ↔
        9223372036854775807 < s.idleTimeoutSecs ∨ 9223372036854775807 < s.readChunk)
      ∧ (∀ text, s.render? = some text → parse text = .ok s)
      ∧ ∀ text, parse text = .ok s → ∃ text', s.render? = some text' := by
  refine ⟨?_, ?_, ?_⟩
  · unfold render?
    split
    · rename_i h
      refine iff_of_false (by simp) ?_
      rintro (hlt | hlt)
      · exact Nat.not_lt.mpr h.1 hlt
      · exact Nat.not_lt.mpr h.2 hlt
    · rename_i h
      refine iff_of_true rfl ?_
      by_cases hle : s.idleTimeoutSecs ≤ maxNumber
      · exact Or.inr (Nat.not_le.mp (fun hle' => h ⟨hle, hle'⟩))
      · exact Or.inl (Nat.not_le.mp hle)
  · intro text h
    obtain ⟨hw, rfl⟩ := render?_eq_some.mp h
    exact parse_printParts hw
  · intro text h
    exact ⟨_, render?_eq_some.mpr ⟨writable_parse h, rfl⟩⟩

/-- Settings whose strings ask for every form: quotes and apostrophes in rows of three, a backslash,
a tab, a line end, a carriage return and nothing at all. -/
def awkward : Settings where
  program := "a\"\"\"\"'''\n"
  args := ["", "it's", "\\", "\t\"'", "\"\"\n", "'''\r\x7f"]
  sentinel := "''\n\"\"\""
  readChunk := 9223372036854775807

theorem render_parse_awkward :
    ∃ text, awkward.render? = some text ∧ parse text = .ok awkward := by
  obtain ⟨_, hread, _⟩ := render_parse awkward
  exact ⟨_, rfl, hread _ rfl⟩

end Settings

end IdleWatch
