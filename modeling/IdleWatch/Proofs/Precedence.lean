import IdleWatch.Proofs.Layers

/-!
# The arguments, then the file, then the defaults

The settings that count are made of three layers, and only what comes out of them is checked. A
value of the file that the arguments replace is never looked at again: it may be anything that fits,
even what would be refused on its own. The program and its arguments are one matter, for a command
replaces both.

What goes wrong below cannot be made good above. The defaults stand in for one thing only, the file
that nobody named and that is not there. A file that was named, that cannot be read or that gives no
settings is an error before the arguments are heard.
-/

namespace IdleWatch.Settings

/-! ## What underlies the arguments -/

/-- These settings underlie what the arguments ask for: those of the file that was named, or else of
the one that is looked for when none is. -/
inductive Underlies (files : FileReader) (a : Args) : Settings → Prop where
  /-- They are what the file says, and the defaults where it says nothing. -/
  | file {text : String} {entries : Toml.Entries} {base : Settings} :
      files (a.config.getD defaultFile) = .ok text → Toml.parse? text = some entries →
      ofEntries entries = .ok base →
      (∀ f : Field, f.readOr (({} : Settings).get f) (value? entries f) = .ok (base.get f)) →
      Underlies files a base
  /-- They are the defaults, for no file was named and there is none. -/
  | defaults : a.config = none → files defaultFile = .error .notFound → Underlies files a {}

/-- A file cannot be read, and it is not the one that may be missing. -/
def Unreadable (files : FileReader) (a : Args) (fault : Fault) : Prop :=
  files (a.config.getD defaultFile) = .error fault ∧ (a.config = none → fault ≠ .notFound)

/-- A file can be read and gives no settings. -/
def Unusable (files : FileReader) (a : Args) (e : ParseError) : Prop :=
  ∃ text, files (a.config.getD defaultFile) = .ok text ∧ parse text = .error e

/-- The file that was named has to exist, the one that is looked for otherwise does not. -/
theorem fileFor_eq (a : Args) : fileFor a = (a.config.getD defaultFile, a.config.isSome) := by
  unfold fileFor
  cases a.config with
  | none => rfl
  | some path => rfl

theorem excuses_iff (a : Args) (fault : Fault) :
    excuses a.config.isSome fault = true ↔ a.config = none ∧ fault = .notFound := by
  cases a.config with
  | none => simp [excuses]
  | some path => simp [excuses]

theorem underlies_of_parse {files : FileReader} {a : Args} {text : String} {base : Settings}
    (hread : files (a.config.getD defaultFile) = .ok text) (hparse : parse text = .ok base) :
    Underlies files a base := by
  obtain ⟨entries, hentries, hfit⟩ := exists_of_parse hparse
  exact .file hread hentries hfit (readOr_of_ofEntries hfit)

theorem load_of_underlies {files : FileReader} {a : Args} {base : Settings}
    (h : Underlies files a base) :
    load files (a.config.getD defaultFile) a.config.isSome = .ok base := by
  cases h with
  | file hread hparse hfit _ =>
      rw [load, hread]
      simp only [parse, hparse, hfit]
      rfl
  | defaults hconfig hmissing =>
      have hfile : a.config.getD defaultFile = defaultFile := by rw [hconfig, Option.getD_none]
      rw [load, hfile, hmissing]
      exact if_pos ((excuses_iff a .notFound).mpr ⟨hconfig, rfl⟩)

theorem load_of_unreadable {files : FileReader} {a : Args} {fault : Fault}
    (h : Unreadable files a fault) :
    load files (a.config.getD defaultFile) a.config.isSome
      = .error (.read (a.config.getD defaultFile) fault) := by
  obtain ⟨hread, hneeded⟩ := h
  rw [load, hread]
  refine if_neg fun hexcused => ?_
  obtain ⟨hconfig, hfault⟩ := (excuses_iff a fault).mp hexcused
  exact hneeded hconfig hfault

theorem load_of_unusable {files : FileReader} {a : Args} {e : ParseError}
    (h : Unusable files a e) :
    load files (a.config.getD defaultFile) a.config.isSome
      = .error (.parse (a.config.getD defaultFile) e) := by
  obtain ⟨text, hread, hparse⟩ := h
  rw [load, hread]
  simp only [hparse]
  rfl

/-- There are three ways for a file. -/
theorem file_cases (files : FileReader) (a : Args) :
    (∃ base, Underlies files a base) ∨ (∃ fault, Unreadable files a fault)
      ∨ ∃ e, Unusable files a e := by
  cases hread : files (a.config.getD defaultFile) with
  | ok text =>
      cases hparse : parse text with
      | ok base => exact Or.inl ⟨base, underlies_of_parse hread hparse⟩
      | error e => exact Or.inr (Or.inr ⟨e, text, hread, hparse⟩)
  | error fault =>
      by_cases hexcused : a.config = none ∧ fault = .notFound
      · obtain ⟨hconfig, rfl⟩ := hexcused
        have hfile : a.config.getD defaultFile = defaultFile := by rw [hconfig, Option.getD_none]
        exact Or.inl ⟨{}, .defaults hconfig (hfile ▸ hread)⟩
      · exact Or.inr (Or.inl ⟨fault, hread, fun hconfig hfault => hexcused ⟨hconfig, hfault⟩⟩)

theorem load_eq_ok_iff {files : FileReader} {a : Args} {base : Settings} :
    load files (a.config.getD defaultFile) a.config.isSome = .ok base ↔ Underlies files a base := by
  refine ⟨fun h => ?_, load_of_underlies⟩
  rcases file_cases files a with ⟨base', hunder⟩ | ⟨_, hunread⟩ | ⟨_, hunusable⟩
  · injection (load_of_underlies hunder).symm.trans h with hbase
    exact hbase ▸ hunder
  · injection (load_of_unreadable hunread).symm.trans h
  · injection (load_of_unusable hunusable).symm.trans h

/-! ## What is wrong with settings -/

/-- The program is white space, or nothing. -/
def Programless (s : Settings) : Prop := ∀ c ∈ s.program.toList, Text.isSpace c = true

/-- Nothing is wrong with the settings. -/
structure Sound (s : Settings) : Prop where
  program : ¬s.Programless
  timeout : s.idleTimeoutSecs ≠ 0
  sentinel : s.sentinel ≠ ""
  chunk : s.readChunk ≠ 0

/-- This is wrong with the settings, and nothing that is looked at earlier. -/
def FirstDefect (s : Settings) : Defect → Prop
  | .blankProgram => s.Programless
  | .zeroTimeout => ¬s.Programless ∧ s.idleTimeoutSecs = 0
  | .emptySentinel => ¬s.Programless ∧ s.idleTimeoutSecs ≠ 0 ∧ s.sentinel = ""
  | .zeroChunk =>
    ¬s.Programless ∧ s.idleTimeoutSecs ≠ 0 ∧ s.sentinel ≠ "" ∧ s.readChunk = 0

theorem defect?_eq_some_iff {s : Settings} {d : Defect} :
    s.defect? = some d ↔ s.FirstDefect d := by
  have hblank : s.has .blankProgram = true ↔ s.Programless := List.all_eq_true
  have hzero : s.has .zeroTimeout = true ↔ s.idleTimeoutSecs = 0 := decide_eq_true_iff
  have hempty : s.has .emptySentinel = true ↔ s.sentinel = "" := decide_eq_true_iff
  have hnone : s.has .zeroChunk = true ↔ s.readChunk = 0 := decide_eq_true_iff
  unfold defect?
  by_cases hprogram : s.Programless
  · rw [List.find?_cons_of_pos (hblank.mpr hprogram)]
    cases d <;> simp [FirstDefect, hprogram]
  rw [List.find?_cons_of_neg (mt hblank.mp hprogram)]
  by_cases htimeout : s.idleTimeoutSecs = 0
  · rw [List.find?_cons_of_pos (hzero.mpr htimeout)]
    cases d <;> simp [FirstDefect, hprogram, htimeout]
  rw [List.find?_cons_of_neg (mt hzero.mp htimeout)]
  by_cases hsentinel : s.sentinel = ""
  · rw [List.find?_cons_of_pos (hempty.mpr hsentinel)]
    cases d <;> simp [FirstDefect, hprogram, htimeout, hsentinel]
  rw [List.find?_cons_of_neg (mt hempty.mp hsentinel)]
  by_cases hchunk : s.readChunk = 0
  · rw [List.find?_cons_of_pos (hnone.mpr hchunk)]
    cases d <;> simp [FirstDefect, hprogram, htimeout, hsentinel, hchunk]
  · rw [List.find?_cons_of_neg (mt hnone.mp hchunk), List.find?_nil]
    cases d <;> simp [FirstDefect, hprogram, htimeout, hsentinel, hchunk]

theorem defect?_eq_none_iff {s : Settings} : s.defect? = none ↔ s.Sound := by
  have hnone : s.defect? = none ↔ ∀ d, ¬s.FirstDefect d := by
    rw [Option.eq_none_iff_forall_ne_some]
    exact forall_congr' fun d => not_congr defect?_eq_some_iff
  rw [hnone]
  constructor
  · intro h
    have hprogram := h .blankProgram
    have htimeout : s.idleTimeoutSecs ≠ 0 := fun e => h .zeroTimeout ⟨hprogram, e⟩
    have hsentinel : s.sentinel ≠ "" := fun e => h .emptySentinel ⟨hprogram, htimeout, e⟩
    exact ⟨hprogram, htimeout, hsentinel,
      fun e => h .zeroChunk ⟨hprogram, htimeout, hsentinel, e⟩⟩
  · intro h d hd
    cases d with
    | blankProgram => exact h.program hd
    | zeroTimeout => exact h.timeout hd.2
    | emptySentinel => exact h.sentinel hd.2.2
    | zeroChunk => exact h.chunk hd.2.2.2

/-! ## What counts -/

/-- Each field holds what the arguments ask for, else what it held below. -/
def Merged (a : Args) (base s : Settings) : Prop := ∀ f, s.get f = (a.asked f).getD (base.get f)

theorem merged_iff {a : Args} {base s : Settings} : Merged a base s ↔ base.overlay a = s := by
  constructor
  · intro h
    exact ext_get fun f => (get_overlay base a f).trans (h f).symm
  · rintro rfl f
    exact get_overlay base a f

theorem Merged.of_command {a : Args} {base s : Settings} (h : Merged a base s) {program : String}
    {args : List String} (hcommand : a.command = program :: args) :
    s.program = program ∧ s.args = args := by
  have hprogram := h .program
  have hargs := h .args
  simp only [Args.asked, hcommand] at hprogram hargs
  exact ⟨hprogram, hargs⟩

/-- The settings that count, or why there are none. -/
inductive Resolves (files : FileReader) (a : Args) : Except LoadError Settings → Prop where
  | sound {base s : Settings} : Underlies files a base → Merged a base s → s.Sound →
    Resolves files a (.ok s)
  | defective {base s : Settings} {d : Defect} : Underlies files a base → Merged a base s →
    s.FirstDefect d → Resolves files a (.error (.invalid d))
  | unreadable {fault : Fault} : Unreadable files a fault →
    Resolves files a (.error (.read (a.config.getD defaultFile) fault))
  | unusable {e : ParseError} : Unusable files a e →
    Resolves files a (.error (.parse (a.config.getD defaultFile) e))

theorem Resolves.resolve_eq {files : FileReader} {a : Args} {result : Except LoadError Settings}
    (h : Resolves files a result) : resolve files a = result := by
  cases h with
  | sound hunder hmerged hsound =>
      simp only [resolve, fileFor_eq, load_of_underlies hunder, merged_iff.mp hmerged,
        defect?_eq_none_iff.mpr hsound]
  | defective hunder hmerged hd =>
      simp only [resolve, fileFor_eq, load_of_underlies hunder, merged_iff.mp hmerged,
        defect?_eq_some_iff.mpr hd]
  | unreadable h => simp only [resolve, fileFor_eq, load_of_unreadable h]
  | unusable h => simp only [resolve, fileFor_eq, load_of_unusable h]

theorem resolves_resolve (files : FileReader) (a : Args) :
    Resolves files a (resolve files a) := by
  have hone : ∃ result, Resolves files a result := by
    rcases file_cases files a with ⟨base, hunder⟩ | ⟨fault, h⟩ | ⟨e, h⟩
    · have hmerged : Merged a base (base.overlay a) := merged_iff.mpr rfl
      cases hdefect : (base.overlay a).defect? with
      | none => exact ⟨_, .sound hunder hmerged (defect?_eq_none_iff.mp hdefect)⟩
      | some d => exact ⟨_, .defective hunder hmerged (defect?_eq_some_iff.mp hdefect)⟩
    · exact ⟨_, .unreadable h⟩
    · exact ⟨_, .unusable h⟩
  obtain ⟨result, h⟩ := hone
  exact h.resolve_eq.symm ▸ h

theorem resolve_eq_iff {files : FileReader} {a : Args} {result : Except LoadError Settings} :
    resolve files a = result ↔ Resolves files a result :=
  ⟨fun h => h ▸ resolves_resolve files a, Resolves.resolve_eq⟩

/-- Two files that agree where the arguments ask for nothing leave the same settings. -/
theorem overlay_congr {a : Args} {base base' : Settings}
    (h : ∀ f, a.asked f = none → base.get f = base'.get f) :
    base.overlay a = base'.overlay a := by
  refine ext_get fun f => ?_
  rw [get_overlay, get_overlay]
  cases hasked : a.asked f with
  | none => exact h f hasked
  | some x => rfl

theorem resolve_congr {files files' : FileReader} {a : Args} {base base' : Settings}
    (h : Underlies files a base) (h' : Underlies files' a base')
    (hsame : ∀ f, a.asked f = none → base.get f = base'.get f) :
    resolve files a = resolve files' a := by
  simp only [resolve, fileFor_eq, load_of_underlies h, load_of_underlies h', overlay_congr hsame]

/--
**What the arguments ask for counts, then what the file says, then the defaults.**

Whatever the arguments and the files are: there are settings that count if and only if there are
settings that underlie the arguments, the file's or the defaults, and nothing is wrong with those
that come out when the arguments have been heard. Each field holds what the arguments ask for, else
what underlies them; a command brings its own arguments along. So what a file says of a field that
the arguments ask for does not count, whatever it is. If something is wrong with what comes out, the
first such thing is reported, in the order of program, timeout, sentinel and size of reads. A file
that was named or is there, and cannot be read or gives no settings, is reported whatever the
arguments ask for.
-/
theorem resolve_layers (files : FileReader) (a : Args) :
    (∀ base, load files (a.config.getD defaultFile) a.config.isSome = .ok base
        ↔ Underlies files a base)
      ∧ (∀ s, resolve files a = .ok s ↔ ∃ base, Underlies files a base ∧ Merged a base s ∧ s.Sound)
      ∧ (∀ s program args, resolve files a = .ok s → a.command = program :: args →
        s.program = program ∧ s.args = args)
      ∧ (∀ files' base base', Underlies files a base → Underlies files' a base' →
        (∀ f, a.asked f = none → base.get f = base'.get f) → resolve files a = resolve files' a)
      ∧ (∀ d, resolve files a = .error (.invalid d)
        ↔ ∃ base s, Underlies files a base ∧ Merged a base s ∧ s.FirstDefect d)
      ∧ (∀ path fault, resolve files a = .error (.read path fault)
        ↔ path = a.config.getD defaultFile ∧ Unreadable files a fault)
      ∧ ∀ path e, resolve files a = .error (.parse path e)
        ↔ path = a.config.getD defaultFile ∧ Unusable files a e := by
  refine ⟨fun base => load_eq_ok_iff, fun s => ?_, fun s program args hs hcommand => ?_,
    fun files' base base' => resolve_congr, fun d => ?_, fun path fault => ?_, fun path e => ?_⟩
  · rw [resolve_eq_iff]
    constructor
    · intro h
      cases h with
      | sound hunder hmerged hsound => exact ⟨_, hunder, hmerged, hsound⟩
    · rintro ⟨base, hunder, hmerged, hsound⟩
      exact .sound hunder hmerged hsound
  · cases resolve_eq_iff.mp hs with
    | sound _ hmerged _ => exact hmerged.of_command hcommand
  · rw [resolve_eq_iff]
    constructor
    · intro h
      cases h with
      | defective hunder hmerged hd => exact ⟨_, _, hunder, hmerged, hd⟩
    · rintro ⟨base, s, hunder, hmerged, hd⟩
      exact .defective hunder hmerged hd
  · rw [resolve_eq_iff]
    constructor
    · intro h
      cases h with
      | unreadable hunread => exact ⟨rfl, hunread⟩
    · rintro ⟨rfl, hunread⟩
      exact .unreadable hunread
  · rw [resolve_eq_iff]
    constructor
    · intro h
      cases h with
      | unusable hunusable => exact ⟨rfl, hunusable⟩
    · rintro ⟨rfl, hunusable⟩
      exact .unusable hunusable

/-- A directory whose files all say that there is no time, and no program to speak of. -/
def hasty : FileReader := fun _ =>
  .ok "watchdog.idle_timeout_secs = 0\n[command]\nprogram = \" \"\nargs = [\"x\"]\n"

/-- Given a command and a timeout, such a file is as good as none; without a timeout it is not, and
a file that was named and is not there is not either. -/
theorem resolve_layers_hasty :
    resolve hasty { command := ["echo"], timeout := some 5 }
        = resolve (fun _ => .error .notFound) { command := ["echo"], timeout := some 5 }
      ∧ resolve hasty { command := ["echo"], timeout := some 5 }
        = .ok { program := "echo", args := [], idleTimeoutSecs := 5 }
      ∧ resolve hasty { command := ["echo"] } = .error (.invalid .zeroTimeout)
      ∧ resolve (fun _ => .error .notFound)
          { command := ["echo"], timeout := some 5, config := some "a.toml" }
        = .error (.read "a.toml" .notFound) := by
  have hbase : ∀ a : Args, a.config = none →
      Underlies hasty a { program := " ", args := ["x"], idleTimeoutSecs := 0 } := by
    intro a ha
    obtain ⟨hload, _⟩ := resolve_layers hasty a
    refine (hload _).mp ?_
    rw [ha]
    rfl
  obtain ⟨_, hok, _, hsame, _⟩ :=
    resolve_layers hasty { command := ["echo"], timeout := some 5 }
  obtain ⟨_, _, _, _, hinvalid, _⟩ := resolve_layers hasty { command := ["echo"] }
  obtain ⟨_, _, _, _, _, hread, _⟩ := resolve_layers (fun _ => .error .notFound)
    { command := ["echo"], timeout := some 5, config := some "a.toml" }
  have hechoes : ∀ n, ¬Programless { program := "echo", args := [], idleTimeoutSecs := n } :=
    fun _ h => absurd (h 'e' (show 'e' ∈ "echo".toList by decide)) (by decide)
  refine ⟨hsame _ _ _ (hbase _ rfl) (.defaults rfl rfl) ?_,
    (hok _).mpr ⟨_, hbase _ rfl, merged_iff.mpr rfl, ⟨hechoes 5, by decide, by decide, by decide⟩⟩,
    (hinvalid _).mpr ⟨_, _, hbase _ rfl, merged_iff.mpr rfl, hechoes 0, rfl⟩,
    (hread _ _).mpr ⟨rfl, rfl, by decide⟩⟩
  intro f hf
  cases f with
  | processGroup | sentinel | readChunk => rfl
  | program | args | idleTimeoutSecs => exact absurd hf (by simp [Args.asked])

end IdleWatch.Settings
