import IdleWatch.Program
import IdleWatch.Proofs.Emission
import IdleWatch.Proofs.Rehearsal

/-!
# The exit code tells how it went, and only lines are printed

Before the program begins a run it may have an answer already: to a question or to wrong arguments,
to settings that are not accepted, to a dry run. It also gives up if it cannot be told of signals.
In all these cases no child is started, and the answer is the same whatever a run would have come
to. Else there is a run, whatever its child does and whenever signals come, and what it has come to
decides the exit code, while what was printed are its lines.
-/

namespace IdleWatch.Program

/-- **What is told of a run is true**: a run with these options, with a sink that was empty and
whatever its child did, has come to this and has printed this. -/
structure Tells (told : Outcome × String) (options : Options) (r : Run) : Prop where
  performed : ∃ sink actions, sink.text = "" ∧ ({ options, sink } : Run).perform actions = some r
  outcome : r.outcome? = some told.1
  printed : told.2 = r.sink.text

/-- The arguments can be read, and settings count. -/
def Accepted (argv : List String) (files : Settings.FileReader) (a : Args) (s : Settings) : Prop :=
  Args.read argv = .ok a ∧ Settings.resolve files a = .ok s

/-- Help or the version is asked for. -/
def Asks (argv : List String) : Prop :=
  Args.read argv = .error .displayHelp ∨ Args.read argv = .error .displayVersion

/-- A dry run of settings that are written as this text. -/
def Renders (argv : List String) (files : Settings.FileReader) (text : String) : Prop :=
  ∃ a s, Accepted argv files a s ∧ a.dryRun = true ∧ s.render? = some text

/-- A run, not a dry one, is carried out, and this is the run. -/
def Watches (watch : Except Fault Carrier) (argv : List String) (files : Settings.FileReader)
    (r : Run) : Prop :=
  ∃ a s carry, Accepted argv files a s ∧ a.dryRun = false ∧ watch = .ok carry
    ∧ Tells (carry s.options) s.options r

/-- It has come to a report with this verdict. -/
def Reports (watch : Except Fault Carrier) (argv : List String) (files : Settings.FileReader)
    (verdict : Verdict) : Prop :=
  ∃ r report, Watches watch argv files r ∧ r.outcome? = some (.report report)
    ∧ report.verdict = verdict

/-- **All that goes wrong**: the arguments, the settings, writing them, the handlers of signals
where a command is to be watched, or the run, which has ended in an error. -/
inductive Breaks (watch : Except Fault Carrier) (argv : List String)
    (files : Settings.FileReader) : Prop where
  | usage {refusal : Args.Refusal} : Args.read argv = .error refusal → refusal.isError = true →
      Breaks watch argv files
  | unresolved {a : Args} {e : Settings.LoadError} : Args.read argv = .ok a →
      Settings.resolve files a = .error e → Breaks watch argv files
  | unwritten {a : Args} {s : Settings} : Accepted argv files a s → a.dryRun = true →
      s.render? = none → Breaks watch argv files
  | deaf {a : Args} {s : Settings} {fault : Fault} : Accepted argv files a s →
      a.dryRun = false → watch = .error fault → Breaks watch argv files
  | failed {r : Run} {e : RunError} : Watches watch argv files r → r.outcome? = some (.error e) →
      Breaks watch argv files

variable {watch : Except Fault Carrier} {argv : List String} {files : Settings.FileReader}

/-! ## What the program does -/

theorem execute_of_refusal {refusal : Args.Refusal} (h : Args.read argv = .error refusal) :
    execute watch argv files = refuse refusal := by
  simp only [execute, plan, h]

theorem execute_of_unresolved {a : Args} {e : Settings.LoadError} (h : Args.read argv = .ok a)
    (he : Settings.resolve files a = .error e) :
    execute watch argv files = { exitCode := fatalExitCode, stdout := "" } := by
  simp only [execute, plan, h, he]

theorem execute_of_dryRun {a : Args} {s : Settings} (h : Accepted argv files a s)
    (hdry : a.dryRun = true) : execute watch argv files = dryRun s := by
  simp only [execute, plan, h.1, h.2, hdry, if_true]

theorem execute_of_deaf {a : Args} {s : Settings} {fault : Fault} (h : Accepted argv files a s)
    (hdry : a.dryRun = false) (hwatch : watch = .error fault) :
    execute watch argv files = { exitCode := fatalExitCode, stdout := "" } := by
  simp only [execute, plan, h.1, h.2, hdry, Bool.false_eq_true, if_false, hwatch]

theorem execute_eq_conclude {a : Args} {s : Settings} {carry : Carrier}
    (h : Accepted argv files a s) (hdry : a.dryRun = false) :
    execute (.ok carry) argv files = conclude (carry s.options).1 (carry s.options).2 := by
  simp only [execute, plan, h.1, h.2, hdry, Bool.false_eq_true, if_false]

/-- **A run that is carried out decides the answer.** -/
theorem Watches.execute_eq {r : Run} {outcome : Outcome} (h : Watches watch argv files r)
    (hr : r.outcome? = some outcome) :
    execute watch argv files = conclude outcome r.sink.text := by
  obtain ⟨a, s, carry, haccepted, hdry, rfl, htells⟩ := h
  obtain rfl := Option.some.inj (htells.outcome.symm.trans hr)
  rw [execute_eq_conclude haccepted hdry, htells.printed]

/-- **Every call of the program is one of these**, if what is told of runs is true. -/
theorem execute_kinds (hwatch : ∀ a s carry, Accepted argv files a s → a.dryRun = false →
      watch = .ok carry → ∃ r, Tells (carry s.options) s.options r) :
    Asks argv ∨ (∃ text, Renders argv files text) ∨ (∃ verdict, Reports watch argv files verdict)
      ∨ Breaks watch argv files
      ∨ ∃ r, Watches watch argv files r ∧ r.outcome? = some .overflow := by
  cases hread : Args.read argv with
  | error refusal =>
      by_cases herror : refusal.isError = true
      · exact Or.inr (Or.inr (Or.inr (Or.inl (.usage hread herror))))
      · -- a refusal that is no error answers a question
        refine Or.inl ?_
        unfold Asks
        cases refusal with
        | displayHelp => exact Or.inl hread
        | displayVersion => exact Or.inr hread
        | _ => exact absurd rfl herror
  | ok a =>
      refine Or.inr ?_
      cases hresolve : Settings.resolve files a with
      | error e => exact Or.inr (Or.inr (Or.inl (.unresolved hread hresolve)))
      | ok s =>
          have haccepted : Accepted argv files a s := ⟨hread, hresolve⟩
          cases hdry : a.dryRun with
          | true =>
              cases htext : s.render? with
              | some text => exact Or.inl ⟨text, a, s, haccepted, hdry, htext⟩
              | none => exact Or.inr (Or.inr (Or.inl (.unwritten haccepted hdry htext)))
          | false =>
              refine Or.inr ?_
              cases hinstalled : watch with
              | error fault => exact Or.inr (Or.inl (.deaf haccepted hdry rfl))
              | ok carry =>
                  obtain ⟨r, htells⟩ := hwatch a s carry haccepted hdry hinstalled
                  have hrun : Watches (.ok carry) argv files r :=
                    ⟨a, s, carry, haccepted, hdry, rfl, htells⟩
                  cases houtcome : (carry s.options).1 with
                  | report report =>
                      have hr := htells.outcome.trans (congrArg some houtcome)
                      exact Or.inl ⟨report.verdict, r, report, hrun, hr, rfl⟩
                  | error e =>
                      have hr := htells.outcome.trans (congrArg some houtcome)
                      exact Or.inr (Or.inl (.failed hrun hr))
                  | overflow =>
                      have hr := htells.outcome.trans (congrArg some houtcome)
                      exact Or.inr (Or.inr ⟨r, hrun, hr⟩)

/-! ## What each of them leaves behind -/

theorem exitCode_of_asks (h : Asks argv) : (execute watch argv files).exitCode = 0 := by
  rcases h with hread | hread
  · rw [execute_of_refusal hread]
    rfl
  · rw [execute_of_refusal hread]
    rfl

theorem exitCode_of_renders {text : String} (h : Renders argv files text) :
    (execute watch argv files).exitCode = 0 := by
  obtain ⟨a, s, haccepted, hdry, htext⟩ := h
  rw [execute_of_dryRun haccepted hdry, dryRun, htext]

theorem exitCode_of_reports {verdict : Verdict} (h : Reports watch argv files verdict) :
    (execute watch argv files).exitCode = verdict.exitCode := by
  obtain ⟨r, report, hrun, hr, rfl⟩ := h
  rw [hrun.execute_eq hr]
  rfl

theorem exitCode_of_breaks (h : Breaks watch argv files) :
    (execute watch argv files).exitCode = 2 := by
  cases h with
  | usage hread herror =>
      rw [execute_of_refusal hread]
      exact if_pos herror
  | unresolved hread hresolve =>
      rw [execute_of_unresolved hread hresolve]
      rfl
  | unwritten haccepted hdry htext =>
      rw [execute_of_dryRun haccepted hdry, dryRun, htext]
      rfl
  | deaf haccepted hdry hinstalled =>
      rw [execute_of_deaf haccepted hdry hinstalled]
      rfl
  | failed hrun hr =>
      rw [hrun.execute_eq hr]
      rfl

theorem exitCode_of_overflow {r : Run} (h : Watches watch argv files r)
    (hr : r.outcome? = some .overflow) :
    (execute watch argv files).exitCode = overflowExitCode := by
  rw [h.execute_eq hr]
  rfl

/-- What was printed is what the run has reported. -/
theorem stdout_of_report {r : Run} {report : Report} (h : Watches watch argv files r)
    (hr : r.outcome? = some (.report report)) :
    (execute watch argv files).stdout = Run.passage report.lines := by
  rw [h.execute_eq hr]
  obtain ⟨_, _, _, _, _, _, htells⟩ := h
  obtain ⟨sink, actions, htext, hperform⟩ := htells.performed
  have hsink := (Run.faithful_report hperform hr).2.2
  rw [htext, String.empty_append] at hsink
  exact hsink

theorem exitCode_of_succeeds (h : Asks argv ∨ (∃ text, Renders argv files text)
      ∨ Reports watch argv files .success) : (execute watch argv files).exitCode = 0 := by
  rcases h with hasks | ⟨_, hrenders⟩ | hreports
  · exact exitCode_of_asks hasks
  · exact exitCode_of_renders hrenders
  · exact exitCode_of_reports hreports

/-- No two kinds of calls that differ in what they mean have the same exit code. -/
theorem exitCode_cases (hwatch : ∀ a s carry, Accepted argv files a s → a.dryRun = false →
      watch = .ok carry → ∃ r, Tells (carry s.options) s.options r) :
    ((execute watch argv files).exitCode = 0
        ∧ (Asks argv ∨ (∃ text, Renders argv files text) ∨ Reports watch argv files .success))
      ∨ ((execute watch argv files).exitCode = 1 ∧ Reports watch argv files .failure)
      ∨ ((execute watch argv files).exitCode = 2 ∧ Breaks watch argv files)
      ∨ ((execute watch argv files).exitCode = overflowExitCode
        ∧ ∃ r, Watches watch argv files r ∧ r.outcome? = some .overflow) := by
  rcases execute_kinds hwatch with hasks | hrenders | ⟨verdict, hreports⟩ | hbreaks | ⟨r, hrun, hr⟩
  · exact Or.inl ⟨exitCode_of_asks hasks, Or.inl hasks⟩
  · obtain ⟨text, htext⟩ := hrenders
    exact Or.inl ⟨exitCode_of_renders htext, Or.inr (Or.inl ⟨text, htext⟩)⟩
  · have hcode := exitCode_of_reports hreports
    cases verdict with
    | success => exact Or.inl ⟨hcode, Or.inr (Or.inr hreports)⟩
    | failure => exact Or.inr (Or.inl ⟨hcode, hreports⟩)
  · exact Or.inr (Or.inr (Or.inl ⟨exitCode_of_breaks hbreaks, hbreaks⟩))
  · exact Or.inr (Or.inr (Or.inr ⟨exitCode_of_overflow hrun hr, r, hrun, hr⟩))

theorem stdout_dryRun (s : Settings) : (dryRun s).stdout = s.render?.getD "" := by
  unfold dryRun
  cases s.render? with
  | some text => rfl
  | none => rfl

theorem stdout_of_dryRun {a : Args} (hread : Args.read argv = .ok a) (hdry : a.dryRun = true) :
    (execute watch argv files).stdout
      = ((Settings.resolve files a).toOption.bind Settings.render?).getD "" := by
  cases hresolve : Settings.resolve files a with
  | error e =>
      rw [execute_of_unresolved hread hresolve]
      rfl
  | ok s =>
      rw [execute_of_dryRun ⟨hread, hresolve⟩ hdry]
      exact stdout_dryRun s

/-- **Where no run is carried out, it does not matter what one would have come to.** -/
theorem execute_congr {watch' : Except Fault Carrier}
    (h : ∀ a s, Accepted argv files a s → a.dryRun = true) :
    execute watch argv files = execute watch' argv files := by
  cases hread : Args.read argv with
  | error refusal => rw [execute_of_refusal hread, execute_of_refusal hread]
  | ok a =>
      cases hresolve : Settings.resolve files a with
      | error e => rw [execute_of_unresolved hread hresolve, execute_of_unresolved hread hresolve]
      | ok s =>
          have haccepted : Accepted argv files a s := ⟨hread, hresolve⟩
          have hdry := h a s haccepted
          rw [execute_of_dryRun haccepted hdry, execute_of_dryRun haccepted hdry]

/--
**The exit code tells how it went, and nothing is printed but what was asked for.**

Whatever the arguments, the file, the child, its sink and the moments of signals, and whether or not
their handlers can be installed: the exit code is 0 exactly for a question, for a dry run of
settings that can be written, and for a run that reports success; 1 exactly for a run that reports
failure; 2 for all that goes wrong; and it is one of these unless the run was taken down by its
clock. A dry run prints the settings if there are any to print, and settings that are not accepted
print nothing. In neither case is a child started: no run is carried out, and what one would have
come to makes no difference. A run that comes to a report has printed its lines, a line feed after
each. All that is asked of the way to carry out runs is that what it tells of the run is true, where
there is one to carry out.
-/
theorem exitCode_iff (hwatch : ∀ a s carry, Accepted argv files a s → a.dryRun = false →
      watch = .ok carry → ∃ r, Tells (carry s.options) s.options r) :
    ((execute watch argv files).exitCode = 0
        ↔ Asks argv ∨ (∃ text, Renders argv files text) ∨ Reports watch argv files .success)
      ∧ ((execute watch argv files).exitCode = 1 ↔ Reports watch argv files .failure)
      ∧ ((execute watch argv files).exitCode = 2 ↔ Breaks watch argv files)
      ∧ ((execute watch argv files).exitCode ≤ 2
        ∨ ∃ r, Watches watch argv files r ∧ r.outcome? = some .overflow)
      ∧ (∀ a, Args.read argv = .ok a → a.dryRun = true →
        (execute watch argv files).stdout
            = ((Settings.resolve files a).toOption.bind Settings.render?).getD ""
          ∧ (∀ r, ¬ Watches watch argv files r)
          ∧ ∀ watch', execute watch' argv files = execute watch argv files)
      ∧ (∀ a e, Args.read argv = .ok a → Settings.resolve files a = .error e →
        (execute watch argv files).stdout = ""
          ∧ (∀ r, ¬ Watches watch argv files r)
          ∧ ∀ watch', execute watch' argv files = execute watch argv files)
      ∧ ∀ r report, Watches watch argv files r → r.outcome? = some (.report report) →
        (execute watch argv files).stdout = Run.passage report.lines := by
  have hcases := exitCode_cases hwatch
  refine ⟨⟨fun hcode => ?_, exitCode_of_succeeds⟩, ⟨fun hcode => ?_, exitCode_of_reports⟩,
    ⟨fun hcode => ?_, exitCode_of_breaks⟩, ?_, fun a hread hdry => ?_, fun a e hread he => ?_,
    fun r report => stdout_of_report⟩
  -- the four codes differ, so that each picks out its case
  · rw [hcode] at hcases
    simpa [overflowExitCode] using hcases
  · rw [hcode] at hcases
    simpa [overflowExitCode] using hcases
  · rw [hcode] at hcases
    simpa [overflowExitCode] using hcases
  · rcases hcases with ⟨hcode, _⟩ | ⟨hcode, _⟩ | ⟨hcode, _⟩ | ⟨_, hoverflow⟩
    · exact Or.inl (hcode ▸ Nat.zero_le 2)
    · exact Or.inl (hcode ▸ Nat.le_succ 1)
    · exact Or.inl (hcode ▸ Nat.le_refl 2)
    · exact Or.inr hoverflow
  · -- what was read is all that can be read
    have hsame : ∀ a' s, Accepted argv files a' s → a'.dryRun = true := by
      intro a' s haccepted
      obtain rfl := Except.ok.inj (hread.symm.trans haccepted.1)
      exact hdry
    refine ⟨stdout_of_dryRun hread hdry, ?_, fun watch' => execute_congr hsame⟩
    rintro r ⟨a', s, _, haccepted, hwet, _⟩
    exact absurd ((hsame a' s haccepted).symm.trans hwet) (by simp)
  · have hnone : ∀ a' s, ¬ Accepted argv files a' s := by
      intro a' s haccepted
      obtain rfl := Except.ok.inj (hread.symm.trans haccepted.1)
      exact absurd (he.symm.trans haccepted.2) (by simp)
    refine ⟨?_, ?_, fun watch' => execute_congr fun a' s haccepted =>
      absurd haccepted (hnone a' s)⟩
    · rw [execute_of_unresolved hread he]
    · rintro r ⟨a', s, _, haccepted, _⟩
      exact hnone a' s haccepted

/-- The command prints its line and is waited for. -/
theorem exitCode_iff_echo :
    ∃ r report,
      ({ options := Settings.options { program := "echo", args := ["OK"] } } : Run).perform
          (Run.oneLine
            ++ [.next, .next, .exit (some 0), .reaped (.ok ()), .next, .next, .next, .next])
          = some r
      ∧ r.outcome? = some (.report report)
      ∧ (execute (.ok fun _ => (.report report, r.sink.text)) ["echo", "OK"]
          (fun _ => .error .notFound)).exitCode = 0
      ∧ (execute (.ok fun _ => (.report report, r.sink.text)) ["echo", "OK"]
          (fun _ => .error .notFound)).stdout = "OK\n" := by
  obtain ⟨r, report, h, hr, hverdict, hlines⟩ : ∃ r report,
      ({ options := Settings.options { program := "echo", args := ["OK"] } } : Run).perform
          (Run.oneLine
            ++ [.next, .next, .exit (some 0), .reaped (.ok ()), .next, .next, .next, .next])
          = some r
        ∧ r.outcome? = some (.report report) ∧ report.verdict = .success
        ∧ Run.passage report.lines = "OK\n" := ⟨_, _, rfl, rfl, rfl, rfl⟩
  have haccepted : Accepted ["echo", "OK"] (fun _ => .error .notFound)
      { command := ["echo", "OK"] } { program := "echo", args := ["OK"] } := ⟨by rfl, by rfl⟩
  have htells : Tells (.report report, r.sink.text)
      (Settings.options { program := "echo", args := ["OK"] }) r := ⟨⟨{}, _, rfl, h⟩, hr, rfl⟩
  have hrun : Watches (.ok fun _ => (.report report, r.sink.text)) ["echo", "OK"]
      (fun _ => .error .notFound) r := ⟨_, _, _, haccepted, rfl, rfl, htells⟩
  obtain ⟨hzero, _, _, _, _, _, hstdout⟩ :=
    @exitCode_iff (.ok fun _ => (.report report, r.sink.text)) ["echo", "OK"]
      (fun _ => .error .notFound) (by
        rintro a s carry ⟨hread, hresolve⟩ _ hcarry
        obtain rfl := Except.ok.inj hcarry
        obtain rfl := Except.ok.inj (haccepted.1.symm.trans hread)
        obtain rfl := Except.ok.inj (haccepted.2.symm.trans hresolve)
        exact ⟨r, htells⟩)
  exact ⟨r, report, h, hr, hzero.mpr (Or.inr (Or.inr ⟨r, report, hrun, hr, hverdict⟩)),
    (hstdout r report hrun hr).trans hlines⟩

/-! ## The program as it is -/

/-- A rehearsal is a run. -/
theorem rehearsed_eq (interrupted : Bool) (options : Options) :
    ∃ actions r, ({ options } : Run).perform actions = some r
      ∧ rehearsed interrupted options = (r.outcome?.getD .overflow, r.sink.text) := by
  unfold rehearsed
  cases Launch.script options none with
  | error e => exact ⟨[.spawned (.error e)], _, rfl, rfl⟩
  | ok script =>
      cases interrupted with
      | true =>
          obtain ⟨actions, _, h⟩ :=
            (Rehearsal.standby_rehearseInterrupted options {} script).leads.exists_actions
          exact ⟨actions, _, h, rfl⟩
      | false =>
          obtain ⟨actions, _, h⟩ :=
            (Rehearsal.standby_rehearse options {} script).leads.exists_actions
          exact ⟨actions, _, h, rfl⟩

/-- **What is told of rehearsed runs is true**, unless a rehearsal is taken down by its clock or has
no end. -/
theorem tells_rehearsed {interrupted : Bool} {options : Options}
    (h : (rehearsed interrupted options).1 ≠ .overflow) :
    ∃ r, Tells (rehearsed interrupted options) options r := by
  obtain ⟨actions, r, hperform, heq⟩ := rehearsed_eq interrupted options
  rw [heq] at h ⊢
  cases hr : r.outcome? with
  | none =>
      rw [hr] at h
      exact absurd rfl h
  | some outcome => exact ⟨r, ⟨{}, actions, rfl, hperform⟩, hr, rfl⟩

end IdleWatch.Program
