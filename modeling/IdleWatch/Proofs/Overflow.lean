import IdleWatch.Proofs.ExitCode
import IdleWatch.Proofs.Layers

/-!
# Deadlines beyond the clock

A deadline that the clock cannot represent takes down the program, with an exit code of its own.
Whether that happens is decided anew at every arm, at the start and after each line, by the time at
that moment: a run fails for an overflow if at some moment its supervisor is about to set such a
deadline, and in no other way.

Settings are accepted without a look at this. What a file can say leaves the clock its first
second. What the arguments can say goes twice as far as the clock does, and from the half of that
on no run comes to a report.
-/

namespace IdleWatch.Run

/-- What a run has come to after some of these actions, the first ones. -/
def Moment (r : Run) (actions : List Action) (q : Run) : Prop :=
  ∃ before, before <+: actions ∧ r.perform before = some q

/-- The supervisor is about to set a deadline beyond the clock. -/
def Overreaches (r : Run) : Prop :=
  (r.stand = .arming ∨ r.stand = .rearming) ∧ Time.limit ≤ r.dog.now + r.options.idleTimeout

/-! ## Time goes on, and the watchdog can be armed -/

theorem now_le_of_does {r s : Run} {a : Action} (hd : Does r a s) :
    r.dog.now ≤ s.dog.now ∧ s.options = r.options := by
  refine ⟨?_, options_step hd⟩
  rcases dog_of_does hd with heq | ⟨b, hstep, _⟩
  · exact Nat.le_of_eq (congrArg Watchdog.System.now heq.symm)
  · exact Watchdog.System.now_le (Watchdog.System.does_of_step hstep)

theorem now_le_perform {r s : Run} {actions : List Action} (h : r.perform actions = some s) :
    r.dog.now ≤ s.dog.now ∧ s.options = r.options := by
  refine perform_induction (motive := fun s => r.dog.now ≤ s.dog.now ∧ s.options = r.options)
    ?_ ⟨Nat.le_refl _, rfl⟩ h
  intro s t a ⟨hnow, hoptions⟩ hd
  obtain ⟨hnow', hoptions'⟩ := now_le_of_does hd
  exact ⟨Nat.le_trans hnow hnow', hoptions'.trans hoptions⟩

/-- The watchdog is not cancelled before the loop is over. -/
def Armable (r : Run) : Prop := r.dog.shared.cancelled = true → r.stand.Past

theorem armable_step {r s : Run} {a : Action} (h : Armable r) (hd : Does r a s) : Armable s := by
  intro hc
  -- who cancels has left the loop, and there is no way back
  have hp : r.stand.Past := by
    rcases dog_of_does hd with heq | ⟨b, hstep, _, hcancel⟩
    · exact h (heq ▸ hc)
    · by_cases hb : b = .cancel
      · rcases hcancel hb with e | ⟨outcome, e⟩
        · rw [e]; trivial
        · rw [e]; trivial
      · have hsame := Watchdog.System.cancelled_of_ne_cancel
          (Watchdog.System.does_of_step hstep) hb
        exact h (hsame.symm.trans hc)
  exact (past_of_does hp hd).1

theorem armable_start (options : Options) (sink : Sink) : Armable { options, sink } := by
  intro hc
  exact absurd hc (by simp)

theorem Armable.overflowed {r : Run} (h : Armable r) (hs : r.stand = .arming ∨ r.stand = .rearming)
    (hlimit : Time.limit ≤ r.dog.now + r.options.idleTimeout) :
    (r.dog.shared.arm r.dog.now r.options.idleTimeout).2 = .overflowed := by
  refine Watchdog.Shared.arm_eq_overflowed.mpr ⟨?_, hlimit⟩
  -- a watchdog that was cancelled would not even look at the clock
  cases hc : r.dog.shared.cancelled with
  | false => rfl
  | true => exact absurd (h hc) (Stand.not_past_of_arms hs)

/-! ## A run fails where it overreaches -/

/-- **Who overreaches goes on to do so, or the run fails.** -/
theorem overreaches_step {r s : Run} {a : Action} (hc : Armable r) (h : Overreaches r)
    (hd : Does r a s) : Overreaches s ∨ s.stand.outcome? = some .overflow := by
  obtain ⟨hstand, hlimit⟩ := h
  obtain ⟨hnow, hoptions⟩ := now_le_of_does hd
  have hlimit' : Time.limit ≤ s.dog.now + s.options.idleTimeout := by
    rw [hoptions]
    exact Nat.le_trans hlimit (Nat.add_le_add_right hnow _)
  have hover := hc.overflowed hstand hlimit
  cases hd with
  | overflow => exact Or.inr rfl
  | arm _ _ _ hno | rearm _ _ _ hno => exact absurd hover hno
  | notify | request | exit | dog | kill => exact Or.inl ⟨hstand, hlimit'⟩
  | spawn hs | spawnFailed hs | ready hs | unready hs | interrupt hs | read hs | readFailed hs
  | write hs | writeFailed hs | endRound hs | leave hs | reap hs | reapFailed hs | judge hs
  | drop hs | abort hs | release hs =>
      -- these start elsewhere
      rw [hs] at hstand
      exact absurd hstand (by simp)

/-- **A run that fails for an overflow has overreached.** -/
theorem overreaches_of_overflow {r s : Run} {a : Action} (hd : Does r a s)
    (hs : s.stand.outcome? = some .overflow) :
    Overreaches r ∨ r.stand.outcome? = some .overflow := by
  cases hd with
  | overflow hstand _ _ hover =>
      exact Or.inl ⟨hstand, (Watchdog.Shared.arm_eq_overflowed.mp hover).2⟩
  | drop hr | abort hr | release hr =>
      rw [hr]
      exact Or.inr hs
  | interrupt | read | notify | request | exit | dog | kill => exact Or.inr hs
  | arm | endRound => exact absurd ((atTop_outcome? _).symm.trans hs) (by simp)
  | _ => exact absurd hs (by simp [Stand.outcome?, giveUp])

theorem moment_of_overflow {r s : Run} {actions : List Action} (h : r.perform actions = some s)
    (hr : r.stand.outcome? = none) (hs : s.stand.outcome? = some .overflow) :
    ∃ q, r.Moment actions q ∧ Overreaches q := by
  obtain ⟨before, a, after, p, q, rfl, hp, hnone, hd, hq, _⟩ := exists_deciding h hr hs
  rcases overreaches_of_overflow hd hq with hover | hdecided
  · exact ⟨p, ⟨before, List.prefix_append before _, hp⟩, hover⟩
  · exact absurd (hnone.symm.trans hdecided) (by simp)

theorem overreaches_perform {r s : Run} {actions : List Action} (hc : Armable r)
    (h : Overreaches r) (hp : r.perform actions = some s) :
    Overreaches s ∨ s.stand.outcome? = some .overflow := by
  have hall := perform_induction
    (motive := fun s => Armable s ∧ (Overreaches s ∨ s.stand.outcome? = some .overflow))
    (by
      intro r s a ⟨hc, h⟩ hd
      refine ⟨armable_step hc hd, ?_⟩
      rcases h with h | h
      · exact overreaches_step hc h hd
      · exact Or.inr (outcome_step h hd))
    ⟨hc, Or.inl h⟩ hp
  exact hall.2

/-- **A run ends with an overflow if it overreaches at some moment**, and only then. -/
theorem outcome_eq_overflow_iff {options : Options} {sink : Sink} {actions : List Action}
    {r : Run} {outcome : Outcome} (h : ({ options, sink } : Run).perform actions = some r)
    (hr : r.outcome? = some outcome) :
    outcome = .overflow ↔
      ∃ q, ({ options, sink } : Run).Moment actions q ∧ Overreaches q := by
  have hout := outcome?_of_outcome? hr
  constructor
  · rintro rfl
    exact moment_of_overflow h rfl hout
  · rintro ⟨q, ⟨before, ⟨after, rfl⟩, hq⟩, hover⟩
    have hc := perform_induction armable_step (armable_start options sink) hq
    rw [perform_append hq] at h
    rcases overreaches_perform hc hover h with ⟨hstand, _⟩ | hoverflow
    · -- who has an outcome does not arm
      rcases hstand with e | e
      · rw [e] at hout
        exact absurd hout (by simp [Stand.outcome?])
      · rw [e] at hout
        exact absurd hout (by simp [Stand.outcome?])
    · exact Option.some.inj (hout.symm.trans hoverflow)

/-- The longest timeout that can stand in a file is armed in the first second of the clock, but not
anew after it. -/
example :
    (({ options := ⟨"sh", [], true, Settings.maxNumber * 1000, "OK", 4⟩ } : Run).perform
        [.spawned (.ok ()), .next, .next, .dog (.tick 1000), .ready [0], .read (.ok [79, 75, 10]),
          .next, .next, .next, .next, .next, .next]).bind Run.outcome?
      = some .overflow := by
  rfl

theorem outcome_ne_overflow {options : Options} {sink : Sink} {actions : List Action}
    {r : Run} {outcome : Outcome} (h : ({ options, sink } : Run).perform actions = some r)
    (hr : r.outcome? = some outcome) (hlimit : r.dog.now + options.idleTimeout < Time.limit) :
    outcome ≠ .overflow := by
  intro e
  -- the moment is not later than the end, and the timeout is the same
  obtain ⟨q, ⟨before, ⟨after, rfl⟩, hq⟩, _, hover⟩ := (outcome_eq_overflow_iff h hr).mp e
  rw [perform_append hq] at h
  have hnow := (now_le_perform h).1
  have hoptions := (now_le_perform hq).2
  rw [hoptions] at hover
  exact Nat.not_lt.mpr (Nat.le_trans hover (Nat.add_le_add_right hnow _)) hlimit

/-! ## A timeout beyond the clock -/

/-- The loop is not entered, and nothing is written. -/
structure Barred (sink : Sink) (r : Run) : Prop where
  stand : r.stand = .spawning ∨ r.stand = .arming
    ∨ ∃ outcome, r.stand.outcome? = some outcome ∧ ∀ report, outcome ≠ .report report
  sink : r.sink = sink

theorem barred_step {sink : Sink} {r s : Run} {a : Action} (hc : Armable r)
    (hlimit : Time.limit ≤ r.options.idleTimeout) (h : Barred sink r) (hd : Does r a s) :
    Barred sink s := by
  cases hd with
  | spawn => exact ⟨Or.inr (Or.inl rfl), h.sink⟩
  | spawnFailed => exact ⟨Or.inr (Or.inr ⟨_, rfl, by simp⟩), h.sink⟩
  | overflow => exact ⟨Or.inr (Or.inr ⟨_, rfl, by simp⟩), h.sink⟩
  | arm hs _ _ hno =>
      exact absurd (hc.overflowed (Or.inl hs) (Nat.le_add_left_of_le hlimit)) hno
  | notify | request | exit | dog | kill => exact ⟨h.stand, h.sink⟩
  | drop hs | abort hs | release hs =>
      rcases h.stand with e | e | ⟨outcome, e, hne⟩
      · exact absurd (hs.symm.trans e) (by simp)
      · exact absurd (hs.symm.trans e) (by simp)
      · rw [hs] at e
        exact ⟨Or.inr (Or.inr ⟨outcome, e, hne⟩), h.sink⟩
  | ready hs | unready hs | interrupt hs | read hs | readFailed hs | rearm hs
  | write hs | writeFailed hs | endRound hs | leave hs | reap hs | reapFailed hs | judge hs =>
      have hnot := h.stand
      rw [hs] at hnot
      exact absurd hnot (by simp [Stand.outcome?])

/-- **With a timeout beyond the clock nothing is written and no report is made.** -/
theorem barred_perform {options : Options} {sink : Sink} {actions : List Action} {r : Run}
    (hlimit : Time.limit ≤ options.idleTimeout)
    (h : ({ options, sink } : Run).perform actions = some r) : Barred sink r := by
  have hall := perform_induction
    (motive := fun r => Armable r ∧ r.options = options ∧ Barred sink r)
    (by
      intro r s a ⟨hc, hoptions, hr⟩ hd
      exact ⟨armable_step hc hd, (options_step hd).trans hoptions,
        barred_step hc (hoptions ▸ hlimit) hr hd⟩)
    ⟨armable_start options sink, rfl, Or.inl rfl, rfl⟩ h
  exact hall.2.2

theorem Barred.two_le_exitCode {sink : Sink} {r : Run} {outcome : Outcome} (h : Barred sink r)
    (hr : r.outcome? = some outcome) : 2 ≤ outcome.exitCode := by
  have hout := outcome?_of_outcome? hr
  rcases h.stand with e | e | ⟨outcome', e, hne⟩
  · rw [e] at hout
    exact absurd hout (by simp [Stand.outcome?])
  · rw [e] at hout
    exact absurd hout (by simp [Stand.outcome?])
  · obtain rfl := Option.some.inj (hout.symm.trans e)
    cases outcome with
    | report report => exact absurd rfl (hne report)
    | error => exact Nat.le_refl 2
    | overflow => decide

end IdleWatch.Run

namespace IdleWatch

/-! ## What settings can say -/

namespace Settings

theorem writable_load {files : FileReader} {path : String} {required : Bool} {s : Settings}
    (h : load files path required = .ok s) : s.Writable := by
  unfold load at h
  split at h
  · rename_i text _
    cases hparse : parse text with
    | error e =>
        rw [hparse] at h
        injection h
    | ok s' =>
        rw [hparse] at h
        injection h with h
        exact h ▸ writable_parse hparse
  · split at h
    · injection h with h
      subst h
      exact ⟨by decide, by decide⟩
    · injection h

/-- **The timeout is what the arguments say**, else it can stand in a file. -/
theorem timeout_of_resolve {files : FileReader} {a : Args} {s : Settings}
    (h : resolve files a = .ok s) :
    (∀ n, a.timeout = some n → s.idleTimeoutSecs = n)
      ∧ (a.timeout = none → s.idleTimeoutSecs ≤ maxNumber) := by
  unfold resolve at h
  dsimp only at h
  split at h
  · injection h
  · rename_i loaded hload
    split at h
    · injection h
    · injection h with h
      have htimeout : (loaded.overlay a).idleTimeoutSecs
          = a.timeout.getD loaded.idleTimeoutSecs := get_overlay loaded a .idleTimeoutSecs
      rw [h] at htimeout
      constructor
      · intro n hn
        rw [htimeout, hn, Option.getD_some]
      · intro hnone
        rw [htimeout, hnone, Option.getD_none]
        exact (writable_load hload).1

/-- What can stand in a file leaves the clock its first second. -/
theorem idleTimeout_of_le {s : Settings} (h : s.idleTimeoutSecs ≤ maxNumber) :
    1000 + s.options.idleTimeout ≤ Time.limit := by
  have hle : s.options.idleTimeout ≤ maxNumber * 1000 := Nat.mul_le_mul_right 1000 h
  exact Nat.add_le_add_left hle 1000

/-- What cannot, goes beyond the clock. -/
theorem limit_le_idleTimeout {s : Settings} (h : maxNumber < s.idleTimeoutSecs) :
    Time.limit ≤ s.options.idleTimeout :=
  Nat.mul_le_mul_right 1000 h

end Settings

/-! ## The exit code -/

/-- Only an overflow has an exit code beyond those that are documented. -/
theorem Outcome.two_lt_exitCode_iff (outcome : Outcome) :
    2 < outcome.exitCode ↔ outcome = .overflow := by
  cases outcome with
  | report report =>
      refine iff_of_false ?_ (by simp)
      cases hv : report.verdict with
      | success => simp [exitCode, Verdict.exitCode, hv]
      | failure => simp [exitCode, Verdict.exitCode, hv]
  | error e => exact iff_of_false (Nat.lt_irrefl 2) (by simp)
  | overflow => exact iff_of_true (by decide) rfl

namespace Program

/--
**The program leaves its exit codes if its run overreaches at some moment**, and only then.

Whatever the arguments, the file and the child: with settings that were accepted, the exit code is
at most 2 as long as every arm, at its moment, sets a deadline that the clock can represent; else
it is the one of an overflow. A clock that reaches beyond the last moment by the timeout is enough
for that, so it is if no timeout was given and the clock is in its first second. Against that, a
timeout given that could not stand in a file ends every run without a report, and nothing is
printed. Where the handlers of signals cannot be installed there is no run and no arm.
-/
theorem exitCode_le_two_iff {carry : Carrier} {argv : List String}
    {files : Settings.FileReader} {a : Args} {s : Settings} {actions : List Run.Action} {r : Run}
    {outcome : Outcome} (hread : Args.read argv = .ok a)
    (hresolve : Settings.resolve files a = .ok s) (hdry : a.dryRun = false)
    (h : ({ options := s.options } : Run).perform actions = some r)
    (hr : r.outcome? = some outcome) (hcarry : carry s.options = (outcome, r.sink.text)) :
    ((execute (.ok carry) argv files).exitCode ≤ 2 ↔
        ∀ q, ({ options := s.options } : Run).Moment actions q → ¬ q.Overreaches)
      ∧ (2 < (execute (.ok carry) argv files).exitCode →
          (execute (.ok carry) argv files).exitCode = overflowExitCode)
      ∧ (r.dog.now + s.options.idleTimeout < Time.limit →
          (execute (.ok carry) argv files).exitCode ≤ 2)
      ∧ (a.timeout = none → r.dog.now < 1000 → (execute (.ok carry) argv files).exitCode ≤ 2)
      ∧ (∀ n, a.timeout = some n → Settings.maxNumber < n →
          2 ≤ (execute (.ok carry) argv files).exitCode
            ∧ (execute (.ok carry) argv files).stdout = "")
      ∧ ∀ fault, (execute (.error fault) argv files).exitCode = 2 := by
  have hexecute : execute (.ok carry) argv files = conclude outcome r.sink.text := by
    rw [execute_eq_conclude ⟨hread, hresolve⟩ hdry, hcarry]
  obtain ⟨hgiven, hdefault⟩ := Settings.timeout_of_resolve hresolve
  -- the exit code tells whether the run has failed for an overflow
  have hbeyond : 2 < (execute (.ok carry) argv files).exitCode ↔ outcome = .overflow := by
    rw [hexecute]
    exact outcome.two_lt_exitCode_iff
  have hcode : (execute (.ok carry) argv files).exitCode ≤ 2 ↔ outcome ≠ .overflow :=
    Nat.not_lt.symm.trans (not_congr hbeyond)
  have hreach : r.dog.now + s.options.idleTimeout < Time.limit →
      (execute (.ok carry) argv files).exitCode ≤ 2 := by
    intro hlimit
    exact hcode.mpr (Run.outcome_ne_overflow h hr hlimit)
  refine ⟨?_, ?_, hreach, ?_, ?_, ?_⟩
  · rw [hcode, Ne, Run.outcome_eq_overflow_iff h hr]
    exact not_exists.trans (forall_congr' fun q => not_and)
  · intro hlt
    rw [hexecute, hbeyond.mp hlt]
    rfl
  · intro hnone hnow
    refine hreach (Nat.lt_of_lt_of_le ?_ (Settings.idleTimeout_of_le (hdefault hnone)))
    exact Nat.add_lt_add_right hnow _
  · intro n hn hlt
    have hlimit := Settings.limit_le_idleTimeout (s := s) (by rw [hgiven n hn]; exact hlt)
    have hbarred := Run.barred_perform hlimit h
    have hsink : r.sink.text = "" := by rw [hbarred.sink]
    rw [hexecute]
    exact ⟨hbarred.two_le_exitCode hr, hsink⟩
  · intro fault
    rw [execute_of_deaf ⟨hread, hresolve⟩ hdry rfl]
    rfl

/-- The command succeeds within the default timeout. -/
theorem exitCode_le_two_iff_echo : ∃ (a : Args) (s : Settings) (r : Run) (outcome : Outcome),
    Args.read ["echo", "OK"] = .ok a
      ∧ Settings.resolve (fun _ => .error .notFound) a = .ok s
      ∧ a.dryRun = false
      ∧ ({ options := s.options } : Run).perform (Run.oneLine ++ [.next, .next, .exit (some 0),
          .reaped (.ok ()), .next, .next, .next, .next]) = some r
      ∧ r.outcome? = some outcome
      ∧ (execute (.ok fun _ => (outcome, r.sink.text)) ["echo", "OK"]
          (fun _ => .error .notFound)).exitCode ≤ 2 := by
  have hread : Args.read ["echo", "OK"] = .ok { command := ["echo", "OK"] } := by rfl
  have hresolve : Settings.resolve (fun _ => .error .notFound) { command := ["echo", "OK"] }
      = .ok { program := "echo", args := ["OK"] } := by rfl
  have h : ({ options := Settings.options { program := "echo", args := ["OK"] } } : Run).perform
      (Run.oneLine ++ [.next, .next, .exit (some 0), .reaped (.ok ()), .next, .next, .next, .next])
        = some _ := rfl
  refine ⟨_, _, _, _, hread, hresolve, rfl, h, rfl, ?_⟩
  have hall := @exitCode_le_two_iff (fun _ => _) _ _ _ _ _ _ _ hread hresolve rfl h rfl rfl
  exact hall.2.2.2.1 rfl (by decide)

/-- No timeout is refused for being too long. The child is started, and at the first arm the program
is taken down, with an exit code that is none of its own. -/
theorem execute_overflows : ∃ (a : Args) (s : Settings) (r : Run),
    Args.read ["-t", "18446744073709551615", "--", "echo", "OK"] = .ok a
      ∧ Settings.resolve (fun _ => .error .notFound) a = .ok s
      ∧ ({ options := s.options } : Run).perform
          [.spawned (.ok ()), .next, .next, .next, .next, .next] = some r
      ∧ r.outcome? = some .overflow
      ∧ (execute (.ok fun _ => (.overflow, r.sink.text))
          ["-t", "18446744073709551615", "--", "echo", "OK"]
          (fun _ => .error .notFound)).exitCode = 101 := by
  have hread : Args.read ["-t", "18446744073709551615", "--", "echo", "OK"]
      = .ok { command := ["echo", "OK"], timeout := some 18446744073709551615 } := by rfl
  have hresolve : Settings.resolve (fun _ => .error .notFound)
        { command := ["echo", "OK"], timeout := some 18446744073709551615 }
      = .ok { program := "echo", args := ["OK"], idleTimeoutSecs := 18446744073709551615 } := by
    rfl
  refine ⟨_, _, _, hread, hresolve, rfl, rfl, ?_⟩
  rw [execute_eq_conclude ⟨hread, hresolve⟩ rfl]
  rfl

end Program

end IdleWatch
