import IdleWatch.Proofs.Emission
import IdleWatch.Proofs.ExitStatus

/-!
# What a run is judged by

The supervisor looks at its watchdog once, after the child is reaped, and a callback that ran later
would not count. None can: when it looks, the watchdog is cancelled. Nor can a callback that ran
before go unseen, not even between the end of the loop and the cancel, because what counts
callbacks also tells that one has run.

`Judged` keeps both along the run. Kills and what is known of them go together, from the first step
to the last, and a report that has been made stays the report that would be made now.
-/

namespace IdleWatch

/-- The loop is over and the watchdog cancelled: the child is reaped and judged, or a report is
made. -/
def Stand.Late (stand : Stand) : Prop :=
  stand = .reaping ∨ stand = .judging ∨ ∃ report, stand.outcome? = some (.report report)

namespace Run

/-- **What is known of a run's kills is all there is to know.** -/
structure Judged (r : Run) : Prop where
  /-- The watchdog killed as often as it fired. -/
  watchdog : r.kills.count .watchdog = r.dog.shared.fired
  /-- A shutdown killed if the supervisor took notice of it. -/
  shutdown : .shutdown ∈ r.kills ↔ r.interrupted = true
  cancelled : r.stand.Late → r.dog.shared.cancelled = true
  /-- A report that has been made is the one that would be made now. -/
  judged : ∀ report, r.stand.outcome? = some (.report report) →
    ∃ status, report = r.report status

/-- So it killed if it fired. -/
theorem Judged.watchdog_mem_iff {r : Run} (h : Judged r) :
    .watchdog ∈ r.kills ↔ 0 < r.dog.shared.fired := by
  rw [← h.watchdog]
  exact List.count_pos_iff.symm

theorem judged_start (options : Options) (sink : Sink) : Judged { options, sink } where
  watchdog := rfl
  shutdown := by simp [kills, Effect.killer?]
  cancelled := by
    intro h
    rcases h with h | h | ⟨report, h⟩
    · exact Stand.noConfusion h
    · exact Stand.noConfusion h
    · exact absurd h (by simp [Stand.outcome?])
  judged := by intro report h; exact absurd h (by simp [Stand.outcome?])

theorem kills_note (r : Run) (e : Effect) : (r.note e).kills = r.kills ++ e.killer?.toList := by
  rw [kills, note, Array.toList_push, List.filterMap_append, kills]
  cases e <;> rfl

/-- Most effects are no kills. -/
theorem kills_note_of_none (r : Run) {e : Effect} (he : e.killer? = none) :
    (r.note e).kills = r.kills := by
  rw [kills_note, he]
  exact List.append_nil _

/-- A step of the watchdog that is no expiry does not fire, and no step undoes a cancel. -/
theorem dog_quiet {dog dog' : Watchdog.System} {a : Watchdog.Action}
    (h : dog.step a = some dog') (ha : a ≠ .expire) :
    dog'.shared.fired = dog.shared.fired
      ∧ (dog.shared.cancelled = true → dog'.shared.cancelled = true) := by
  have hd := Watchdog.System.does_of_step h
  exact ⟨Watchdog.System.fired_of_ne_expire hd ha, Watchdog.System.cancelled_mono hd⟩

/-- A report depends on the watchdog's counter, the shutdown, the lines and the sentinel. -/
theorem report_congr {r s : Run} (ho : s.options = r.options)
    (hf : s.dog.shared.fired = r.dog.shared.fired) (hi : s.interrupted = r.interrupted)
    (hl : s.lines = r.lines) (status : ExitStatus) : s.report status = r.report status := by
  simp only [report, termination, Watchdog.System.lock_eq, Watchdog.Shared.hasFired, ho, hf, hi, hl]

/-- Before the loop is over, only the kills matter. -/
theorem Judged.early {r s : Run} (h : Judged r) (hk : s.kills = r.kills)
    (hf : s.dog.shared.fired = r.dog.shared.fired) (hi : s.interrupted = r.interrupted)
    (hs : ¬ s.stand.Late) : Judged s := by
  constructor
  · rw [hk, hf]; exact h.watchdog
  · rw [hk, hi]; exact h.shutdown
  · intro hl; exact absurd hl hs
  · intro report hr
    exact absurd (Or.inr (Or.inr ⟨report, hr⟩)) hs

/-- Later nothing changes that a report depends on. -/
theorem Judged.stay {r s : Run} (h : Judged r) (hk : s.kills = r.kills)
    (hf : s.dog.shared.fired = r.dog.shared.fired) (hi : s.interrupted = r.interrupted)
    (ho : s.options = r.options) (hl : s.lines = r.lines)
    (hc : r.dog.shared.cancelled = true → s.dog.shared.cancelled = true)
    (hlate : s.stand.Late → r.stand.Late) (hs : s.stand.outcome? = r.stand.outcome?) :
    Judged s := by
  constructor
  · rw [hk, hf]; exact h.watchdog
  · rw [hk, hi]; exact h.shutdown
  · exact fun hsl => hc (h.cancelled (hlate hsl))
  · intro report hr
    obtain ⟨status, e⟩ := h.judged report (hs ▸ hr)
    exact ⟨status, e.trans (report_congr ho hf hi hl status).symm⟩

theorem Judged.atTop {r : Run} (h : Judged { r with stand := .waiting }) : Judged r.atTop := by
  rcases atTop_cases r with ⟨_, heq⟩ | ⟨_, heq⟩
  · rw [heq]
    exact h.early (kills_note_of_none r rfl) rfl rfl (by simp [Stand.Late, Stand.outcome?])
  · rw [heq]
    exact h

theorem judged_interrupt {r : Run} (h : Judged r) (hs : r.stand = .waiting) :
    Judged { r.note (.killed .shutdown) with interrupted := true } := by
  have hk := kills_note r (.killed .shutdown)
  have hlate : ¬ r.stand.Late := by simp [Stand.Late, Stand.outcome?, hs]
  constructor
  · refine Eq.trans ?_ h.watchdog
    exact hk ▸ by simp [Effect.killer?]
  · refine iff_of_true ?_ rfl
    exact hk ▸ by simp [Effect.killer?]
  · intro hl; exact absurd hl hlate
  · intro report hr
    exact absurd (Or.inr (Or.inr ⟨report, hr⟩)) hlate

/-- The watchdog can kill only where it is not cancelled, so before the loop is left. -/
theorem judged_kill {r : Run} {a : Watchdog.Action} {dog : Watchdog.System} (h : Judged r)
    (hdog : r.dog.step a = some dog) (hf : dog.shared.fired ≠ r.dog.shared.fired) :
    Judged ({ r with dog }.note (.killed .watchdog)) := by
  have hd := Watchdog.System.does_of_step hdog
  have hlate : ¬ r.stand.Late :=
    fun hl => hf (Watchdog.System.fired_of_cancelled hd (h.cancelled hl))
  -- one more callback, one more kill
  have hone := Watchdog.System.fired_eq_succ hd hf
  have hk := kills_note { r with dog } (.killed .watchdog)
  constructor
  · refine Eq.trans ?_ ((congrArg (· + 1) h.watchdog).trans hone.symm)
    exact hk ▸ by simp [Effect.killer?, kills]
  · refine Iff.trans ?_ h.shutdown
    exact hk ▸ by simp [Effect.killer?, kills]
  · intro hl; exact absurd hl hlate
  · intro report hr
    exact absurd (Or.inr (Or.inr ⟨report, hr⟩)) hlate

theorem judged_leave {r : Run} {dog : Watchdog.System} (h : Judged r)
    (hdog : r.dog.step .cancel = some dog) : Judged { r with dog, stand := .reaping } := by
  have hf := (dog_quiet hdog (by simp)).1
  constructor
  · exact hf ▸ h.watchdog
  · exact h.shutdown
  · exact fun _ => Watchdog.System.cancelled_of_cancel (Watchdog.System.does_of_step hdog)
  · intro report hr; exact absurd hr (by simp [Stand.outcome?])

theorem judged_judge {r : Run} (h : Judged r) (hs : r.stand = .judging) (status : ExitStatus) :
    Judged { r.enter .terminated with stand := .dropping (.report (r.report status)) } := by
  have hk : (r.enter .terminated).kills = r.kills := kills_note_of_none r rfl
  constructor
  · exact hk ▸ h.watchdog
  · exact hk ▸ h.shutdown
  · exact fun _ => h.cancelled (Or.inr (Or.inl hs))
  · intro report hr
    injection hr with hr
    injection hr with hr
    exact ⟨status, hr.symm⟩

/-- **Every step keeps this.** -/
theorem judged_step {r s : Run} {a : Action} (h : Judged r) (hd : Does r a s) : Judged s := by
  cases hd with
  | spawn | spawnFailed | ready | unready | readFailed | write | writeFailed | reapFailed =>
      exact h.early rfl rfl rfl (by simp [Stand.Late, Stand.outcome?, giveUp])
  | read hs => exact h.early rfl rfl rfl (by simp [Stand.Late, Stand.outcome?, hs])
  | overflow _ _ hdog | rearm _ _ hdog =>
      have hf := (dog_quiet hdog (by simp)).1
      exact h.early rfl hf rfl (by simp [Stand.Late, Stand.outcome?, giveUp])
  | @arm dog _ _ hdog =>
      have hf := (dog_quiet hdog (by simp)).1
      have hk := kills_note_of_none { r with dog } (e := .entered .running) rfl
      exact Judged.atTop (h.early hk hf rfl (by simp [Stand.Late, Stand.outcome?]))
  | endRound => exact Judged.atTop (h.early rfl rfl rfl (by simp [Stand.Late, Stand.outcome?]))
  | interrupt hs => exact judged_interrupt h hs
  | leave _ _ hdog => exact judged_leave h hdog
  | notify _ hdog =>
      obtain ⟨hf, hc⟩ := dog_quiet hdog (by simp)
      exact h.stay rfl hf rfl rfl rfl hc id rfl
  | drop hs _ hdog | abort hs _ hdog =>
      obtain ⟨hf, hc⟩ := dog_quiet hdog (by simp)
      refine h.stay rfl hf rfl rfl rfl hc ?_ ?_
      · rw [hs]; simp [Stand.Late, Stand.outcome?]
      · rw [hs]; rfl
  | release hs =>
      refine h.stay (kills_note_of_none r rfl) rfl rfl rfl rfl id ?_ ?_
      · rw [hs]; simp [Stand.Late, Stand.outcome?]
      · rw [hs]; rfl
  | reap hs =>
      refine h.stay (kills_note_of_none r rfl) rfl rfl rfl rfl id ?_ ?_
      · rw [hs]; simp [Stand.Late]
      · rw [hs]; rfl
  | judge hs => exact judged_judge h hs _
  | request => exact h.stay rfl rfl rfl rfl rfl id id rfl
  | exit => exact h.stay (kills_note_of_none r rfl) rfl rfl rfl rfl id id rfl
  | dog _ hdog hf =>
      have hc := Watchdog.System.cancelled_mono (Watchdog.System.does_of_step hdog)
      exact h.stay rfl hf rfl rfl rfl hc id rfl
  | kill _ hdog hf => exact judged_kill h hdog hf

theorem judged_perform {options : Options} {sink : Sink} {actions : List Action} {r : Run}
    (h : ({ options, sink } : Run).perform actions = some r) : Judged r :=
  perform_induction judged_step (judged_start options sink) h

theorem options_step {r s : Run} {a : Action} (h : Does r a s) : s.options = r.options := by
  cases h with
  | @arm dog =>
      obtain ⟨_, _, heq⟩ := atTop_eq ({ r with dog }.enter .running)
      rw [heq]
      rfl
  | endRound =>
      obtain ⟨_, _, heq⟩ := atTop_eq { r with live := eraseAll r.live r.closed, closed := [] }
      rw [heq]
  | _ => rfl

theorem options_perform {options : Options} {sink : Sink} {actions : List Action} {r : Run}
    (h : ({ options, sink } : Run).perform actions = some r) : r.options = options :=
  perform_induction (motive := fun r => r.options = options)
    (fun hr hd => (options_step hd).trans hr) rfl h

/-! ## The verdict -/

/-- The report goes by the watchdog first, then by the shutdown. -/
theorem termination_cases (r : Run) :
    (r.termination = .idleTimeout ∧ 0 < r.dog.shared.fired)
      ∨ (r.termination = .interrupted ∧ ¬ 0 < r.dog.shared.fired ∧ r.interrupted = true)
      ∨ (r.termination = .natural ∧ ¬ 0 < r.dog.shared.fired ∧ r.interrupted = false) := by
  rw [termination, Watchdog.System.lock_eq, Watchdog.Shared.hasFired]
  by_cases hf : 0 < r.dog.shared.fired
  · exact Or.inl ⟨by simp [hf], hf⟩
  · cases hi : r.interrupted with
    | true => exact Or.inr (Or.inl ⟨by simp [hf], hf, rfl⟩)
    | false => exact Or.inr (Or.inr ⟨by simp [hf], hf, rfl⟩)

theorem Judged.idleTimeout_iff {r : Run} (h : Judged r) :
    r.termination = .idleTimeout ↔ .watchdog ∈ r.kills := by
  rw [h.watchdog_mem_iff]
  rcases termination_cases r with ⟨ht, hf⟩ | ⟨ht, hf, _⟩ | ⟨ht, hf, _⟩
  · exact iff_of_true ht hf
  · exact iff_of_false (by simp [ht]) hf
  · exact iff_of_false (by simp [ht]) hf

theorem Judged.interrupted_iff {r : Run} (h : Judged r) :
    r.termination = .interrupted ↔ .watchdog ∉ r.kills ∧ .shutdown ∈ r.kills := by
  rw [h.watchdog_mem_iff, h.shutdown]
  rcases termination_cases r with ⟨ht, hf⟩ | ⟨ht, hf, hi⟩ | ⟨ht, hf, hi⟩
  · exact iff_of_false (by simp [ht]) (fun hn => hn.1 hf)
  · exact iff_of_true ht ⟨hf, hi⟩
  · exact iff_of_false (by simp [ht]) (by simp [hi])

/-- A run that nobody killed has ended by itself. -/
theorem Judged.natural_iff {r : Run} (h : Judged r) : r.termination = .natural ↔ r.kills = [] := by
  have hall : r.kills = [] ↔ .watchdog ∉ r.kills ∧ .shutdown ∉ r.kills := by
    rw [List.eq_nil_iff_forall_not_mem]
    constructor
    · exact fun hk => ⟨hk _, hk _⟩
    · intro ⟨hw, hs⟩ killer
      cases killer with
      | watchdog => exact hw
      | shutdown => exact hs
  rw [hall, h.watchdog_mem_iff, h.shutdown]
  rcases termination_cases r with ⟨ht, hf⟩ | ⟨ht, hf, hi⟩ | ⟨ht, hf, hi⟩
  · exact iff_of_false (by simp [ht]) (fun hn => hn.1 hf)
  · exact iff_of_false (by simp [ht]) (by simp [hi])
  · exact iff_of_true ht ⟨hf, by simp [hi]⟩

theorem ofLastLine_eq_success {last : Option Line} {sentinel : String} :
    Verdict.ofLastLine last sentinel = .success
      ↔ ∃ line, last = some line ∧ line.text = sentinel := by
  cases last with
  | none => simp [Verdict.ofLastLine]
  | some line => simp [Verdict.ofLastLine]

/-- The verdict is that of the last line, unless the child was killed. -/
theorem verdict_eq_success {r : Run} {status : ExitStatus} :
    (r.report status).verdict = .success ↔
      r.termination = .natural
        ∧ ∃ line, r.lines.toList.getLast? = some line ∧ line.text = r.options.sentinel := by
  rw [Array.getLast?_toList, ← ofLastLine_eq_success, report]
  cases r.termination with
  | natural => simp
  | idleTimeout => simp
  | interrupted => simp

/--
**A command has succeeded if nobody killed it and its last line is the sentinel**, and only then.

A kill counts whoever issued it and whenever, up to the very moment in which the watchdog is
cancelled. The last line is that of the lines the sink has got, whatever their streams. With any
other exit status of the child everything goes the same way, to the same verdict.
-/
theorem verdict_success_iff {options : Options} {sink : Sink} {actions : List Action} {r : Run}
    {report : Report} (h : ({ options, sink } : Run).perform actions = some r)
    (hr : r.outcome? = some (.report report)) :
    (report.verdict = .success ↔
        r.kills = []
          ∧ ∃ line, report.lines.getLast? = some line ∧ line.text = options.sentinel)
      ∧ r.sink.text = sink.text ++ passage report.lines
      ∧ ∀ f : ExitStatus → ExitStatus, ∃ s,
          ({ options, sink } : Run).perform (actions.map (Action.restatus f)) = some s
            ∧ s.outcome? = some (.report { report with exitStatus := f report.exitStatus })
            ∧ s.kills = r.kills := by
  have hj := judged_perform h
  obtain ⟨_, _, hsink⟩ := faithful_report h hr
  refine ⟨?_, hsink, ?_⟩
  · obtain ⟨status, rfl⟩ := hj.judged report (outcome?_of_outcome? hr)
    rw [verdict_eq_success, hj.natural_iff, options_perform h]
    rfl
  · intro f
    refine ⟨r.restatus f, perform_restatus f h, ?_, rfl⟩
    rw [outcome?_restatus, hr]
    rfl

/-- A line of standard output, and then both streams close. -/
def oneLine : List Action :=
  [.spawned (.ok ()), .next, .next,
    .ready [0], .read (.ok [79, 75, 10]), .next, .next, .next, .next,
    .ready [0, 1], .read (.ok []), .read (.ok []), .next]

/-- Both streams hang up, the child is reaped, and the run ends. -/
def hangUp : List Action :=
  [.ready [0, 1], .read (.error .hangUp), .read (.error .hangUp), .next, .next, .next,
    .reaped (.ok ()), .next, .next, .next, .next]

/-- The child ends with a status that is no success; the command has succeeded all the same. -/
theorem verdict_success_iff_oneLine :
    ∃ r report,
      ({ options := ⟨"sh", [], false, 5, "OK", 4⟩ } : Run).perform
          (oneLine ++ [.next, .next, .dog (.tick 9), .request, .exit (some 3),
            .reaped (.ok ()), .next, .next, .next, .next]) = some r
        ∧ r.outcome? = some (.report report)
        ∧ report.exitStatus = some 3
        ∧ report.verdict = .success := by
  have h : ({ options := ⟨"sh", [], false, 5, "OK", 4⟩ } : Run).perform
      (oneLine ++ [.next, .next, .dog (.tick 9), .request, .exit (some 3),
        .reaped (.ok ()), .next, .next, .next, .next]) = some _ := rfl
  refine ⟨_, _, h, rfl, rfl, ?_⟩
  exact (verdict_success_iff h rfl).1.mpr ⟨rfl, _, rfl, rfl⟩

/-- The watchdog fires when the loop is over but the cancel still to come, and it counts. -/
example :
    (({ options := ⟨"sh", [], false, 5, "OK", 4⟩ } : Run).perform
        (oneLine ++ [.dog .snapshot, .dog (.tick 5), .dog .elapse, .dog .expire, .exit none,
          .next, .next, .reaped (.ok ()), .next, .next, .next, .next])).bind Run.outcome?
      = some (.report
          { verdict := .failure, termination := .idleTimeout, exitStatus := none,
            lines := [⟨"OK", .stdout, 0⟩] }) := by
  rfl

end Run

end IdleWatch
