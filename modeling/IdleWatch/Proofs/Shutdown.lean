import IdleWatch.Proofs.KillOrder

/-!
# A shutdown is honoured where it is listened for

A shutdown may be asked for at any moment. The supervisor listens in one place only, where it waits
for a stream: there it takes notice of the request and kills the child, and from then on nothing
makes a success of the run. While it is busy elsewhere in the loop the request stays, and is still
there when the supervisor waits again.

It does not wait again once no stream is live. A child that has closed both streams and goes on
running is waited for, but nobody listens meanwhile: a request that comes then, or that has not
been taken notice of until then, is never honoured.
-/

namespace IdleWatch.Run

/-! ## Requests and notices -/

/-- A request is made in one way, and taken notice of in one way. -/
theorem notice_step {r s : Run} {a : Action} (hd : Does r a s) :
    (s.requested = true ↔ r.requested = true ∨ a = .request)
      ∧ (s.interrupted = true ↔ r.interrupted = true ∨ a = .interrupt) := by
  cases hd with
  | @arm dog =>
      obtain ⟨_, _, heq⟩ := atTop_eq ({ r with dog }.enter .running)
      rw [heq]
      simp [enter, note]
  | endRound =>
      obtain ⟨_, _, heq⟩ := atTop_eq { r with live := eraseAll r.live r.closed, closed := [] }
      rw [heq]
      simp
  | _ => simp [giveUp, note, enter]

theorem notice_perform {r s : Run} {actions : List Action} (h : r.perform actions = some s) :
    (s.requested = true ↔ r.requested = true ∨ .request ∈ actions)
      ∧ (s.interrupted = true ↔ r.interrupted = true ∨ .interrupt ∈ actions) := by
  induction actions generalizing r with
  | nil =>
      obtain rfl := Option.some.inj h
      simp
  | cons a more ih =>
      obtain ⟨r', hstep, hmore⟩ := perform_cons h
      obtain ⟨hreq, hint⟩ := notice_step (does_of_step hstep)
      obtain ⟨hreq', hint'⟩ := ih hmore
      rw [hreq', hint', hreq, hint, List.mem_cons, List.mem_cons, or_assoc, or_assoc,
        eq_comm (a := a), eq_comm (a := a)]
      exact ⟨Iff.rfl, Iff.rfl⟩

/-- Nobody takes notice of what was not asked for. -/
theorem requested_of_interrupted {options : Options} {sink : Sink} {actions : List Action}
    {r : Run} (h : ({ options, sink } : Run).perform actions = some r)
    (hi : r.interrupted = true) : r.requested = true := by
  refine perform_induction (motive := fun r => r.interrupted = true → r.requested = true)
    ?_ (fun e => absurd e (by simp)) h hi
  intro r s a hr hd hs
  obtain ⟨hreq, hint⟩ := notice_step hd
  -- either somebody has taken notice before, or this very step does
  rcases hint.mp hs with e | rfl
  · exact hreq.mpr (Or.inl (hr e))
  · cases hd with
    | interrupt _ _ hrequested => exact hrequested

/-- **After the loop nobody takes notice any more.** -/
theorem interrupt_notMem_of_past {r s : Run} {actions : List Action} (hp : r.stand.Past)
    (h : r.perform actions = some s) : .interrupt ∉ actions := by
  induction actions generalizing r with
  | nil => exact List.not_mem_nil
  | cons a more ih =>
      obtain ⟨r', hstep, hmore⟩ := perform_cons h
      obtain ⟨hp', _, hne⟩ := past_of_does hp (does_of_step hstep)
      intro hm
      rcases List.mem_cons.mp hm with e | hm
      · exact hne e.symm
      · exact ih hp' hmore hm

/-! ## A request that is honoured -/

/-- The request to shut down was honoured: the child was killed for it, and whatever the run has
come to, it tells of no success and of no command that ended by itself. -/
structure Honours (r : Run) : Prop where
  killed : .shutdown ∈ r.kills
  report : ∀ report, r.outcome? = some (.report report) →
    report.termination ≠ .natural ∧ report.verdict = .failure
  exitCode : ∀ outcome, r.outcome? = some outcome → outcome.exitCode ≠ 0

theorem Judged.report_of_kill {r : Run} {report : Report} {killer : Killer} (h : Judged r)
    (hk : killer ∈ r.kills) (hr : r.outcome? = some (.report report)) :
    report.termination ≠ .natural ∧ report.verdict = .failure := by
  obtain ⟨status, rfl⟩ := h.judged report (outcome?_of_outcome? hr)
  -- a report that calls the end natural knows of no kill
  have hne : r.termination ≠ .natural := by
    intro e
    rw [h.natural_iff.mp e] at hk
    exact List.not_mem_nil hk
  refine ⟨hne, ?_⟩
  cases hv : (r.report status).verdict with
  | failure => rfl
  | success => exact absurd (verdict_eq_success.mp hv).1 hne

/-- **Who takes notice of a request honours it**, and nobody else does. -/
theorem Judged.honours_iff {r : Run} (h : Judged r) : Honours r ↔ r.interrupted = true := by
  constructor
  · intro hh
    exact h.shutdown.mp hh.killed
  · intro hi
    have hk := h.shutdown.mpr hi
    refine ⟨hk, fun report hr => h.report_of_kill hk hr, ?_⟩
    intro outcome ho
    cases outcome with
    | report report =>
        rw [Outcome.exitCode, (h.report_of_kill hk ho).2]
        exact Nat.one_ne_zero
    | error => exact Nat.succ_ne_zero _
    | overflow => exact Nat.succ_ne_zero _

/--
**A request to shut down is honoured if the supervisor takes notice of it**, and only then.

This holds for a request at any moment of any run, and for the run at any moment after it. The
supervisor can take notice whenever it waits for a stream, and kills the child when it does. When
the loop is over it can not: a request that comes then is not honoured, whatever happens.
-/
theorem honours_iff_noticed {options : Options} {sink : Sink} {before after : List Action}
    {r s : Run} (hr : ({ options, sink } : Run).perform before = some r)
    (hfirst : r.requested = false) (hs : r.perform (.request :: after) = some s) :
    (Honours s ↔ .interrupt ∈ after)
      ∧ (s.stand = .waiting → s.dog.owed = 0 → .interrupt ∉ after →
          ∃ t, s.step .interrupt = some t ∧ t.kills = s.kills ++ [.shutdown])
      ∧ (r.stand.Past → .interrupt ∉ after) := by
  have hall : ({ options, sink } : Run).perform (before ++ .request :: after) = some s := by
    rw [perform_append hr]
    exact hs
  -- nobody has taken notice before there was a request
  have hearly : r.interrupted = false := by
    cases hi : r.interrupted with
    | false => rfl
    | true => exact absurd (hfirst.symm.trans (requested_of_interrupted hr hi)) (by simp)
  have hnoticed : s.interrupted = true ↔ .interrupt ∈ after := by
    rw [(notice_perform hs).2, hearly]
    simp
  refine ⟨(judged_perform hall).honours_iff.trans hnoticed, ?_, ?_⟩
  · intro hstand ho hnot
    have hrequested : s.requested = true := (notice_perform hs).1.mpr (Or.inr List.mem_cons_self)
    have hi : s.interrupted = false := by
      rw [← hnoticed] at hnot
      simpa using hnot
    exact ⟨_, step_of_does (Does.interrupt hstand ho hrequested hi), kills_note ..⟩
  · intro hp hm
    exact interrupt_notMem_of_past hp hs (List.mem_cons_of_mem _ hm)

/-- A line is written, the supervisor waits and takes notice, and the child is killed. -/
def noticeAfterLine : List Action :=
  [.next, .next, .next, .next, .interrupt, .exit none] ++ hangUp

/-- The request comes before the sentinel is written, and the supervisor takes notice after it. -/
theorem honours_iff_noticed_afterLine : ∃ r s : Run,
    ({ options := ⟨"sh", [], false, 5, "OK", 4⟩ } : Run).perform
        [.spawned (.ok ()), .next, .next, .ready [0], .read (.ok [79, 75, 10])] = some r
      ∧ r.requested = false
      ∧ r.perform (.request :: noticeAfterLine) = some s
      ∧ s.outcome?.isSome = true
      ∧ Honours s := by
  have hr : ({ options := ⟨"sh", [], false, 5, "OK", 4⟩ } : Run).perform
      [.spawned (.ok ()), .next, .next, .ready [0], .read (.ok [79, 75, 10])] = some _ := rfl
  refine ⟨_, _, hr, rfl, rfl, rfl, ?_⟩
  exact (@honours_iff_noticed _ _ _ noticeAfterLine _ _ hr rfl rfl).1.mpr (by simp [noticeAfterLine])

/-- The child has written the sentinel, closed both streams and goes on running. The request that
comes now is not heard, and when the child ends that counts as a success. -/
theorem request_unheard : ∃ (r s : Run) (report : Report),
    ({ options := ⟨"sh", [], true, 5, "OK", 4⟩ } : Run).perform (oneLine ++ [.next, .next]) = some r
      ∧ r.child = .alive ∧ r.requested = false
      ∧ r.perform [.request, .exit (some 0), .reaped (.ok ()), .next, .next, .next, .next] = some s
      ∧ s.kills = []
      ∧ s.outcome? = some (.report report)
      ∧ report.termination = .natural ∧ report.verdict = .success
      ∧ (Outcome.report report).exitCode = 0 := by
  exact ⟨_, _, _, rfl, rfl, rfl, rfl, rfl, rfl, rfl, rfl, rfl⟩

end IdleWatch.Run
