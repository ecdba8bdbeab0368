import IdleWatch.Proofs.RunStep
import IdleWatch.Run.Schedule

/-!
# When the supervisor rests

`next?` is what the supervisor can do by itself. Where it can do nothing is said by `AtRest`, stand
by stand: it waits for the child to be started, for a stream, for the next read, for the end of the
child, or for nothing any more.

`proceed` lets it go on until it rests, with a bound on its steps. That the bound is enough is shown
by a rank: writing a line and arming anew takes three steps, and leaving or giving up a few more, so
every step lowers the rank.
-/

namespace IdleWatch.Run

/-- The supervisor has nothing to do until something comes from outside. -/
def AtRest (r : Run) : Prop :=
  r.dog.owed = 0 ∧
    match r.stand with
    | .spawning | .waiting | .reaping | .ended _ => True
    | .serving => r.outbox = [] ∧ r.todo ≠ []
    | .judging => ∀ status, r.child ≠ .reaped status
    | .aborting _ => r.dog.shared.cancelled = false
    | .arming | .rearming | .leaving | .dropping _ | .releasing _ => False

/-- A supervisor that cannot go on rests. -/
theorem atRest_of_next? {r : Run} (h : r.next? = none) : AtRest r := by
  have hno : ∀ {s}, ¬ Does r .next s := by
    intro s hd
    have hstep : r.next? = some s := step_of_does hd
    exact absurd (h.symm.trans hstep) (by simp)
  have ho : r.dog.owed = 0 := by
    refine Nat.eq_zero_of_not_pos (fun ho => ?_)
    exact hno (Does.notify ho (Watchdog.System.step_of_does (Watchdog.System.Does.notify ho)))
  have harm : ¬ (r.stand = .arming ∨ r.stand = .rearming) := by
    intro hs
    obtain ⟨dog, hdog⟩ := r.dog.exists_step_arm r.options.idleTimeout
    by_cases hov : (r.dog.shared.arm r.dog.now r.options.idleTimeout).2 = .overflowed
    · exact hno (Does.overflow hs ho hdog hov)
    · rcases hs with hs | hs
      · exact hno (Does.arm hs ho hdog hov)
      · exact hno (Does.rearm hs ho hdog hov)
  obtain ⟨cancelled, hcancel⟩ := r.dog.exists_step_cancel
  refine ⟨ho, ?_⟩
  cases hs : r.stand with
  | spawning | waiting | reaping | ended => trivial
  | arming => exact harm (Or.inl hs)
  | rearming => exact harm (Or.inr hs)
  | serving =>
      cases hout : r.outbox with
      | cons line rest => exact (hno (does_write hs ho hout)).elim
      | nil =>
          refine ⟨rfl, fun htodo => ?_⟩
          exact hno (Does.endRound hs ho hout htodo)
  | leaving => exact hno (Does.leave hs ho hcancel)
  | judging => exact fun status hchild => hno (Does.judge hs ho hchild)
  | dropping outcome => exact hno (Does.drop hs ho hcancel)
  | aborting outcome =>
      cases hc : r.dog.shared.cancelled with
      | false => rfl
      | true =>
          obtain ⟨dog, hdog⟩ := Watchdog.System.exists_step_abort hc
          exact (hno (Does.abort hs ho hdog)).elim
  | releasing outcome => exact hno (Does.release hs ho)

theorem AtRest.next?_eq {r : Run} (h : AtRest r) : r.next? = none := by
  obtain ⟨ho, hrest⟩ := h
  refine Option.eq_none_iff_forall_ne_some.mpr (fun s hnext => ?_)
  cases does_next hnext with
  | notify howed => exact absurd ho (Nat.ne_of_gt howed)
  | overflow hs =>
      rcases hs with hs | hs
      · rw [hs] at hrest; exact hrest
      · rw [hs] at hrest; exact hrest
  | arm hs | rearm hs | leave hs | drop hs | release hs =>
      rw [hs] at hrest
      exact hrest
  | write hs _ hout | writeFailed hs _ hout =>
      rw [hs] at hrest
      exact absurd (hrest.1.symm.trans hout) (by simp)
  | endRound hs _ _ htodo =>
      rw [hs] at hrest
      exact hrest.2 htodo
  | judge hs _ hchild =>
      rw [hs] at hrest
      exact hrest _ hchild
  | abort hs _ hdog =>
      rw [hs] at hrest
      cases Watchdog.System.does_of_step hdog with
      | abort hc | abortLate hc => exact absurd (hrest.symm.trans hc) (by simp)

/-- **The supervisor rests just where it has no next step.** -/
theorem next?_eq_none {r : Run} : r.next? = none ↔ AtRest r :=
  ⟨atRest_of_next?, AtRest.next?_eq⟩

theorem atRest_start (options : Options) (sink : Sink) : AtRest { options, sink } :=
  ⟨rfl, trivial⟩

/-! ## Going on until there is nothing to do -/

/-- How many steps the supervisor can take at most before it rests. -/
def rank (r : Run) : Nat :=
  r.dog.owed +
    match r.stand with
    | .spawning | .waiting | .reaping | .ended _ => 0
    | .releasing _ => 1
    | .leaving | .aborting _ => 2
    | .dropping _ => 4
    | .judging => 5
    | .arming => 6
    | .serving => 3 * r.outbox.length + 4
    | .rearming => 3 * r.outbox.length + 6

theorem rank_le (r : Run) : r.rank ≤ r.dog.owed + 3 * r.outbox.length + 6 := by
  unfold rank
  split <;> omega

theorem rank_atTop (r : Run) : r.atTop.rank ≤ r.dog.owed + 2 := by
  rcases atTop_cases r with ⟨_, heq⟩ | ⟨_, heq⟩
  · rw [heq]
    exact Nat.le_refl _
  · rw [heq]
    exact Nat.le_add_right _ _

/-- **Each step of the supervisor brings it nearer to rest.** -/
theorem rank_step {r s : Run} (hd : Does r .next s) : s.rank < r.rank := by
  -- what a call to the watchdog leaves owed
  have howed : ∀ {a : Watchdog.Action} {dog : Watchdog.System}, r.dog.owed = 0 →
      r.dog.step a = some dog → dog.owed ≤ 1 := by
    intro a dog ho hdog
    have := Watchdog.System.owed_le (Watchdog.System.does_of_step hdog)
    omega
  cases hd with
  | notify ho hdog =>
      cases Watchdog.System.does_of_step hdog with
      | notify =>
          simp only [rank]
          omega
  | @overflow dog hs ho hdog =>
      have := howed ho hdog
      rcases hs with hs | hs
      · simp only [rank, giveUp, hs]
        omega
      · simp only [rank, giveUp, hs]
        omega
  | @arm dog hs ho hdog =>
      have hone := howed ho hdog
      have htop := rank_atTop ({ r with dog }.enter .running)
      have hdogs : ({ r with dog }.enter .running).dog = dog := rfl
      rw [hdogs] at htop
      simp only [rank, hs] at htop ⊢
      omega
  | rearm hs ho hdog | leave hs ho hdog | drop hs ho hdog =>
      have := howed ho hdog
      simp only [rank, hs]
      omega
  | abort hs ho hdog =>
      cases Watchdog.System.does_of_step hdog with
      | abort | abortLate =>
          simp only [rank, hs]
          omega
  | write hs _ hout | writeFailed hs _ hout =>
      simp only [rank, giveUp, hs, hout, List.length_cons]
      omega
  | endRound hs =>
      have htop := rank_atTop { r with live := eraseAll r.live r.closed, closed := [] }
      simp only [rank, hs] at htop ⊢
      omega
  | judge hs | release hs =>
      simp only [rank, enter, note, hs]
      omega

theorem atRest_goOn {fuel : Nat} {r : Run} (h : r.rank ≤ fuel) : AtRest (r.goOn fuel) := by
  induction fuel generalizing r with
  | zero =>
      refine next?_eq_none.mp (Option.eq_none_iff_forall_ne_some.mpr (fun s hnext => ?_))
      have hlt := rank_step (does_next hnext)
      exact absurd (Nat.lt_of_lt_of_le hlt h) (Nat.not_lt_zero _)
  | succ fuel ih =>
      rw [goOn]
      split
      · rename_i s hnext
        have hlt := rank_step (does_next hnext)
        exact ih (Nat.le_of_lt_succ (Nat.lt_of_lt_of_le hlt h))
      · rename_i hnext
        exact next?_eq_none.mp hnext

/-- **The bound of `proceed` is enough.** -/
theorem atRest_proceed {r : Run} (h : r.dog.owed = 0) : AtRest r.proceed := by
  have hle := rank_le r
  exact atRest_goOn (by omega)

end IdleWatch.Run
