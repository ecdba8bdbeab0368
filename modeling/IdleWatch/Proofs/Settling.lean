import IdleWatch.Proofs.Waking

/-!
# What a task left alone comes to

Left alone, the task goes on until it rests, and on the way it may use up a permit, find that its
timer is outdated, and fire. In which order it does so is not determined, but what comes of it is:
it fires once if the deadline is reached, and otherwise nothing changes that its callers can see.

There are two halves to this. No step of the task changes the `outlook`, what the shared words and
the history are going to be; so at rest they are what they were going to be from the start. And
each step lowers the `rank`, which is never above eight, so the task does come to rest.
-/

namespace IdleWatch.Watchdog.System

/-- What the shared words and the history are going to be when the task rests. -/
def outlook (s : System) : Shared × List Event :=
  if s.isRipe then
    ({ s.shared with deadline := none, fired := s.shared.fired + 1 }, .fired s.now :: s.history)
  else (s.shared, s.history)

theorem outlook_of_ripe {s : System} (h : s.isRipe = true) :
    s.outlook = ({ s.shared with deadline := none, fired := s.shared.fired + 1 },
      .fired s.now :: s.history) := by
  rw [outlook, if_pos h]

theorem outlook_of_not_ripe {s : System} (h : s.isRipe = false) :
    s.outlook = (s.shared, s.history) := by
  rw [outlook, h]
  rfl

/-- How many steps the task can take at most before it rests: two for a permit, three for a
deadline that is reached, and three for a timer that has run out but no longer counts. -/
def rank (s : System) : Nat :=
  let again := if s.permit then 2 else 0
  let due := if s.isRipe then 3 else 0
  match s.task with
  | .stopped => 0
  | .starting => 1 + again + due
  | .waiting seen => (if s.isDue && !s.shared.isCurrent seen.generation then 3 else 0) + again + due
  | .expiring g => 2 + again + (if s.shared.isCurrent g then 0 else due)

theorem rank_le (s : System) : s.rank ≤ 8 := by
  have hagain : (if s.permit then 2 else 0) ≤ 2 := by split <;> omega
  have hdue : (if s.isRipe then 3 else 0) ≤ 3 := by split <;> omega
  unfold rank
  dsimp only
  split
  · omega
  · omega
  · split <;> omega
  · rename_i g _
    by_cases hcur : s.shared.isCurrent g = true
    · rw [if_pos hcur]
      omega
    · rw [if_neg hcur]
      omega

/-- A step that only the task can take. -/
def IsOwn (a : Action) : Prop := a = .snapshot ∨ a = .wake ∨ a = .elapse ∨ a = .expire

theorem isOwn_of_next? {s : System} {timerFirst : System → Bool} {a : Action}
    (h : s.next? timerFirst = some a) : IsOwn a := by
  unfold next? at h
  split at h
  · injection h with h
    exact Or.inl h.symm
  · injection h with h
    exact Or.inr (Or.inr (Or.inr h.symm))
  · exact absurd h (by simp)
  · split at h
    · injection h with h
      split at h
      · exact Or.inr (Or.inr (Or.inl h.symm))
      · exact Or.inr (Or.inl h.symm)
    · injection h with h
      exact Or.inr (Or.inl h.symm)
    · injection h with h
      exact Or.inr (Or.inr (Or.inl h.symm))
    · exact absurd h (by simp)

theorem isRipe_of_expiring {s : System} (h : Tied s)
    (ht : s.task = .expiring s.shared.generation) : s.isRipe = true := by
  rw [isRipe_iff]
  exact (h.expiring _ ht).2 rfl

/-- **No step of the task changes what is going to be**, nor the clock, nor what is owed. -/
theorem outlook_step {s t : System} {a : Action} (h : Tied s) (ha : IsOwn a) (hs : Does s a t) :
    t.outlook = s.outlook ∧ t.now = s.now ∧ t.owed = s.owed := by
  cases hs with
  | snapshot | stop | wake | elapse | stale => exact ⟨rfl, rfl, rfl⟩
  | fire ht hc =>
      refine ⟨?_, rfl, rfl⟩
      rw [outlook_of_ripe (isRipe_of_expiring h ht)]
      exact outlook_of_not_ripe rfl
  | _ => exact absurd ha (by simp [IsOwn])

/-- **Each step of the task brings it nearer to rest.** -/
theorem rank_step {s t : System} {a : Action} (h : Tied s) (ha : IsOwn a) (hs : Does s a t) :
    t.rank < s.rank := by
  cases hs with
  | snapshot ht hc =>
      have hcur : s.shared.isCurrent s.shared.generation = true := by simp [Shared.isCurrent, hc]
      simp only [rank, ht, hcur, Bool.not_true, Bool.and_false, Bool.false_eq_true, if_false]
      have hripe : isRipe { s with task := .waiting ⟨s.shared.generation, s.shared.deadline⟩ }
          = s.isRipe := rfl
      rw [hripe]
      omega
  | stop ht hc =>
      simp only [rank, ht]
      omega
  | wake ht hp =>
      have hripe : isRipe { s with permit := false, task := .starting } = s.isRipe := rfl
      simp only [rank, ht, hp, if_true, hripe, Bool.false_eq_true, if_false]
      omega
  | @elapse g deadline ht hd =>
      have hripe : isRipe { s with task := .expiring g } = s.isRipe := rfl
      have hdue : s.isDue = true := by rw [isDue, ht]; simpa using hd
      simp only [rank, ht, hripe, hdue, Bool.true_and]
      by_cases hcur : s.shared.isCurrent g = true
      · -- the timer counts, so it is the deadline that is reached
        have hg : s.shared.cancelled = false ∧ s.shared.generation = g := by
          simpa [Shared.isCurrent] using hcur
        have hseen := (h.waiting _ ht).2 hg.2.symm
        have : s.isRipe = true := isRipe_iff.mpr ⟨deadline, hseen.symm, hd⟩
        simp only [hcur, this, if_true, Bool.not_true, Bool.false_eq_true, if_false]
        omega
      · simp only [hcur, Bool.not_false, if_true, Bool.false_eq_true, if_false]
        omega
  | fire ht hc =>
      have hcur : s.shared.isCurrent s.shared.generation = true := by simp [Shared.isCurrent, hc]
      have hripe : isRipe { s with
          task := .starting
          shared := { s.shared with deadline := none, fired := s.shared.fired + 1 }
          history := .fired s.now :: s.history } = false := rfl
      simp only [rank, ht, hcur, hripe, if_true, Bool.false_eq_true, if_false]
      omega
  | @stale g ht hcur =>
      have hripe : isRipe { s with task := .starting } = s.isRipe := rfl
      simp only [rank, ht, hcur, hripe, Bool.false_eq_true, if_false]
      omega
  | _ => exact absurd ha (by simp [IsOwn])

/-! ## Coming to rest -/

/-- **What is left of a system whose task was left alone.** -/
structure Settled (s t : System) : Prop where
  reachable : t.Reachable
  rest : AtRest t
  now : t.now = s.now
  owed : t.owed = s.owed
  /-- What was going to be has come to be. -/
  outlook : (t.shared, t.history) = s.outlook

theorem settled_self {s : System} (timerFirst : System → Bool) (hs : s.Reachable)
    (ho : s.owed = 0) (hnext : s.next? timerFirst = none) : Settled s s := by
  have hrest := next?_eq_none.mp hnext
  have hripe := isRipe_of_atRest (alert_reachable hs) ho hrest
  exact ⟨hs, hrest, rfl, rfl, (outlook_of_not_ripe hripe).symm⟩

/-- A step of the task is possible, leaves what is going to be, and brings the task nearer to
rest. -/
theorem act_of_next? {s : System} {timerFirst : System → Bool} {a : Action} (hs : s.Reachable)
    (hnext : s.next? timerFirst = some a) :
    (s.act a).Reachable ∧ (s.act a).rank < s.rank
      ∧ (s.act a).outlook = s.outlook ∧ (s.act a).now = s.now ∧ (s.act a).owed = s.owed := by
  obtain ⟨t, hstep⟩ := step_of_next? hnext
  have hact : s.act a = t := by rw [act, hstep]; rfl
  have hown := isOwn_of_next? hnext
  have hd := does_of_step hstep
  rw [hact]
  exact ⟨Reachable.step hs hstep, rank_step (tied_reachable hs) hown hd,
    outlook_step (tied_reachable hs) hown hd⟩

/-- By induction on the fuel: it is never used up before the task rests. -/
theorem settled_runTask {timerFirst : System → Bool} {fuel : Nat} {s : System} (hs : s.Reachable)
    (ho : s.owed = 0) (hfuel : s.rank ≤ fuel) : Settled s (s.runTask timerFirst fuel) := by
  induction fuel generalizing s with
  | zero =>
      refine settled_self timerFirst hs ho ?_
      cases hnext : s.next? timerFirst with
      | none => rfl
      | some a =>
          obtain ⟨_, hlt, _⟩ := act_of_next? hs hnext
          omega
  | succ fuel ih =>
      rw [runTask]
      split
      · rename_i a hnext
        obtain ⟨hreach, hlt, hout, hnow, howed⟩ := act_of_next? hs hnext
        have hmore := ih hreach (howed.trans ho) (by omega)
        exact ⟨hmore.reachable, hmore.rest, hmore.now.trans hnow, hmore.owed.trans howed,
          hmore.outlook.trans hout⟩
      · rename_i hnext
        exact settled_self timerFirst hs ho hnext

/-- **Eight steps are enough.** -/
theorem settled_settle (timerFirst : System → Bool) {s : System} (hs : s.Reachable)
    (ho : s.owed = 0) : Settled s (s.settle timerFirst) :=
  settled_runTask hs ho (rank_le s)

end IdleWatch.Watchdog.System
