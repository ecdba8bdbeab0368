import IdleWatch.Proofs.Firing
import IdleWatch.Watchdog.Schedule

/-!
# The task never sleeps on an old deadline

A caller that has changed the deadline lets go of the lock before it notifies the task, and the
notification may be used up before the task looks again. All the same the task never sleeps on a
deadline that is not the one set, with no notification stored and none still to come: whoever
changes the deadline owes a notification from that moment on, and whoever uses one up looks next.

`Alert` says this, and what else is needed to know where a task stands that has nothing to do. When
it waits for nothing but its timer, the moment up to which it sleeps is the deadline.
-/

namespace IdleWatch.Watchdog

/-- The caller behind this event owes a notification from then on. -/
def Event.owes : Event → Bool
  | .armed _ | .cancelled => true
  | .overflowed | .fired _ => false

namespace System

/-- **What a task that sleeps knows**, and why there is none to sleep. -/
structure Alert (s : System) : Prop where
  /-- Asleep with no notification to come, the task has seen the deadline that is set. -/
  seen : ∀ seen, s.task = .waiting seen → s.permit = false → s.owed = 0 →
    s.shared.cancelled = false ∧ seen.deadline = s.shared.deadline
  /-- A cancel takes the deadline away, and it stays away. -/
  disarmed : s.shared.cancelled = true → s.shared.deadline = none
  /-- The task stops only after a cancel. -/
  stopped : s.task = .stopped → s.shared.cancelled = true

theorem alert_start : Alert {} where
  seen := by intro seen h; exact absurd h (by simp)
  disarmed := by intro h; exact absurd h (by simp)
  stopped := by intro h; exact absurd h (by simp)

/-- **Alert is kept by every step.** -/
theorem alert_step {s t : System} {a : Action} (h : Alert s) (hs : Does s a t) : Alert t := by
  cases hs with
  | armLate | cancelLate | abortLate => exact h
  | overflow hc | tick => exact ⟨h.seen, h.disarmed, h.stopped⟩
  | arm hc hd =>
      refine ⟨?_, ?_, h.stopped⟩
      · -- the notification of this arm is owed
        intro seen ht hp ho
        exact absurd ho (by simp)
      · intro hc'
        exact absurd (hc.symm.trans hc') (by simp)
  | cancel hc =>
      refine ⟨?_, fun _ => rfl, fun _ => rfl⟩
      intro seen ht hp ho
      exact absurd ho (by simp)
  | notify ho =>
      refine ⟨?_, h.disarmed, h.stopped⟩
      intro seen ht hp
      exact absurd hp (by simp)
  | abort hc | stop ht hc =>
      refine ⟨?_, h.disarmed, fun _ => hc⟩
      intro seen ht
      exact absurd ht (by simp)
  | snapshot ht hc =>
      refine ⟨?_, h.disarmed, fun hs => absurd hs (by simp)⟩
      intro seen ht' hp ho
      injection ht' with ht'
      subst ht'
      exact ⟨hc, rfl⟩
  | wake | elapse | stale =>
      refine ⟨?_, h.disarmed, fun hs => absurd hs (by simp)⟩
      intro seen ht
      exact absurd ht (by simp)
  | fire ht hc =>
      refine ⟨?_, fun _ => rfl, fun hs => absurd hs (by simp)⟩
      intro seen ht
      exact absurd ht (by simp)

theorem alert_reachable {s : System} (h : s.Reachable) : Alert s := by
  induction h with
  | start => exact alert_start
  | step _ hs ih => exact alert_step ih (does_of_step hs)

/-! ## A task with nothing to do -/

/-- The task has nothing to do: it has stopped, or it waits for a timer or a notification. -/
def AtRest (s : System) : Prop :=
  s.task = .stopped ∨ ∃ seen, s.task = .waiting seen ∧ s.permit = false ∧ s.isDue = false

/-- What a task does first, when it may go by its timer or by a permit, does not matter here. -/
theorem next?_eq_none {s : System} {timerFirst : System → Bool} :
    s.next? timerFirst = none ↔ AtRest s := by
  unfold next? AtRest
  split
  · rename_i ht
    simp [ht]
  · rename_i ht
    simp [ht]
  · rename_i ht
    simp [ht]
  · rename_i seen ht
    split
    · rename_i hp hd
      simp [ht, hp]
    · rename_i hp hd
      simp [ht, hp]
    · rename_i hp hd
      simp [ht, hp, hd]
    · rename_i hp hd
      simp [ht, hp, hd]

/-- Whatever the task does next can be done. -/
theorem step_of_next? {s : System} {timerFirst : System → Bool} {a : Action}
    (h : s.next? timerFirst = some a) : ∃ t, s.step a = some t := by
  unfold next? at h
  split at h
  · rename_i ht
    injection h with h
    subst h
    simp only [step, ht, lock_eq]
    cases s.shared.snapshot with
    | none => exact ⟨_, rfl⟩
    | some seen => exact ⟨_, rfl⟩
  · rename_i g ht
    injection h with h
    subst h
    simp only [step, ht]
    split <;> exact ⟨_, rfl⟩
  · exact absurd h (by simp)
  · rename_i seen ht
    have hwake : s.permit = true → ∃ t, s.step .wake = some t := by
      intro hp
      simp only [step, ht, hp, if_true]
      exact ⟨_, rfl⟩
    have helapse : s.isDue = true → ∃ t, s.step .elapse = some t := by
      intro hd
      obtain ⟨g, deadline⟩ := seen
      cases deadline with
      | none => simp [isDue, ht] at hd
      | some deadline =>
          have hle : deadline ≤ s.now := by simpa [isDue, ht] using hd
          simp only [step, ht, if_pos hle]
          exact ⟨_, rfl⟩
    split at h
    · rename_i hp hd
      injection h with h
      split at h
      · exact h ▸ helapse hd
      · exact h ▸ hwake hp
    · rename_i hp hd
      injection h with h
      exact h ▸ hwake hp
    · rename_i hp hd
      injection h with h
      exact h ▸ helapse hd
    · exact absurd h (by simp)

/-- **At rest the task sleeps up to the deadline**, if there is one. -/
theorem alarm?_eq {s : System} (h : Alert s) (ho : s.owed = 0) (hrest : AtRest s) :
    s.alarm? = s.shared.deadline := by
  rcases hrest with ht | ⟨seen, ht, hp, _⟩
  · rw [alarm?, ht, h.disarmed (h.stopped ht)]
  · rw [alarm?, ht]
    exact (h.seen seen ht hp ho).2

/-- The deadline is reached. -/
def isRipe (s : System) : Bool :=
  match s.shared.deadline with
  | some deadline => deadline ≤ s.now
  | none => false

theorem isRipe_iff {s : System} :
    s.isRipe = true ↔ ∃ deadline, s.shared.deadline = some deadline ∧ deadline ≤ s.now := by
  unfold isRipe
  cases s.shared.deadline <;> simp

/-- At rest no deadline is reached: a task whose timer has run out has something to do. -/
theorem isRipe_of_atRest {s : System} (h : Alert s) (ho : s.owed = 0) (hrest : AtRest s) :
    s.isRipe = false := by
  rcases hrest with ht | ⟨seen, ht, hp, hd⟩
  · rw [isRipe, h.disarmed (h.stopped ht)]
  · have hseen := (h.seen seen ht hp ho).2
    obtain ⟨g, deadline⟩ := seen
    dsimp only at hseen
    subst hseen
    rw [isDue, ht] at hd
    cases hdl : s.shared.deadline with
    | none => rw [isRipe, hdl]
    | some deadline =>
        rw [hdl] at hd
        rw [isRipe, hdl]
        exact hd

/-! ## No notification is lost -/

/-- **What is owed is what was not sent.** A caller that changes what is shared owes one
notification for it, and nobody else does. -/
theorem owed_step {s t : System} {a : Action} (h : Does s a t) :
    t.owed + (if a = .notify then 1 else 0) + s.history.countP Event.owes
      = s.owed + t.history.countP Event.owes := by
  cases h with
  | arm | cancel =>
      simp only [List.countP_cons, Event.owes, reduceCtorEq, if_true, if_false]
      omega
  | overflow | fire => simp [Event.owes]
  | notify ho =>
      simp only [if_true]
      omega
  | _ => simp

theorem owed_perform {s t : System} {actions : List Action} (h : s.perform actions = some t) :
    t.owed + actions.count .notify + s.history.countP Event.owes
      = s.owed + t.history.countP Event.owes := by
  induction actions generalizing s with
  | nil =>
      obtain rfl := Option.some.inj h
      simp
  | cons a more ih =>
      rw [perform] at h
      split at h
      · rename_i s' hstep
        have hone := owed_step (does_of_step hstep)
        have hmore := ih h
        rw [List.count_cons]
        simp only [beq_iff_eq]
        omega
      · exact absurd h (by simp)

/-- A permit is stored until the task wakes by it. -/
theorem permit_of_ne_wake {s t : System} {a : Action} (h : Does s a t) (ha : a ≠ .wake)
    (hp : s.permit = true) : t.permit = true := by
  cases h with
  | wake => exact absurd rfl ha
  | notify => rfl
  | _ => exact hp

/-- The callers can send what they owe, whatever the task does, and a permit comes of it. -/
theorem perform_notify {s : System} {n : Nat} (h : n ≤ s.owed) (more : List Action) :
    s.perform (List.replicate n .notify ++ more)
      = { s with owed := s.owed - n, permit := s.permit || decide (0 < n) }.perform more := by
  induction n generalizing s with
  | zero => simp
  | succ n ih =>
      rw [List.replicate_succ, List.cons_append, perform,
        step_of_does (Does.notify (by omega))]
      dsimp only
      rw [ih (by dsimp only; omega)]
      simp [Nat.sub_sub, Nat.add_comm]

/-- A task that has a permit looks again, and sleeps on what it finds or stops. -/
theorem perform_wake {s : System} {seen : Snapshot} (ht : s.task = .waiting seen)
    (hp : s.permit = true) :
    s.perform [.wake, .snapshot]
      = some { s with
          permit := false
          task := s.shared.snapshot.elim .stopped .waiting } := by
  rw [perform, step_of_does (Does.wake ht hp)]
  dsimp only
  simp only [perform, step, lock_eq]
  cases s.shared.snapshot with
  | none => rfl
  | some now => rfl

/--
**No wake-up is lost.**

Whatever callers and task have done, in whatever order: a task that sleeps has seen the deadline
that is set, and no cancel has come; or a permit is stored; or an arm or a cancel has not sent its
notification yet. So a sleep on an old deadline comes to an end: once the callers have sent what
they owe, the task wakes by a permit and looks again. And a permit stays until the task wakes by
it, whatever else happens.
-/
theorem no_wakeup_lost {actions : List Action} {s : System} {seen : Snapshot}
    (h : ({} : System).perform actions = some s) (ht : s.task = .waiting seen) :
    (s.shared.cancelled = false ∧ seen.deadline = s.shared.deadline
        ∨ s.permit = true
        ∨ actions.count .notify < s.history.countP Event.owes)
      ∧ (s.shared.cancelled = true ∨ seen.deadline ≠ s.shared.deadline →
          s.perform (List.replicate s.owed .notify ++ [.wake, .snapshot])
            = some { s with
                owed := 0
                permit := false
                task := s.shared.snapshot.elim .stopped .waiting })
      ∧ ∀ a t, a ≠ .wake → s.step a = some t → s.permit = true → t.permit = true := by
  have halert := alert_reachable (reachable_perform Reachable.start actions h)
  have howed : s.owed + actions.count .notify = s.history.countP Event.owes := by
    simpa using owed_perform h
  -- the only sleep with nothing to come is one on the deadline that is set
  have hpending : s.permit = true ∨ 0 < s.owed ∨
      s.shared.cancelled = false ∧ seen.deadline = s.shared.deadline := by
    cases hp : s.permit with
    | true => exact Or.inl rfl
    | false =>
        rcases Nat.eq_zero_or_pos s.owed with ho | ho
        · exact Or.inr (Or.inr (halert.seen seen ht hp ho))
        · exact Or.inr (Or.inl ho)
  refine ⟨?_, ?_, fun a t ha hstep hp => permit_of_ne_wake (does_of_step hstep) ha hp⟩
  · rcases hpending with hp | ho | hseen
    · exact Or.inr (Or.inl hp)
    · exact Or.inr (Or.inr (by omega))
    · exact Or.inl hseen
  · intro hold
    rw [perform_notify (Nat.le_refl _), perform_wake]
    · simp
    · exact ht
    · dsimp only
      rcases hpending with hp | ho | ⟨hc, hd⟩
      · rw [hp, Bool.true_or]
      · rw [decide_eq_true ho, Bool.or_true]
      · rcases hold with hc' | hne
        · exact absurd (hc.symm.trans hc') (by simp)
        · exact absurd hd hne

/-- The notification of the second arm comes when the task has seen its deadline already, and is
used up. Then come a third arm, which has not notified yet, and one that fails. -/
theorem no_wakeup_lost_twoArms : ∃ s : System,
    ({} : System).perform [.arm 5, .snapshot, .notify, .arm 10, .wake, .snapshot, .notify, .wake,
        .snapshot, .arm 20, .arm Time.limit] = some s
      ∧ s.task = .waiting ⟨2, some 10⟩ ∧ s.shared.deadline = some 20 ∧ s.permit = false
      ∧ s.perform (List.replicate s.owed .notify ++ [.wake, .snapshot])
          = some { s with owed := 0, permit := false, task := .waiting ⟨4, some 20⟩ } := by
  have h : ({} : System).perform [.arm 5, .snapshot, .notify, .arm 10, .wake, .snapshot, .notify,
      .wake, .snapshot, .arm 20, .arm Time.limit] = some _ := rfl
  exact ⟨_, h, rfl, rfl, rfl, (no_wakeup_lost h rfl).2.1 (Or.inr (by decide))⟩

end System

end IdleWatch.Watchdog
