import IdleWatch.Watchdog.System

/-!
# What a step of a watchdog can do

`step` is a function, so that it runs; for proofs it is better to have it as a relation, with one
case for each thing that can happen and everything that is then known. `does_of_step` is where
`step` is opened. What follows about watchdogs goes by cases on `Does`.
-/

namespace IdleWatch

/-- A moment that the clock can represent is what the sum says. -/
theorem Time.after?_eq_some {now timeout deadline : Time}
    (h : Time.after? now timeout = some deadline) : deadline = now + timeout := by
  unfold after? at h
  split at h
  · exact (Option.some.inj h).symm
  · exact absurd h (by simp)

theorem Time.le_of_after? {now timeout deadline : Time}
    (h : Time.after? now timeout = some deadline) : now ≤ deadline :=
  after?_eq_some h ▸ Nat.le_add_right now timeout

end IdleWatch

namespace IdleWatch.Watchdog

/-- Arming fails for a deadline beyond the clock, unless it comes too late to matter. -/
theorem Shared.arm_eq_overflowed {s : Shared} {now timeout : Time} :
    (s.arm now timeout).2 = .overflowed ↔
      s.cancelled = false ∧ Time.limit ≤ now + timeout := by
  unfold arm Time.after?
  cases s.cancelled with
  | true => simp
  | false =>
      by_cases hlt : now + timeout < Time.limit
      · simp [hlt]
      · simp [hlt, Nat.le_of_not_lt hlt]

end IdleWatch.Watchdog

namespace IdleWatch.Watchdog.System

/-- **A poisoned lock gives what any lock gives.** -/
@[simp] theorem lock_eq (s : System) : s.lock = s.shared := by
  unfold lock tryLock
  cases s.poisoned with
  | true => rfl
  | false => rfl

/-- **Everything that a step can do**, with what it needs. -/
inductive Does (s : System) : Action → System → Prop where
  | armLate {timeout : Time} : s.shared.cancelled = true → Does s (.arm timeout) s
  | overflow {timeout : Time} : s.shared.cancelled = false → Time.after? s.now timeout = none →
      Does s (.arm timeout) { s with
        shared := { s.shared with generation := s.shared.generation + 1 }
        poisoned := true
        history := .overflowed :: s.history }
  | arm {timeout deadline : Time} : s.shared.cancelled = false →
      Time.after? s.now timeout = some deadline →
      Does s (.arm timeout) { s with
        shared := { s.shared with
          generation := s.shared.generation + 1, deadline := some deadline }
        owed := s.owed + 1
        history := .armed deadline :: s.history }
  | cancelLate : s.shared.cancelled = true → Does s .cancel s
  | cancel : s.shared.cancelled = false →
      Does s .cancel { s with
        shared := { s.shared with
          cancelled := true, generation := s.shared.generation + 1, deadline := none }
        owed := s.owed + 1
        history := .cancelled :: s.history }
  | notify : 0 < s.owed → Does s .notify { s with owed := s.owed - 1, permit := true }
  | abort : s.shared.cancelled = true → (∀ g, s.task ≠ .expiring g) →
      Does s .abort { s with task := .stopped }
  | abortLate {g : Nat} : s.shared.cancelled = true → s.task = .expiring g → Does s .abort s
  | tick {d : Time} : Does s (.tick d) { s with now := s.now + d }
  | snapshot : s.task = .starting → s.shared.cancelled = false →
      Does s .snapshot { s with task := .waiting ⟨s.shared.generation, s.shared.deadline⟩ }
  | stop : s.task = .starting → s.shared.cancelled = true →
      Does s .snapshot { s with task := .stopped }
  | wake {seen : Snapshot} : s.task = .waiting seen → s.permit = true →
      Does s .wake { s with permit := false, task := .starting }
  | elapse {g : Nat} {deadline : Time} : s.task = .waiting ⟨g, some deadline⟩ →
      deadline ≤ s.now → Does s .elapse { s with task := .expiring g }
  | fire : s.task = .expiring s.shared.generation → s.shared.cancelled = false →
      Does s .expire { s with
        task := .starting
        shared := { s.shared with deadline := none, fired := s.shared.fired + 1 }
        history := .fired s.now :: s.history }
  | stale {g : Nat} : s.task = .expiring g → s.shared.isCurrent g = false →
      Does s .expire { s with task := .starting }

theorem does_arm {s t : System} {timeout : Time} (h : s.step (.arm timeout) = some t) :
    Does s (.arm timeout) t := by
  cases hc : s.shared.cancelled with
  | true =>
      have harm : s.shared.arm s.now timeout = (s.shared, .ignored) := by
        simp [Shared.arm, hc]
      rw [step, lock_eq, harm] at h
      injection h with h
      subst h
      exact Does.armLate hc
  | false =>
      cases hd : Time.after? s.now timeout with
      | none =>
          have harm : s.shared.arm s.now timeout
              = ({ s.shared with generation := s.shared.generation + 1 }, .overflowed) := by
            simp [Shared.arm, hc, hd]
          rw [step, lock_eq, harm] at h
          injection h with h
          subst h
          exact Does.overflow hc hd
      | some deadline =>
          have harm : s.shared.arm s.now timeout
              = ({ s.shared with
                    generation := s.shared.generation + 1, deadline := some deadline },
                  .armed deadline) := by
            simp [Shared.arm, hc, hd]
          rw [step, lock_eq, harm] at h
          injection h with h
          subst h
          exact Does.arm hc hd

theorem does_abort {s t : System} (h : s.step .abort = some t) : Does s .abort t := by
  rw [step] at h
  split at h
  · rename_i hc
    split at h
    · rename_i g hg
      injection h with h
      subst h
      exact Does.abortLate hc hg
    · rename_i hg
      injection h with h
      subst h
      exact Does.abort hc (fun g e => hg g e)
  · exact absurd h (by simp)

theorem does_expire {s t : System} (h : s.step .expire = some t) : Does s .expire t := by
  rw [step] at h
  split at h
  · rename_i g hg
    simp only [lock_eq] at h
    split at h
    · rename_i hcur
      have hc : s.shared.cancelled = false ∧ s.shared.generation = g := by
        simpa [Shared.isCurrent] using hcur
      rw [Shared.expire, if_pos hcur] at h
      injection h with h
      subst h
      exact Does.fire (hc.2 ▸ hg) hc.1
    · rename_i hcur
      injection h with h
      subst h
      exact Does.stale hg (by simpa using hcur)
  · exact absurd h (by simp)

theorem does_of_step {s t : System} {a : Action} (h : s.step a = some t) : Does s a t := by
  cases a with
  | arm timeout => exact does_arm h
  | cancel =>
      rw [step, lock_eq] at h
      split at h
      · rename_i hc
        injection h with h
        subst h
        exact Does.cancelLate hc
      · rename_i hc
        rw [Shared.cancel, if_neg hc] at h
        injection h with h
        subst h
        exact Does.cancel (by simpa using hc)
  | notify =>
      rw [step] at h
      split at h
      · exact absurd h (by simp)
      · injection h with h
        subst h
        exact Does.notify (by omega)
  | abort => exact does_abort h
  | tick d =>
      rw [step] at h
      injection h with h
      subst h
      exact Does.tick
  | snapshot =>
      rw [step, lock_eq] at h
      split at h
      · rename_i ht
        cases hc : s.shared.cancelled with
        | true =>
            simp only [Shared.snapshot, hc, if_true, Option.some.injEq] at h
            subst h
            exact Does.stop ht hc
        | false =>
            simp only [Shared.snapshot, hc, Bool.false_eq_true, if_false, Option.some.injEq] at h
            subst h
            exact Does.snapshot ht hc
      · exact absurd h (by simp)
  | wake =>
      rw [step] at h
      split at h
      · rename_i seen ht
        split at h
        · rename_i hp
          injection h with h
          subst h
          exact Does.wake ht hp
        · exact absurd h (by simp)
      · exact absurd h (by simp)
  | elapse =>
      rw [step] at h
      split at h
      · rename_i g deadline ht
        split at h
        · rename_i hd
          injection h with h
          subst h
          exact Does.elapse ht hd
        · exact absurd h (by simp)
      · exact absurd h (by simp)
  | expire => exact does_expire h

/-! ## The relation says no more than that -/

theorem step_of_does {s t : System} {a : Action} (h : Does s a t) : s.step a = some t := by
  cases h with
  | armLate hc => simp only [step, lock_eq, Shared.arm, hc, if_true]
  | overflow hc hd | arm hc hd =>
      simp only [step, lock_eq, Shared.arm, hc, hd, Bool.false_eq_true, if_false]
  | cancelLate hc => simp only [step, lock_eq, hc, if_true]
  | cancel hc => simp only [step, lock_eq, Shared.cancel, hc, Bool.false_eq_true, if_false]
  | notify ho => simp only [step, if_neg (show ¬ s.owed = 0 by omega)]
  | abort hc ht =>
      rw [step, if_pos hc]
      split
      · rename_i g hg
        exact absurd hg (ht g)
      · rfl
  | abortLate hc ht => simp only [step, hc, if_true, ht]
  | tick => rfl
  | snapshot ht hc =>
      simp only [step, ht, lock_eq, Shared.snapshot, hc, Bool.false_eq_true, if_false]
  | stop ht hc => simp only [step, ht, lock_eq, Shared.snapshot, hc, if_true]
  | wake ht hp => simp only [step, ht, hp, if_true]
  | elapse ht hd => simp only [step, ht, if_pos hd]
  | fire ht hc =>
      have hcur : s.shared.isCurrent s.shared.generation = true := by simp [Shared.isCurrent, hc]
      simp only [step, ht, lock_eq, Shared.expire, hcur, if_true]
  | stale ht hcur => simp only [step, ht, lock_eq, hcur, Bool.false_eq_true, if_false]

/-- Arming is always possible, as far as it goes. -/
theorem exists_step_arm (s : System) (timeout : Time) : ∃ t, s.step (.arm timeout) = some t := by
  cases hc : s.shared.cancelled with
  | true => exact ⟨_, step_of_does (Does.armLate hc)⟩
  | false =>
      cases hd : Time.after? s.now timeout with
      | none => exact ⟨_, step_of_does (Does.overflow hc hd)⟩
      | some deadline => exact ⟨_, step_of_does (Does.arm hc hd)⟩

/-- And so is cancelling. -/
theorem exists_step_cancel (s : System) : ∃ t, s.step .cancel = some t := by
  cases hc : s.shared.cancelled with
  | true => exact ⟨_, step_of_does (Does.cancelLate hc)⟩
  | false => exact ⟨_, step_of_does (Does.cancel hc)⟩

/-- After a cancel the watchdog can be let go of. -/
theorem exists_step_abort {s : System} (hc : s.shared.cancelled = true) :
    ∃ t, s.step .abort = some t := by
  by_cases ht : ∃ g, s.task = .expiring g
  · obtain ⟨g, ht⟩ := ht
    exact ⟨_, step_of_does (Does.abortLate hc ht)⟩
  · exact ⟨_, step_of_does (Does.abort hc (fun g e => ht ⟨g, e⟩))⟩

/-- No step makes anybody owe more than one notification. -/
theorem owed_le {s t : System} {a : Action} (h : Does s a t) : t.owed ≤ s.owed + 1 := by
  cases h with
  | arm | cancel => exact Nat.le_refl _
  | notify => exact Nat.le_succ_of_le (Nat.sub_le _ _)
  | _ => exact Nat.le_succ _

/-! ## What cannot happen any more -/

/-- A cancel is for good. -/
theorem cancelled_mono {s t : System} {a : Action} (h : Does s a t)
    (hc : s.shared.cancelled = true) : t.shared.cancelled = true := by
  cases h <;> first | exact hc | rfl

theorem cancelled_of_cancel {s t : System} (h : Does s .cancel t) :
    t.shared.cancelled = true := by
  cases h with
  | cancelLate hc => exact hc
  | cancel => rfl

/-- And nothing else cancels. -/
theorem cancelled_of_ne_cancel {s t : System} {a : Action} (h : Does s a t) (ha : a ≠ .cancel) :
    t.shared.cancelled = s.shared.cancelled := by
  cases h with
  | cancelLate | cancel => exact absurd rfl ha
  | _ => rfl

/-- Poison is for good, too. -/
theorem poisoned_mono {s t : System} {a : Action} (h : Does s a t) (hp : s.poisoned = true) :
    t.poisoned = true := by
  cases h with
  | overflow => rfl
  | _ => exact hp

/-- Time does not go back. -/
theorem now_le {s t : System} {a : Action} (h : Does s a t) : s.now ≤ t.now := by
  cases h with
  | tick => exact Nat.le_add_right _ _
  | _ => exact Nat.le_refl _

/-- Only an expiry counts a callback. -/
theorem fired_of_ne_expire {s t : System} {a : Action} (h : Does s a t) (ha : a ≠ .expire) :
    t.shared.fired = s.shared.fired := by
  cases h with
  | fire => exact absurd rfl ha
  | _ => rfl

theorem fired_le {s t : System} {a : Action} (h : Does s a t) :
    s.shared.fired ≤ t.shared.fired := by
  cases h with
  | fire => exact Nat.le_succ _
  | _ => exact Nat.le_refl _

/-- One step runs one callback at most. -/
theorem fired_eq_succ {s t : System} {a : Action} (h : Does s a t)
    (hf : t.shared.fired ≠ s.shared.fired) : t.shared.fired = s.shared.fired + 1 := by
  cases h with
  | fire => rfl
  | _ => exact absurd rfl hf

/-- **No callback runs after a cancel.** -/
theorem fired_of_cancelled {s t : System} {a : Action} (h : Does s a t)
    (hc : s.shared.cancelled = true) : t.shared.fired = s.shared.fired := by
  cases h with
  | fire _ hc' => exact absurd (hc.symm.trans hc') (by simp)
  | _ => rfl

/-! ## Whole runs -/

/-- Do action after action, if each can be done when its turn comes. -/
def perform (s : System) : List Action → Option System
  | [] => some s
  | a :: more =>
    match s.step a with
    | some t => t.perform more
    | none => none

theorem reachable_perform {s t : System} (hs : s.Reachable) (actions : List Action)
    (h : s.perform actions = some t) : t.Reachable := by
  induction actions generalizing s with
  | nil => exact Option.some.inj h ▸ hs
  | cons a more ih =>
      rw [perform] at h
      split at h
      · rename_i s' hstep
        exact ih (Reachable.step hs hstep) h
      · exact absurd h (by simp)

end IdleWatch.Watchdog.System
