import IdleWatch.Proofs.WatchStep

/-!
# A callback follows its arm

The task acts on a snapshot that may be out of date in many ways, and when it takes the lock to
fire it compares generations only, never the clock. What makes this safe is that a generation is
never used twice: as long as the task's generation is the current one, nobody has armed or
cancelled since its snapshot, so the deadline it slept on is still the one that is set, and the
timer that ran out was the timer of that deadline.

`Tied` is that statement, and it is kept by every step of either party. With it the history can be
read off: before each callback, and before anything else but failed arms, stands the arm whose
deadline the callback has reached.
-/

namespace IdleWatch.Watchdog.System

/-- Before this point the latest event, but for failed arms, is the arm that set this deadline. -/
def LastArm (before : List Event) (deadline : Time) : Prop :=
  ∃ skipped rest, before = skipped ++ .armed deadline :: rest ∧ ∀ e ∈ skipped, e = .overflowed

theorem LastArm.overflow {before : List Event} {deadline : Time} (h : LastArm before deadline) :
    LastArm (.overflowed :: before) deadline := by
  obtain ⟨skipped, rest, rfl, hskipped⟩ := h
  refine ⟨.overflowed :: skipped, rest, rfl, ?_⟩
  intro e he
  rcases List.mem_cons.mp he with he | he
  · exact he
  · exact hskipped e he

theorem lastArm_armed (deadline : Time) (before : List Event) :
    LastArm (.armed deadline :: before) deadline :=
  ⟨[], before, rfl, by simp⟩

/-! ## The task is tied to the shared words by its generation -/

/-- What the task has seen is still so, as long as its generation is the current one. -/
structure Tied (s : System) : Prop where
  /-- A deadline that is set was set by the latest arm. -/
  set : ∀ deadline, s.shared.deadline = some deadline → LastArm s.history deadline
  /-- A cancel has taken the lock or has not. -/
  cancelled : s.shared.cancelled = true ↔ .cancelled ∈ s.history
  /-- Asleep, the task has the current deadline or an old generation. -/
  waiting : ∀ seen, s.task = .waiting seen → seen.generation ≤ s.shared.generation
    ∧ (seen.generation = s.shared.generation → seen.deadline = s.shared.deadline)
  /-- About to fire, the task has reached the current deadline or has an old generation. -/
  expiring : ∀ g, s.task = .expiring g → g ≤ s.shared.generation
    ∧ (g = s.shared.generation → ∃ deadline, s.shared.deadline = some deadline ∧ deadline ≤ s.now)
  /-- The counter counts the callbacks. -/
  counted : s.shared.fired = s.fires.length

/-- An event adds to the callbacks if it is one. -/
theorem length_fires {s t : System} {e : Event} (h : t.history = e :: s.history) :
    t.fires.length = s.fires.length + e.fireTime?.toList.length := by
  rw [fires, h, List.reverse_cons, List.filterMap_append, List.length_append, fires]
  cases e <;> rfl

theorem tied_start : Tied {} where
  set := by intro deadline h; exact absurd h (by simp)
  cancelled := by simp
  waiting := by intro seen h; exact absurd h (by simp)
  expiring := by intro g h; exact absurd h (by simp)
  counted := rfl

/-- A new generation makes the snapshot of a sleeping task an old one. -/
theorem Tied.renew_waiting {s : System} (h : Tied s) {shared : Shared}
    (hgen : s.shared.generation < shared.generation) :
    ∀ seen, s.task = .waiting seen → seen.generation ≤ shared.generation
      ∧ (seen.generation = shared.generation → seen.deadline = shared.deadline) := by
  intro seen ht
  have := (h.waiting seen ht).1
  exact ⟨by omega, fun e => by omega⟩

/-- And that of a task about to fire. -/
theorem Tied.renew_expiring {s : System} (h : Tied s) {shared : Shared}
    (hgen : s.shared.generation < shared.generation) :
    ∀ g, s.task = .expiring g → g ≤ shared.generation
      ∧ (g = shared.generation →
        ∃ deadline, shared.deadline = some deadline ∧ deadline ≤ s.now) := by
  intro g ht
  have := (h.expiring g ht).1
  exact ⟨by omega, fun e => by omega⟩

/-- **Tied is kept by every step.** -/
theorem tied_step {s t : System} {a : Action} (h : Tied s) (hs : Does s a t) : Tied t := by
  cases hs with
  | armLate | cancelLate | abortLate => exact h
  | overflow hc hd =>
      constructor
      · intro deadline hdl
        exact (h.set deadline hdl).overflow
      · simpa using h.cancelled
      · exact h.renew_waiting (Nat.lt_succ_self _)
      · exact h.renew_expiring (Nat.lt_succ_self _)
      · rw [length_fires (s := s) rfl]
        exact h.counted
  | @arm timeout deadline hc hd =>
      constructor
      · intro deadline' hdl
        exact Option.some.inj hdl ▸ lastArm_armed deadline s.history
      · simpa using h.cancelled
      · exact h.renew_waiting (Nat.lt_succ_self _)
      · exact h.renew_expiring (Nat.lt_succ_self _)
      · rw [length_fires (s := s) rfl]
        exact h.counted
  | cancel hc =>
      constructor
      · intro deadline hdl
        exact absurd hdl (by simp)
      · simp
      · exact h.renew_waiting (Nat.lt_succ_self _)
      · exact h.renew_expiring (Nat.lt_succ_self _)
      · rw [length_fires (s := s) rfl]
        exact h.counted
  | notify => exact ⟨h.set, h.cancelled, h.waiting, h.expiring, h.counted⟩
  | tick =>
      refine ⟨h.set, h.cancelled, h.waiting, ?_, h.counted⟩
      intro g ht
      obtain ⟨hg, hdue⟩ := h.expiring g ht
      refine ⟨hg, fun e => ?_⟩
      obtain ⟨deadline, hdl, hle⟩ := hdue e
      exact ⟨deadline, hdl, Nat.le_add_right_of_le hle⟩
  | abort | stop | wake | stale =>
      refine ⟨h.set, h.cancelled, ?_, ?_, h.counted⟩
      · intro seen ht; exact absurd ht (by simp)
      · intro g ht; exact absurd ht (by simp)
  | snapshot ht hc =>
      refine ⟨h.set, h.cancelled, ?_, ?_, h.counted⟩
      · intro seen ht
        injection ht with ht
        subst ht
        exact ⟨Nat.le_refl _, fun _ => rfl⟩
      · intro g ht; exact absurd ht (by simp)
  | @elapse g deadline ht hd =>
      refine ⟨h.set, h.cancelled, ?_, ?_, h.counted⟩
      · intro seen ht; exact absurd ht (by simp)
      · intro g' ht'
        injection ht' with ht'
        subst ht'
        -- the timer that ran out is that of the deadline still set
        obtain ⟨hg, hseen⟩ := h.waiting _ ht
        exact ⟨hg, fun e => ⟨deadline, (hseen e).symm, hd⟩⟩
  | fire ht hc =>
      refine ⟨?_, ?_, ?_, ?_, ?_⟩
      · intro deadline hdl; exact absurd hdl (by simp)
      · simpa using h.cancelled
      · intro seen ht; exact absurd ht (by simp)
      · intro g ht; exact absurd ht (by simp)
      · rw [length_fires (s := s) rfl]
        exact congrArg (· + 1) h.counted

theorem tied_reachable {s : System} (h : s.Reachable) : Tied s := by
  induction h with
  | start => exact tied_start
  | step _ hs ih => exact tied_step ih (does_of_step hs)

/-! ## Every callback in the history -/

/-- Each callback has reached the deadline of the latest arm, and no cancel came before it. -/
def Lawful (history : List Event) : Prop :=
  ∀ after time before, history = after ++ .fired time :: before →
    (∃ deadline, LastArm before deadline ∧ deadline ≤ time) ∧ .cancelled ∉ before

/-- Another event keeps this, if it is no callback or a lawful one. -/
theorem Lawful.cons {history : List Event} (h : Lawful history) {e : Event}
    (he : ∀ time, e = .fired time →
      (∃ deadline, LastArm history deadline ∧ deadline ≤ time) ∧ .cancelled ∉ history) :
    Lawful (e :: history) := by
  intro after time before heq
  cases after with
  | nil =>
      injection heq with h1 h2
      exact h2 ▸ he time h1
  | cons x after =>
      injection heq with _ h2
      exact h after time before h2

theorem lawful_step {s t : System} {a : Action} (ht : Tied s) (h : Lawful s.history)
    (hs : Does s a t) : Lawful t.history := by
  cases hs with
  | overflow | arm | cancel => exact h.cons (fun _ e => Event.noConfusion e)
  | fire htask hc =>
      refine h.cons ?_
      intro time e
      injection e with e
      obtain ⟨deadline, hdl, hle⟩ := (ht.expiring _ htask).2 rfl
      refine ⟨⟨deadline, ht.set deadline hdl, e ▸ hle⟩, ?_⟩
      rw [← ht.cancelled, hc]
      exact Bool.false_ne_true
  | _ => exact h

theorem lawful_reachable {s : System} (h : s.Reachable) : Lawful s.history := by
  induction h with
  | start =>
      intro after time before heq
      exact absurd heq (by simp)
  | step hr hs ih => exact lawful_step (tied_reachable hr) ih (does_of_step hs)

/--
**A callback follows its arm.**

Whatever callers and task have done, in whatever order: a callback ran at or after the deadline
that the latest successful arm before it had set, with no successful arm, no cancel and no other
callback since that arm, and with no cancel at any time before. And the counter of the watchdog is
the number of callbacks that ran.
-/
theorem fired_follows_arm {s : System} (h : s.Reachable) :
    (∀ after time before, s.history = after ++ .fired time :: before →
      .cancelled ∉ before
        ∧ ∃ deadline skipped rest, before = skipped ++ .armed deadline :: rest
          ∧ (∀ e ∈ skipped, e = .overflowed) ∧ deadline ≤ time)
      ∧ s.shared.fired = s.fires.length := by
  refine ⟨?_, (tied_reachable h).counted⟩
  intro after time before heq
  obtain ⟨⟨deadline, ⟨skipped, rest, hbefore, hskipped⟩, hle⟩, hcancelled⟩ :=
    lawful_reachable h after time before heq
  exact ⟨hcancelled, deadline, skipped, rest, hbefore, hskipped, hle⟩

/-- The task wakes for a deadline that was moved on in the meantime, and fires at the later one;
then a cancel comes. -/
theorem fired_follows_arm_of_moved : ∃ s : System, s.Reachable
    ∧ s.history = [.cancelled, .fired 15, .overflowed, .armed 15, .armed 5]
    ∧ (∀ after time before, s.history = after ++ .fired time :: before →
      .cancelled ∉ before
        ∧ ∃ deadline skipped rest, before = skipped ++ .armed deadline :: rest
          ∧ (∀ e ∈ skipped, e = .overflowed) ∧ deadline ≤ time)
    ∧ s.shared.fired = s.fires.length := by
  have h : Reachable _ := reachable_perform Reachable.start
    [.arm 5, .notify, .snapshot, .tick 5, .elapse, .arm 10, .notify, .expire, .arm Time.limit,
      .snapshot, .wake, .snapshot, .tick 10, .elapse, .expire, .cancel] rfl
  exact ⟨_, h, rfl, fired_follows_arm h⟩

end IdleWatch.Watchdog.System
