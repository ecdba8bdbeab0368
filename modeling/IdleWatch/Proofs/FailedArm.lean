import IdleWatch.Proofs.SingleDeadline

/-!
# A failed arm is not seen

An arm whose deadline the clock cannot represent fails halfway. By then the generation has grown, so
the timer on which the task sleeps does not count any more; but the deadline is the old one, and the
task is not told. When its timer runs out it fires nothing, looks again, finds a deadline that is
reached, and fires at the second attempt, at the same moment. The lock is poisoned, so that everyone
who takes it from then on gets the words behind it as an error, and takes them out of that.

Two runs of which only one has such an arm differ in their generations from then on, and need not
take the same steps. There is no need to compare them: each shows the same as a timer with one
deadline, and to that a failed arm does nothing.
-/

namespace IdleWatch.Watchdog

theorem Time.after?_eq_none {now timeout : Time} (h : Time.limit ≤ now + timeout) :
    Time.after? now timeout = none :=
  if_neg (Nat.not_lt.mpr h)

/-! ## Acts that leave a deadline alone -/

/-- From this moment on, these acts only let time pass, and arms among them fail. -/
def Spares : Time → List Act → Prop
  | _, [] => True
  | now, .arm timeout :: rest => Time.limit ≤ now + timeout ∧ Spares now rest
  | now, .sleep d :: rest => Spares (now + d) rest
  | now, .yield :: rest => Spares now rest
  | _, .cancel :: _ | _, .drop :: _ => False

/-- From this moment on, one of these acts meets the deadline: a sleep that ends after it, or a
yield when it is reached. -/
def Meets (deadline : Time) : Time → List Act → Prop
  | _, [] => False
  | now, .sleep d :: rest => deadline < now + d ∨ Meets deadline (now + d) rest
  | now, .yield :: rest => deadline ≤ now ∨ Meets deadline now rest
  | now, _ :: rest => Meets deadline now rest

namespace Timer

theorem play_append (t : Timer) (front rest : List Act) :
    t.play (front ++ rest) = t.play front ++ (front.foldl perform t).play rest := by
  induction front generalizing t with
  | nil => rfl
  | cons act front ih => rw [List.cons_append, play, play, ih, List.foldl_cons, List.cons_append]

theorem length_play (t : Timer) (acts : List Act) : (t.play acts).length = acts.length := by
  induction acts generalizing t with
  | nil => rfl
  | cons act rest ih => rw [play, List.length_cons, List.length_cons, ih]

/-- Without a deadline nothing fires. -/
theorem foldl_perform_of_none {t : Timer} {rest : List Act} (h : Spares t.now rest)
    (hd : t.deadline = none) :
    (rest.foldl perform t).fires = t.fires ∧ (rest.foldl perform t).deadline = none := by
  induction rest generalizing t with
  | nil => exact ⟨rfl, hd⟩
  | cons act rest ih =>
      cases act with
      | arm timeout =>
          rw [List.foldl_cons, perform_arm_of_none (Time.after?_eq_none h.1)]
          exact ih h.2 hd
      | sleep d =>
          rw [List.foldl_cons, perform, fireBefore_of_none hd]
          exact ih (t := { t with now := t.now + d }) h hd
      | yield =>
          rw [List.foldl_cons, perform, fireBefore_of_none hd]
          exact ih h hd
      | cancel | drop => exact h.elim

/-- **A deadline that is left alone fires once if it is met**, at its own time, and else not. -/
theorem foldl_perform_of_some {t : Timer} {d : Time} {rest : List Act} (h : Spares t.now rest)
    (hd : t.deadline = some d) :
    (Meets d t.now rest → (rest.foldl perform t).fires = d :: t.fires
        ∧ (rest.foldl perform t).deadline = none)
      ∧ (¬ Meets d t.now rest → (rest.foldl perform t).fires = t.fires
        ∧ (rest.foldl perform t).deadline = some d) := by
  induction rest generalizing t with
  | nil => exact ⟨False.elim, fun _ => ⟨rfl, hd⟩⟩
  | cons act rest ih =>
      cases act with
      | arm timeout =>
          rw [List.foldl_cons, perform_arm_of_none (Time.after?_eq_none h.1)]
          exact ih h.2 hd
      | sleep n =>
          rw [List.foldl_cons, perform, Meets]
          by_cases hlt : d < t.now + n
          · rw [fireBefore_of_lt hd hlt]
            exact ⟨fun _ => foldl_perform_of_none
              (t := { t with now := t.now + n, deadline := none, fires := d :: t.fires }) h rfl,
              fun hnot => absurd (Or.inl hlt) hnot⟩
          · rw [fireBefore_of_le hd (Nat.not_lt.mp hlt), or_iff_right hlt]
            exact ih (t := { t with now := t.now + n }) h hd
      | yield =>
          rw [List.foldl_cons, perform, Meets]
          by_cases hle : d ≤ t.now
          · rw [fireBefore_of_lt hd (Nat.lt_succ_of_le hle)]
            exact ⟨fun _ => foldl_perform_of_none
              (t := { t with deadline := none, fires := d :: t.fires }) h rfl,
              fun hnot => absurd (Or.inl hle) hnot⟩
          · rw [fireBefore_of_le hd (Nat.lt_of_not_le hle), or_iff_right hle]
            exact ih h hd
      | cancel | drop => exact h.elim

end Timer

/-! ## What a failed arm does -/

/-- After a call that failed while it held the lock: the generation has grown and the lock is
poisoned. Nothing else has changed, and the task is not told. -/
def System.jolted (s : System) : System :=
  { s with
    shared := { s.shared with generation := s.shared.generation + 1 }
    poisoned := true
    history := .overflowed :: s.history }

theorem System.call_arm_of_overflow {s : System} {timeout : Time}
    (hc : s.shared.cancelled = false) (ho : s.owed = 0) (h : Time.limit ≤ s.now + timeout) :
    s.call (.arm timeout) = s.jolted :=
  call_of_paid (step_of_does (Does.overflow hc (Time.after?_eq_none h))) ho

/-! ## What every step keeps

A script is made of steps, so what no step takes away is still there after the script.
-/

section Keeping

variable {motive : System → Prop} (hkeep : ∀ {s t a}, System.Does s a t → motive s → motive t)
include hkeep

theorem System.keeps_act {s : System} (h : motive s) (a : Action) : motive (s.act a) := by
  unfold act
  cases hstep : s.step a with
  | none => exact h
  | some t => exact hkeep (does_of_step hstep) h

theorem System.keeps_runTask {s : System} (h : motive s) (timerFirst : System → Bool)
    (fuel : Nat) : motive (s.runTask timerFirst fuel) := by
  induction fuel generalizing s with
  | zero => exact h
  | succ fuel ih =>
      rw [runTask]
      split
      · exact ih (keeps_act hkeep h _)
      · exact h

theorem System.keeps_call {s : System} (h : motive s) (a : Action) : motive (s.call a) := by
  have hacted := keeps_act hkeep h a
  unfold call
  dsimp only
  split
  · exact hacted
  · exact keeps_act hkeep hacted .notify

theorem System.keeps_sleep {s : System} (h : motive s) (timerFirst : System → Bool) (d : Time) :
    motive (s.sleep timerFirst d) := by
  have hsettled : motive (s.settle timerFirst) := keeps_runTask hkeep h timerFirst 8
  unfold sleep
  split
  · exact h
  · refine keeps_act hkeep ?_ _
    -- the task runs again if its timer runs out before the caller wakes
    split
    · split
      · exact keeps_runTask hkeep (keeps_act hkeep hsettled _) timerFirst 8
      · exact hsettled
    · exact hsettled

theorem Session.keeps_perform {s : Session} (h : motive s.system) (timerFirst : System → Bool)
    (act : Act) : motive (s.perform timerFirst act).1.system := by
  cases act with
  | arm timeout =>
      rw [perform]
      split
      · exact h
      · exact System.keeps_call hkeep h _
  | cancel =>
      rw [perform]
      split
      · exact h
      · exact System.keeps_call hkeep h _
  | drop =>
      rw [perform]
      split
      · exact h
      · exact System.keeps_act hkeep (System.keeps_call hkeep h _) _
  | sleep d => exact System.keeps_sleep hkeep h timerFirst d
  | yield => exact System.keeps_runTask hkeep h timerFirst 8

/-- **What no step takes away lasts as long as the script.** -/
theorem Session.keeps_after {timerFirst : System → Bool} {front : List Act}
    (h : motive (after timerFirst front).system) (rest : List Act) :
    motive (after timerFirst (front ++ rest)).system := by
  rw [after, List.foldl_append]
  exact List.foldlRecOn (motive := fun s : Session => motive s.system) rest _ h
    (fun s hs act _ => keeps_perform hkeep hs timerFirst act)

end Keeping

namespace Session

variable {timerFirst : System → Bool} {front : List Act} {timeout : Time}

/-- What a failed arm leaves behind. -/
theorem after_failed_arm (h : Time.limit ≤ (after timerFirst front).system.now + timeout) :
    after timerFirst (front ++ [.arm timeout])
      = if (after timerFirst front).system.shared.cancelled then after timerFirst front
        else { after timerFirst front with system := (after timerFirst front).system.jolted } := by
  have hall := matches_after timerFirst front
  rw [after_concat, perform]
  by_cases hd : (after timerFirst front).dropped = true
  · rw [if_pos hd, hall.gone hd]
    rfl
  · rw [if_neg hd]
    cases hc : (after timerFirst front).system.shared.cancelled with
    | true =>
        have hlate : (after timerFirst front).system.step (.arm timeout) = some _ :=
          System.step_of_does (System.Does.armLate hc)
        rw [System.call_of_paid hlate hall.shows.paid]
        rfl
    | false =>
        rw [System.call_arm_of_overflow hc hall.shows.paid h]
        rfl

/-- Whoever takes the lock after that, however late, is told of the failure. -/
theorem tryLock_after_failed_arm
    (h : Time.limit ≤ (after timerFirst front).system.now + timeout)
    (hc : (after timerFirst front).system.shared.cancelled = false) (rest : List Act) :
    (after timerFirst (front ++ .arm timeout :: rest)).system.tryLock
      = .error (after timerFirst (front ++ .arm timeout :: rest)).system.shared := by
  have hjolted : (after timerFirst (front ++ [.arm timeout])).system.poisoned = true := by
    rw [after_failed_arm h, hc]
    rfl
  have hlater := keeps_after (motive := fun s => s.poisoned = true) System.poisoned_mono hjolted
    rest
  rw [List.append_assoc, List.singleton_append] at hlater
  exact if_pos hlater

/-- To a timer it is as if it had not been. -/
theorem timer_after_failed_arm
    (h : Time.limit ≤ (after timerFirst front).system.now + timeout) (rest : List Act) :
    Timer.after (front ++ .arm timeout :: rest) = Timer.after (front ++ rest) := by
  have hnone := Time.after?_eq_none h
  rw [← (matches_after timerFirst front).shows.now] at hnone
  rw [Timer.after, Timer.after, List.foldl_append, List.foldl_append, List.foldl_cons]
  change rest.foldl Timer.perform ((Timer.after front).perform (.arm timeout))
    = rest.foldl Timer.perform (Timer.after front)
  rw [Timer.perform_arm_of_none hnone]

theorem timer_play_failed_arm
    (h : Time.limit ≤ (after timerFirst front).system.now + timeout) (rest : List Act) :
    Timer.play {} (front ++ .arm timeout :: rest)
      = Timer.play {} front
        ++ (after timerFirst front).sight (!(after timerFirst front).system.shared.cancelled)
        :: (Timer.after front).play rest := by
  have hall := matches_after timerFirst front
  have hnone := Time.after?_eq_none h
  rw [← hall.shows.now] at hnone
  have hrefuses : (Timer.after front).refuses (.arm timeout)
      = !(after timerFirst front).system.shared.cancelled := by
    rw [Timer.refuses, hnone, hall.shows.cancelled, Option.isNone_none, Bool.and_true]
  rw [Timer.play_append, Timer.play]
  change Timer.play {} front ++ ((Timer.after front).perform (.arm timeout)).sight
      ((Timer.after front).refuses (.arm timeout))
      :: ((Timer.after front).perform (.arm timeout)).play rest = _
  rw [Timer.perform_arm_of_none hnone, hrefuses, hall.sight]

/--
**A failed arm is not seen**, but by the one who made it.

Put anywhere into a script, an arm whose deadline the clock cannot represent fails, or does nothing
if a cancel or a drop came before. All other sights are those of the script without it: the clock,
the moments of all fires, the counter, and which other acts fail; and the watchdog has fired in the
one if it has in the other. That holds however the task chooses in either of them. Yet the failed
arm has left its mark, for the generation has grown while the lock was held, the task has not been
told, and the lock is poisoned: whatever the script does later, whoever takes it gets the words
behind it as an error. A deadline that was pending then and is left alone is met by the first sleep
that ends after it, or the first yield when it is reached; it fires then, once and at its own time.
-/
theorem failed_arm_unseen (h : Time.limit ≤ (after timerFirst front).system.now + timeout)
    (timerFirst' : System → Bool) (rest : List Act) :
    ((play timerFirst {} (front ++ .arm timeout :: rest)).eraseIdx front.length
          = play timerFirst' {} (front ++ rest)
        ∧ (play timerFirst {} (front ++ .arm timeout :: rest))[front.length]?
          = some ((after timerFirst front).sight
            (!(after timerFirst front).system.shared.cancelled))
        ∧ (after timerFirst (front ++ .arm timeout :: rest)).system.shared.hasFired
          = (after timerFirst' (front ++ rest)).system.shared.hasFired)
      ∧ ((after timerFirst front).system.shared.cancelled = true →
        after timerFirst (front ++ [.arm timeout]) = after timerFirst front)
      ∧ ((after timerFirst front).system.shared.cancelled = false →
        after timerFirst (front ++ [.arm timeout])
            = { after timerFirst front with system := (after timerFirst front).system.jolted }
          ∧ (after timerFirst (front ++ .arm timeout :: rest)).system.tryLock
            = .error (after timerFirst (front ++ .arm timeout :: rest)).system.shared)
      ∧ ∀ d, (after timerFirst front).system.shared.deadline = some d →
        Spares (after timerFirst front).system.now rest →
        (Meets d (after timerFirst front).system.now rest →
          (after timerFirst (front ++ .arm timeout :: rest)).system.fires
              = (after timerFirst front).system.fires ++ [d]
            ∧ (after timerFirst (front ++ .arm timeout :: rest)).system.shared.deadline = none)
        ∧ (¬ Meets d (after timerFirst front).system.now rest →
          (after timerFirst (front ++ .arm timeout :: rest)).system.fires
              = (after timerFirst front).system.fires
            ∧ (after timerFirst (front ++ .arm timeout :: rest)).system.shared.deadline
              = some d) := by
  have hfront := matches_after timerFirst front
  have hwith := matches_after timerFirst (front ++ .arm timeout :: rest)
  have hwithout := matches_after timerFirst' (front ++ rest)
  have hplay := (matches_start.play timerFirst _).trans (timer_play_failed_arm h rest)
  have htimer := timer_after_failed_arm h rest
  have hlength := Timer.length_play {} front
  refine ⟨⟨?_, ?_, ?_⟩, ?_, ?_, ?_⟩
  · rw [hplay, matches_start.play, Timer.play_append, ← hlength,
      List.eraseIdx_append_of_length_le (Nat.le_refl _), Nat.sub_self]
    rfl
  · rw [hplay, ← hlength, List.getElem?_append_right (Nat.le_refl _), Nat.sub_self]
    rfl
  · rw [Shared.hasFired, Shared.hasFired, hwith.shows.fired_eq, hwithout.shows.fired_eq, htimer]
  · intro hc
    rw [after_failed_arm h, if_pos hc]
  · intro hc
    refine ⟨?_, tryLock_after_failed_arm h hc rest⟩
    rw [after_failed_arm h, hc]
    rfl
  · intro d hd hspares
    rw [← hfront.shows.now] at hspares ⊢
    have hrest : Timer.after (front ++ rest) = rest.foldl Timer.perform (Timer.after front) :=
      List.foldl_append
    obtain ⟨hmet, hunmet⟩ :=
      Timer.foldl_perform_of_some hspares (hfront.shows.deadline.trans hd)
    rw [hwith.shows.fires_eq, hfront.shows.fires_eq, ← hwith.shows.deadline, htimer, hrest]
    refine ⟨fun hm => ?_, fun hm => ?_⟩
    · obtain ⟨hfires, hdeadline⟩ := hmet hm
      rw [hfires, List.reverse_cons]
      exact ⟨rfl, hdeadline⟩
    · obtain ⟨hfires, hdeadline⟩ := hunmet hm
      rw [hfires]
      exact ⟨rfl, hdeadline⟩

/-- A deadline is pending when an arm fails, and then another one. It fires in its time, as it does
in the script without the first of them, and the watchdog fires again after an arm that succeeds. -/
theorem failed_arm_unseen_pending :
    (after (fun _ => true) [.arm 5, .sleep 3, .arm Time.limit, .yield, .arm Time.limit,
        .sleep 4]).system.fires = [5]
      ∧ (play (fun _ => true) {} [.arm 5, .sleep 3, .arm Time.limit, .arm Time.limit, .sleep 4,
          .arm 1, .sleep 2]).eraseIdx 2
        = play (fun _ => false) {} [.arm 5, .sleep 3, .arm Time.limit, .sleep 4, .arm 1, .sleep 2]
      ∧ (after (fun _ => true) [.arm 5, .sleep 3, .arm Time.limit, .yield, .arm Time.limit,
        .sleep 4]).system.tryLock = .error { generation := 3, fired := 1 } := by
  have h : Time.limit ≤ (after (fun _ => true) [.arm 5, .sleep 3]).system.now + Time.limit := by
    decide
  obtain ⟨_, _, hleft, hpending⟩ := failed_arm_unseen h (fun _ => false)
    [.yield, .arm Time.limit, .sleep 4]
  obtain ⟨⟨hplay, _⟩, _⟩ := failed_arm_unseen h (fun _ => false)
    [.arm Time.limit, .sleep 4, .arm 1, .sleep 2]
  have hspares : Spares 3 [.yield, .arm Time.limit, .sleep 4] := ⟨by decide, trivial⟩
  have hmeets : Meets 5 3 [.yield, .arm Time.limit, .sleep 4] :=
    Or.inr (Or.inl (by decide : 5 < 3 + 4))
  exact ⟨((hpending 5 rfl hspares).1 hmeets).1, hplay, (hleft rfl).2⟩

end Session

end IdleWatch.Watchdog
