import IdleWatch.Proofs.Settling
import IdleWatch.Watchdog.Timer

/-!
# A watchdog is a timer with one deadline

Behind a watchdog stand a task that acts on snapshots, a counter of generations, a stored
notification, and a choice that nobody controls. Its owner sees none of it: on a virtual clock every
script runs as on a `Timer`, which has one optional deadline and nothing else.

`Shows` is the simulation. Besides saying that deadline, clock and fires are the same, it says that
no deadline lies in the past. That is why a fire comes at the deadline itself: the task looks at the
clock when it takes the lock, but the clock has not moved on since.
-/

namespace IdleWatch.Watchdog

/-! ## The timer -/

namespace Timer

theorem perform_arm_of_cancelled {t : Timer} (h : t.cancelled = true) (timeout : Time) :
    t.perform (.arm timeout) = t := by
  rw [perform, if_pos h]

theorem perform_arm_of_none {t : Timer} {timeout : Time} (h : Time.after? t.now timeout = none) :
    t.perform (.arm timeout) = t := by
  rw [perform, h]
  exact ite_self t

theorem perform_arm_of_some {t : Timer} {timeout d : Time} (hc : t.cancelled = false)
    (h : Time.after? t.now timeout = some d) :
    t.perform (.arm timeout) = { t with deadline := some d } := by
  rw [perform, h, hc]
  rfl

theorem perform_arm_dropped (t : Timer) (timeout : Time) :
    (t.perform (.arm timeout)).dropped = t.dropped := by
  dsimp only [perform]
  split
  · rfl
  · split <;> rfl

theorem fireBefore_of_none {t : Timer} (h : t.deadline = none) (time : Time) :
    t.fireBefore time = t := by
  rw [fireBefore, h]

theorem fireBefore_of_lt {t : Timer} {d time : Time} (h : t.deadline = some d) (hd : d < time) :
    t.fireBefore time = { t with deadline := none, fires := d :: t.fires } := by
  rw [fireBefore, h]
  dsimp only
  rw [if_pos hd]

theorem fireBefore_of_le {t : Timer} {d time : Time} (h : t.deadline = some d) (hd : time ≤ d) :
    t.fireBefore time = t := by
  rw [fireBefore, h]
  dsimp only
  rw [if_neg (Nat.not_lt.mpr hd)]

theorem fireBefore_fireBefore (t : Timer) {first last : Time} (h : first ≤ last) :
    (t.fireBefore first).fireBefore last = t.fireBefore last := by
  cases hd : t.deadline with
  | none => rw [fireBefore_of_none hd, fireBefore_of_none hd]
  | some d =>
      by_cases hlt : d < first
      · rw [fireBefore_of_lt hd hlt, fireBefore_of_lt hd (Nat.lt_of_lt_of_le hlt h),
          fireBefore_of_none rfl]
      · rw [fireBefore_of_le hd (Nat.not_lt.mp hlt)]

/-- A timer that may fire moves neither its clock nor its owner's marks. -/
theorem fireBefore_keeps (t : Timer) (time : Time) :
    (t.fireBefore time).now = t.now ∧ (t.fireBefore time).cancelled = t.cancelled
      ∧ (t.fireBefore time).dropped = t.dropped := by
  unfold fireBefore
  split
  · split <;> exact ⟨rfl, rfl, rfl⟩
  · exact ⟨rfl, rfl, rfl⟩

end Timer

/-! ## The simulation -/

namespace System

/-- **What a system shows its owner is a timer.** -/
structure Shows (s : System) (t : Timer) : Prop where
  reachable : s.Reachable
  /-- Between two acts nobody owes a notification. -/
  paid : s.owed = 0
  now : t.now = s.now
  cancelled : t.cancelled = s.shared.cancelled
  deadline : t.deadline = s.shared.deadline
  /-- No deadline lies in the past. -/
  ahead : ∀ d, s.shared.deadline = some d → s.now ≤ d
  fires : t.fires = s.history.filterMap Event.fireTime?

theorem shows_start : Shows {} {} where
  reachable := Reachable.start
  paid := rfl
  now := rfl
  cancelled := rfl
  deadline := rfl
  ahead := by intro d h; exact absurd h (by simp)
  fires := rfl

theorem Shows.fires_eq {s : System} {t : Timer} (h : Shows s t) : s.fires = t.fires.reverse := by
  rw [h.fires, System.fires, List.filterMap_reverse]

theorem Shows.fired_eq {s : System} {t : Timer} (h : Shows s t) :
    s.shared.fired = t.fires.length := by
  rw [(tied_reachable h.reachable).counted, h.fires_eq, List.length_reverse]

theorem call_of_paid {s s' : System} {a : Action} (h : s.step a = some s') (ho : s'.owed = 0) :
    s.call a = s' := by
  have hact : s.act a = s' := by rw [act, h]; rfl
  rw [call, hact]
  exact if_pos ho

theorem call_of_owing {s s' : System} {a : Action} (h : s.step a = some s') (ho : s'.owed = 1) :
    s.call a = { s' with owed := 0, permit := true }
      ∧ s'.step .notify = some { s' with owed := 0, permit := true } := by
  have hnotify : s'.step .notify = some { s' with owed := 0, permit := true } := by
    simp [step, ho]
  have hact : s.act a = s' := by rw [act, h]; rfl
  refine ⟨?_, hnotify⟩
  rw [call, hact, act, hnotify]
  simp [ho]

theorem shows_arm {s : System} {t : Timer} (h : Shows s t) (timeout : Time) :
    Shows (s.call (.arm timeout)) (t.perform (.arm timeout)) := by
  cases hc : s.shared.cancelled with
  | true =>
      have hstep : s.step (.arm timeout) = some s := step_of_does (Does.armLate hc)
      rw [call_of_paid hstep h.paid, Timer.perform_arm_of_cancelled (h.cancelled.trans hc)]
      exact h
  | false =>
      cases hd : Time.after? s.now timeout with
      | none =>
          -- the arm fails, and the timer is as it was
          have hstep : s.step (.arm timeout) = some _ := step_of_does (Does.overflow hc hd)
          rw [call_of_paid hstep h.paid, Timer.perform_arm_of_none (h.now ▸ hd)]
          exact ⟨Reachable.step h.reachable hstep, h.paid, h.now, h.cancelled, h.deadline, h.ahead,
            h.fires⟩
      | some deadline =>
          have hstep := step_of_does (Does.arm hc hd)
          obtain ⟨hcall, hnotify⟩ := call_of_owing hstep (congrArg (· + 1) h.paid)
          rw [hcall, Timer.perform_arm_of_some (h.cancelled.trans hc) (h.now ▸ hd)]
          refine ⟨Reachable.step (Reachable.step h.reachable hstep) hnotify, rfl, h.now,
            h.cancelled, rfl, ?_, h.fires⟩
          intro d he
          injection he with he
          exact he ▸ Time.le_of_after? hd

theorem shows_cancel {s : System} {t : Timer} (h : Shows s t) :
    Shows (s.call .cancel) (t.perform .cancel) := by
  cases hc : s.shared.cancelled with
  | true =>
      -- the first cancel has cleared the deadline, so a second one changes nothing
      have hnone : t.deadline = none := by
        rw [h.deadline]
        exact (alert_reachable h.reachable).disarmed hc
      have hsame : t.perform .cancel = t := by
        rw [Timer.perform, ← hnone, ← h.cancelled.trans hc]
      rw [call_of_paid (step_of_does (Does.cancelLate hc)) h.paid, hsame]
      exact h
  | false =>
      have hstep := step_of_does (Does.cancel hc)
      obtain ⟨hcall, hnotify⟩ := call_of_owing hstep (congrArg (· + 1) h.paid)
      rw [hcall]
      refine ⟨Reachable.step (Reachable.step h.reachable hstep) hnotify, rfl, h.now, rfl, rfl, ?_,
        h.fires⟩
      intro d he
      exact absurd he (by simp)

/-- The task is left alone: it fires if the deadline is reached. -/
theorem shows_settle {s : System} {t : Timer} (h : Shows s t) (timerFirst : System → Bool) :
    Shows (s.settle timerFirst) (t.fireBefore (t.now + 1)) ∧ AtRest (s.settle timerFirst) := by
  have hall := settled_settle timerFirst h.reachable h.paid
  refine ⟨?_, hall.rest⟩
  have hpaid := hall.owed.trans h.paid
  have hnow : (t.fireBefore (t.now + 1)).now = (s.settle timerFirst).now := by
    rw [(t.fireBefore_keeps _).1, h.now, hall.now]
  cases hripe : s.isRipe with
  | true =>
      obtain ⟨d, hd, hle⟩ := isRipe_iff.mp hripe
      -- no deadline lies in the past, so this one is reached just now
      have hdnow : d = s.now := Nat.le_antisymm hle (h.ahead d hd)
      have hout := hall.outlook
      rw [outlook_of_ripe hripe, Prod.mk.injEq] at hout
      obtain ⟨hshared, hhistory⟩ := hout
      have hfire := Timer.fireBefore_of_lt (h.deadline.trans hd)
        (Nat.lt_succ_of_le (h.now ▸ hle : d ≤ t.now))
      refine ⟨hall.reachable, hpaid, hnow, ?_, ?_, ?_, ?_⟩
      · rw [hfire, hshared]; exact h.cancelled
      · rw [hfire, hshared]
      · rw [hshared]; intro d' he; exact absurd he (by simp)
      · rw [hfire, hhistory]
        dsimp only
        rw [hdnow, h.fires]
        rfl
  | false =>
      have hout := hall.outlook
      rw [outlook_of_not_ripe hripe, Prod.mk.injEq] at hout
      obtain ⟨hshared, hhistory⟩ := hout
      have hsame : t.fireBefore (t.now + 1) = t := by
        cases hd : t.deadline with
        | none => exact Timer.fireBefore_of_none hd _
        | some d =>
            refine Timer.fireBefore_of_le hd ?_
            have hnot : ¬ d ≤ s.now := by
              intro hle
              have := isRipe_iff.mpr ⟨d, h.deadline.symm.trans hd, hle⟩
              rw [hripe] at this
              exact Bool.false_ne_true this
            rw [h.now]
            exact Nat.lt_of_not_le hnot
      rw [hsame] at hnow ⊢
      refine ⟨hall.reachable, hpaid, hnow, ?_, ?_, ?_, ?_⟩
      · rw [hshared]; exact h.cancelled
      · rw [hshared]; exact h.deadline
      · rw [hshared, hall.now]; exact h.ahead
      · rw [hhistory]; exact h.fires

theorem shows_advanceTo {s : System} {t : Timer} (h : Shows s t) {time : Time}
    (hnow : s.now ≤ time) (hahead : ∀ d, s.shared.deadline = some d → time ≤ d) :
    Shows (s.advanceTo time) { t with now := time } := by
  have hadd : s.now + (time - s.now) = time := Nat.add_sub_cancel' hnow
  have hstep := step_of_does (Does.tick (s := s) (d := time - s.now))
  rw [hadd] at hstep
  have hact : s.advanceTo time = { s with now := time } := by
    rw [advanceTo, act, hstep]
    rfl
  rw [hact]
  exact ⟨Reachable.step h.reachable hstep, h.paid, rfl, h.cancelled, h.deadline, hahead, h.fires⟩

/-- A rest up to a later moment: the deadline fires if it comes before it. -/
theorem shows_rest {s : System} {t : Timer} (h : Shows s t) (hrest : AtRest s)
    (timerFirst : System → Bool) {target : Time} (htarget : s.now ≤ target) :
    Shows
      ((match s.alarm? with
        | some time =>
          if time < target then (s.advanceTo time).settle timerFirst else s
        | none => s).advanceTo target)
      { t.fireBefore target with now := target } := by
  rw [alarm?_eq (alert_reachable h.reachable) h.paid hrest]
  cases hd : s.shared.deadline with
  | none =>
      rw [Timer.fireBefore_of_none (h.deadline.trans hd)]
      refine shows_advanceTo h htarget ?_
      intro d he
      exact absurd (hd.symm.trans he) (by simp)
  | some d =>
      dsimp only
      have htd := h.deadline.trans hd
      by_cases hlt : d < target
      · -- the clock stops at the deadline, the task fires, and then it goes on to the end
        rw [if_pos hlt, Timer.fireBefore_of_lt htd hlt]
        have hmid : Shows (s.advanceTo d) { t with now := d } := by
          refine shows_advanceTo h (h.ahead d hd) ?_
          intro d' he
          rw [hd] at he
          exact Option.some.inj he ▸ Nat.le_refl d
        obtain ⟨hfired, _⟩ := shows_settle hmid timerFirst
        rw [Timer.fireBefore_of_lt (t := { t with now := d }) htd (Nat.lt_succ_self d)] at hfired
        refine shows_advanceTo hfired ?_ ?_
        · exact hfired.now ▸ Nat.le_of_lt hlt
        · intro d' he
          exact absurd (hfired.deadline.trans he) (by simp)
      · rw [if_neg hlt, Timer.fireBefore_of_le htd (Nat.not_lt.mp hlt)]
        refine shows_advanceTo h htarget ?_
        intro d' he
        rw [hd] at he
        exact Option.some.inj he ▸ Nat.not_lt.mp hlt

theorem shows_sleep {s : System} {t : Timer} (h : Shows s t) (timerFirst : System → Bool)
    (d : Time) : Shows (s.sleep timerFirst d) (t.perform (.sleep d)) := by
  rw [sleep, Timer.perform]
  by_cases hd : d = 0
  · -- the sleep is over at once
    subst hd
    have hsame : t.fireBefore (t.now + 0) = t := by
      cases hdl : t.deadline with
      | none => exact Timer.fireBefore_of_none hdl _
      | some d => exact Timer.fireBefore_of_le hdl (h.now ▸ h.ahead d (h.deadline ▸ hdl))
    rw [if_pos rfl, hsame]
    exact h
  · rw [if_neg hd]
    obtain ⟨hset, hrest⟩ := shows_settle h timerFirst
    have hle : (s.settle timerFirst).now ≤ s.now + d := by
      rw [(settled_settle timerFirst h.reachable h.paid).now]
      exact Nat.le_add_right s.now d
    have hpos : t.now + 1 ≤ s.now + d :=
      h.now ▸ Nat.add_le_add_left (Nat.pos_of_ne_zero hd) _
    -- what fires at once and what fires on the way is what fires before the end
    have hall := shows_rest hset hrest timerFirst hle
    rw [Timer.fireBefore_fireBefore t hpos] at hall
    rw [h.now]
    exact hall

/-- What the owner does last takes nothing away that it has seen. -/
theorem shows_abort {s : System} {t : Timer} (h : Shows s t)
    (hc : s.shared.cancelled = true) : Shows (s.act .abort) t := by
  have hdone : ∀ s', s.step .abort = some s' → s'.owed = s.owed → s'.now = s.now →
      s'.shared = s.shared → s'.history = s.history → Shows (s.act .abort) t := by
    intro s' hstep howed hnow hshared hhistory
    have hact : s.act .abort = s' := by rw [act, hstep]; rfl
    rw [hact]
    exact ⟨Reachable.step h.reachable hstep, howed.trans h.paid, h.now.trans hnow.symm,
      hshared ▸ h.cancelled, hshared ▸ h.deadline, hshared ▸ hnow ▸ h.ahead,
      hhistory ▸ h.fires⟩
  by_cases hg : ∃ g, s.task = .expiring g
  · obtain ⟨g, hg⟩ := hg
    exact hdone s (step_of_does (Does.abortLate hc hg)) rfl rfl rfl rfl
  · have hnot : ∀ g, s.task ≠ .expiring g := fun g e => hg ⟨g, e⟩
    exact hdone _ (step_of_does (Does.abort hc hnot)) rfl rfl rfl rfl

end System

/-! ## Scripts -/

namespace Session

/-- **A session and a timer that have done the same.** -/
structure Matches (s : Session) (t : Timer) : Prop where
  shows : s.system.Shows t
  dropped : t.dropped = s.dropped
  /-- A watchdog that was let go of is cancelled. -/
  gone : s.dropped = true → s.system.shared.cancelled = true

theorem matches_start : Matches {} {} where
  shows := System.shows_start
  dropped := rfl
  gone := by intro h; exact absurd h (by simp)

/-- Nothing happens any more to a watchdog that was let go of. -/
theorem Matches.idle {s : Session} {t : Timer} (h : Matches s t) (hd : s.dropped = true) :
    t.cancelled = true ∧ t.deadline = none ∧ t.dropped = true := by
  have hc := h.gone hd
  refine ⟨h.shows.cancelled.trans hc, ?_, h.dropped.trans hd⟩
  rw [h.shows.deadline]
  exact (System.alert_reachable h.shows.reachable).disarmed hc

theorem matches_cancel {s : Session} {t : Timer} (h : Matches s t) :
    (s.system.call .cancel).Shows (t.perform .cancel)
      ∧ (s.system.call .cancel).shared.cancelled = true := by
  have hshows := System.shows_cancel h.shows
  exact ⟨hshows, hshows.cancelled.symm.trans rfl⟩

/-- **Each act keeps session and timer the same.** -/
theorem matches_perform {s : Session} {t : Timer} (h : Matches s t)
    (timerFirst : System → Bool) (act : Act) :
    Matches (s.perform timerFirst act).1 (t.perform act) := by
  cases act with
  | arm timeout =>
      rw [perform]
      by_cases hd : s.dropped = true
      · rw [if_pos hd, Timer.perform_arm_of_cancelled (h.idle hd).1]
        exact h
      · rw [if_neg hd]
        have hshows := System.shows_arm h.shows timeout
        exact ⟨hshows, (t.perform_arm_dropped timeout).trans h.dropped,
          fun hd' => absurd hd' hd⟩
  | cancel =>
      rw [perform]
      by_cases hd : s.dropped = true
      · obtain ⟨hc, hdl, hdr⟩ := h.idle hd
        have hsame : t.perform .cancel = t := by
          rw [Timer.perform, ← hdl, ← hc]
        rw [if_pos hd, hsame]
        exact h
      · rw [if_neg hd]
        obtain ⟨hshows, hc⟩ := matches_cancel h
        exact ⟨hshows, h.dropped, fun _ => hc⟩
  | drop =>
      -- to let go is to cancel and then to abort the task, which shows nothing more
      rw [perform]
      by_cases hd : s.dropped = true
      · obtain ⟨hc, hdl, hdr⟩ := h.idle hd
        have hsame : t.perform .drop = t := by
          obtain ⟨now, deadline, cancelled, dropped, fires⟩ := t
          dsimp only at hc hdl hdr
          rw [hc, hdl, hdr]
          rfl
        rw [if_pos hd, hsame]
        exact h
      · rw [if_neg hd]
        obtain ⟨hshows, hc⟩ := matches_cancel h
        have hafter := System.shows_abort hshows hc
        refine ⟨⟨hafter.reachable, hafter.paid, hafter.now, hafter.cancelled, hafter.deadline,
          hafter.ahead, hafter.fires⟩, rfl, fun _ => hafter.cancelled.symm.trans rfl⟩
  | sleep d =>
      have hshows := System.shows_sleep h.shows timerFirst d
      refine ⟨hshows, ?_, fun hd => ?_⟩
      · refine Eq.trans ?_ h.dropped
        exact (t.fireBefore_keeps _).2.2
      · refine hshows.cancelled.symm.trans ?_
        exact (t.fireBefore_keeps _).2.1.trans (h.idle hd).1
  | yield =>
      obtain ⟨hshows, _⟩ := System.shows_settle h.shows timerFirst
      refine ⟨hshows, ?_, fun hd => ?_⟩
      · exact (t.fireBefore_keeps _).2.2.trans h.dropped
      · refine hshows.cancelled.symm.trans ?_
        exact (t.fireBefore_keeps _).2.1.trans (h.idle hd).1

theorem Matches.failed {s : Session} {t : Timer} (h : Matches s t)
    (timerFirst : System → Bool) (act : Act) :
    (s.perform timerFirst act).2 = t.refuses act := by
  cases act with
  | arm timeout =>
      rw [perform, Timer.refuses, h.shows.cancelled, h.shows.now]
      by_cases hd : s.dropped = true
      · rw [if_pos hd, h.gone hd]
        rfl
      · rw [if_neg hd, System.lock_eq, Shared.arm]
        cases s.system.shared.cancelled with
        | true => rfl
        | false => cases Time.after? s.system.now timeout <;> rfl
  | cancel | drop =>
      rw [perform]
      split <;> rfl
  | sleep | yield => rfl

theorem Matches.sight {s : Session} {t : Timer} (h : Matches s t) (failed : Bool) :
    s.sight failed = t.sight failed := by
  rw [Session.sight, System.lock_eq, Timer.sight, h.shows.now, h.dropped, h.shows.fires_eq,
    h.shows.fired_eq]

/-- By induction on the script, from any session and timer that have done the same so far. -/
theorem Matches.play {s : Session} {t : Timer} (h : Matches s t) (timerFirst : System → Bool)
    (acts : List Act) : s.play timerFirst acts = t.play acts := by
  induction acts generalizing s t with
  | nil => rfl
  | cons act rest ih =>
      have hnext := matches_perform h timerFirst act
      rw [Session.play, Timer.play, ← ih hnext, ← h.failed timerFirst act, ← hnext.sight]

/-- The session after a script. -/
def after (timerFirst : System → Bool) (acts : List Act) : Session :=
  acts.foldl (fun s act => (s.perform timerFirst act).1) {}

theorem after_concat (timerFirst : System → Bool) (acts : List Act) (act : Act) :
    after timerFirst (acts ++ [act]) = ((after timerFirst acts).perform timerFirst act).1 := by
  rw [after, List.foldl_append]
  rfl

end Session

/-- The timer after a script. -/
def Timer.after (acts : List Act) : Timer := acts.foldl Timer.perform {}

theorem Timer.after_concat (acts : List Act) (act : Act) :
    Timer.after (acts ++ [act]) = (Timer.after acts).perform act := by
  rw [after, List.foldl_append]
  rfl

namespace Session

theorem Matches.foldl {s : Session} {t : Timer} (h : Matches s t) (timerFirst : System → Bool)
    (acts : List Act) :
    Matches (acts.foldl (fun s act => (s.perform timerFirst act).1) s)
      (acts.foldl Timer.perform t) := by
  induction acts generalizing s t with
  | nil => exact h
  | cons act rest ih => exact ih (matches_perform h timerFirst act)

theorem matches_after (timerFirst : System → Bool) (acts : List Act) :
    Matches (after timerFirst acts) (Timer.after acts) :=
  matches_start.foldl timerFirst acts

/-! ## Ties and second fires -/

/-- An act that takes the place of a deadline, at the moment `now`: the new deadline, if any. -/
def replaces? (now : Time) : Act → Option (Option Time)
  | .arm timeout => (Time.after? now timeout).map some
  | .cancel | .drop => some none
  | .sleep _ | .yield => none

end Session

/-- A deadline that is replaced right after a sleep that ended on it does not fire. -/
theorem Timer.perform_tie {t : Timer} {d : Time} {act : Act} {deadline : Option Time}
    (hc : t.cancelled = false) (hd : t.deadline = some (t.now + d))
    (ha : Session.replaces? (t.now + d) act = some deadline) :
    ((t.perform (.sleep d)).perform act).fires = t.fires
      ∧ ((t.perform (.sleep d)).perform act).deadline = deadline := by
  have hslept : t.perform (.sleep d) = { t with now := t.now + d } := by
    rw [perform, fireBefore_of_le hd (Nat.le_refl _)]
  rw [hslept]
  cases act with
  | arm timeout =>
      obtain ⟨moment, hmoment, rfl⟩ := Option.map_eq_some_iff.mp ha
      rw [perform_arm_of_some (t := { t with now := t.now + d }) hc hmoment]
      exact ⟨rfl, rfl⟩
  | cancel | drop =>
      obtain rfl := Option.some.inj ha
      exact ⟨rfl, rfl⟩
  | sleep | yield => exact absurd ha (by simp [Session.replaces?])

/-- After an arm the timer fires at its deadline, whatever was before. -/
theorem Timer.perform_arm_sleep {t : Timer} {timeout deadline : Time} (hc : t.cancelled = false)
    (hd : Time.after? t.now timeout = some deadline) :
    ((t.perform (.arm timeout)).perform (.sleep (timeout + 1))).fires = deadline :: t.fires := by
  have hlt : deadline < t.now + (timeout + 1) := by
    rw [Time.after?_eq_some hd]
    exact Nat.lt_succ_self (t.now + timeout)
  rw [perform_arm_of_some hc hd, perform, fireBefore_of_lt rfl hlt]

namespace Session

/--
**On a virtual clock a watchdog is a timer with one deadline.**

For every script, and whichever way the task goes when it may go by its timer or by a permit: after
each act the clock, the moments of all fires, the counter and whether the act failed are those of
the timer. So a deadline on which a sleep has just ended does not fire if an arm, a cancel or a drop
comes next, and after an arm the watchdog fires again, however often it has fired before.
-/
theorem play_eq_timer (timerFirst : System → Bool) (acts : List Act) :
    play timerFirst {} acts = Timer.play {} acts
      ∧ (after timerFirst acts).system.shared.hasFired = !(Timer.after acts).fires.isEmpty
      ∧ (∀ d act deadline,
        (after timerFirst acts).system.shared.deadline
            = some ((after timerFirst acts).system.now + d) →
        replaces? ((after timerFirst acts).system.now + d) act = some deadline →
        (after timerFirst (acts ++ [.sleep d] ++ [act])).system.fires
            = (after timerFirst acts).system.fires
          ∧ (after timerFirst (acts ++ [.sleep d] ++ [act])).system.shared.deadline = deadline)
      ∧ ∀ timeout deadline, (after timerFirst acts).system.shared.cancelled = false →
        Time.after? (after timerFirst acts).system.now timeout = some deadline →
        (after timerFirst (acts ++ [.arm timeout] ++ [.sleep (timeout + 1)])).system.fires
          = (after timerFirst acts).system.fires ++ [deadline] := by
  have hall := (matches_after timerFirst acts).shows
  refine ⟨matches_start.play timerFirst acts, ?_, ?_, ?_⟩
  · rw [Shared.hasFired, hall.fired_eq]
    cases (Timer.after acts).fires with
    | nil => rfl
    | cons time fires => simp
  · intro d act deadline hd ha
    have hnext := (matches_after timerFirst (acts ++ [.sleep d] ++ [act])).shows
    rw [← hall.now] at hd ha
    -- a watchdog that was cancelled has no deadline
    have hc : (Timer.after acts).cancelled = false := by
      cases hc : (Timer.after acts).cancelled with
      | false => rfl
      | true =>
          have hnone := (System.alert_reachable hall.reachable).disarmed (hall.cancelled ▸ hc)
          exact absurd (hnone.symm.trans hd) (by simp)
    obtain ⟨hfires, hdeadline⟩ := Timer.perform_tie hc (hall.deadline.trans hd) ha
    rw [hnext.fires_eq, hall.fires_eq, ← hnext.deadline, Timer.after_concat, Timer.after_concat,
      hfires]
    exact ⟨rfl, hdeadline⟩
  · intro timeout deadline hc hd
    have hnext := (matches_after timerFirst (acts ++ [.arm timeout] ++ [.sleep (timeout + 1)])).shows
    rw [← hall.now] at hd
    rw [hnext.fires_eq, hall.fires_eq, Timer.after_concat, Timer.after_concat,
      Timer.perform_arm_sleep (hall.cancelled.trans hc) hd, List.reverse_cons]

/-- A watchdog has fired and is armed again; a sleep ends on its deadline, and then it is armed once
more. -/
theorem play_eq_timer_tie : ∃ acts : List Act,
    (after (fun _ => false) acts).system.shared.deadline
        = some ((after (fun _ => false) acts).system.now + 3)
      ∧ (after (fun _ => false) (acts ++ [.sleep 3] ++ [.arm 2])).system.fires = [5]
      ∧ (after (fun _ => false) (acts ++ [.sleep 3] ++ [.arm 2])).system.shared.deadline = some 14
      ∧ (after (fun _ => false) (acts ++ [.arm 0] ++ [.sleep 1])).system.fires = [5, 9] := by
  obtain ⟨_, _, htie, hagain⟩ := play_eq_timer (fun _ => false) [.arm 5, .sleep 9, .arm 3]
  obtain ⟨hfires, hdeadline⟩ := htie 3 (.arm 2) (some 14) rfl rfl
  exact ⟨_, rfl, hfires, hdeadline, hagain 0 9 rfl rfl⟩

end Session

end IdleWatch.Watchdog
