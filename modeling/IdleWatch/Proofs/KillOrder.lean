import IdleWatch.Proofs.Judgement
import IdleWatch.Proofs.Waking

/-!
# No kill comes after the child was reaped

A process is killed by its number, and once the child is reaped or let go of, its number may be
given to another process. So every kill has to come before that, on every way out: after the last
line, after a read or a write that failed, after a deadline that the clock cannot represent.

What makes this so is that a callback needs a deadline. Wherever the child is about to be reaped or
let go of, the watchdog has been cancelled (or was never armed), so no deadline is set, and nobody
is left who could set one. `Sheltered` keeps this along the run; the order of the effects follows.
-/

namespace IdleWatch

/-- The watchdog is not armed yet, or not any more. -/
def Stand.Unarmed : Stand → Prop
  | .spawning | .arming | .reaping | .judging => True
  | .dropping outcome => ∃ report, outcome = .report report
  | .aborting _ | .releasing _ | .ended _ => True
  | .waiting | .serving | .rearming | .leaving => False

/-- The loop is over, and nobody will arm the watchdog or take notice of a shutdown. -/
def Stand.Past : Stand → Prop
  | .spawning | .arming | .waiting | .serving | .rearming => False
  | _ => True

/-- The supervisor arms in the loop, or on its way to it. -/
theorem Stand.not_past_of_arms {stand : Stand} (h : stand = .arming ∨ stand = .rearming) :
    ¬ stand.Past := by
  rcases h with rfl | rfl
  · exact id
  · exact id

/-! ## Without a deadline nothing fires -/

namespace Watchdog.System

/-- **No callback runs without a deadline**, and only an arm sets one. -/
theorem deadline_step {s t : System} {a : Action} (h : Tied s) (hs : Does s a t)
    (hnone : s.shared.deadline = none) (ha : ∀ timeout, a ≠ .arm timeout) :
    t.shared.deadline = none ∧ t.shared.fired = s.shared.fired ∧ t.fires = s.fires
      ∧ (a ≠ .cancel → t.history = s.history) := by
  cases hs with
  | armLate | overflow | arm => exact absurd rfl (ha _)
  | cancel => exact ⟨rfl, rfl, by simp [fires, Event.fireTime?], fun hne => absurd rfl hne⟩
  | fire ht =>
      obtain ⟨deadline, hd, _⟩ := (h.expiring _ ht).2 rfl
      exact absurd (hnone.symm.trans hd) (by simp)
  | _ => exact ⟨hnone, rfl, rfl, fun _ => rfl⟩

end Watchdog.System

namespace Run

/-! ## Where no deadline is set -/

/-- **No deadline is set where the watchdog is not armed yet, or not any more.** -/
theorem unarmed_step {r s : Run} {a : Action} (hr : r.dog.Reachable)
    (h : r.stand.Unarmed → r.dog.shared.deadline = none) (hd : Does r a s) :
    s.stand.Unarmed → s.dog.shared.deadline = none := by
  have htied := Watchdog.System.tied_reachable hr
  have hkeep : ∀ {b : Watchdog.Action} {dog : Watchdog.System}, r.dog.step b = some dog →
      (∀ timeout, b ≠ .arm timeout) → r.stand.Unarmed → dog.shared.deadline = none := by
    intro b dog hstep hb hu
    exact (Watchdog.System.deadline_step htied (Watchdog.System.does_of_step hstep) (h hu) hb).1
  -- a cancel takes away what deadline there is
  have hcancel : ∀ {dog : Watchdog.System}, r.dog.step .cancel = some dog →
      dog.shared.deadline = none := by
    intro dog hstep
    have hc := Watchdog.System.cancelled_of_cancel (Watchdog.System.does_of_step hstep)
    exact (Watchdog.System.alert_reachable (.step hr hstep)).disarmed hc
  cases hd with
  | spawn hs | spawnFailed hs | reap hs | judge hs | release hs =>
      exact fun _ => h (by rw [hs]; trivial)
  | interrupt | read | request | exit => exact h
  | ready | write | rearm => exact False.elim
  | unready | readFailed | writeFailed | reapFailed | overflow =>
      -- given up without a report: the watchdog may still be armed, and is cancelled next
      intro ⟨report, e⟩
      exact Outcome.noConfusion e
  | notify _ hdog => exact hkeep hdog (by simp)
  | dog ha hdog | kill ha hdog =>
      refine hkeep hdog ?_
      intro timeout e
      rw [e] at ha
      exact absurd ha (by simp [isDogs])
  | leave _ _ hdog | drop _ _ hdog => exact fun _ => hcancel hdog
  | abort hs _ hdog => exact fun _ => hkeep hdog (by simp) (by rw [hs]; trivial)
  | @arm dog =>
      rcases atTop_cases ({ r with dog }.enter .running) with ⟨_, heq⟩ | ⟨_, heq⟩
      · rw [heq]; exact False.elim
      · rw [heq]; exact False.elim
  | endRound =>
      rcases atTop_cases { r with live := eraseAll r.live r.closed, closed := [] } with
        ⟨_, heq⟩ | ⟨_, heq⟩
      · rw [heq]; exact False.elim
      · rw [heq]; exact False.elim

/-- **There is no way back into the loop.** After it no line is written, and nobody takes notice of
a shutdown. -/
theorem past_of_does {r s : Run} {a : Action} (hp : r.stand.Past) (hd : Does r a s) :
    s.stand.Past ∧ s.lines = r.lines ∧ a ≠ .interrupt := by
  cases hd with
  | spawn hs | spawnFailed hs | ready hs | unready hs | interrupt hs | read hs | readFailed hs
  | write hs | writeFailed hs | endRound hs | arm hs | rearm hs =>
      rw [hs] at hp
      exact hp.elim
  | overflow | leave | reap | reapFailed | judge | drop | abort | release =>
      exact ⟨trivial, rfl, by simp⟩
  | notify | request | exit | dog | kill => exact ⟨hp, rfl, by simp⟩

/-- **Once the loop is over and no deadline is set, nothing kills any more.** -/
theorem past_step {r s : Run} {a : Action} (hr : r.dog.Reachable) (hp : r.stand.Past)
    (hnone : r.dog.shared.deadline = none) (hd : Does r a s) :
    s.stand.Past ∧ s.dog.shared.deadline = none ∧ s.kills = r.kills
      ∧ s.dog.fires = r.dog.fires := by
  have hdog : s.dog.shared.deadline = none ∧ s.dog.shared.fired = r.dog.shared.fired
      ∧ s.dog.fires = r.dog.fires := by
    rcases dog_of_does hd with heq | ⟨b, hstep, harm, _⟩
    · rw [heq]
      exact ⟨hnone, rfl, rfl⟩
    · have hb : ∀ timeout, b ≠ .arm timeout := by
        intro timeout e
        exact Stand.not_past_of_arms (harm ⟨timeout, e⟩) hp
      obtain ⟨h1, h2, h3, _⟩ := Watchdog.System.deadline_step
        (Watchdog.System.tied_reachable hr) (Watchdog.System.does_of_step hstep) hnone hb
      exact ⟨h1, h2, h3⟩
  have hkills : s.kills = r.kills := by
    cases hd with
    | spawn hs | spawnFailed hs | ready hs | unready hs | interrupt hs | read hs | readFailed hs
    | write hs | writeFailed hs | endRound hs | arm hs | rearm hs =>
        rw [hs] at hp
        exact hp.elim
    | overflow | notify | request | dog | leave | reapFailed | drop | abort => rfl
    | reap | judge | release | exit => exact kills_note_of_none r rfl
    | kill _ _ hfired => exact absurd hdog.2.1 hfired
  exact ⟨(past_of_does hp hd).1, hdog.1, hkills, hdog.2.2⟩

theorem past_perform {r s : Run} {actions : List Action} (hr : r.dog.Reachable)
    (hp : r.stand.Past) (hnone : r.dog.shared.deadline = none)
    (h : r.perform actions = some s) : s.kills = r.kills ∧ s.dog.fires = r.dog.fires := by
  have hall := perform_induction
    (motive := fun s => s.dog.Reachable ∧ s.stand.Past ∧ s.dog.shared.deadline = none
      ∧ s.kills = r.kills ∧ s.dog.fires = r.dog.fires)
    (by
      intro r' s a ⟨hr', hp', hnone', hk, hf⟩ hd
      obtain ⟨h1, h2, h3, h4⟩ := past_step hr' hp' hnone' hd
      exact ⟨reachable_dog_step hr' hd, h1, h2, h3.trans hk, h4.trans hf⟩)
    ⟨hr, hp, hnone, rfl, rfl⟩ h
  exact hall.2.2.2

/-! ## The order of the effects -/

/-- Kills come before the reaping and before the child is let go of. -/
def KillsFirst (effects : List Effect) : Prop :=
  effects.Pairwise (fun e f => f.killer?.isSome = true → e ≠ .reaped ∧ e ≠ .released)

theorem killsFirst_append {effects extra : List Effect} (h : KillsFirst effects)
    (hextra : KillsFirst extra)
    (hkills : ∀ e ∈ extra, e.killer?.isSome = true → .reaped ∉ effects ∧ .released ∉ effects) :
    KillsFirst (effects ++ extra) := by
  refine List.pairwise_append.mpr ⟨h, hextra, ?_⟩
  intro x hx y hy hkill
  obtain ⟨hreaped, hreleased⟩ := hkills y hy hkill
  exact ⟨fun e => hreaped (e ▸ hx), fun e => hreleased (e ▸ hx)⟩

/-- An effect that is no kill may come at any time. -/
theorem killsFirst_concat {effects : List Effect} {e : Effect} (h : KillsFirst effects)
    (he : e.killer? = none) : KillsFirst (effects ++ [e]) := by
  refine killsFirst_append h (List.pairwise_singleton ..) ?_
  intro x hx hkill
  obtain rfl := List.mem_singleton.mp hx
  exact absurd hkill (by simp [he])

end Run

/-- The child is reaped: it is judged, or a report is made on it. -/
def Stand.Reaped (stand : Stand) : Prop :=
  stand = .judging ∨ ∃ report, stand.outcome? = some (.report report)

/-- The child is let go of. -/
def Stand.IsEnded (stand : Stand) : Prop := ∃ outcome, stand = .ended outcome

/-- Where the child is neither reaped nor let go of. -/
def Stand.Holding (stand : Stand) : Prop := ¬ stand.Reaped ∧ ¬ stand.IsEnded

/-- A child that was reaped has no watchdog that is armed. -/
theorem Stand.Reaped.unarmed {stand : Stand} (h : stand.Reaped) : stand.Unarmed := by
  rcases h with rfl | ⟨report, h⟩
  · trivial
  · cases stand with
    | dropping outcome =>
        injection h with h
        exact ⟨report, h⟩
    | aborting | releasing | ended => trivial
    | _ => exact absurd h (by simp [Stand.outcome?])

theorem Stand.not_reaped {stand : Stand} (h : ∀ report, stand.outcome? ≠ some (.report report))
    (hne : stand ≠ .judging) : ¬ stand.Reaped := by
  rintro (e | ⟨report, e⟩)
  · exact hne e
  · exact h report e

theorem Stand.holding_of_none {stand : Stand} (h : stand.outcome? = none)
    (hne : stand ≠ .judging) : stand.Holding := by
  refine ⟨Stand.not_reaped (by simp [h]) hne, ?_⟩
  rintro ⟨outcome, e⟩
  rw [e] at h
  exact absurd h (by simp [Stand.outcome?])

namespace Run

theorem holding_of_stand {r : Run} {stand : Stand} (hs : r.stand = stand)
    (hnone : stand.outcome? = none) (hne : stand ≠ .judging) : r.stand.Holding :=
  hs ▸ Stand.holding_of_none hnone hne

/-- **A run whose child is killed only while it is held.** -/
structure Sheltered (r : Run) : Prop where
  dog : r.dog.Reachable
  unarmed : r.stand.Unarmed → r.dog.shared.deadline = none
  /-- Before the start the watchdog has seen nothing. -/
  unborn : r.stand = .spawning → r.dog.history = []
  /-- What has happened to the child can be told by where the supervisor stands. -/
  reaped : .reaped ∈ r.effects.toList → r.stand.Reaped
  released : .released ∈ r.effects.toList → r.stand.IsEnded
  child : ∀ status, r.child = .reaped status → .reaped ∈ r.effects.toList
  order : KillsFirst r.effects.toList
  /-- A run that has ended has let go of its child, or never had one. -/
  ended : r.stand.IsEnded → .released ∈ r.effects.toList ∨ r.dog.history = []

theorem sheltered_start (options : Options) (sink : Sink) : Sheltered { options, sink } where
  dog := Watchdog.System.Reachable.start
  unarmed := fun _ => rfl
  unborn := fun _ => rfl
  reaped := by intro h; exact absurd h (by simp)
  released := by intro h; exact absurd h (by simp)
  child := by intro status h; exact absurd h (by simp)
  order := List.pairwise_singleton ..
  ended := by rintro ⟨outcome, h⟩; exact absurd h (by simp)

/-- Where nobody arms or cancels, a watchdog without a deadline sees nothing. -/
theorem history_of_does {r s : Run} {a : Action} (hr : r.dog.Reachable)
    (hnone : r.dog.shared.deadline = none) (hs : r.stand = .spawning ∨ r.stand.IsEnded)
    (hd : Does r a s) : s.dog.history = r.dog.history := by
  -- the stands from which the supervisor calls its watchdog are others
  have hother : r.stand ≠ .arming ∧ r.stand ≠ .rearming ∧ r.stand ≠ .leaving
      ∧ ∀ outcome, r.stand ≠ .dropping outcome := by
    rcases hs with e | ⟨outcome, e⟩
    · rw [e]; simp
    · rw [e]; simp
  rcases dog_of_does hd with heq | ⟨b, hstep, harm, hcancel⟩
  · rw [heq]
  · have hall := Watchdog.System.deadline_step (Watchdog.System.tied_reachable hr)
      (Watchdog.System.does_of_step hstep) hnone ?_
    · refine hall.2.2.2 (fun e => ?_)
      rcases hcancel e with e | ⟨outcome, e⟩
      · exact hother.2.2.1 e
      · exact hother.2.2.2 outcome e
    · intro timeout e
      rcases harm ⟨timeout, e⟩ with e | e
      · exact hother.1 e
      · exact hother.2.1 e

/-- A step that neither reaps the child nor lets go of it keeps this, if it kills only a child that
is held. -/
theorem Sheltered.add {r s : Run} {a : Action} (h : Sheltered r) (hd : Does r a s)
    {extra : List Effect} (heffects : s.effects.toList = r.effects.toList ++ extra)
    (hextra : ∀ e ∈ extra, e ≠ .reaped ∧ e ≠ .released
      ∧ (e.killer?.isSome = true → r.stand.Holding))
    (hchild : ∀ status, s.child = .reaped status → r.child = .reaped status)
    (hreaped : r.stand.Reaped → s.stand.Reaped) (hended : s.stand.IsEnded ↔ r.stand.IsEnded)
    (hborn : s.stand = .spawning → r.stand = .spawning) : Sheltered s := by
  -- whether the child was reaped, or let go of, is as it was
  have hmem : ∀ e, e = .reaped ∨ e = .released → (e ∈ s.effects.toList ↔ e ∈ r.effects.toList) := by
    intro e he
    rw [heffects, List.mem_append]
    refine or_iff_left ?_
    intro hm
    rcases he with rfl | rfl
    · exact (hextra _ hm).1 rfl
    · exact (hextra _ hm).2.1 rfl
  constructor
  · exact reachable_dog_step h.dog hd
  · exact unarmed_step h.dog h.unarmed hd
  · intro e
    have hs := hborn e
    have hnone := h.unarmed (by rw [hs]; trivial)
    exact (history_of_does h.dog hnone (Or.inl hs) hd).trans (h.unborn hs)
  · intro hm
    exact hreaped (h.reaped ((hmem _ (Or.inl rfl)).mp hm))
  · intro hm
    exact hended.mpr (h.released ((hmem _ (Or.inr rfl)).mp hm))
  · intro status e
    exact (hmem _ (Or.inl rfl)).mpr (h.child status (hchild status e))
  · rw [heffects]
    refine killsFirst_append h.order ?_ ?_
    · refine List.pairwise_iff_forall_sublist.mpr ?_
      intro e f hsub _
      have he := hextra e (hsub.subset List.mem_cons_self)
      exact ⟨he.1, he.2.1⟩
    · -- a kill needs a child that is held, and what is held was not reaped or let go of before
      intro e he hkill
      obtain ⟨hnr, hne⟩ := (hextra e he).2.2 hkill
      exact ⟨fun hm => hnr (h.reaped hm), fun hm => hne (h.released hm)⟩
  · intro hs
    have hr := hended.mp hs
    have hnone : r.dog.shared.deadline = none := by
      obtain ⟨outcome, e⟩ := hr
      exact h.unarmed (by rw [e]; trivial)
    rw [hmem _ (Or.inr rfl), history_of_does h.dog hnone (Or.inr hr) hd]
    exact h.ended hr

/-- The supervisor moves on from where the child is held to where it is held. -/
theorem Sheltered.move {r s : Run} {a : Action} (h : Sheltered r) (hd : Does r a s)
    (phases : List Phase)
    (heffects : s.effects.toList = r.effects.toList ++ phases.map Effect.entered)
    (hchild : s.child = r.child) (hr : r.stand.Holding) (hs : ¬ s.stand.IsEnded)
    (hborn : s.stand ≠ .spawning) : Sheltered s := by
  refine h.add hd heffects ?_ (fun _ e => hchild.symm.trans e) (fun e => absurd e hr.1)
    (iff_of_false hs hr.2) (fun e => absurd e hborn)
  intro e he
  obtain ⟨phase, _, rfl⟩ := List.mem_map.mp he
  exact ⟨by simp, by simp, fun _ => hr⟩

theorem Sheltered.stay {r s : Run} {a : Action} (h : Sheltered r) (hd : Does r a s)
    {extra : List Effect} (heffects : s.effects.toList = r.effects.toList ++ extra)
    (hextra : ∀ e ∈ extra, e ≠ .reaped ∧ e ≠ .released
      ∧ (e.killer?.isSome = true → r.stand.Holding))
    (hchild : ∀ status, s.child = .reaped status → r.child = .reaped status)
    (hs : s.stand = r.stand) : Sheltered s :=
  h.add hd heffects hextra hchild (hs ▸ id) (by rw [hs]) (hs ▸ id)

theorem Sheltered.pass {r s : Run} {a : Action} (h : Sheltered r) (hd : Does r a s)
    (heffects : s.effects = r.effects) (hchild : s.child = r.child)
    (houtcome : s.stand.outcome? = r.stand.outcome?) (hr : ¬ r.stand.IsEnded)
    (hs : ¬ s.stand.IsEnded) (hj : r.stand ≠ .judging) (hborn : s.stand ≠ .spawning) :
    Sheltered s := by
  refine h.add hd (by rw [heffects, List.append_nil]) (by simp)
    (fun _ e => hchild.symm.trans e) ?_ (iff_of_false hs hr) (fun e => absurd e hborn)
  rintro (e | ⟨report, e⟩)
  · exact absurd e hj
  · exact Or.inr ⟨report, houtcome.trans e⟩

theorem sheltered_spawnFailed {r : Run} {e : RunError} (h : Sheltered r)
    (hs : r.stand = .spawning) : Sheltered { r with stand := .ended (.error e) } := by
  have hholding := holding_of_stand hs rfl (by simp)
  constructor
  · exact h.dog
  · exact fun _ => h.unarmed (by rw [hs]; trivial)
  · intro e; exact absurd e (by simp)
  · intro hm; exact absurd (h.reaped hm) hholding.1
  · exact fun _ => ⟨_, rfl⟩
  · exact h.child
  · exact h.order
  · exact fun _ => Or.inr (h.unborn hs)

/-- The child is reaped where the watchdog is cancelled and nobody listens for a shutdown. -/
theorem sheltered_reap {r : Run} {status : ExitStatus} (h : Sheltered r)
    (hs : r.stand = .reaping) :
    Sheltered { r.note .reaped with child := .reaped status, stand := .judging } := by
  have hholding := holding_of_stand hs rfl (by simp)
  have heffects : (r.note .reaped).effects.toList = r.effects.toList ++ [.reaped] :=
    Array.toList_push
  constructor
  · exact h.dog
  · exact fun _ => h.unarmed (by rw [hs]; trivial)
  · intro e; exact absurd e (by simp)
  · exact fun _ => Or.inl rfl
  · intro hm
    dsimp only at hm
    rw [heffects, List.mem_append, List.mem_singleton] at hm
    rcases hm with hm | e
    · exact absurd (h.released hm) hholding.2
    · exact Effect.noConfusion e
  · intro status' _
    dsimp only
    rw [heffects]
    exact List.mem_append_right _ (List.mem_singleton.mpr rfl)
  · dsimp only
    rw [heffects]
    exact killsFirst_concat h.order rfl
  · rintro ⟨outcome, e⟩
    exact absurd e (by simp)

/-- The child is let go of after the watchdog. -/
theorem sheltered_release {r : Run} {outcome : Outcome} (h : Sheltered r)
    (hs : r.stand = .releasing outcome) :
    Sheltered { r.note .released with stand := .ended outcome } := by
  have heffects : (r.note .released).effects.toList = r.effects.toList ++ [.released] :=
    Array.toList_push
  constructor
  · exact h.dog
  · exact fun _ => h.unarmed (by rw [hs]; trivial)
  · intro e; exact absurd e (by simp)
  · intro hm
    dsimp only at hm
    rw [heffects, List.mem_append, List.mem_singleton] at hm
    rcases hm with hm | e
    · rcases h.reaped hm with e | ⟨report, e⟩
      · rw [hs] at e
        exact absurd e (by simp)
      · rw [hs] at e
        exact Or.inr ⟨report, e⟩
    · exact Effect.noConfusion e
  · exact fun _ => ⟨_, rfl⟩
  · intro status e
    dsimp only
    rw [heffects]
    exact List.mem_append_left _ (h.child status e)
  · dsimp only
    rw [heffects]
    exact killsFirst_concat h.order rfl
  · intro _
    dsimp only
    rw [heffects]
    exact Or.inl (List.mem_append_right _ (List.mem_singleton.mpr rfl))

theorem sheltered_arm {r : Run} {dog : Watchdog.System} (h : Sheltered r)
    (hd : Does r .next ({ r with dog }.enter .running).atTop) (hs : r.stand = .arming) :
    Sheltered ({ r with dog }.enter .running).atTop := by
  have hholding := holding_of_stand hs rfl (by simp)
  rcases atTop_cases ({ r with dog }.enter .running) with ⟨_, heq⟩ | ⟨_, heq⟩
  · rw [heq] at hd ⊢
    exact h.move hd [.running, .draining] (by simp [enter, note]) rfl hholding
      (by simp [Stand.IsEnded]) (by simp)
  · rw [heq] at hd ⊢
    exact h.move hd [.running] (by simp [enter, note]) rfl hholding (by simp [Stand.IsEnded])
      (by simp)

theorem sheltered_endRound {r : Run} (h : Sheltered r)
    (hd : Does r .next { r with live := eraseAll r.live r.closed, closed := [] }.atTop)
    (hs : r.stand = .serving) :
    Sheltered { r with live := eraseAll r.live r.closed, closed := [] }.atTop := by
  have hholding := holding_of_stand hs rfl (by simp)
  rcases atTop_cases { r with live := eraseAll r.live r.closed, closed := [] } with
    ⟨_, heq⟩ | ⟨_, heq⟩
  · rw [heq] at hd ⊢
    exact h.move hd [.draining] (by simp [enter, note]) rfl hholding (by simp [Stand.IsEnded])
      (by simp)
  · rw [heq] at hd ⊢
    exact h.move hd [] (by simp) rfl hholding (by simp [Stand.IsEnded]) (by simp)

theorem sheltered_judge {r : Run} {status : ExitStatus} (h : Sheltered r)
    (hd : Does r .next
      { r.enter .terminated with stand := .dropping (.report (r.report status)) })
    (hs : r.stand = .judging) :
    Sheltered { r.enter .terminated with stand := .dropping (.report (r.report status)) } := by
  have heffects : (r.enter .terminated).effects.toList
      = r.effects.toList ++ [.entered .terminated] := Array.toList_push
  refine h.add hd heffects ?_ (fun _ e => e) (fun _ => Or.inr ⟨_, rfl⟩)
    (iff_of_false (by simp [Stand.IsEnded]) (by simp [Stand.IsEnded, hs])) (by simp)
  intro e he
  obtain rfl := List.mem_singleton.mp he
  exact ⟨by simp, by simp, fun hk => absurd hk (by simp [Effect.killer?])⟩

/-- **The watchdog fires only while the child is held**: it needs a deadline, and a child that was
reaped or let go of is out of its reach. -/
theorem sheltered_kill {r : Run} {a : Watchdog.Action} {dog : Watchdog.System} (h : Sheltered r)
    (ha : isDogs a = true) (hdog : r.dog.step a = some dog)
    (hfired : dog.shared.fired ≠ r.dog.shared.fired) :
    Sheltered ({ r with dog }.note (.killed .watchdog)) := by
  have hnot : ¬ r.stand.Unarmed := by
    intro hu
    have harm : ∀ timeout, a ≠ .arm timeout := by
      rintro timeout rfl
      exact absurd ha (by simp [isDogs])
    exact hfired (Watchdog.System.deadline_step (Watchdog.System.tied_reachable h.dog)
      (Watchdog.System.does_of_step hdog) (h.unarmed hu) harm).2.1
  refine h.stay (Does.kill ha hdog hfired) (Array.toList_push ..) ?_ (fun _ e => e) rfl
  intro e he
  obtain rfl := List.mem_singleton.mp he
  refine ⟨by simp, by simp, fun _ => ⟨fun hr => hnot hr.unarmed, ?_⟩⟩
  rintro ⟨outcome, e⟩
  exact hnot (by rw [e]; trivial)

/-- **Every step keeps this.** -/
theorem sheltered_step {r s : Run} {a : Action} (h : Sheltered r) (hd : Does r a s) :
    Sheltered s := by
  have hd' := hd
  cases hd with
  | spawnFailed hs => exact sheltered_spawnFailed h hs
  | reap hs => exact sheltered_reap h hs
  | release hs => exact sheltered_release h hs
  | arm hs => exact sheltered_arm h hd' hs
  | endRound hs => exact sheltered_endRound h hd' hs
  | judge hs => exact sheltered_judge h hd' hs
  | kill ha hdog hfired => exact sheltered_kill h ha hdog hfired
  | spawn hs | ready hs | unready hs | readFailed hs | rearm hs | write hs | writeFailed hs
  | leave hs | reapFailed hs =>
      exact h.move hd' [] (by simp [giveUp]) rfl (holding_of_stand hs rfl (by simp))
        (by simp [Stand.IsEnded, giveUp]) (by simp [giveUp])
  | overflow hs =>
      have hholding : r.stand.Holding := by
        rcases hs with hs | hs
        · exact holding_of_stand hs rfl (by simp)
        · exact holding_of_stand hs rfl (by simp)
      exact h.move hd' [] (by simp [giveUp]) rfl hholding (by simp [Stand.IsEnded, giveUp])
        (by simp [giveUp])
  | interrupt hs =>
      refine h.stay hd' (Array.toList_push ..) ?_ (fun _ e => e) rfl
      intro e he
      obtain rfl := List.mem_singleton.mp he
      exact ⟨by simp, by simp, fun _ => holding_of_stand hs rfl (by simp)⟩
  | exit _ hchild =>
      refine h.stay hd' (Array.toList_push ..) ?_ (fun _ e => absurd e (by simp)) rfl
      intro e he
      obtain rfl := List.mem_singleton.mp he
      exact ⟨by simp, by simp, fun hk => absurd hk (by simp [Effect.killer?])⟩
  | read | notify | request | dog =>
      exact h.stay hd' (List.append_nil _).symm (by simp) (fun _ e => e) rfl
  | drop hs | abort hs =>
      exact h.pass hd' rfl rfl (by rw [hs]; rfl) (by simp [Stand.IsEnded, hs])
        (by simp [Stand.IsEnded]) (by simp [hs]) (by simp)

theorem sheltered_perform {options : Options} {sink : Sink} {actions : List Action} {r : Run}
    (h : ({ options, sink } : Run).perform actions = some r) : Sheltered r :=
  perform_induction sheltered_step (sheltered_start options sink) h

/-- The child is being reaped or let go of, or that has been done. -/
def Parting (r : Run) : Prop :=
  r.stand = .reaping ∨ (∃ outcome, r.stand = .releasing outcome)
    ∨ .reaped ∈ r.effects.toList ∨ .released ∈ r.effects.toList

/-- Where the child is being parted with, the loop is over and no deadline is set. -/
theorem Sheltered.past {r : Run} (h : Sheltered r) (hp : r.Parting) :
    r.stand.Past ∧ r.dog.shared.deadline = none := by
  have hunarmed : r.stand.Past ∧ r.stand.Unarmed := by
    rcases hp with hs | ⟨outcome, hs⟩ | hm | hm
    · rw [hs]
      exact ⟨trivial, trivial⟩
    · rw [hs]
      exact ⟨trivial, trivial⟩
    · -- once it is reaped, the outcome is a report, whatever stand that has got to
      have hr := h.reaped hm
      refine ⟨?_, hr.unarmed⟩
      rcases hr with hs | ⟨report, hs⟩
      · rw [hs]
        trivial
      · cases hstand : r.stand with
        | dropping | aborting | releasing | ended => trivial
        | _ => exact absurd (hstand ▸ hs) (by simp [Stand.outcome?])
    · obtain ⟨outcome, hs⟩ := h.released hm
      rw [hs]
      exact ⟨trivial, trivial⟩
  exact ⟨hunarmed.1, h.unarmed hunarmed.2⟩

/--
**Every kill comes before the child is reaped or let go of**, however the run goes and ends.

Callbacks and the supervisor's own kills stand before both in the order of the effects. From the
moment in which the supervisor sets about either, whatever happens: no callback runs and nobody
kills. Who kills finds a child that was neither reaped nor let go of. And no run ends before it has
let go of its child, unless there was none and the watchdog was never armed.
-/
theorem kill_before_reap {options : Options} {sink : Sink} {actions : List Action} {r : Run}
    (h : ({ options, sink } : Run).perform actions = some r) :
    KillsFirst r.effects.toList
      ∧ (r.Parting → ∀ more s, r.perform more = some s →
          s.kills = r.kills ∧ s.dog.fires = r.dog.fires)
      ∧ (∀ a s, r.step a = some s → s.kills ≠ r.kills ∨ s.dog.fires ≠ r.dog.fires →
          (∀ status, r.child ≠ .reaped status) ∧ .released ∉ r.effects.toList)
      ∧ (∀ outcome, r.outcome? = some outcome →
          .released ∈ r.effects.toList ∨ r.dog.history = []) := by
  have hs := sheltered_perform h
  have hpast : r.Parting → ∀ more s, r.perform more = some s →
      s.kills = r.kills ∧ s.dog.fires = r.dog.fires := by
    intro hp more s hmore
    obtain ⟨hstand, hnone⟩ := hs.past hp
    exact past_perform hs.dog hstand hnone hmore
  refine ⟨hs.order, hpast, ?_, ?_⟩
  · intro a s hstep hkill
    have hnot : ¬ r.Parting := by
      intro hp
      obtain ⟨hk, hf⟩ := hpast hp [a] s (by rw [perform_of_step hstep, perform])
      rcases hkill with hne | hne
      · exact hne hk
      · exact hne hf
    refine ⟨fun status e => hnot ?_, fun hm => hnot ?_⟩
    · exact Or.inr (Or.inr (Or.inl (hs.child status e)))
    · exact Or.inr (Or.inr (Or.inr hm))
  · intro outcome ho
    unfold outcome? at ho
    split at ho
    · rename_i hstand
      exact hs.ended ⟨_, hstand⟩
    · exact absurd ho (by simp)

/-- The supervisor has killed, then fails to wait for its streams, and before it has cancelled the
watchdog a callback kills once more; the child is let go of after both. -/
theorem kill_before_reap_unready : ∃ r : Run,
    ({ options := ⟨"sh", [], false, 5, "OK", 4⟩ } : Run).perform
        [.spawned (.ok ()), .next, .next, .request, .interrupt, .unready .stdout (.number 9),
          .dog .snapshot, .dog (.tick 5), .dog .elapse, .dog .expire, .exit none,
          .next, .next, .next, .next] = some r
      ∧ r.effects = #[.entered .spawning, .entered .running, .killed .shutdown, .killed .watchdog,
          .exited, .released]
      ∧ KillsFirst r.effects.toList
      ∧ ∀ more s, r.perform more = some s → s.kills = r.kills ∧ s.dog.fires = r.dog.fires := by
  have h : ({ options := ⟨"sh", [], false, 5, "OK", 4⟩ } : Run).perform
      [.spawned (.ok ()), .next, .next, .request, .interrupt, .unready .stdout (.number 9),
        .dog .snapshot, .dog (.tick 5), .dog .elapse, .dog .expire, .exit none,
        .next, .next, .next, .next] = some _ := rfl
  have hall := kill_before_reap h
  exact ⟨_, h, rfl, hall.1, hall.2.1 (Or.inr (Or.inr (Or.inr (by decide))))⟩

end Run

end IdleWatch
