import IdleWatch.Proofs.Idling
import IdleWatch.Proofs.Settling
import IdleWatch.Rehearsal.Scene
import Mathlib.Logic.Relation

/-!
# A rehearsal is a run on a virtual clock

A rehearsal is computed: things happen one after another, each is handled completely, and what
cannot happen is left out. What is known of runs is known of lists of actions each of which can
happen. Here it is shown that the former is a case of the latter, and that its clock is a virtual
one: between two things the supervisor rests, and so does the task before time passes.

So all that holds of runs on a virtual clock holds of rehearsals, whatever the script: `idle_rehearse`
is the law of the diary for them.
-/

namespace IdleWatch.Run

/-! ## Prompt steps -/

/-- One step that goes with a virtual clock. -/
def PromptStep (r s : Run) : Prop := ∃ a, r.prompt a = true ∧ r.step a = some s

/-- Such steps lead from one run to the other. -/
abbrev Leads : Run → Run → Prop := Relation.ReflTransGen PromptStep

theorem Leads.exists_actions {r s : Run} (h : Leads r s) :
    ∃ actions, r.promptly actions = true ∧ r.perform actions = some s := by
  induction h using Relation.ReflTransGen.head_induction_on with
  | refl => exact ⟨[], rfl, rfl⟩
  | head hstep _ ih =>
      obtain ⟨a, hp, hstep⟩ := hstep
      obtain ⟨actions, hps, hperform⟩ := ih
      refine ⟨a :: actions, ?_, (perform_of_step hstep actions).trans hperform⟩
      rw [promptly, hp, hstep, Bool.true_and]
      exact hps

/-- What cannot be done is left out. -/
theorem leads_act {r : Run} {a : Action} (hp : r.prompt a = true) : Leads r (r.act a) := by
  unfold act
  cases hstep : r.step a with
  | none => exact Relation.ReflTransGen.refl
  | some s => exact Relation.ReflTransGen.single ⟨a, hp, hstep⟩

theorem leads_goOn (fuel : Nat) (r : Run) : Leads r (r.goOn fuel) := by
  induction fuel generalizing r with
  | zero => exact Relation.ReflTransGen.refl
  | succ fuel ih =>
      rw [goOn]
      split
      · rename_i s hnext
        exact Relation.ReflTransGen.head ⟨.next, rfl, hnext⟩ (ih s)
      · exact Relation.ReflTransGen.refl

/-- **On standby**: a run on a virtual clock leads here, and the supervisor rests. -/
structure Standby (options : Options) (sink : Sink) (r : Run) : Prop where
  leads : Leads { options, sink } r
  rest : AtRest r

variable {options : Options} {sink : Sink} {r : Run}

theorem standby_start (options : Options) (sink : Sink) : Standby options sink { options, sink } :=
  ⟨Relation.ReflTransGen.refl, atRest_start options sink⟩

theorem Standby.dog (h : Standby options sink r) : r.dog.Reachable := by
  obtain ⟨_, _, hperform⟩ := h.leads.exists_actions
  exact reachable_dog hperform

/-! ## What comes from outside -/

/-- Something that comes from outside, and neither the watchdog nor time. -/
def IsOutside : Action → Prop
  | .next | .dog _ => False
  | _ => True

theorem dog_act {a : Action} (ha : IsOutside a) : (r.act a).dog = r.dog := by
  unfold act
  cases hstep : r.step a with
  | none => rfl
  | some s =>
      cases does_of_step hstep with
      | notify | overflow | arm | rearm | write | writeFailed | endRound | leave | judge | drop
      | abort | release | dog | kill => exact ha.elim
      | _ => rfl

/-- **Something comes from outside, and the supervisor does what there is to do.** -/
theorem Standby.react (h : Standby options sink r) {a : Action} (ha : IsOutside a) :
    Standby options sink (r.act a).proceed := by
  have hp : r.prompt a = true := by
    cases a with
    | dog => exact ha.elim
    | _ => rfl
  refine ⟨h.leads.trans ((leads_act hp).trans (leads_goOn _ _)), atRest_proceed ?_⟩
  rw [dog_act ha]
  exact h.rest.1

theorem Standby.begin (h : Standby options sink r) : Standby options sink r.begin :=
  h.react trivial

theorem Standby.reap (h : Standby options sink r) : Standby options sink r.reap :=
  h.react trivial

theorem Standby.serve (h : Standby options sink r) (reads : List (Nat × ReadResult)) :
    Standby options sink (r.serve reads) := by
  refine List.foldlRecOn reads _ (h.react trivial) (fun s hs _ _ => hs.react trivial)

/-- The end of the child gives the supervisor nothing to do before it is reaped. -/
theorem Standby.childEnds (h : Standby options sink r) (status : ExitStatus) :
    Standby options sink (r.childEnds status) := by
  refine ⟨h.leads.trans (leads_act rfl), ?_⟩
  obtain ⟨ho, hrest⟩ := h.rest
  unfold Run.childEnds act
  cases hstep : r.step (.exit status) with
  | none => exact ⟨ho, hrest⟩
  | some s =>
      cases does_of_step hstep with
      | exit =>
          refine ⟨ho, ?_⟩
          dsimp only [note]
          cases hs : r.stand with
          | judging => exact fun _ e => absurd e (by simp)
          | _ =>
              rw [hs] at hrest
              exact hrest

theorem Standby.request (h : Standby options sink r) : Standby options sink (r.act .request) :=
  ⟨h.leads.tail ⟨.request, rfl, rfl⟩, h.rest⟩

theorem Standby.shutDown (h : Standby options sink r) : Standby options sink r.shutDown :=
  h.request.react trivial

/-! ## Time -/

/-- The watchdog's task has no step that gives the supervisor something to do. -/
theorem AtRest.dog {s : Run} {a : Watchdog.Action} (h : AtRest r) (hd : Does r (.dog a) s) :
    AtRest s := by
  obtain ⟨ho, hrest⟩ := h
  cases hd with
  | dog ha hdog | kill ha hdog =>
      cases Watchdog.System.does_of_step hdog with
      | armLate | overflow | arm | cancelLate | cancel | notify | abort | abortLate =>
          exact absurd ha (by simp [isDogs])
      | _ => exact ⟨ho, hrest⟩

theorem dog_act_dog {a : Watchdog.Action} (ha : isDogs a = true) :
    (r.act (.dog a)).dog = r.dog.act a := by
  unfold act Watchdog.System.act
  rw [step, if_pos ha, stepDog]
  cases r.dog.step a with
  | none => rfl
  | some dog =>
      rw [Option.map_some, Option.getD_some, Option.getD_some]
      split <;> rfl

theorem Standby.dogStep (h : Standby options sink r) {a : Watchdog.Action}
    (hp : r.prompt (.dog a) = true) : Standby options sink (r.act (.dog a)) := by
  refine ⟨h.leads.trans (leads_act hp), ?_⟩
  unfold act
  cases hstep : r.step (.dog a) with
  | none => exact h.rest
  | some s => exact h.rest.dog (does_of_step hstep)

/-- A step of its own is a step of the task's, at any time. -/
theorem prompt_of_isOwn {a : Watchdog.Action} (ha : Watchdog.System.IsOwn a) :
    isDogs a = true ∧ r.prompt (.dog a) = true := by
  rcases ha with rfl | rfl | rfl | rfl <;> exact ⟨rfl, rfl⟩

theorem Standby.runDog (h : Standby options sink r) (fuel : Nat) :
    Standby options sink (r.runDog fuel) ∧ (r.runDog fuel).dog = r.dog.runTask dogTask fuel := by
  induction fuel generalizing r with
  | zero => exact ⟨h, rfl⟩
  | succ fuel ih =>
      rw [Run.runDog, Watchdog.System.runTask]
      cases hnext : r.dog.next? dogTask with
      | none => exact ⟨h, rfl⟩
      | some a =>
          obtain ⟨ha, hp⟩ := prompt_of_isOwn (r := r) (Watchdog.System.isOwn_of_next? hnext)
          dsimp only
          rw [← dog_act_dog ha]
          exact ih (h.dogStep hp)

/-- **The task runs until it has to wait.** -/
theorem Standby.settle (h : Standby options sink r) :
    Standby options sink r.settle ∧ Watchdog.System.Settled r.dog r.settle.dog := by
  obtain ⟨hstandby, hdog⟩ := h.runDog 8
  refine ⟨hstandby, ?_⟩
  rw [Run.settle, hdog]
  exact Watchdog.System.settled_settle dogTask h.dog h.rest.1

/-- Time may pass up to the moment for which the task has set its timer. -/
theorem Standby.advanceTo (h : Standby options sink r) (hrest : r.dog.AtRest) {time : Time}
    (hle : r.dog.now ≤ time) (halarm : ∀ alarm, r.dog.alarm? = some alarm → time ≤ alarm) :
    Standby options sink (r.advanceTo time) ∧ (r.advanceTo time).dog = { r.dog with now := time } := by
  have heq : r.dog.now + (time - r.dog.now) = time := Nat.add_sub_cancel' hle
  refine ⟨h.dogStep ?_, ?_⟩
  · rw [prompt, h.rest.next?_eq, Watchdog.System.next?_eq_none.mpr hrest, heq]
    cases ha : r.dog.alarm? with
    | none => rfl
    | some alarm => exact decide_eq_true (halarm alarm ha)
  · rw [Run.advanceTo, dog_act_dog rfl]
    show { r.dog with now := r.dog.now + (time - r.dog.now) } = { r.dog with now := time }
    rw [heq]

/-- At rest the task sleeps up to a later moment. -/
theorem now_lt_of_alarm? {s : Watchdog.System} (hrest : s.AtRest) {time : Time}
    (halarm : s.alarm? = some time) : s.now < time := by
  rcases hrest with ht | ⟨⟨g, deadline⟩, ht, _, hdue⟩
  · rw [Watchdog.System.alarm?, ht] at halarm
    exact absurd halarm (by simp)
  · rw [Watchdog.System.alarm?, ht] at halarm
    dsimp only at halarm
    subst halarm
    rw [Watchdog.System.isDue, ht] at hdue
    exact Nat.lt_of_not_le (of_decide_eq_false hdue)

/-- After a deadline has taken effect none is left, and the task sleeps without end. -/
theorem alarm?_of_ripe {s t : Watchdog.System} (h : Watchdog.System.Settled s t)
    (ho : s.owed = 0) (hripe : s.isRipe = true) : t.alarm? = none := by
  have hout := h.outlook
  rw [Watchdog.System.outlook_of_ripe hripe] at hout
  injection hout with hshared
  rw [Watchdog.System.alarm?_eq (Watchdog.System.alert_reachable h.reachable) (h.owed.trans ho) h.rest,
    hshared]

/-- **Time passes as on a virtual clock**, by as much as it should. -/
theorem Standby.pass (h : Standby options sink r) (d : Time) :
    Standby options sink (r.pass d) ∧ (r.pass d).dog.now = r.dog.now + d := by
  obtain ⟨hstandby, hsettled⟩ := h.settle
  have hnow := hsettled.now
  have hfinal : ∀ {s : Run}, Standby options sink s → s.dog.AtRest → s.dog.now ≤ r.dog.now + d →
      (∀ alarm, s.dog.alarm? = some alarm → r.dog.now + d ≤ alarm) →
      Standby options sink (s.advanceTo (r.dog.now + d))
        ∧ (s.advanceTo (r.dog.now + d)).dog.now = r.dog.now + d := by
    intro s hs hrest hle halarm
    obtain ⟨hadvanced, hdog⟩ := hs.advanceTo hrest hle halarm
    exact ⟨hadvanced, by rw [hdog]⟩
  have hreached : r.settle.dog.now ≤ r.dog.now + d := hnow ▸ Nat.le_add_right _ _
  unfold Run.pass
  dsimp only
  split
  · rename_i time halarm
    split
    · rename_i hle
      -- first up to the deadline, where it takes effect
      obtain ⟨hthere, hdog⟩ := hstandby.advanceTo hsettled.rest
        (Nat.le_of_lt (now_lt_of_alarm? hsettled.rest halarm))
        (fun alarm e => Nat.le_of_eq (Option.some.inj (halarm.symm.trans e)))
      have hripe : (r.settle.advanceTo time).dog.isRipe = true := by
        have hdeadline := Watchdog.System.alarm?_eq
          (Watchdog.System.alert_reachable hsettled.reachable) hstandby.rest.1 hsettled.rest
        rw [hdog]
        exact Watchdog.System.isRipe_iff.mpr ⟨time, hdeadline.symm.trans halarm, Nat.le_refl _⟩
      obtain ⟨hafter, hsettled'⟩ := hthere.settle
      refine hfinal hafter hsettled'.rest ?_ ?_
      · rw [hsettled'.now, hdog]
        exact hle
      · intro alarm e
        rw [alarm?_of_ripe hsettled' hthere.rest.1 hripe] at e
        exact absurd e (by simp)
    · rename_i hlt
      refine hfinal hstandby hsettled.rest hreached (fun alarm e => ?_)
      exact Option.some.inj (halarm.symm.trans e) ▸ Nat.le_of_not_le hlt
  · rename_i hnone
    exact hfinal hstandby hsettled.rest hreached
      (fun alarm e => absurd (hnone.symm.trans e) (by simp))

end IdleWatch.Run

namespace IdleWatch.Rehearsal.Scene

open Run (Standby)

variable {options : Options} {sink : Sink} {s : Scene}

/-! ## Scenes -/

theorem run_setTerminal (s : Scene) (t : Terminal) (stream : Stream) :
    (s.setTerminal t stream).run = s.run := by
  cases stream <;> rfl

/-- To read the terminals is not yet to tell the supervisor. -/
theorem run_readAll (s : Scene) (ready : List (Nat × Reader)) :
    (s.readAll ready).1.run = s.run := by
  induction ready generalizing s with
  | nil => rfl
  | cons _ rest ih =>
      rw [readAll]
      exact (ih _).trans (run_setTerminal _ _ _)

theorem standby_attendFor (h : Standby options sink s.run) (fuel : Nat) :
    Standby options sink (s.attendFor fuel).run := by
  induction fuel generalizing s with
  | zero => exact h
  | succ fuel ih =>
      rw [attendFor]
      split
      · dsimp only
        split
        · exact h
        · refine ih (s := { (s.readAll _).1 with run := _ }) ?_
          dsimp only
          rw [run_readAll]
          exact h.serve _
      · exact h

theorem standby_attend (h : Standby options sink s.run) : Standby options sink s.attend.run :=
  (standby_attendFor h _).reap

theorem standby_childEnds (h : Standby options sink s.run) (status : Option ExitStatus) :
    Standby options sink (s.childEnds status).run := by
  cases status with
  | none => exact h
  | some status => exact h.childEnds status

theorem standby_suffer (h : Standby options sink s.run) (before : Nat) :
    Standby options sink (s.suffer before).run := by
  unfold suffer
  split
  · dsimp only
    generalize s.work.kill s.run.options.processGroup = killed
    have hended := standby_childEnds (s := { s with work := killed.2.1 }) h killed.2.2
    split
    · exact hended
    · exact hended
  · exact h

/-- **Whatever happens next in a script, the supervisor is on standby after it.** -/
theorem standby_perform (h : Standby options sink s.run) (act : Act) :
    Standby options sink (s.perform act).run := by
  unfold perform
  split
  · exact h
  · cases act with
    | write out err => exact standby_attend h
    | close stream =>
        refine standby_attend ?_
        rw [run_setTerminal]
        exact h
    | advance d => exact standby_attend (standby_suffer (s := { s with run := _ }) (h.pass d).1 _)
    | shutDown => exact standby_attend (standby_suffer (s := { s with run := _ }) h.shutDown _)
    | fork => exact h
    | detach ending =>
        exact standby_attend (standby_childEnds (s := { s with work := .foreign }) h _)
    | finish ending => exact standby_attend (standby_childEnds h _)

theorem standby_performInterrupted (h : Standby options sink s.run) (act : Act) :
    Standby options sink (s.performInterrupted act).run := by
  unfold performInterrupted
  extract_lets passes
  split
  · exact standby_perform (standby_perform h .shutDown) act
  · exact standby_perform h act

theorem standby_start (options : Options) (sink : Sink) :
    Standby options sink (start options sink).run :=
  (Run.standby_start options sink).begin

end Scene

/-- **A rehearsal is a run on a virtual clock, and at its end the supervisor rests.** -/
theorem standby_rehearse (options : Options) (sink : Sink) (script : List Act) :
    Run.Standby options sink (rehearse options sink script) := by
  refine Scene.standby_perform ?_ _
  exact List.foldlRecOn (motive := fun s : Scene => Run.Standby options sink s.run) script _
    (Scene.standby_start options sink) (fun s hs act _ => Scene.standby_perform hs act)

/-- And so is one in which a shutdown is asked for on the way. -/
theorem standby_rehearseInterrupted (options : Options) (sink : Sink) (script : List Act) :
    Run.Standby options sink (rehearseInterrupted options sink script) := by
  refine Scene.standby_perform ?_ _
  exact List.foldlRecOn (motive := fun s : Scene => Run.Standby options sink s.run) script _
    (Scene.standby_start options sink) (fun s hs act _ => Scene.standby_performInterrupted hs act)

/-- **Every rehearsal has a diary**, as long as the clock can represent its deadlines. -/
theorem idle_rehearse (options : Options) (sink : Sink) (script : List Act)
    (hov : (rehearse options sink script).stand.outcome? ≠ some .overflow) :
    ∃ d, Run.Idle d (rehearse options sink script) := by
  obtain ⟨actions, hp, h⟩ := (standby_rehearse options sink script).leads.exists_actions
  exact ⟨_, Run.idle_diary hp h hov⟩

end IdleWatch.Rehearsal
