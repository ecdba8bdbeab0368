import IdleWatch.Proofs.KillOrder

/-!
# What ended the child, and what the report says of it

A child ends by itself or because it is killed, and it is killed by whoever kills it first. The
order of the effects tells which: the cause is the first kill, or the child's own end if that came
before any.

The report is made when all is over, from two facts that know of no order: the watchdog has fired
at some time, the supervisor has taken notice of a shutdown at some time. An expiry outweighs a
shutdown, and either outweighs the child's own end. So the report names the cause as long as nobody
who weighs more has killed after it. A process that outlives the child and holds a stream open is
enough for that: the loop goes on, and the watchdog fires while there is nobody left to kill.
-/

namespace IdleWatch

/-- What an effect makes of a child that is alive. -/
def Effect.cause? : Effect → Option Termination
  | .killed .watchdog => some .idleTimeout
  | .killed .shutdown => some .interrupted
  | .exited => some .natural
  | _ => none

namespace Run

/-- What ended the child: the first kill, or its own end if that came before any. -/
def cause? (r : Run) : Option Termination := r.effects.toList.findSome? Effect.cause?

/-! ## The end of a child is noted -/

theorem mem_effects_of_does {r s : Run} {a : Action} (hd : Does r a s) {e : Effect}
    (he : e ∈ r.effects) : e ∈ s.effects := by
  -- at the top of the loop at most a phase is noted
  have htop : ∀ r : Run, e ∈ r.effects → e ∈ r.atTop.effects := by
    intro r he
    rcases atTop_cases r with ⟨_, heq⟩ | ⟨_, heq⟩
    · rw [heq]
      exact Array.mem_push_of_mem _ he
    · rw [heq]
      exact he
  cases hd with
  | arm => exact htop _ (Array.mem_push_of_mem _ he)
  | endRound => exact htop _ he
  | interrupt | reap | judge | release | exit | kill => exact Array.mem_push_of_mem _ he
  | _ => exact he

/-- **The end of the child is noted** before it is reaped. -/
structure Mourned (r : Run) : Prop where
  child : r.child ≠ .alive → .exited ∈ r.effects
  stand : r.stand.Reaped → .exited ∈ r.effects

theorem mourned_start (options : Options) (sink : Sink) : Mourned { options, sink } where
  child := fun h => absurd rfl h
  stand := by
    rintro (e | ⟨report, e⟩)
    · exact Stand.noConfusion e
    · exact absurd e (by simp [Stand.outcome?])

theorem Mourned.keep {r s : Run} {a : Action} (h : Mourned r) (hd : Does r a s)
    (hchild : s.child = r.child) (hstand : s.stand.Reaped → r.stand.Reaped) : Mourned s where
  child := fun hs => mem_effects_of_does hd (h.child (hchild ▸ hs))
  stand := fun hs => mem_effects_of_does hd (h.stand (hstand hs))

theorem atTop_unreaped (r : Run) : r.atTop.child = r.child ∧ ¬ r.atTop.stand.Reaped := by
  have hnone := atTop_outcome? r
  rcases atTop_cases r with ⟨_, heq⟩ | ⟨_, heq⟩
  · rw [heq] at hnone ⊢
    exact ⟨rfl, (Stand.holding_of_none hnone (by simp)).1⟩
  · rw [heq] at hnone ⊢
    exact ⟨rfl, (Stand.holding_of_none hnone (by simp)).1⟩

theorem mourned_step {r s : Run} {a : Action} (h : Mourned r) (hd : Does r a s) : Mourned s := by
  have hd' := hd
  cases hd with
  | exit _ hchild =>
      -- the only way for a child to come to its end
      have hnoted : .exited ∈ (r.note .exited).effects := Array.mem_push_self
      exact ⟨fun _ => hnoted, fun _ => hnoted⟩
  | reap _ _ hchild =>
      have hexited := mem_effects_of_does hd' (h.child (by rw [hchild]; simp))
      exact ⟨fun _ => hexited, fun _ => hexited⟩
  | judge _ _ hchild =>
      have hexited := mem_effects_of_does hd' (h.child (by rw [hchild]; simp))
      exact ⟨fun _ => hexited, fun _ => hexited⟩
  | drop hs | abort hs | release hs =>
      refine h.keep hd' rfl ?_
      rintro (e | e)
      · exact absurd e (by simp)
      · exact Or.inr (hs ▸ e)
  | arm | endRound =>
      obtain ⟨hchild, hnot⟩ := atTop_unreaped _
      exact h.keep hd' hchild (fun hs => absurd hs hnot)
  | interrupt | read | notify | request | dog | kill => exact h.keep hd' rfl id
  | _ =>
      refine h.keep hd' rfl (fun hs => absurd hs (Stand.not_reaped ?_ ?_))
      · simp [Stand.outcome?, giveUp]
      · simp [giveUp]

theorem mourned_perform {options : Options} {sink : Sink} {actions : List Action} {r : Run}
    (h : ({ options, sink } : Run).perform actions = some r) : Mourned r :=
  perform_induction mourned_step (mourned_start options sink) h

/-! ## The cause -/

theorem cause?_eq_none_iff {r : Run} :
    r.cause? = none ↔ r.kills = [] ∧ .exited ∉ r.effects := by
  rw [cause?, List.findSome?_eq_none_iff, kills, List.filterMap_eq_nil_iff]
  constructor
  · intro h
    constructor
    · intro e he
      have hnone := h e he
      cases e with
      | killed killer => cases killer <;> exact absurd hnone (by simp [Effect.cause?])
      | _ => rfl
    · intro hm
      have hnone := h _ (Array.mem_toList_iff.mpr hm)
      exact absurd hnone (by simp [Effect.cause?])
  · rintro ⟨hkills, hexited⟩ e he
    cases e with
    | killed killer => exact absurd (hkills _ he) (by simp [Effect.killer?])
    | exited => exact absurd (Array.mem_toList_iff.mp he) hexited
    | _ => rfl

/-- **As long as there is no cause the child is alive**, so whoever is the cause has found it so. -/
theorem Mourned.alive {r : Run} (h : Mourned r) (hnone : r.cause? = none) :
    r.child = .alive := by
  by_cases halive : r.child = .alive
  · exact halive
  · exact absurd (h.child halive) (cause?_eq_none_iff.mp hnone).2

theorem Mourned.exists_cause {r : Run} {report : Report} (h : Mourned r)
    (hr : r.stand.outcome? = some (.report report)) : ∃ cause, r.cause? = some cause := by
  have hexited := h.stand (Or.inr ⟨report, hr⟩)
  refine Option.ne_none_iff_exists'.mp (fun hnone => ?_)
  exact (cause?_eq_none_iff.mp hnone).2 hexited

theorem mem_kills_of_cause {r : Run} {cause : Termination} (h : r.cause? = some cause) :
    (cause = .idleTimeout → .watchdog ∈ r.kills)
      ∧ (cause = .interrupted → .shutdown ∈ r.kills) := by
  obtain ⟨e, he, hcause⟩ := List.exists_of_findSome?_eq_some h
  have hkill : ∀ killer, e = .killed killer → killer ∈ r.kills := by
    rintro killer rfl
    exact List.mem_filterMap.mpr ⟨_, he, rfl⟩
  cases e with
  | killed killer =>
      cases killer with
      | watchdog =>
          injection hcause with hcause
          subst hcause
          exact ⟨fun _ => hkill _ rfl, fun e => absurd e (by simp)⟩
      | shutdown =>
          injection hcause with hcause
          subst hcause
          exact ⟨fun e => absurd e (by simp), fun _ => hkill _ rfl⟩
  | exited =>
      injection hcause with hcause
      subst hcause
      exact ⟨fun e => absurd e (by simp), fun e => absurd e (by simp)⟩
  | _ => exact absurd hcause (by simp [Effect.cause?])

/-- Nothing is written until the watchdog has fired. -/
def silence : List Action := [.dog .snapshot, .dog (.tick 5), .dog .elapse, .dog .expire]

/--
**The report names the cause unless somebody who weighs more has killed after it.**

Every run that comes to a report has a cause of its child's end. An expiry that was the cause is
always named. A shutdown is named unless the watchdog has fired as well, and the child's own end
unless anybody has killed: whatever the cause, the report says idle timeout if the watchdog has
fired at any time, else interrupted if a shutdown was taken notice of, else natural.
-/
theorem termination_eq_cause_iff {options : Options} {sink : Sink} {actions : List Action}
    {r : Run} {report : Report} (h : ({ options, sink } : Run).perform actions = some r)
    (hr : r.outcome? = some (.report report)) :
    (∃ cause, r.cause? = some cause
        ∧ (report.termination = cause ↔
            cause = .idleTimeout
              ∨ cause = .interrupted ∧ .watchdog ∉ r.kills
              ∨ cause = .natural ∧ r.kills = []))
      ∧ (report.termination = .idleTimeout ↔ .watchdog ∈ r.kills)
      ∧ (report.termination = .interrupted ↔ .watchdog ∉ r.kills ∧ .shutdown ∈ r.kills)
      ∧ (report.termination = .natural ↔ r.kills = []) := by
  have hj := judged_perform h
  have hout := outcome?_of_outcome? hr
  obtain ⟨status, rfl⟩ := hj.judged report hout
  have hterm : (r.report status).termination = r.termination := rfl
  rw [hterm]
  refine ⟨?_, hj.idleTimeout_iff, hj.interrupted_iff, hj.natural_iff⟩
  obtain ⟨cause, hcause⟩ := (mourned_perform h).exists_cause hout
  obtain ⟨hwatchdog, hshutdown⟩ := mem_kills_of_cause hcause
  refine ⟨cause, hcause, ?_⟩
  cases cause with
  | idleTimeout => simp [hj.idleTimeout_iff, hwatchdog rfl]
  | interrupted => simp [hj.interrupted_iff, hshutdown rfl]
  | natural => simp [hj.natural_iff]

/-- The watchdog kills, then a shutdown does; the report names the watchdog. -/
theorem termination_eq_cause_iff_bothKill : ∃ (r : Run) (report : Report),
    ({ options := ⟨"sh", [], true, 5, "OK", 4⟩ } : Run).perform
        ([.spawned (.ok ()), .next, .next] ++ silence ++ [.request, .interrupt, .exit none]
          ++ hangUp) = some r
      ∧ r.outcome? = some (.report report)
      ∧ r.kills = [.watchdog, .shutdown]
      ∧ r.cause? = some .idleTimeout ∧ report.termination = .idleTimeout := by
  have h : ({ options := ⟨"sh", [], true, 5, "OK", 4⟩ } : Run).perform
      ([.spawned (.ok ()), .next, .next] ++ silence ++ [.request, .interrupt, .exit none]
        ++ hangUp) = some _ := rfl
  refine ⟨_, _, h, rfl, rfl, rfl, ?_⟩
  exact (termination_eq_cause_iff h rfl).2.1.mpr (by decide)

/-- A shutdown kills the child, but another process holds the streams until the watchdog fires. In
the second run the child has ended by itself before that. Both are reported as idle. -/
theorem cause_misnamed :
    (∃ (r : Run) (report : Report),
      ({ options := ⟨"sh", [], false, 5, "OK", 4⟩ } : Run).perform
          ([.spawned (.ok ()), .next, .next, .request, .interrupt, .exit none] ++ silence
            ++ hangUp) = some r
        ∧ r.outcome? = some (.report report)
        ∧ r.cause? = some .interrupted ∧ report.termination = .idleTimeout)
      ∧ ∃ (r : Run) (report : Report),
        ({ options := ⟨"sh", [], true, 5, "OK", 4⟩ } : Run).perform
            ([.spawned (.ok ()), .next, .next, .exit (some 0)] ++ silence ++ hangUp) = some r
          ∧ r.outcome? = some (.report report)
          ∧ r.cause? = some .natural ∧ report.termination = .idleTimeout
          ∧ report.exitStatus = some 0 :=
  ⟨⟨_, _, rfl, rfl, rfl, rfl⟩, _, _, rfl, rfl, rfl, rfl, rfl⟩

end Run

end IdleWatch
