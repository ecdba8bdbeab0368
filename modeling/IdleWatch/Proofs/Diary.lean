import IdleWatch.Proofs.KillOrder
import IdleWatch.Proofs.Resting

/-!
# The diary of a run

When a command is killed for being silent depends on times: when the watchdog was first armed, when
lines were written, when the loop was over. A diary is kept of these beside the run, and of the
lulls between them with the kills that fell into each. A lull begins when the watchdog is armed, for
only from then on does a kill belong to it: the kill that falls between a line and the arm after it,
at the same moment, still belongs to the lull before.

The clock here is a virtual one. It moves only when nobody has anything to do, and not beyond the
moment up to which the watchdog's task sleeps: so the task acts as soon as a deadline has come, but
in what order everyone acts at one moment is left open.
-/

namespace IdleWatch

/-- The supervisor is in its loop. -/
def Stand.Looping : Stand → Prop
  | .waiting | .serving | .rearming => True
  | _ => False

instance (stand : Stand) : Decidable stand.Past :=
  match stand with
  | .spawning | .arming | .waiting | .serving | .rearming => isFalse id
  | .leaving | .reaping | .judging | .dropping _ | .aborting _ | .releasing _ | .ended _ =>
    isTrue trivial

namespace Run

/-! ## The virtual clock -/

/-- The action goes with a virtual clock: time passes only when supervisor and task have nothing to
do, and at most up to the moment for which the task has set its timer. -/
def prompt (r : Run) : Action → Bool
  | .dog (.tick d) =>
    r.next?.isNone && (r.dog.next? dogTask).isNone
      && match r.dog.alarm? with
        | some time => decide (r.dog.now + d ≤ time)
        | none => true
  | _ => true

/-- All of these actions go with a virtual clock. -/
def promptly (r : Run) : List Action → Bool
  | [] => true
  | a :: more => r.prompt a && match r.step a with
    | some s => s.promptly more
    | none => true

/-- A supervisor with nothing to do is not about to arm or to cancel. -/
theorem stand_of_next? {r : Run} (h : r.next? = none) :
    r.dog.owed = 0 ∧ r.stand ≠ .rearming ∧ r.stand ≠ .leaving
      ∧ ∀ outcome, r.stand ≠ .dropping outcome := by
  obtain ⟨ho, hrest⟩ := next?_eq_none.mp h
  refine ⟨ho, ?_, ?_, ?_⟩
  · intro hs; rw [hs] at hrest; exact hrest
  · intro hs; rw [hs] at hrest; exact hrest
  · intro outcome hs; rw [hs] at hrest; exact hrest

/-- A deadline is not passed without the task. -/
theorem le_of_prompt {r : Run} {d deadline : Time} (hr : r.dog.Reachable)
    (hp : r.prompt (.dog (.tick d)) = true) (hd : r.dog.shared.deadline = some deadline) :
    r.dog.now + d ≤ deadline := by
  simp only [prompt, Bool.and_eq_true, Option.isNone_iff_eq_none] at hp
  obtain ⟨⟨hnext, hrest⟩, halarm⟩ := hp
  have heq := Watchdog.System.alarm?_eq (Watchdog.System.alert_reachable hr) (stand_of_next? hnext).1
    (Watchdog.System.next?_eq_none.mp hrest)
  rw [heq, hd] at halarm
  exact of_decide_eq_true halarm

theorem next?_of_prompt {r : Run} {d : Time} (hp : r.prompt (.dog (.tick d)) = true) :
    r.next? = none := by
  simp only [prompt, Bool.and_eq_true, Option.isNone_iff_eq_none] at hp
  exact hp.1.1

/-! ## Lulls -/

/-- A stretch of time between one arm of the watchdog and the next. -/
structure Lull where
  start : Time
  /-- When the watchdog killed during it, the latest first. -/
  kills : List Time := []
  deriving DecidableEq, Repr

namespace Lull

/-- A lull that has ended, or lasted up to now, was answered as it should be. -/
def Lawful (timeout : Time) (lull : Lull) (finish : Time) : Prop :=
  lull.kills = [] ∧ finish ≤ lull.start + timeout
    ∨ lull.kills = [lull.start + timeout] ∧ lull.start + timeout ≤ finish

/-- **What that means**: at most one kill and at one moment only, none if the lull was shorter than
the timeout, and one if it was longer. -/
theorem Lawful.answered {timeout : Time} {lull : Lull} {finish : Time}
    (h : lull.Lawful timeout finish) :
    (finish < lull.start + timeout → lull.kills = [])
      ∧ (lull.start + timeout < finish → lull.kills = [lull.start + timeout])
      ∧ (lull.kills = [] ∨ lull.kills = [lull.start + timeout]) := by
  rcases h with ⟨hk, hle⟩ | ⟨hk, hle⟩
  · exact ⟨fun _ => hk, fun hlt => absurd hle (Nat.not_le.mpr hlt), Or.inl hk⟩
  · exact ⟨fun hlt => absurd hle (Nat.not_le.mpr hlt), fun _ => hk, Or.inr hk⟩

end Lull

/-- Lulls, the latest first, each with its end: that is the start of the next one. -/
def spans (finish : Time) : List Lull → List (Lull × Time)
  | [] => []
  | lull :: earlier => (lull, finish) :: spans lull.start earlier

/-- Every lull was answered as it should be. -/
def AllLawful (timeout finish : Time) (lulls : List Lull) : Prop :=
  ∀ lull finish', (lull, finish') ∈ spans finish lulls → lull.Lawful timeout finish'

theorem allLawful_cons {timeout finish : Time} {lull : Lull} {earlier : List Lull} :
    AllLawful timeout finish (lull :: earlier)
      ↔ lull.Lawful timeout finish ∧ AllLawful timeout lull.start earlier := by
  constructor
  · intro h
    exact ⟨h _ _ List.mem_cons_self, fun l f hm => h l f (List.mem_cons_of_mem _ hm)⟩
  · intro ⟨hhead, htail⟩ l f hm
    rcases List.mem_cons.mp hm with e | hm
    · injection e with e1 e2
      exact e1 ▸ e2 ▸ hhead
    · exact htail l f hm

/-- The latest lull may last longer, but not beyond its timeout if it has seen no kill. -/
theorem AllLawful.later {timeout finish finish' : Time} {lulls : List Lull}
    (h : AllLawful timeout finish lulls) (hle : finish ≤ finish')
    (hhead : ∀ lull earlier, lulls = lull :: earlier → lull.kills = [] →
      finish' ≤ lull.start + timeout) : AllLawful timeout finish' lulls := by
  cases lulls with
  | nil => exact fun _ _ hm => absurd hm (by simp [spans])
  | cons lull earlier =>
      obtain ⟨hlawful, hearlier⟩ := allLawful_cons.mp h
      refine allLawful_cons.mpr ⟨?_, hearlier⟩
      rcases hlawful with ⟨hk, _⟩ | ⟨hk, hkill⟩
      · exact Or.inl ⟨hk, hhead lull earlier rfl hk⟩
      · exact Or.inr ⟨hk, Nat.le_trans hkill hle⟩

theorem mem_spans {lull : Lull} {lulls : List Lull} (h : lull ∈ lulls) (finish : Time) :
    ∃ finish', (lull, finish') ∈ spans finish lulls := by
  induction lulls generalizing finish with
  | nil => exact absurd h (by simp)
  | cons l earlier ih =>
      rcases List.mem_cons.mp h with rfl | h
      · exact ⟨finish, List.mem_cons_self⟩
      · obtain ⟨finish', hm⟩ := ih h l.start
        exact ⟨finish', List.mem_cons_of_mem _ hm⟩

/-! ## The diary -/

/-- What is noted of a run. -/
structure Diary where
  /-- When the watchdog was armed for the first time. -/
  armed : Option Time := none
  /-- When the lines were written, the latest first. -/
  written : List Time := []
  /-- The latest first. -/
  lulls : List Lull := []
  /-- When the loop was over. -/
  ended : Option Time := none
  deriving DecidableEq, Repr

namespace Diary

/-- The end of the latest lull: the end of the loop, or now. -/
def finish (d : Diary) (now : Time) : Time := d.ended.getD now

theorem finish_of_none {d : Diary} (h : d.ended = none) (now : Time) : d.finish now = now := by
  rw [finish, h]
  rfl

theorem finish_of_some {d : Diary} {time : Time} (h : d.ended = some time) (now : Time) :
    d.finish now = time := by
  rw [finish, h]
  rfl

/-- A kill belongs to the latest lull. -/
def addKill (time : Time) : List Lull → List Lull
  | [] => []
  | lull :: earlier => { lull with kills := time :: lull.kills } :: earlier

/-- What is noted when a step has led from `r` to `s`. -/
def noted (d : Diary) (r s : Run) : Diary where
  armed := if r.stand = .arming ∧ s.stand ≠ r.stand then some s.dog.now else d.armed
  written := if r.lines.size < s.lines.size then s.dog.now :: d.written else d.written
  lulls :=
    if (r.stand = .arming ∨ r.stand = .rearming) ∧ s.stand ≠ r.stand then
      { start := s.dog.now } :: d.lulls
    else if r.dog.shared.fired < s.dog.shared.fired then addKill s.dog.now d.lulls
    else d.lulls
  ended := d.ended.or (if s.stand.Past then some s.dog.now else none)

end Diary

/-- The diary of a whole run of actions. -/
def diary (r : Run) (d : Diary) : List Action → Diary
  | [] => d
  | a :: more =>
    match r.step a with
    | some s => s.diary (d.noted r s) more
    | none => d

theorem diary_of_step {r s : Run} {a : Action} (h : r.step a = some s) (d : Diary)
    (more : List Action) : r.diary d (a :: more) = s.diary (d.noted r s) more := by
  rw [diary, h]

/-- What is kept with each step on a virtual clock is kept throughout. -/
theorem diary_induction {motive : Diary → Run → Prop}
    (step : ∀ {d : Diary} {r s : Run} {a : Action}, motive d r → r.prompt a = true → Does r a s →
      motive (d.noted r s) s)
    {d : Diary} {r s : Run} {actions : List Action} (hr : motive d r)
    (hp : r.promptly actions = true) (h : r.perform actions = some s) :
    motive (r.diary d actions) s := by
  induction actions generalizing d r with
  | nil => exact Option.some.inj h ▸ hr
  | cons a more ih =>
      obtain ⟨r', hstep, hmore⟩ := perform_cons h
      rw [promptly, hstep, Bool.and_eq_true] at hp
      rw [diary_of_step hstep]
      exact ih (step hr hp.1 (does_of_step hstep)) hp.2 hmore

end Run

end IdleWatch
