import IdleWatch.Proofs.Reception
import IdleWatch.Proofs.WatchStep
import IdleWatch.Run.Machine

/-!
# What a step of a run can do

As for a watchdog, one relation says everything a step can do, and `does_of_step` is where `step`
is opened; `step_of_does` is the converse, that the relation says no more than that. What the
relation does not open is what has laws of its own: a step of the watchdog, a poll of a reader, a
line written to the sink.
-/

namespace IdleWatch

/-- The outcome, once it is known. -/
def Stand.outcome? : Stand → Option Outcome
  | .dropping outcome | .aborting outcome | .releasing outcome | .ended outcome => some outcome
  | _ => none

end IdleWatch

namespace IdleWatch.Run

theorem stand_of_outcome? {r : Run} {outcome : Outcome} (h : r.outcome? = some outcome) :
    r.stand = .ended outcome := by
  unfold outcome? at h
  split at h
  · rename_i hs
    injection h with h
    exact h ▸ hs
  · exact absurd h (by simp)

theorem outcome?_of_outcome? {r : Run} {outcome : Outcome} (h : r.outcome? = some outcome) :
    r.stand.outcome? = some outcome := by
  rw [stand_of_outcome? h]
  rfl

/-- **Everything that a step can do**, with what it needs. -/
inductive Does (r : Run) : Action → Run → Prop where
  | spawn : r.stand = .spawning →
      Does r (.spawned (.ok ())) { r with
        live := [.new .stdout r.options.readChunk, .new .stderr r.options.readChunk]
        stand := .arming }
  | spawnFailed {e : RunError} : r.stand = .spawning →
      Does r (.spawned (.error e)) { r with stand := .ended (.error e) }
  | ready {places : List Nat} : r.stand = .waiting → r.dog.owed = 0 → places ≠ [] →
      places.Pairwise (· < ·) → (∀ p ∈ places, p < r.live.length) →
      Does r (.ready places) { r with stand := .serving, todo := places, closed := [] }
  | unready {stream : Stream} {fault : Fault} : r.stand = .waiting → r.dog.owed = 0 →
      Does r (.unready stream fault) (r.giveUp (.error (.register stream fault)))
  | interrupt : r.stand = .waiting → r.dog.owed = 0 → r.requested = true →
      r.interrupted = false →
      Does r .interrupt { r.note (.killed .shutdown) with interrupted := true }
  | read {result : ReadResult} {place : Nat} {todo : List Nat} {reader reader' : Reader}
      {polled : Polled} : r.stand = .serving → r.dog.owed = 0 → r.outbox = [] →
      r.todo = place :: todo → r.live[place]? = some reader →
      reader.poll result = (reader', .ok polled) →
      Does r (.read result) { r with
        live := r.live.set place reader'
        todo
        closed := if polled.stillOpen then r.closed else place :: r.closed
        outbox := polled.output.lines.toList
        notes := r.notes ++ polled.output.notes }
  | readFailed {result : ReadResult} {place : Nat} {todo : List Nat} {reader : Reader}
      {fault : Fault} : r.stand = .serving → r.dog.owed = 0 → r.outbox = [] →
      r.todo = place :: todo → r.live[place]? = some reader →
      reader.poll result = (reader, .error fault) →
      Does r (.read result) (r.giveUp (.error (.read reader.stream fault)))
  | notify {dog : Watchdog.System} : 0 < r.dog.owed → r.dog.step .notify = some dog →
      Does r .next { r with dog }
  | overflow {dog : Watchdog.System} : r.stand = .arming ∨ r.stand = .rearming → r.dog.owed = 0 →
      r.dog.step (.arm r.options.idleTimeout) = some dog →
      (r.dog.shared.arm r.dog.now r.options.idleTimeout).2 = .overflowed →
      Does r .next ({ r with dog }.giveUp .overflow)
  | arm {dog : Watchdog.System} : r.stand = .arming → r.dog.owed = 0 →
      r.dog.step (.arm r.options.idleTimeout) = some dog →
      (r.dog.shared.arm r.dog.now r.options.idleTimeout).2 ≠ .overflowed →
      Does r .next ({ r with dog }.enter .running).atTop
  | rearm {dog : Watchdog.System} : r.stand = .rearming → r.dog.owed = 0 →
      r.dog.step (.arm r.options.idleTimeout) = some dog →
      (r.dog.shared.arm r.dog.now r.options.idleTimeout).2 ≠ .overflowed →
      Does r .next { r with dog, stand := .serving }
  | write {line : Line} {rest : List Line} {sink : Sink} : r.stand = .serving → r.dog.owed = 0 →
      r.outbox = line :: rest →
      r.sink.accept { line with seq := r.lines.size } = (sink, none) →
      Does r .next { r with
        sink
        outbox := rest
        lines := r.lines.push { line with seq := r.lines.size }
        stand := .rearming }
  | writeFailed {line : Line} {rest : List Line} {sink : Sink} {fault : Fault} :
      r.stand = .serving → r.dog.owed = 0 → r.outbox = line :: rest →
      r.sink.accept { line with seq := r.lines.size } = (sink, some fault) →
      Does r .next ({ r with sink }.giveUp (.error (.output fault)))
  | endRound : r.stand = .serving → r.dog.owed = 0 → r.outbox = [] → r.todo = [] →
      Does r .next { r with live := eraseAll r.live r.closed, closed := [] }.atTop
  | leave {dog : Watchdog.System} : r.stand = .leaving → r.dog.owed = 0 →
      r.dog.step .cancel = some dog → Does r .next { r with dog, stand := .reaping }
  | reap {status : ExitStatus} : r.stand = .reaping → r.dog.owed = 0 → r.child = .exited status →
      Does r (.reaped (.ok ())) { r.note .reaped with
        child := .reaped status, stand := .judging }
  | reapFailed {fault : Fault} : r.stand = .reaping → r.dog.owed = 0 →
      Does r (.reaped (.error fault)) (r.giveUp (.error (.wait fault)))
  | judge {status : ExitStatus} : r.stand = .judging → r.dog.owed = 0 →
      r.child = .reaped status →
      Does r .next { r.enter .terminated with stand := .dropping (.report (r.report status)) }
  | drop {outcome : Outcome} {dog : Watchdog.System} : r.stand = .dropping outcome →
      r.dog.owed = 0 → r.dog.step .cancel = some dog →
      Does r .next { r with dog, stand := .aborting outcome }
  | abort {outcome : Outcome} {dog : Watchdog.System} : r.stand = .aborting outcome →
      r.dog.owed = 0 → r.dog.step .abort = some dog →
      Does r .next { r with dog, stand := .releasing outcome }
  | release {outcome : Outcome} : r.stand = .releasing outcome → r.dog.owed = 0 →
      Does r .next { r.note .released with stand := .ended outcome }
  | request : Does r .request { r with requested := true }
  | exit {status : ExitStatus} : r.stand ≠ .spawning → r.child = .alive →
      Does r (.exit status) { r.note .exited with child := .exited status }
  | dog {a : Watchdog.Action} {dog : Watchdog.System} : isDogs a = true →
      r.dog.step a = some dog → dog.shared.fired = r.dog.shared.fired →
      Does r (.dog a) { r with dog }
  | kill {a : Watchdog.Action} {dog : Watchdog.System} : isDogs a = true →
      r.dog.step a = some dog → dog.shared.fired ≠ r.dog.shared.fired →
      Does r (.dog a) ({ r with dog }.note (.killed .watchdog))

/-- At the top of the loop the supervisor waits or leaves. -/
theorem atTop_cases (r : Run) :
    (r.live = [] ∧ r.atTop = { r.enter .draining with stand := .leaving })
      ∨ (r.live ≠ [] ∧ r.atTop = { r with stand := .waiting }) := by
  unfold atTop
  split
  · rename_i h
    exact Or.inl ⟨List.isEmpty_iff.mp h, rfl⟩
  · rename_i h
    exact Or.inr ⟨fun e => h (List.isEmpty_iff.mpr e), rfl⟩

/-- It changes nothing else but what is noted. -/
theorem atTop_eq (r : Run) : ∃ stand effects, r.atTop = { r with stand, effects } := by
  rcases atTop_cases r with ⟨_, heq⟩ | ⟨_, heq⟩
  · exact ⟨_, _, heq⟩
  · exact ⟨_, _, heq⟩

/-- There the run has no outcome yet. -/
theorem atTop_outcome? (r : Run) : r.atTop.stand.outcome? = none := by
  rcases atTop_cases r with ⟨_, heq⟩ | ⟨_, heq⟩
  · rw [heq]; rfl
  · rw [heq]; rfl

theorem atTop_dog (r : Run) : r.atTop.dog = r.dog := by
  obtain ⟨_, _, heq⟩ := atTop_eq r
  rw [heq]

theorem arm_eq {r s : Run} {goOn : Run → Run} (h : r.arm goOn = some s) :
    ∃ dog, r.dog.step (.arm r.options.idleTimeout) = some dog
      ∧ ((r.dog.shared.arm r.dog.now r.options.idleTimeout).2 = .overflowed
          ∧ s = { r with dog }.giveUp .overflow
        ∨ (r.dog.shared.arm r.dog.now r.options.idleTimeout).2 ≠ .overflowed
          ∧ s = goOn { r with dog }) := by
  rw [arm, Watchdog.System.lock_eq] at h
  split at h
  · rename_i dog ho hdog
    injection h with h
    exact ⟨dog, hdog, Or.inl ⟨ho, h.symm⟩⟩
  · rename_i dog hdog hno
    injection h with h
    exact ⟨dog, hdog, Or.inr ⟨hno, h.symm⟩⟩
  · exact absurd h (by simp)

theorem does_write {r : Run} {line : Line} {rest : List Line} (hs : r.stand = .serving)
    (ho : r.dog.owed = 0) (hout : r.outbox = line :: rest) :
    Does r .next (r.write line rest) := by
  unfold write
  dsimp only
  split
  · rename_i sink h
    exact Does.write hs ho hout h
  · rename_i sink fault h
    exact Does.writeFailed hs ho hout h

theorem does_next {r s : Run} (h : r.next? = some s) : Does r .next s := by
  unfold next? at h
  split at h
  · rename_i howed
    obtain ⟨dog, hdog, rfl⟩ := Option.map_eq_some_iff.mp h
    exact Does.notify howed hdog
  rename_i howed
  have ho : r.dog.owed = 0 := by omega
  split at h
  · rename_i hs
    obtain ⟨dog, hdog, ⟨hov, rfl⟩ | ⟨hov, rfl⟩⟩ := arm_eq h
    · exact Does.overflow (Or.inl hs) ho hdog hov
    · exact Does.arm hs ho hdog hov
  · rename_i hs
    split at h
    · rename_i hout
      injection h with h
      subst h
      exact does_write hs ho hout
    · rename_i hout htodo
      injection h with h
      subst h
      exact Does.endRound hs ho hout htodo
    · exact absurd h (by simp)
  · rename_i hs
    obtain ⟨dog, hdog, ⟨hov, rfl⟩ | ⟨hov, rfl⟩⟩ := arm_eq h
    · exact Does.overflow (Or.inr hs) ho hdog hov
    · exact Does.rearm hs ho hdog hov
  · rename_i hs
    obtain ⟨dog, hdog, rfl⟩ := Option.map_eq_some_iff.mp h
    exact Does.leave hs ho hdog
  · rename_i hs
    split at h
    · rename_i hchild
      injection h with h
      subst h
      exact Does.judge hs ho hchild
    · exact absurd h (by simp)
  · rename_i hs
    obtain ⟨dog, hdog, rfl⟩ := Option.map_eq_some_iff.mp h
    exact Does.drop hs ho hdog
  · rename_i hs
    obtain ⟨dog, hdog, rfl⟩ := Option.map_eq_some_iff.mp h
    exact Does.abort hs ho hdog
  · rename_i hs
    injection h with h
    subst h
    exact Does.release hs ho
  · exact absurd h (by simp)

/-- To put back what is there changes nothing. -/
theorem set_of_getElem? {l : List Reader} {place : Nat} {reader : Reader}
    (h : l[place]? = some reader) : l.set place reader = l := by
  obtain ⟨hlt, rfl⟩ := List.getElem?_eq_some_iff.mp h
  exact List.set_getElem_self hlt

theorem does_read {r s : Run} {result : ReadResult} (ho : r.dog.owed = 0)
    (h : r.readNext result = some s) : Does r (.read result) s := by
  unfold readNext at h
  split at h
  · rename_i hs hout htodo
    split at h
    · exact absurd h (by simp)
    · rename_i reader hreader
      dsimp only at h
      split at h
      · rename_i reader' fault hpoll
        -- the reader that is put back is the same one
        obtain ⟨_, _, rfl⟩ := Reader.failed_of_poll hpoll
        rw [set_of_getElem? hreader] at h
        injection h with h
        subst h
        exact Does.readFailed hs ho hout htodo hreader hpoll
      · rename_i reader' polled hpoll
        injection h with h
        subst h
        exact Does.read hs ho hout htodo hreader hpoll
  · exact absurd h (by simp)

theorem does_dog {r s : Run} {a : Watchdog.Action} (ha : isDogs a = true)
    (h : r.stepDog a = some s) : Does r (.dog a) s := by
  obtain ⟨dog, hdog, rfl⟩ := Option.map_eq_some_iff.mp h
  have hle := Watchdog.System.fired_le (Watchdog.System.does_of_step hdog)
  dsimp only
  split
  · exact Does.kill ha hdog (by omega)
  · exact Does.dog ha hdog (by omega)

theorem does_of_step {r s : Run} {a : Action} (h : r.step a = some s) : Does r a s := by
  cases a with
  | spawned result =>
      unfold step at h
      dsimp only at h
      split at h
      · rename_i hs
        injection h with h
        subst h
        exact Does.spawn hs
      · rename_i hs
        injection h with h
        subst h
        exact Does.spawnFailed hs
      · exact absurd h (by simp)
  | ready places =>
      rw [step] at h
      split at h
      · rename_i hcan
        injection h with h
        subst h
        simp only [canServe, Bool.and_eq_true, decide_eq_true_eq, Bool.not_eq_true',
          List.isEmpty_eq_false_iff, List.all_eq_true] at hcan
        obtain ⟨⟨⟨⟨hs, ho⟩, hne⟩, hsorted⟩, hbound⟩ := hcan
        exact Does.ready hs ho hne hsorted hbound
      · exact absurd h (by simp)
  | unready stream fault =>
      rw [step] at h
      split at h
      · rename_i hg
        injection h with h
        subst h
        exact Does.unready hg.1 hg.2
      · exact absurd h (by simp)
  | interrupt =>
      rw [step] at h
      split at h
      · rename_i hg
        obtain ⟨hs, ho, hreq, hint⟩ := hg
        injection h with h
        subst h
        exact Does.interrupt hs ho hreq (by simpa using hint)
      · exact absurd h (by simp)
  | read result =>
      rw [step] at h
      split at h
      · rename_i ho
        exact does_read ho h
      · exact absurd h (by simp)
  | next => exact does_next h
  | reaped result =>
      unfold step at h
      dsimp only at h
      split at h
      · rename_i hg
        split at h
        · rename_i hchild
          injection h with h
          subst h
          exact Does.reap hg.1 hg.2 hchild
        · injection h with h
          subst h
          exact Does.reapFailed hg.1 hg.2
        · exact absurd h (by simp)
      · exact absurd h (by simp)
  | request =>
      rw [step] at h
      injection h with h
      subst h
      exact Does.request
  | exit status =>
      unfold step at h
      dsimp only at h
      split at h
      · exact absurd h (by simp)
      · rename_i hchild hs
        injection h with h
        subst h
        exact Does.exit hs hchild
      · exact absurd h (by simp)
  | dog a =>
      rw [step] at h
      split at h
      · rename_i ha
        exact does_dog ha h
      · exact absurd h (by simp)

/-! ## The relation says no more than that -/

theorem arm_of_overflow {r : Run} {dog : Watchdog.System} {goOn : Run → Run}
    (hdog : r.dog.step (.arm r.options.idleTimeout) = some dog)
    (hov : (r.dog.shared.arm r.dog.now r.options.idleTimeout).2 = .overflowed) :
    r.arm goOn = some ({ r with dog }.giveUp .overflow) := by
  rw [arm, Watchdog.System.lock_eq, hov, hdog]

theorem arm_of_ne_overflow {r : Run} {dog : Watchdog.System} {goOn : Run → Run}
    (hdog : r.dog.step (.arm r.options.idleTimeout) = some dog)
    (hov : (r.dog.shared.arm r.dog.now r.options.idleTimeout).2 ≠ .overflowed) :
    r.arm goOn = some (goOn { r with dog }) := by
  rw [arm, Watchdog.System.lock_eq, hdog]
  split
  · rename_i h _
    exact absurd h hov
  · rename_i dog' h _
    exact congrArg (fun d => some (goOn { r with dog := d })) (Option.some.inj h).symm
  · rename_i h
    exact absurd h (by simp)

theorem step_of_does {r s : Run} {a : Action} (h : Does r a s) : r.step a = some s := by
  cases h with
  | spawn hs | spawnFailed hs => simp only [step, hs]
  | @ready places hs ho hne hsorted hbound =>
      have hcan : r.canServe places = true := by
        simp only [canServe, Bool.and_eq_true, decide_eq_true_eq, Bool.not_eq_true',
          List.isEmpty_eq_false_iff, List.all_eq_true]
        exact ⟨⟨⟨⟨hs, ho⟩, hne⟩, hsorted⟩, hbound⟩
      rw [step, if_pos hcan]
  | unready hs ho => rw [step, if_pos ⟨hs, ho⟩]
  | interrupt hs ho hreq hint => rw [step, if_pos ⟨hs, ho, hreq, by simp [hint]⟩]
  | read hs ho hout htodo hreader hpoll =>
      simp only [step, if_pos ho, readNext, hs, hout, htodo, hreader, hpoll]
  | readFailed hs ho hout htodo hreader hpoll =>
      simp only [step, if_pos ho, readNext, hs, hout, htodo, hreader, hpoll,
        set_of_getElem? hreader, giveUp]
  | notify howed hdog => simp only [step, next?, if_pos howed, hdog, Option.map_some]
  | overflow hs ho hdog hov =>
      rcases hs with hs | hs
      · simp only [step, next?, ho, Nat.lt_irrefl, if_false, hs, arm_of_overflow hdog hov]
      · simp only [step, next?, ho, Nat.lt_irrefl, if_false, hs, arm_of_overflow hdog hov]
  | arm hs ho hdog hov | rearm hs ho hdog hov =>
      simp only [step, next?, ho, Nat.lt_irrefl, if_false, hs, arm_of_ne_overflow hdog hov]
  | write hs ho hout haccept | writeFailed hs ho hout haccept =>
      simp only [step, next?, ho, Nat.lt_irrefl, if_false, hs, hout, Run.write, haccept]
  | endRound hs ho hout htodo =>
      simp only [step, next?, ho, Nat.lt_irrefl, if_false, hs, hout, htodo]
  | leave hs ho hdog | drop hs ho hdog | abort hs ho hdog =>
      simp only [step, next?, ho, Nat.lt_irrefl, if_false, hs, hdog, Option.map_some]
  | release hs ho => simp only [step, next?, ho, Nat.lt_irrefl, if_false, hs]
  | judge hs ho hchild => simp only [step, next?, ho, Nat.lt_irrefl, if_false, hs, hchild]
  | reap hs ho hchild => simp only [step, if_pos (And.intro hs ho), hchild]
  | reapFailed hs ho => simp only [step, if_pos (And.intro hs ho)]
  | request => rfl
  | exit hs hchild =>
      unfold step
      dsimp only
      split
      · rename_i h
        exact absurd h hs
      · rfl
      · rename_i h
        exact absurd hchild h
  | dog ha hdog hfired =>
      simp only [step, if_pos ha, stepDog, hdog, Option.map_some, hfired, Nat.lt_irrefl, if_false]
  | @kill a dog ha hdog hfired =>
      have hlt : r.dog.shared.fired < dog.shared.fired := by
        have := Watchdog.System.fired_le (Watchdog.System.does_of_step hdog)
        omega
      simp only [step, if_pos ha, stepDog, hdog, Option.map_some, if_pos hlt]

/-! ## Whole runs -/

/-- Do action after action, if each can happen when its turn comes. -/
def perform (r : Run) : List Action → Option Run
  | [] => some r
  | a :: more =>
    match r.step a with
    | some s => s.perform more
    | none => none

theorem perform_cons {r s : Run} {a : Action} {more : List Action}
    (h : r.perform (a :: more) = some s) :
    ∃ r', r.step a = some r' ∧ r'.perform more = some s := by
  rw [perform] at h
  cases hstep : r.step a with
  | none =>
      rw [hstep] at h
      exact absurd h (by simp)
  | some r' =>
      rw [hstep] at h
      exact ⟨r', rfl, h⟩

theorem perform_of_step {r r' : Run} {a : Action} (h : r.step a = some r')
    (more : List Action) : r.perform (a :: more) = r'.perform more := by
  rw [perform, h]

theorem perform_append {r s : Run} {actions : List Action} (h : r.perform actions = some s)
    (more : List Action) : r.perform (actions ++ more) = s.perform more := by
  induction actions generalizing r with
  | nil => exact Option.some.inj h ▸ rfl
  | cons a rest ih =>
      obtain ⟨r', hstep, hrest⟩ := perform_cons h
      rw [List.cons_append, perform_of_step hstep]
      exact ih hrest

/-- What a run keeps with each step, it keeps throughout. -/
theorem perform_induction {motive : Run → Prop}
    (step : ∀ {r s : Run} {a : Action}, motive r → Does r a s → motive s)
    {r s : Run} {actions : List Action} (hr : motive r) (h : r.perform actions = some s) :
    motive s := by
  induction actions generalizing r with
  | nil => exact Option.some.inj h ▸ hr
  | cons a more ih =>
      obtain ⟨r', hstep, hmore⟩ := perform_cons h
      exact ih (step hr (does_of_step hstep)) hmore

/-! ## The step that decides -/

/-- An outcome is kept. -/
theorem outcome_step {r s : Run} {a : Action} {outcome : Outcome}
    (h : r.stand.outcome? = some outcome) (hd : Does r a s) :
    s.stand.outcome? = some outcome := by
  cases hd with
  | drop hs | abort hs | release hs => rw [hs] at h; exact h
  | interrupt | read | notify | request | exit | dog | kill => exact h
  | overflow hs =>
      rcases hs with hs | hs
      · rw [hs] at h; exact absurd h (by simp [Stand.outcome?])
      · rw [hs] at h; exact absurd h (by simp [Stand.outcome?])
  | spawn hs | spawnFailed hs | ready hs | unready hs | readFailed hs | arm hs | rearm hs
  | write hs | writeFailed hs | endRound hs | leave hs | reap hs | reapFailed hs | judge hs =>
      rw [hs] at h
      exact absurd h (by simp [Stand.outcome?])

/-- A run that has an outcome came to it in one step. -/
theorem exists_deciding {r s : Run} {actions : List Action} {outcome : Outcome}
    (h : r.perform actions = some s) (hr : r.stand.outcome? = none)
    (hs : s.stand.outcome? = some outcome) :
    ∃ before a after p q, actions = before ++ a :: after ∧ r.perform before = some p
      ∧ p.stand.outcome? = none ∧ Does p a q ∧ q.stand.outcome? = some outcome
      ∧ q.perform after = some s := by
  induction actions generalizing r with
  | nil =>
      obtain rfl := Option.some.inj h
      exact absurd (hr.symm.trans hs) (by simp)
  | cons a more ih =>
      obtain ⟨q, hstep, hmore⟩ := perform_cons h
      cases hq : q.stand.outcome? with
      | none =>
          obtain ⟨before, b, after, p, q', hsplit, hp, hnone, hd, hq', hafter⟩ := ih hmore hq
          exact ⟨a :: before, b, after, p, q', by rw [hsplit, List.cons_append],
            (perform_of_step hstep before).trans hp, hnone, hd, hq', hafter⟩
      | some first =>
          have hkept := perform_induction
            (motive := fun s => s.stand.outcome? = some first) outcome_step hq hmore
          obtain rfl := Option.some.inj (hkept.symm.trans hs)
          exact ⟨[], a, more, r, q, rfl, rfl, hr, does_of_step hstep, hq, hmore⟩

/-! ## What a run does to its watchdog -/

/-- A step of a run is at most one step of its watchdog, which it arms and cancels only where the
supervisor is about to. -/
theorem dog_of_does {r s : Run} {a : Action} (h : Does r a s) :
    s.dog = r.dog ∨ ∃ b, r.dog.step b = some s.dog
      ∧ ((∃ timeout, b = .arm timeout) → r.stand = .arming ∨ r.stand = .rearming)
      ∧ (b = .cancel → r.stand = .leaving ∨ ∃ outcome, r.stand = .dropping outcome) := by
  cases h with
  | notify _ hdog | abort _ _ hdog => exact Or.inr ⟨_, hdog, by simp, by simp⟩
  | overflow hs _ hdog => exact Or.inr ⟨_, hdog, fun _ => hs, by simp⟩
  | @arm dog hs _ hdog =>
      have hsame : (({ r with dog }.enter .running).atTop).dog = dog := atTop_dog _
      exact Or.inr ⟨_, hsame.symm ▸ hdog, fun _ => Or.inl hs, by simp⟩
  | rearm hs _ hdog => exact Or.inr ⟨_, hdog, fun _ => Or.inr hs, by simp⟩
  | leave hs _ hdog => exact Or.inr ⟨_, hdog, by simp, fun _ => Or.inl hs⟩
  | drop hs _ hdog => exact Or.inr ⟨_, hdog, by simp, fun _ => Or.inr ⟨_, hs⟩⟩
  | dog ha hdog | kill ha hdog =>
      refine Or.inr ⟨_, hdog, ?_, ?_⟩
      · rintro ⟨timeout, rfl⟩
        exact absurd ha (by simp [isDogs])
      · rintro rfl
        exact absurd ha (by simp [isDogs])
  | endRound => exact Or.inl (atTop_dog _)
  | _ => exact Or.inl rfl

theorem reachable_dog_step {r s : Run} {a : Action} (h : r.dog.Reachable) (hd : Does r a s) :
    s.dog.Reachable := by
  rcases dog_of_does hd with heq | ⟨b, hstep, _⟩
  · exact heq ▸ h
  · exact Watchdog.System.Reachable.step h hstep

/-- The watchdog of a run is a watchdog. -/
theorem reachable_dog {options : Options} {sink : Sink} {actions : List Action} {r : Run}
    (h : ({ options, sink } : Run).perform actions = some r) : r.dog.Reachable :=
  perform_induction (motive := fun r => r.dog.Reachable) reachable_dog_step
    Watchdog.System.Reachable.start h

end IdleWatch.Run
