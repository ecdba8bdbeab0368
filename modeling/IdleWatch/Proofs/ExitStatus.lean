import IdleWatch.Proofs.RunStep

/-!
# The exit status does not count

Let the child end with another exit status and do everything else as before: the run goes the same
way, to the same report but for the status in it. This is said with any function `f` on exit
statuses, and proved step by step: to do an action on a run, and then put `f status` in the place
of each status, is to put it there first and then do the action.
-/

namespace IdleWatch

/-- Another exit status in the place of the child's. -/
def Child.restatus (f : ExitStatus → ExitStatus) : Child → Child
  | .alive => .alive
  | .exited status => .exited (f status)
  | .reaped status => .reaped (f status)

/-- The same report on another exit status. -/
def Report.restatus (f : ExitStatus → ExitStatus) (report : Report) : Report :=
  { report with exitStatus := f report.exitStatus }

def Outcome.restatus (f : ExitStatus → ExitStatus) : Outcome → Outcome
  | .report r => .report (r.restatus f)
  | .error e => .error e
  | .overflow => .overflow

def Stand.restatus (f : ExitStatus → ExitStatus) : Stand → Stand
  | .dropping outcome => .dropping (outcome.restatus f)
  | .aborting outcome => .aborting (outcome.restatus f)
  | .releasing outcome => .releasing (outcome.restatus f)
  | .ended outcome => .ended (outcome.restatus f)
  | stand => stand

namespace Run

/-- The same run with another exit status of the child. -/
def restatus (f : ExitStatus → ExitStatus) (r : Run) : Run :=
  { r with stand := r.stand.restatus f, child := r.child.restatus f }

/-- The same action, but the child ends with another exit status. -/
def Action.restatus (f : ExitStatus → ExitStatus) : Action → Action
  | .exit status => .exit (f status)
  | a => a

theorem spawning_of_restatus {f : ExitStatus → ExitStatus} {stand : Stand}
    (h : stand.restatus f = .spawning) : stand = .spawning := by
  cases stand with
  | spawning => rfl
  | _ => exact absurd h (by simp [Stand.restatus])

theorem atTop_restatus (f : ExitStatus → ExitStatus) (r : Run) :
    (r.restatus f).atTop = r.atTop.restatus f := by
  unfold atTop
  have hlive : (r.restatus f).live = r.live := rfl
  rw [hlive]
  split
  · rfl
  · rfl

theorem outcome?_restatus (f : ExitStatus → ExitStatus) (r : Run) :
    (r.restatus f).outcome? = r.outcome?.map (Outcome.restatus f) := by
  have hstand : (r.restatus f).stand = r.stand.restatus f := rfl
  rw [outcome?, outcome?, hstand]
  cases r.stand <;> rfl

/-- **Each step is the same on another exit status.** -/
theorem does_restatus (f : ExitStatus → ExitStatus) {r s : Run} {a : Action} (h : Does r a s) :
    Does (r.restatus f) (a.restatus f) (s.restatus f) := by
  have hstand : ∀ {stand : Stand}, r.stand = stand →
      (r.restatus f).stand = stand.restatus f := fun hs => congrArg (Stand.restatus f) hs
  have hchild : ∀ {child : Child}, r.child = child →
      (r.restatus f).child = child.restatus f := fun hc => congrArg (Child.restatus f) hc
  cases h with
  | spawn hs => exact Does.spawn (hstand hs)
  | spawnFailed hs => exact Does.spawnFailed (hstand hs)
  | ready hs ho hne hsorted hbound => exact Does.ready (hstand hs) ho hne hsorted hbound
  | unready hs ho => exact Does.unready (hstand hs) ho
  | interrupt hs ho hreq hint => exact Does.interrupt (hstand hs) ho hreq hint
  | read hs ho hout htodo hreader hpoll =>
      exact Does.read (hstand hs) ho hout htodo hreader hpoll
  | readFailed hs ho hout htodo hreader hpoll =>
      exact Does.readFailed (hstand hs) ho hout htodo hreader hpoll
  | notify howed hdog => exact Does.notify howed hdog
  | overflow hs ho hdog hov =>
      rcases hs with hs | hs
      · exact Does.overflow (Or.inl (hstand hs)) ho hdog hov
      · exact Does.overflow (Or.inr (hstand hs)) ho hdog hov
  | arm hs ho hdog hov =>
      rw [← atTop_restatus]
      exact Does.arm (hstand hs) ho hdog hov
  | rearm hs ho hdog hov => exact Does.rearm (hstand hs) ho hdog hov
  | write hs ho hout haccept => exact Does.write (hstand hs) ho hout haccept
  | writeFailed hs ho hout haccept =>
      exact Does.writeFailed (hstand hs) ho hout haccept
  | endRound hs ho hout htodo =>
      rw [← atTop_restatus]
      exact Does.endRound (hstand hs) ho hout htodo
  | leave hs ho hdog => exact Does.leave (hstand hs) ho hdog
  | reap hs ho hc => exact Does.reap (hstand hs) ho (hchild hc)
  | reapFailed hs ho => exact Does.reapFailed (hstand hs) ho
  | judge hs ho hc => exact Does.judge (hstand hs) ho (hchild hc)
  | drop hs ho hdog => exact Does.drop (hstand hs) ho hdog
  | abort hs ho hdog => exact Does.abort (hstand hs) ho hdog
  | release hs ho => exact Does.release (hstand hs) ho
  | request => exact Does.request
  | exit hs hc =>
      refine Does.exit ?_ (hchild hc)
      exact fun e => hs (spawning_of_restatus e)
  | dog ha hdog hfired => exact Does.dog ha hdog hfired
  | kill ha hdog hfired => exact Does.kill ha hdog hfired

/-- And so is a whole run. -/
theorem perform_restatus (f : ExitStatus → ExitStatus) {r s : Run} {actions : List Action}
    (h : r.perform actions = some s) :
    (r.restatus f).perform (actions.map (Action.restatus f)) = some (s.restatus f) := by
  induction actions generalizing r with
  | nil => exact congrArg (fun r => r.map (restatus f)) h
  | cons a more ih =>
      obtain ⟨r', hstep, hmore⟩ := perform_cons h
      have hstep' := step_of_does (does_restatus f (does_of_step hstep))
      rw [List.map_cons, perform_of_step hstep']
      exact ih hmore

end Run

end IdleWatch
