import IdleWatch.Proofs.ExitCode
import IdleWatch.Proofs.KillOrder
import IdleWatch.Proofs.Reception
import IdleWatch.Proofs.Transcript

/-!
# A run that breaks off

A run breaks off in its loop when the streams cannot be waited for, when a read fails or when the
sink refuses a line, and that may happen anywhere in a round: other streams may have been read in
it, and lines written. There is one step with which it happens, the one that decides the outcome.
Up to there the run is faithful to what it has read, and from there on it writes nothing and enters
no phase. So the sink is left with the lines of what was read before that step, and if it was the
sink that failed, with a part of the next one.
-/

namespace IdleWatch

/-! ## A sink that refuses a line -/

/-- A sink that refuses a line has got a part of it, perhaps nothing and perhaps all. -/
theorem Sink.text_of_refused {sink sink' : Sink} {line : Line} {fault : Fault}
    (h : sink.accept line = (sink', some fault)) :
    ∃ part, part <+: Text.Utf8.encode (line.text ++ "\n")
      ∧ sink'.text = sink.text ++ String.ofList (Text.Utf8.decode part) := by
  unfold accept at h
  split at h
  · exact absurd h (by simp)
  · injection h with h
    subst h
    refine ⟨_, List.prefix_rfl, ?_⟩
    rw [Text.Utf8.decode_encode, ← String.append_assoc]
    rfl
  · rename_i count _ _
    injection h with h
    subst h
    exact ⟨_, List.take_prefix count _, rfl⟩
  · injection h with h
    subst h
    exact ⟨[], List.nil_prefix, (String.append_empty ..).symm⟩

/-! ## Phases -/

/-- The phases that a run with this outcome has entered. -/
def Outcome.Entered (phases : List Phase) : Outcome → Prop
  | .report _ => phases = [.spawning, .running, .draining, .terminated]
  | .error _ | .overflow => .terminated ∉ phases

theorem Outcome.Entered.last_iff {phases : List Phase} {outcome : Outcome}
    (h : outcome.Entered phases) :
    phases.getLast? = some .terminated ↔ ∃ report, outcome = .report report := by
  cases outcome with
  | report report =>
      rw [show phases = _ from h]
      exact iff_of_true rfl ⟨report, rfl⟩
  | error | overflow => exact iff_of_false (fun e => h (List.mem_of_getLast? e)) (by simp)

/-- The phases that a run has entered whose supervisor stands here. -/
def Stand.Entered (phases : List Phase) : Stand → Prop
  | .spawning | .arming => phases = [.spawning]
  | .waiting | .serving | .rearming => phases = [.spawning, .running]
  | .leaving | .reaping | .judging => phases = [.spawning, .running, .draining]
  | .dropping outcome | .aborting outcome | .releasing outcome | .ended outcome =>
    outcome.Entered phases

theorem Stand.Entered.terminated_notMem {phases : List Phase} {stand : Stand}
    (h : stand.Entered phases) (hnone : stand.outcome? = none) : .terminated ∉ phases := by
  cases stand with
  | spawning | arming | waiting | serving | rearming | leaving | reaping | judging =>
      rw [show phases = _ from h]
      decide
  | dropping | aborting | releasing | ended => exact absurd hnone (by simp [outcome?])

namespace Run

theorem phases_note (r : Run) (e : Effect) : (r.note e).phases = r.phases ++ e.phase?.toList := by
  rw [phases, note, Array.toList_push, List.filterMap_append, phases]
  cases e <;> rfl

/-- Most effects enter no phase. -/
theorem phases_note_of_none (r : Run) {e : Effect} (he : e.phase? = none) :
    (r.note e).phases = r.phases := by
  rw [phases_note, he]
  exact List.append_nil _

theorem entered_atTop {r : Run} (h : r.phases = [.spawning, .running]) :
    r.atTop.stand.Entered r.atTop.phases := by
  rcases atTop_cases r with ⟨_, heq⟩ | ⟨_, heq⟩
  · rw [heq]
    exact (phases_note r (.entered .draining)).trans (congrArg (· ++ [Phase.draining]) h)
  · rw [heq]
    exact h

/-- **The phases entered can be told by where the supervisor stands.** -/
theorem entered_step {r s : Run} {a : Action} (h : r.stand.Entered r.phases) (hd : Does r a s) :
    s.stand.Entered s.phases := by
  have hfail : r.stand.outcome? = none → .terminated ∉ r.phases := h.terminated_notMem
  have hnote : ∀ e : Effect, e.phase? = none → r.stand.Entered (r.note e).phases :=
    fun e he => (phases_note_of_none r he).symm ▸ h
  cases hd with
  | spawn hs | ready hs | rearm hs | write hs | leave hs | drop hs | abort hs =>
      rw [hs] at h
      exact h
  | spawnFailed hs | unready hs | readFailed hs | writeFailed hs | reapFailed hs =>
      exact hfail (by rw [hs]; rfl)
  | overflow hs =>
      have hnone : r.stand.outcome? = none := by rcases hs with hs | hs <;> rw [hs] <;> rfl
      exact hfail hnone
  | read | notify | request | dog => exact h
  | interrupt => exact hnote (.killed .shutdown) rfl
  | exit => exact hnote .exited rfl
  | kill => exact hnote (.killed .watchdog) rfl
  | reap hs =>
      have hsame := hnote .reaped rfl
      rw [hs] at hsame
      exact hsame
  | release hs =>
      have hsame := hnote .released rfl
      rw [hs] at hsame
      exact hsame
  | arm hs =>
      rw [hs] at h
      exact entered_atTop
        ((phases_note _ (.entered .running)).trans (congrArg (· ++ [Phase.running]) h))
  | endRound hs =>
      rw [hs] at h
      exact entered_atTop h
  | judge hs =>
      rw [hs] at h
      exact (phases_note r (.entered .terminated)).trans (congrArg (· ++ [Phase.terminated]) h)

theorem entered_perform {options : Options} {sink : Sink} {actions : List Action} {r : Run}
    (h : ({ options, sink } : Run).perform actions = some r) : r.stand.Entered r.phases := by
  have hstart : Stand.spawning.Entered ({ options, sink } : Run).phases := rfl
  exact perform_induction (motive := fun r => r.stand.Entered r.phases) entered_step hstart h

/-! ## Before the step that decides, and after it -/

/-- **Once the outcome is known nothing is written and no phase is entered.** -/
theorem decided_step {r s : Run} {a : Action} {outcome : Outcome}
    (h : r.stand.outcome? = some outcome) (hd : Does r a s) :
    s.sink = r.sink ∧ s.phases = r.phases := by
  cases hd with
  | drop | abort | notify | request | dog | read => exact ⟨rfl, rfl⟩
  | release => exact ⟨rfl, phases_note_of_none r rfl⟩
  | exit => exact ⟨rfl, phases_note_of_none r rfl⟩
  | interrupt => exact ⟨rfl, phases_note_of_none r rfl⟩
  | kill => exact ⟨rfl, phases_note_of_none r rfl⟩
  | overflow => exact ⟨rfl, rfl⟩
  | spawn hs | spawnFailed hs | ready hs | unready hs | readFailed hs | arm hs | rearm hs
  | write hs | writeFailed hs | endRound hs | leave hs | reap hs | reapFailed hs | judge hs =>
      -- these start where there is none
      rw [hs] at h
      exact absurd h (by simp [Stand.outcome?])

theorem decided_perform {r s : Run} {actions : List Action} {outcome : Outcome}
    (h : r.stand.outcome? = some outcome) (hp : r.perform actions = some s) :
    s.sink = r.sink ∧ s.phases = r.phases := by
  have hall := perform_induction
    (motive := fun s => s.stand.outcome? = some outcome ∧ s.sink = r.sink ∧ s.phases = r.phases)
    (by
      intro s t a ⟨hs, hsink, hphases⟩ hd
      obtain ⟨hsink', hphases'⟩ := decided_step hs hd
      exact ⟨outcome_step hs hd, hsink'.trans hsink, hphases'.trans hphases⟩)
    ⟨h, rfl, rfl⟩ hp
  exact hall.2

/-! ## How the loop fails -/

/-- **The steps with which the loop fails**: what the run was about to do, and the error. -/
inductive Fails (r : Run) : Action → RunError → Prop where
  /-- The streams cannot be waited for. -/
  | register {stream : Stream} {fault : Fault} : r.stand = .waiting → r.outbox = [] →
      Fails r (.unready stream fault) (.register stream fault)
  /-- The stream whose turn it is cannot be read. -/
  | read {stream : Stream} {fault : Fault} : r.stand = .serving → r.outbox = [] →
      r.source? = some stream → Failed (.error fault) →
      Fails r (.read (.error fault)) (.read stream fault)
  /-- The line that is next is refused. -/
  | output {line : Line} {rest : List Line} {fault : Fault} : r.stand = .serving →
      r.outbox = line :: rest →
      (r.sink.accept { line with seq := r.lines.size }).2 = some fault →
      Fails r .next (.output fault)

/-- What a sink has got of lines that were written, and of those still to be written: of the first
of these it may have a part. -/
def Remains (sink sink' : Sink) (written : List Line) : List Line → Prop
  | [] => sink'.text = sink.text ++ passage written
  | line :: _ => ∃ part, part <+: Text.Utf8.encode (line.text ++ "\n")
      ∧ sink'.text = sink.text ++ passage written ++ String.ofList (Text.Utf8.decode part)

/-- The run broke off in its loop with this error. -/
def BrokeOff (r : Run) (e : RunError) : Prop := .running ∈ r.phases ∧ ∀ fault, e ≠ .wait fault

/-- An error is decided before the loop, in it or after it. -/
theorem fails_of_does {p q : Run} {a : Action} {e : RunError} {sink : Sink} {c : Record}
    (hp : Faithful sink p c) (hphases : p.stand.Entered p.phases)
    (hnone : p.stand.outcome? = none) (hd : Does p a q)
    (hq : q.stand.outcome? = some (.error e)) (hbroke : BrokeOff q e) :
    Fails p a e ∧ q.phases = [.spawning, .running]
      ∧ Remains sink q.sink p.lines.toList p.outbox := by
  have htext : p.sink.text = sink.text ++ passage p.lines.toList :=
    hp.written fun e he => absurd (hnone.symm.trans he) (by simp)
  have hloop : p.stand = .waiting ∨ p.stand = .serving → p.phases = [.spawning, .running] := by
    rintro (hs | hs)
    · rw [hs] at hphases; exact hphases
    · rw [hs] at hphases; exact hphases
  cases hd with
  | unready hs =>
      obtain rfl := Outcome.error.inj (Option.some.inj hq)
      have hout : p.outbox = [] := (hp.clear (by rw [hs]; trivial)).2.2
      refine ⟨.register hs hout, hloop (Or.inl hs), ?_⟩
      rw [hout]
      exact htext
  | readFailed hs _ hout htodo hreader hpoll =>
      obtain rfl := Outcome.error.inj (Option.some.inj hq)
      obtain ⟨rfl, hfailed, _⟩ := Reader.failed_of_poll hpoll
      refine ⟨.read hs hout (source?_eq htodo hreader) hfailed, hloop (Or.inr hs), ?_⟩
      rw [hout]
      exact htext
  | writeFailed hs _ hout haccept =>
      obtain rfl := Outcome.error.inj (Option.some.inj hq)
      obtain ⟨part, hpart, hsink⟩ := Sink.text_of_refused haccept
      refine ⟨.output hs hout (congrArg Prod.snd haccept), hloop (Or.inr hs), ?_⟩
      rw [hout]
      exact ⟨part, hpart, hsink.trans (congrArg (· ++ _) htext)⟩
  | spawnFailed hs =>
      -- no phase but the first has been entered
      have hrunning : Phase.running ∈ p.phases := hbroke.1
      rw [hs] at hphases
      rw [show p.phases = _ from hphases] at hrunning
      exact absurd hrunning (by decide)
  | reapFailed => exact absurd (Outcome.error.inj (Option.some.inj hq)).symm (hbroke.2 _)
  | overflow | judge => exact absurd hq (by simp [Stand.outcome?, giveUp])
  | arm | endRound => exact absurd ((atTop_outcome? _).symm.trans hq) (by simp)
  | spawn | ready | rearm | write | leave | reap => exact absurd hq (by simp [Stand.outcome?])
  | interrupt | read | notify | request | exit | dog | kill =>
      exact absurd (hnone.symm.trans hq) (by simp)
  | drop hs | abort hs | release hs =>
      rw [hs] at hnone
      exact absurd hnone (by simp [Stand.outcome?])

theorem entered_of_outcome {options : Options} {sink : Sink} {actions : List Action} {r : Run}
    {outcome : Outcome} (h : ({ options, sink } : Run).perform actions = some r)
    (hr : r.outcome? = some outcome) : outcome.Entered r.phases := by
  have hentered := entered_perform h
  rw [stand_of_outcome? hr] at hentered
  exact hentered

/--
**A run that breaks off leaves the lines that came before, and no more.**

Whatever ends the run, its last phase is `terminated` if and only if it has a report. If it broke
off in its loop, there is one step with which it did so: the streams could not be waited for, the
stream whose turn it was could not be read, or the sink refused the line that was next. The sink has
the lines that were completed by what was read before that step, those of other streams in the same
round too, each with a line feed; where a line was refused, the lines before it and of it a part.
Nothing comes after that in the sink or among the phases, which end in `running`, and once the run
has ended no callback runs and nothing is killed. The exit code of a program that carries out this
run is that of all errors.
-/
theorem lines_before_failure {options : Options} {sink : Sink} {actions : List Action} {r : Run}
    {outcome : Outcome} (h : ({ options, sink } : Run).perform actions = some r)
    (hr : r.outcome? = some outcome) :
    (r.phases.getLast? = some .terminated ↔ ∃ report, outcome = .report report)
      ∧ ∀ e, outcome = .error e → BrokeOff r e →
        (∃ before failing after s, actions = before ++ failing :: after
          ∧ ({ options, sink } : Run).perform before = some s ∧ Fails s failing e
          ∧ (s.lines.toList ++ s.outbox).map tag
            = emitted (fun _ => []) (reads options sink before).rounds
          ∧ Remains sink r.sink s.lines.toList s.outbox)
        ∧ r.phases = [.spawning, .running]
        ∧ (∀ more s, r.perform more = some s → s.sink = r.sink ∧ s.phases = r.phases
          ∧ s.kills = r.kills ∧ s.dog.fires = r.dog.fires)
        ∧ ∀ watch argv files, Program.Watches watch argv files r →
          (Program.execute watch argv files).exitCode = 2 := by
  refine ⟨(entered_of_outcome h hr).last_iff, ?_⟩
  rintro e rfl hbroke
  obtain ⟨before, failing, after, p, q, hsplit, hbefore, hnone, hd, hq, hafter⟩ :=
    exists_deciding h rfl (outcome?_of_outcome? hr)
  obtain ⟨hsink, hphases⟩ := decided_perform hq hafter
  have hfaithful : Faithful sink p (reads options sink before) :=
    faithful_perform (faithful_start options sink) hbefore
  rw [BrokeOff, hphases] at hbroke
  obtain ⟨hfails, hphases', hremains⟩ :=
    fails_of_does hfaithful (entered_perform hbefore) hnone hd hq hbroke
  refine ⟨⟨before, failing, after, p, hsplit, hbefore, hfails, hfaithful.emitted, ?_⟩,
    hphases.trans hphases', fun more s hmore => ?_, fun watch argv files hrun => ?_⟩
  · exact hsink.symm ▸ hremains
  · have hsheltered := sheltered_perform h
    have hstand := stand_of_outcome? hr
    have hstill := past_perform hsheltered.dog (by rw [hstand]; trivial)
      (hsheltered.unarmed (by rw [hstand]; trivial)) hmore
    obtain ⟨hsink', hphases''⟩ := decided_perform (outcome?_of_outcome? hr) hmore
    exact ⟨hsink', hphases'', hstill⟩
  · rw [hrun.execute_eq hr]
    rfl

/-- A line of standard output is written, then standard error cannot be read in the same round. -/
def brokenRound : List Action :=
  [.spawned (.ok ()), .next, .next, .ready [0, 1], .read (.ok [97, 10]), .next, .next, .next,
    .read (.error .badDescriptor), .next, .next, .next, .next]

/-- The first of two lines of standard error is refused. -/
def refusedLine : List Action :=
  [.spawned (.ok ()), .next, .next, .ready [0, 1], .read (.ok [97, 10]), .next, .next, .next,
    .read (.ok [0xC3, 0xA9, 10, 98, 10]), .next, .next, .next, .next, .next]

/-- It is refused when one of its bytes has been taken, in the middle of a character. -/
def fullDisk : Sink := { failure := some (1, .midway 1 (.number 28)) }

theorem lines_before_failure_midway :
    (∃ r, ({ options := ⟨"sh", [], false, 5, "OK", 8⟩ } : Run).perform brokenRound = some r
      ∧ r.outcome? = some (.error (.read .stderr .badDescriptor))
      ∧ r.sink.text = "a\n" ∧ r.phases = [.spawning, .running]
      ∧ r.phases.getLast? ≠ some .terminated)
    ∧ ∃ (r s : Run) (line : Line) (rest : List Line),
      ({ options := ⟨"sh", [], false, 5, "OK", 8⟩, sink := fullDisk } : Run).perform refusedLine
        = some r
      ∧ r.outcome? = some (.error (.output (.number 28)))
      ∧ s.outbox = line :: rest ∧ Remains fullDisk r.sink s.lines.toList (line :: rest)
      ∧ r.sink.text = "a\n\ufffd" := by
  constructor
  · obtain ⟨r, h, hr, htext, hrunning⟩ : ∃ r,
        ({ options := ⟨"sh", [], false, 5, "OK", 8⟩ } : Run).perform brokenRound = some r
          ∧ r.outcome? = some (.error (.read .stderr .badDescriptor))
          ∧ r.sink.text = "a\n" ∧ .running ∈ r.phases := ⟨_, rfl, rfl, rfl, by decide⟩
    obtain ⟨hlast, hbroken⟩ := lines_before_failure h hr
    obtain ⟨_, hphases, _⟩ := hbroken _ rfl ⟨hrunning, by simp⟩
    refine ⟨r, h, hr, htext, hphases, fun e => ?_⟩
    obtain ⟨report, hreport⟩ := hlast.mp e
    exact absurd hreport (by simp)
  · obtain ⟨r, h, hr, htext, hrunning⟩ : ∃ r,
        ({ options := ⟨"sh", [], false, 5, "OK", 8⟩, sink := fullDisk } : Run).perform refusedLine
            = some r
          ∧ r.outcome? = some (.error (.output (.number 28)))
          ∧ r.sink.text = "a\n\ufffd" ∧ .running ∈ r.phases := ⟨_, rfl, rfl, by decide, by decide⟩
    obtain ⟨_, hbroken⟩ := lines_before_failure h hr
    obtain ⟨⟨_, _, _, s, _, _, hfails, _, hremains⟩, _⟩ := hbroken _ rfl ⟨hrunning, by simp⟩
    cases hfails with
    | output _ hout _ => exact ⟨r, s, _, _, h, hr, hout, hout ▸ hremains, htext⟩

end Run

end IdleWatch
