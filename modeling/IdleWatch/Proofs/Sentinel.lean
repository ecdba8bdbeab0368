import IdleWatch.Proofs.Transcript
import IdleWatch.Proofs.Undisturbed

/-!
# Which sentinels can be matched

A command that is left alone can bring out any lines it likes, as long as none of them has a line
feed in it: it writes them and ends, and the report lists them as they are. Returns, blanks and
replacement characters come through like everything else.

So it can succeed with any sentinel without a line feed, by writing just that. With a line feed in
the sentinel no run succeeds at all, however its streams are cut and mixed, because no line of any
report has one in its text.
-/

namespace IdleWatch

namespace Run

variable {options : Options} {sink : Sink} {r : Run}

/-- The run has ended with a report of success. -/
def Succeeds (r : Run) : Prop :=
  ∃ report, r.outcome? = some (.report report) ∧ report.verdict = .success

theorem Smooth.termination_eq {c : Record} (h : Smooth options sink r c) :
    r.termination = .natural := by
  rcases termination_cases r with ⟨_, hfired⟩ | ⟨_, _, hint⟩ | ⟨hnatural, _⟩
  · rw [h.unfired] at hfired
    exact absurd hfired (Nat.lt_irrefl 0)
  · rw [h.uninterrupted] at hint
    exact absurd hint (by simp)
  · exact hnatural

/-- If standard error has brought nothing, the lines are those of standard output. -/
theorem text_eq_of_quiet {lines : List Line} {c : Record}
    (h : lines.map tag = emitted (fun _ => []) c.rounds) (hquiet : c.bytes .stderr = []) :
    lines.map Line.text = Framing.texts (c.bytes .stdout) := by
  have hstderr := text_eq_of_tag_eq h .stderr
  rw [hquiet] at hstderr
  have hnone : ∀ line ∈ lines, ¬ decide (line.stream = .stderr) = true :=
    List.filter_eq_nil_iff.mp (List.map_eq_nil_iff.mp hstderr)
  have hall : lines.filter (fun line => line.stream = .stdout) = lines := by
    refine List.filter_eq_self.mpr (fun line hline => ?_)
    have hne := hnone line hline
    cases hs : line.stream with
    | stdout => rfl
    | stderr => simp [hs] at hne
  rw [← text_eq_of_tag_eq h .stdout, hall]

/-- **What is matched has no line feed.** -/
theorem newline_notMem_of_succeeds {actions : List Action}
    (h : ({ options, sink } : Run).perform actions = some r) (hr : r.Succeeds) :
    '\n' ∉ options.sentinel.toList := by
  obtain ⟨report, hout, hsuccess⟩ := hr
  have htexts := newline_notMem_of_tag_eq (faithful_report h hout).1
  obtain ⟨status, rfl⟩ := (judged_perform h).judged report (outcome?_of_outcome? hout)
  obtain ⟨_, line, hlast, htext⟩ := verdict_eq_success.mp hsuccess
  rw [options_perform h] at htext
  exact htext ▸ htexts line (List.mem_of_getLast? hlast)

end Run

namespace Rehearsal

open Run (Succeeds)

variable {options : Options} {sink : Sink}

/-- **The texts that a command writes before it ends are the lines of the report**, and the report
is made by the run as it then is. -/
theorem report_transcript (hsink : sink.failure = none) (htime : options.idleTimeout < Time.limit)
    (hchunk : 0 < options.readChunk) (texts : List String)
    (htexts : ∀ text ∈ texts, '\n' ∉ text.toList) :
    ∃ r status, rehearse options sink [.write (Capture.transcript texts) []] = r
      ∧ r.outcome? = some (.report (r.report status)) ∧ r.options = options
      ∧ r.termination = .natural ∧ r.lines.toList.map Line.text = texts := by
  have hstandby := standby_rehearse options sink [.write (Capture.transcript texts) []]
  obtain ⟨actions, _, hperform⟩ := hstandby.leads.exists_actions
  have hjudged := Run.judged_perform hperform
  obtain ⟨c, hlistening, hnil, hstdout, hstderr⟩ :=
    Scene.listening_write hchunk (Scene.listening_start hsink htime) rfl
      (Capture.transcript texts)
  obtain ⟨hsmooth, htoward⟩ := Scene.report_of_finish hchunk hlistening hnil (.code 0)
  obtain ⟨report, hout⟩ := htoward.outcome? hstandby.rest hjudged
  have hstand := Run.outcome?_of_outcome? hout
  obtain ⟨status, rfl⟩ := hjudged.judged report hstand
  refine ⟨_, status, rfl, hout, hsmooth.options, hsmooth.termination_eq, ?_⟩
  have hclear := hsmooth.faithful.clear ((Run.clear_iff hstand).mpr ⟨_, rfl⟩)
  have hemitted := hsmooth.faithful.emitted
  -- no line is left in the outbox, so those that were demanded are written
  rw [hclear.2.2, List.append_nil] at hemitted
  have hheard : c.bytes .stdout = (Capture.transcript texts).flatMap Terminal.arriving := hstdout
  have hlines := Run.text_eq_of_quiet hemitted ((Run.bytes_begin c .stderr).trans hstderr)
  rw [Run.bytes_begin, hheard, Capture.texts_transcript htexts] at hlines
  exact hlines

/-- A command that writes the sentinel and ends has succeeded. -/
theorem succeeds_transcript (hsink : sink.failure = none)
    (htime : options.idleTimeout < Time.limit) (hchunk : 0 < options.readChunk)
    (hsentinel : '\n' ∉ options.sentinel.toList) :
    (rehearse options sink [.write (Capture.transcript [options.sentinel]) []]).Succeeds := by
  obtain ⟨r, status, rfl, hout, hoptions, hnatural, hlines⟩ :=
    report_transcript hsink htime hchunk [options.sentinel] (by simpa using hsentinel)
  refine ⟨_, hout, Run.verdict_eq_success.mpr ⟨hnatural, ?_⟩⟩
  obtain ⟨line, hline, htext⟩ := List.map_eq_singleton_iff.mp hlines
  exact ⟨line, by rw [hline]; rfl, by rw [hoptions, htext]⟩

/--
**A sentinel can be matched if and only if it has no line feed.**

Settings without a defect may have any other sentinel than the empty one. If there is no line feed
in it, a command that only writes can succeed, whatever the sink held before and whatever the size
of a read. If there is one, no run succeeds, whatever is read from the two streams in whatever
pieces and order, and whatever else happens in the meantime.
-/
theorem sentinel_matched_iff {s : Settings} (h : s.defect? = none)
    (htime : s.options.idleTimeout < Time.limit) {sink : Sink} (hsink : sink.failure = none) :
    ((∃ script : List Act, (∀ act ∈ script, ∃ out err, act = .write out err)
        ∧ (rehearse s.options sink script).Succeeds) ↔ '\n' ∉ s.sentinel.toList)
      ∧ ('\n' ∈ s.sentinel.toList → ∀ (sink' : Sink) (actions : List Run.Action) (r : Run),
        ({ options := s.options, sink := sink' } : Run).perform actions = some r →
          ¬ r.Succeeds) := by
  refine ⟨⟨?_, ?_⟩, ?_⟩
  · intro ⟨script, _, hsuccess⟩
    obtain ⟨actions, _, hperform⟩ := (standby_rehearse s.options sink script).leads.exists_actions
    exact Run.newline_notMem_of_succeeds hperform hsuccess
  · intro hnewline
    refine ⟨_, ?_, succeeds_transcript hsink htime (Capture.readChunk_pos h) hnewline⟩
    intro act hact
    exact ⟨_, _, List.mem_singleton.mp hact⟩
  · intro hnewline sink' actions r hperform hsuccess
    exact Run.newline_notMem_of_succeeds hperform hsuccess hnewline

/-- Blanks, returns and a replacement character are matched, a byte at a time; a line feed never. -/
theorem sentinel_matched_iff_blanks :
    (∃ script : List Act, (∀ act ∈ script, ∃ out err, act = .write out err)
        ∧ (rehearse ({ sentinel := " \r \uFFFD\r", readChunk := 1 } : Settings).options {}
          script).Succeeds)
      ∧ ∀ (sink : Sink) (actions : List Run.Action) (r : Run),
        ({ options := ({ sentinel := "O\nK" } : Settings).options, sink } : Run).perform actions
          = some r → ¬ r.Succeeds := by
  have hsink : ({} : Sink).failure = none := rfl
  constructor
  · exact (sentinel_matched_iff (by decide) (by decide) hsink).1.mpr (by decide)
  · exact (sentinel_matched_iff (by decide) (by decide) hsink).2 (by decide)

end Rehearsal

end IdleWatch
