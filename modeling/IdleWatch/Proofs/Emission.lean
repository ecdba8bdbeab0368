import IdleWatch.Proofs.Faithful

/-!
# What a run writes out

A report lists the lines of a run, and the sink holds them. Both follow from the record alone: each
stream's lines are those of its bytes, and they come out round by round, standard output first. As
no line has a line feed in its text, what the sink holds can be cut back into the lines.
-/

namespace IdleWatch.Run

/-- What is read in a whole run of actions. -/
def reads (options : Options) (sink : Sink) (actions : List Action) : Record :=
  ({ options, sink } : Run).record {} actions

/-- What was written can be cut back into the lines. -/
theorem split_passage {lines : List Line} (h : ∀ line ∈ lines, '\n' ∉ line.text.toList) :
    Framing.split '\n' (passage lines).toList
      = (lines.map (fun line => line.text.toList), []) := by
  refine Framing.Cut.eq_split ⟨?_, ?_, List.not_mem_nil⟩
  · rw [passage, String.toList_join, List.flatMap_map, List.flatMap_map, List.append_nil]
    simp only [String.toList_append]
    rfl
  · intro p hp
    obtain ⟨line, hline, rfl⟩ := List.mem_map.mp hp
    exact h line hline

theorem map_text_filter (lines : List Line) (stream : Stream) :
    (lines.filter (fun line => line.stream = stream)).map Line.text
      = ((lines.map tag).filter (fun l => l.1 = stream)).map Prod.snd := by
  rw [List.filter_map, List.map_map]
  rfl

/-- The lines of each stream are those of all its bytes. -/
theorem text_eq_of_tag_eq {lines : List Line} {c : Record}
    (h : lines.map tag = emitted (fun _ => []) c.rounds) (stream : Stream) :
    (lines.filter (fun line => line.stream = stream)).map Line.text
      = Framing.texts (c.bytes stream) := by
  rw [map_text_filter, h, filter_emitted, List.nil_append]
  rfl

theorem newline_notMem_of_tag_eq {lines : List Line} {c : Record}
    (h : lines.map tag = emitted (fun _ => []) c.rounds) :
    ∀ line ∈ lines, '\n' ∉ line.text.toList := by
  intro line hline
  have hmem : line.text ∈ (lines.filter (fun l => l.stream = line.stream)).map Line.text :=
    List.mem_map_of_mem (List.mem_filter.mpr ⟨hline, by simp⟩)
  rw [text_eq_of_tag_eq h] at hmem
  exact Framing.newline_notMem_texts line.text hmem

/-- What a report on a run of actions says is what these actions have read. -/
theorem faithful_report {options : Options} {sink : Sink} {actions : List Action} {r : Run}
    {report : Report} (h : ({ options, sink } : Run).perform actions = some r)
    (hr : r.outcome? = some (.report report)) :
    report.lines.map tag = emitted (fun _ => []) (reads options sink actions).rounds
      ∧ (∀ (i : Nat) (line : Line), report.lines[i]? = some line → line.seq = i)
      ∧ r.sink.text = sink.text ++ passage report.lines := by
  have hall : Faithful sink r (reads options sink actions) :=
    faithful_perform (faithful_start options sink) h
  have hout := outcome?_of_outcome? hr
  have hlines := hall.reported report hout
  have hout' : r.outbox = [] := (hall.clear ((clear_iff hout).mpr ⟨report, rfl⟩)).2.2
  have hwritten : Unfailed r.stand := by
    intro e he
    rw [hout] at he
    exact absurd he (by simp)
  refine ⟨?_, ?_, ?_⟩
  · rw [hlines, ← hall.emitted, hout', List.append_nil]
  · rw [hlines]
    exact hall.numbered
  · rw [hlines]
    exact hall.written hwritten

/--
**A report lists the lines of what was read, and so does the sink.**

However the streams were ready, however their bytes were cut and whatever the watchdog, the
supervisor and the child did in between: the lines of each stream are those of its bytes, each is
numbered by its place, those of an earlier round come before those of a later one and in each round
those of standard output come first. The sink has got each line's text and a line feed after it,
and no text has a line feed.
-/
theorem report_lines {options : Options} {sink : Sink} {actions : List Action} {r : Run}
    {report : Report} (h : ({ options, sink } : Run).perform actions = some r)
    (hr : r.outcome? = some (.report report)) :
    (∀ stream, (report.lines.filter (fun line => line.stream = stream)).map Line.text
        = Framing.texts ((reads options sink actions).bytes stream))
      ∧ (∀ (i : Nat) (line : Line), report.lines[i]? = some line → line.seq = i)
      ∧ report.lines.map tag = emitted (fun _ => []) (reads options sink actions).rounds
      ∧ (∀ line ∈ report.lines, '\n' ∉ line.text.toList)
      ∧ r.sink.text = sink.text ++ passage report.lines
      ∧ Framing.split '\n' (passage report.lines).toList
        = (report.lines.map (fun line => line.text.toList), []) := by
  obtain ⟨htag, hseq, hsink⟩ := faithful_report h hr
  have hnewline := newline_notMem_of_tag_eq htag
  exact ⟨text_eq_of_tag_eq htag, hseq, htag, hnewline, hsink, split_passage hnewline⟩

/-- Three rounds: a line of standard output comes in two pieces, and between them one of standard
error; a kill does not keep back the line that comes after it. -/
def threeRounds : List Action :=
  [.spawned (.ok ()), .next, .next,
    .ready [0, 1], .read (.ok [97, 13]), .read (.ok [98, 10]), .next, .next, .next, .next,
    .request, .interrupt,
    .ready [0, 1], .read (.ok [10, 99]), .next, .next, .next, .read (.ok []), .next, .exit none,
    .ready [0], .read (.ok [10]), .next, .dog (.tick 5), .next, .next, .next,
    .ready [0], .read (.ok []), .next,
    .next, .next, .reaped (.ok ()), .next, .next, .next, .next]

theorem report_lines_threeRounds :
    ∃ r report, ({ options := ⟨"sh", [], false, 5, "c", 4⟩ } : Run).perform threeRounds = some r
      ∧ r.outcome? = some (.report report)
      ∧ r.kills = [.shutdown]
      ∧ (reads ⟨"sh", [], false, 5, "c", 4⟩ {} threeRounds).bytes .stdout = [97, 13, 10, 99, 10]
      ∧ report.lines = [⟨"b", .stderr, 0⟩, ⟨"a", .stdout, 1⟩, ⟨"c", .stdout, 2⟩]
      ∧ Framing.split '\n' r.sink.text.toList = ([['b'], ['a'], ['c']], []) := by
  have h : ({ options := ⟨"sh", [], false, 5, "c", 4⟩ } : Run).perform threeRounds = some _ := rfl
  obtain ⟨_, _, _, _, hsink, hsplit⟩ := report_lines h rfl
  refine ⟨_, _, h, rfl, rfl, rfl, rfl, ?_⟩
  rw [hsink]
  exact hsplit

end IdleWatch.Run
