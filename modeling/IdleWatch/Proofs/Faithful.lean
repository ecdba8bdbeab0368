import IdleWatch.Proofs.Polling
import IdleWatch.Proofs.Record
import IdleWatch.Proofs.RunStep

/-!
# A run is faithful to its record

`Faithful` ties a run to its record. Its heart is that the lines written and those still to be
written are together what the record demands, and that every live reader holds the tail of the
bytes its stream has brought. The places that closed in a round and those still to be read stand in
one increasing list, so no reader is read again after its close, and a stream that closes drops out
of the live readers without moving any other.

A run has many steps and few of them read or write. The others are sorted by what they do with the
outcome: they stay, move on, fail or pass it on.
-/

namespace IdleWatch

/-- A line that the sink takes is written, with a line feed after it. -/
theorem Sink.text_of_accept {sink sink' : Sink} {line : Line}
    (h : sink.accept line = (sink', none)) : sink'.text = sink.text ++ line.text ++ "\n" := by
  unfold accept at h
  split at h
  · injection h with h
    rw [← h]
    rfl
  · exact absurd h (by simp)
  · exact absurd h (by simp)
  · exact absurd h (by simp)

namespace Run

/-! ## Which readers stay -/

/-- What stays after erasing has kept its place in the order. -/
theorem eraseAll_sublist {α : Type} (l : List α) (places : List Nat) :
    (eraseAll l places).Sublist l := by
  induction places generalizing l with
  | nil => exact List.Sublist.refl l
  | cons p places ih => exact (ih (l.eraseIdx p)).trans (List.eraseIdx_sublist l p)

/-- What stays was at none of the places, when these are given in decreasing order. -/
theorem mem_eraseAll {α : Type} {l : List α} {places : List Nat} (h : places.Pairwise (· > ·))
    {x : α} (hx : x ∈ eraseAll l places) : ∃ i, i ∉ places ∧ l[i]? = some x := by
  induction places generalizing l with
  | nil =>
      obtain ⟨i, hi⟩ := List.mem_iff_getElem?.mp hx
      exact ⟨i, List.not_mem_nil, hi⟩
  | cons p places ih =>
      obtain ⟨hp, hplaces⟩ := List.pairwise_cons.mp h
      obtain ⟨i, hi, hget⟩ := ih hplaces hx
      rw [List.getElem?_eraseIdx] at hget
      split at hget
      · refine ⟨i, ?_, hget⟩
        intro hm
        rcases List.mem_cons.mp hm with e | hm
        · omega
        · exact hi hm
      · -- behind `p`, where all places are smaller
        refine ⟨i + 1, ?_, hget⟩
        intro hm
        rcases List.mem_cons.mp hm with e | hm
        · omega
        · have := hp (i + 1) hm
          omega

/-- What is set in the place of an element with the same image is not seen in the images. -/
theorem map_set_of_eq {α β : Type} (f : α → β) {l : List α} {i : Nat} {x y : α}
    (hx : l[i]? = some x) (h : f y = f x) : (l.set i y).map f = l.map f := by
  refine List.ext_getElem? (fun j => ?_)
  rw [List.getElem?_map, List.getElem?_map]
  by_cases hj : j = i
  · subst hj
    rw [List.getElem?_set_self (List.getElem?_eq_some_iff.mp hx).1, hx]
    exact congrArg some h
  · rw [List.getElem?_set_ne (Ne.symm hj)]

/-! ## What a run keeps -/

/-- The stream and text of a line. -/
def tag (line : Line) : Stream × String := (line.stream, line.text)

/-- Lines as they are written, a line feed after each. -/
def passage (lines : List Line) : String :=
  String.join (lines.map (fun line => line.text ++ "\n"))

theorem passage_concat (lines : List Line) (line : Line) :
    passage (lines ++ [line]) = passage lines ++ line.text ++ "\n" := by
  simp [passage, String.join, String.append_assoc]

/-- Lines numbered by their places stay so if the next one gets the next number. -/
theorem numbered_concat {lines : List Line} {next : Line}
    (h : ∀ (i : Nat) (line : Line), lines[i]? = some line → line.seq = i)
    (hnext : next.seq = lines.length) :
    ∀ (i : Nat) (line : Line), (lines ++ [next])[i]? = some line → line.seq = i := by
  intro i line hi
  rcases Nat.lt_trichotomy i lines.length with hlt | heq | hgt
  · rw [List.getElem?_append_left hlt] at hi
    exact h i line hi
  · rw [heq, List.getElem?_concat_length] at hi
    obtain rfl := Option.some.inj hi
    rw [hnext, heq]
  · rw [List.getElem?_eq_none (by rw [List.length_append, List.length_singleton]; omega)] at hi
    exact absurd hi (by simp)

/-- No part of a round is left over. -/
def Clear : Stand → Prop
  | .serving | .rearming => False
  | .dropping outcome | .aborting outcome | .releasing outcome | .ended outcome =>
    ∃ report, outcome = .report report
  | _ => True

/-- No line was refused by the sink. -/
def Unfailed (stand : Stand) : Prop := ∀ e, stand.outcome? ≠ some (.error e)

/-- **What a run has written is what its record demands.** -/
structure Faithful (sink : Sink) (r : Run) (c : Record) : Prop where
  /-- Before the start nothing was read. -/
  unborn : r.stand = .spawning → ∀ stream, c.bytes stream = []
  /-- Each stream has one reader at most, that of standard output first. -/
  ordered : (r.live.map Reader.stream).Sublist [.stdout, .stderr]
  /-- A reader that has not closed holds the unfinished line of its stream. -/
  held : ∀ (place : Nat) (reader : Reader), r.live[place]? = some reader → place ∉ r.closed →
    reader.assembler = Assembler.fed reader.stream (c.bytes reader.stream)
  /-- The places of a round come in increasing order, those that have closed and those to come. -/
  places : (r.closed.reverse ++ r.todo).Pairwise (· < ·)
  /-- From a reader still to come in this round, nothing was read in it. -/
  unread : ∀ place ∈ r.todo, ∀ reader : Reader, r.live[place]? = some reader →
    c.now reader.stream = [] ∧ c.now .stderr = []
  clear : Clear r.stand → r.todo = [] ∧ r.closed = [] ∧ r.outbox = []
  /-- Lines written and lines still to be written are those demanded. -/
  emitted : (r.lines.toList ++ r.outbox).map tag = emitted (fun _ => []) c.rounds
  numbered : ∀ (i : Nat) (line : Line), r.lines.toList[i]? = some line → line.seq = i
  written : Unfailed r.stand → r.sink.text = sink.text ++ passage r.lines.toList
  reported : ∀ report : Report, r.stand.outcome? = some (.report report) →
    report.lines = r.lines.toList

theorem faithful_start (options : Options) (sink : Sink) :
    Faithful sink { options, sink } {} where
  unborn := fun _ _ => rfl
  ordered := by simp
  held := by intro place reader h; exact absurd h (by simp)
  places := List.Pairwise.nil
  unread := by intro place h; exact absurd h (by simp)
  clear := fun _ => ⟨rfl, rfl, rfl⟩
  emitted := rfl
  numbered := by intro i line h; exact absurd h (by simp)
  written := by intro _; simp [passage, String.join]
  reported := by intro report h; exact absurd h (by simp [Stand.outcome?])

/-- All of a run that `Faithful` speaks about, but for the sink and where the supervisor stands. -/
def page (r : Run) : List Reader × List Nat × List Nat × List Line × Array Line :=
  (r.live, r.todo, r.closed, r.outbox, r.lines)

/-- A step that reads and writes nothing keeps this, if it does not promise too much by where it
leads. -/
theorem Faithful.keep {sink : Sink} {r s : Run} {c : Record} (h : Faithful sink r c)
    (hpage : s.page = r.page) (hborn : s.stand = .spawning → r.stand = .spawning)
    (hclear : Clear s.stand → Clear r.stand)
    (hwritten : Unfailed s.stand → Unfailed r.stand ∧ s.sink = r.sink)
    (hreported : ∀ report : Report, s.stand.outcome? = some (.report report) →
      report.lines = r.lines.toList) : Faithful sink s c := by
  simp only [page, Prod.mk.injEq] at hpage
  obtain ⟨h1, h2, h3, h4, h5⟩ := hpage
  constructor
  · exact fun e => h.unborn (hborn e)
  · rw [h1]; exact h.ordered
  · rw [h1, h3]; exact h.held
  · rw [h2, h3]; exact h.places
  · rw [h1, h2]; exact h.unread
  · rw [h2, h3, h4]; exact fun hc => h.clear (hclear hc)
  · rw [h4, h5]; exact h.emitted
  · rw [h5]; exact h.numbered
  · intro hu
    obtain ⟨hu', hsink⟩ := hwritten hu
    rw [hsink, h5]
    exact h.written hu'
  · rw [h5]; exact hreported

/-- The supervisor stays where it is. -/
theorem Faithful.stay {sink : Sink} {r s : Run} {c : Record} (h : Faithful sink r c)
    (hpage : s.page = r.page) (hsink : s.sink = r.sink) (hstand : s.stand = r.stand) :
    Faithful sink s c := by
  refine h.keep hpage ?_ ?_ ?_ ?_
  · rw [hstand]; exact id
  · rw [hstand]; exact id
  · rw [hstand]; exact fun hu => ⟨hu, hsink⟩
  · rw [hstand]; exact h.reported

/-- The supervisor moves on, and there was and is nothing to report. -/
theorem Faithful.move {sink : Sink} {r s : Run} {c : Record} (h : Faithful sink r c)
    (hpage : s.page = r.page) (hr : r.stand.outcome? = none) (hborn : s.stand ≠ .spawning)
    (hclear : Clear s.stand → Clear r.stand) (hsink : Unfailed s.stand → s.sink = r.sink)
    (hs : ∀ report, s.stand.outcome? ≠ some (.report report)) : Faithful sink s c := by
  refine h.keep hpage ?_ hclear ?_ ?_
  · intro e; exact absurd e hborn
  · intro hu
    refine ⟨?_, hsink hu⟩
    intro e he
    rw [hr] at he
    exact absurd he (by simp)
  · intro report he; exact absurd he (hs report)

theorem clear_iff {stand : Stand} {outcome : Outcome} (h : stand.outcome? = some outcome) :
    Clear stand ↔ ∃ report, outcome = .report report := by
  cases stand with
  | dropping | aborting | releasing | ended =>
      obtain rfl := Option.some.inj h
      exact Iff.rfl
  | _ => exact absurd h (by simp [Stand.outcome?])

/-- The supervisor comes to an outcome that is no report. -/
theorem Faithful.fail {sink : Sink} {r s : Run} {c : Record} {outcome : Outcome}
    (h : Faithful sink r c) (hpage : s.page = r.page) (hr : r.stand.outcome? = none)
    (hs : s.stand.outcome? = some outcome) (hno : ∀ report, outcome ≠ .report report)
    (hsink : Unfailed s.stand → s.sink = r.sink) : Faithful sink s c := by
  refine h.move hpage hr ?_ ?_ hsink ?_
  · intro e
    rw [e] at hs
    exact absurd hs (by simp [Stand.outcome?])
  · intro hc
    obtain ⟨report, e⟩ := (clear_iff hs).mp hc
    exact absurd e (hno report)
  · intro report e
    rw [hs] at e
    exact hno report (Option.some.inj e)

/-- The outcome is passed on. -/
theorem Faithful.pass {sink : Sink} {r s : Run} {c : Record} {outcome : Outcome}
    (h : Faithful sink r c) (hpage : s.page = r.page) (hsink : s.sink = r.sink)
    (hr : r.stand.outcome? = some outcome) (hs : s.stand.outcome? = some outcome) :
    Faithful sink s c := by
  refine h.keep hpage ?_ ?_ ?_ ?_
  · intro e
    rw [e] at hs
    exact absurd hs (by simp [Stand.outcome?])
  · rw [clear_iff hr, clear_iff hs]; exact id
  · intro hu
    refine ⟨fun e he => hu e ?_, hsink⟩
    rw [hs, ← hr, he]
  · rw [hs, ← hr]; exact h.reported

theorem faithful_spawn {sink : Sink} {r : Run} {c : Record} (h : Faithful sink r c)
    (hs : r.stand = .spawning) :
    Faithful sink { r with
      live := [.new .stdout r.options.readChunk, .new .stderr r.options.readChunk]
      stand := .arming } c := by
  have hclear : r.todo = [] ∧ r.closed = [] ∧ r.outbox = [] := h.clear (by rw [hs]; trivial)
  have hnone : ∀ stream, c.bytes stream = [] := h.unborn hs
  constructor
  · intro e; exact absurd e (by simp)
  · exact List.Sublist.refl _
  · intro place reader hget _
    rw [hnone, Assembler.fed_nil]
    rcases List.mem_cons.mp (List.mem_of_getElem? hget) with rfl | hm
    · rfl
    · rw [List.mem_singleton.mp hm]
      rfl
  · exact h.places
  · intro place hp
    rw [hclear.1] at hp
    exact absurd hp List.not_mem_nil
  · exact fun _ => hclear
  · exact h.emitted
  · exact h.numbered
  · exact fun _ => h.written (by rw [hs]; simp [Unfailed, Stand.outcome?])
  · intro report hr; exact absurd hr (by simp [Stand.outcome?])

theorem faithful_ready {sink : Sink} {r : Run} {c : Record} {places : List Nat}
    (h : Faithful sink r c) (hs : r.stand = .waiting) (hp : places.Pairwise (· < ·)) :
    Faithful sink { r with stand := .serving, todo := places, closed := [] } c.begin := by
  have hclear : r.todo = [] ∧ r.closed = [] ∧ r.outbox = [] := h.clear (by rw [hs]; trivial)
  constructor
  · intro e; exact absurd e (by simp)
  · exact h.ordered
  · intro place reader hget _
    rw [bytes_begin]
    exact h.held place reader hget (by rw [hclear.2.1]; exact List.not_mem_nil)
  · exact hp
  · intro _ _ _ _; exact ⟨rfl, rfl⟩
  · exact False.elim
  · rw [emitted_begin]
    exact h.emitted
  · exact h.numbered
  · exact fun _ => h.written (by rw [hs]; simp [Unfailed, Stand.outcome?])
  · intro report hr; exact absurd hr (by simp [Stand.outcome?])

/-- The places of two live readers tell their streams. -/
theorem Faithful.streams {sink : Sink} {r : Run} {c : Record} (h : Faithful sink r c)
    {i j : Nat} {x y : Reader} (hi : r.live[i]? = some x) (hj : r.live[j]? = some y)
    (hij : i < j) : x.stream = .stdout ∧ y.stream = .stderr := by
  have hall : (r.live.map Reader.stream).Pairwise (fun s t => s = .stdout ∧ t = .stderr) :=
    List.Pairwise.sublist h.ordered (by simp)
  obtain ⟨hi', rfl⟩ := List.getElem?_eq_some_iff.mp hi
  obtain ⟨hj', rfl⟩ := List.getElem?_eq_some_iff.mp hj
  exact List.pairwise_iff_getElem.mp (List.pairwise_map.mp hall) i j hi' hj' hij

theorem Faithful.stream_ne {sink : Sink} {r : Run} {c : Record} (h : Faithful sink r c)
    {i j : Nat} {x y : Reader} (hi : r.live[i]? = some x) (hj : r.live[j]? = some y)
    (hij : i ≠ j) : x.stream ≠ y.stream := by
  rcases Nat.lt_or_gt_of_ne hij with hlt | hlt
  · obtain ⟨hx, hy⟩ := h.streams hi hj hlt
    rw [hx, hy]
    exact Stream.noConfusion
  · obtain ⟨hy, hx⟩ := h.streams hj hi hlt
    rw [hx, hy]
    exact Stream.noConfusion

theorem map_tag_lines (stream : Stream) (bytes : List UInt8) :
    (Framing.lines stream bytes).map tag
      = (Framing.texts bytes).map (fun text => (stream, text)) := by
  rw [Framing.lines, List.map_map]
  rfl

/-- A reader still to come in this round has not closed in it. -/
theorem Faithful.notMem_closed {sink : Sink} {r : Run} {c : Record} (h : Faithful sink r c)
    {place : Nat} {todo : List Nat} (htodo : r.todo = place :: todo) : place ∉ r.closed := by
  obtain ⟨_, _, hacross⟩ := List.pairwise_append.mp h.places
  intro hm
  have hin : place ∈ r.todo := by
    rw [htodo]
    exact List.mem_cons_self
  have := hacross place (List.mem_reverse.mpr hm) place hin
  omega

/-- The reader at any other place reads the other stream, and is as it was. -/
theorem Faithful.other {sink : Sink} {r : Run} {c : Record} (h : Faithful sink r c)
    {place p : Nat} {reader reader' x : Reader} (hreader : r.live[place]? = some reader)
    (hp : p ≠ place) (hx : (r.live.set place reader')[p]? = some x) :
    r.live[p]? = some x ∧ x.stream ≠ reader.stream := by
  rw [List.getElem?_set_ne (Ne.symm hp)] at hx
  exact ⟨hx, h.stream_ne hx hreader hp⟩

/-- What is read next is not what a later reader reads, and not of standard error if one is to
come. -/
theorem Faithful.unread_add {sink : Sink} {r : Run} {c : Record} (h : Faithful sink r c)
    {place : Nat} {todo : List Nat} {reader : Reader} (htodo : r.todo = place :: todo)
    (hreader : r.live[place]? = some reader) (bytes : List UInt8) {p : Nat} (hp : p ∈ todo)
    {x : Reader} (hx : r.live[p]? = some x) :
    (c.add reader.stream bytes).now x.stream = []
      ∧ (c.add reader.stream bytes).now .stderr = [] := by
  have hplaces := (List.pairwise_append.mp h.places).2.1
  rw [htodo] at hplaces
  have hlt : place < p := (List.pairwise_cons.mp hplaces).1 p hp
  obtain ⟨hfirst, hlast⟩ := h.streams hreader hx hlt
  obtain ⟨_, hstderr⟩ := h.unread p (htodo ▸ List.mem_cons_of_mem place hp) x hx
  have hne : Stream.stderr ≠ Stream.stdout := Stream.noConfusion
  rw [hlast, hfirst]
  simp only [Record.add, if_neg hne]
  exact ⟨hstderr, hstderr⟩

theorem faithful_read {sink : Sink} {r : Run} {c : Record} {result : ReadResult} {place : Nat}
    {todo : List Nat} {reader reader' : Reader} {polled : Polled} (h : Faithful sink r c)
    (hs : r.stand = .serving) (hout : r.outbox = []) (htodo : r.todo = place :: todo)
    (hreader : r.live[place]? = some reader) (hpoll : reader.poll result = (reader', .ok polled)) :
    Faithful sink { r with
      live := r.live.set place reader'
      todo
      closed := if polled.stillOpen then r.closed else place :: r.closed
      outbox := polled.output.lines.toList
      notes := r.notes ++ polled.output.notes } (c.add reader.stream (received result)) := by
  have hplaces : (r.closed.reverse ++ place :: todo).Pairwise (· < ·) := htodo ▸ h.places
  obtain ⟨hstream, hlines, hopen⟩ :=
    Reader.poll_fed (h.held place reader hreader (h.notMem_closed htodo)) hpoll
  obtain ⟨hnow, hstderr⟩ := h.unread place (htodo ▸ List.mem_cons_self) reader hreader
  constructor
  · intro e; exact absurd (hs.symm.trans e) (by simp)
  · dsimp only
    rw [map_set_of_eq Reader.stream hreader hstream]
    exact h.ordered
  · intro p x hx hp
    by_cases he : p = place
    · subst he
      rw [List.getElem?_set_self (List.getElem?_eq_some_iff.mp hreader).1] at hx
      obtain rfl := Option.some.inj hx
      cases ho : polled.stillOpen with
      | true =>
          rw [hstream, bytes_add, if_pos rfl]
          exact hopen ho
      | false =>
          -- its place is now one of those that have closed
          rw [ho] at hp
          exact absurd List.mem_cons_self hp
    · obtain ⟨hx', hne⟩ := h.other hreader he hx
      rw [bytes_add, if_neg hne]
      refine h.held p x hx' (fun hm => hp ?_)
      dsimp only
      split
      · exact hm
      · exact List.mem_cons_of_mem place hm
  · dsimp only
    split
    · exact hplaces.sublist ((List.sublist_cons_self place todo).append_left _)
    · rw [List.reverse_cons, List.append_assoc]
      exact hplaces
  · intro p hp x hx
    have hlt : place < p :=
      (List.pairwise_cons.mp (List.pairwise_append.mp hplaces).2.1).1 p hp
    exact h.unread_add htodo hreader _ hp (h.other hreader (by omega) hx).1
  · intro hc
    rw [hs] at hc
    exact hc.elim
  · rw [emitted_add c hnow hstderr, ← h.emitted, hout, List.append_nil, List.map_append, hlines,
      map_tag_lines]
  · exact h.numbered
  · exact h.written
  · exact h.reported

theorem faithful_write {sink sink' : Sink} {r : Run} {c : Record} {line : Line}
    {rest : List Line} (h : Faithful sink r c) (hs : r.stand = .serving)
    (hout : r.outbox = line :: rest)
    (haccept : r.sink.accept { line with seq := r.lines.size } = (sink', none)) :
    Faithful sink { r with
      sink := sink'
      outbox := rest
      lines := r.lines.push { line with seq := r.lines.size }
      stand := .rearming } c := by
  have hsink := Sink.text_of_accept haccept
  have htext := h.written (by rw [hs]; simp [Unfailed, Stand.outcome?])
  have htag : ∀ seq, tag { line with seq } = tag line := fun _ => rfl
  constructor
  · intro e; exact absurd e (by simp)
  · exact h.ordered
  · exact h.held
  · exact h.places
  · exact h.unread
  · exact False.elim
  · have hall := h.emitted
    rw [hout, List.map_append, List.map_cons] at hall
    rw [Array.toList_push, List.append_assoc, List.singleton_append, List.map_append,
      List.map_cons, htag, hall]
  · rw [Array.toList_push]
    exact numbered_concat h.numbered Array.length_toList.symm
  · intro _
    dsimp only
    rw [hsink, htext, Array.toList_push, passage_concat, String.append_assoc, String.append_assoc,
      String.append_assoc]
  · intro report hr; exact absurd hr (by simp [Stand.outcome?])

/-- The places of closed readers, latest first, come in decreasing order. -/
theorem Faithful.closed_decreasing {sink : Sink} {r : Run} {c : Record} (h : Faithful sink r c) :
    r.closed.Pairwise (· > ·) :=
  List.pairwise_reverse.mp (List.pairwise_append.mp h.places).1

/-- At the top of the loop it does not matter whether there is a stream to wait for. -/
theorem Faithful.atTop {sink : Sink} {r : Run} {c : Record}
    (h : Faithful sink { r with stand := .waiting } c) : Faithful sink r.atTop c := by
  rcases atTop_cases r with ⟨_, heq⟩ | ⟨_, heq⟩
  · rw [heq]
    exact h.move rfl rfl (by simp) (fun _ => trivial) (fun _ => rfl)
      (by simp [Stand.outcome?])
  · rw [heq]
    exact h

/-- At the end of a round the closed readers go, and no other. -/
theorem faithful_endRound {sink : Sink} {r : Run} {c : Record} (h : Faithful sink r c)
    (hs : r.stand = .serving) (hout : r.outbox = []) (htodo : r.todo = []) :
    Faithful sink { r with live := eraseAll r.live r.closed, closed := [] }.atTop c := by
  refine Faithful.atTop ?_
  constructor
  · intro e; exact absurd e (by simp)
  · exact ((eraseAll_sublist r.live r.closed).map Reader.stream).trans h.ordered
  · intro place reader hget _
    obtain ⟨i, hi, hlive⟩ := mem_eraseAll h.closed_decreasing (List.mem_of_getElem? hget)
    exact h.held i reader hlive hi
  · exact (List.pairwise_append.mp h.places).2.1
  · intro place hp
    rw [htodo] at hp
    exact absurd hp List.not_mem_nil
  · exact fun _ => ⟨htodo, rfl, hout⟩
  · exact h.emitted
  · exact h.numbered
  · exact fun _ => h.written (by rw [hs]; simp [Unfailed, Stand.outcome?])
  · intro report hr; exact absurd hr (by simp [Stand.outcome?])

theorem source?_eq {r : Run} {place : Nat} {todo : List Nat} {reader : Reader}
    (htodo : r.todo = place :: todo) (hreader : r.live[place]? = some reader) :
    r.source? = some reader.stream := by
  rw [source?, htodo]
  dsimp only
  rw [hreader]
  rfl

/-- **Every step keeps this.** -/
theorem faithful_step {sink : Sink} {r s : Run} {c : Record} {a : Action}
    (h : Faithful sink r c) (hd : Does r a s) : Faithful sink s (r.recorded c a) := by
  cases hd with
  | spawn hs => exact faithful_spawn h hs
  | ready hs _ _ hsorted _ => exact faithful_ready h hs hsorted
  | read hs _ hout htodo hreader hpoll =>
      rw [recorded, source?_eq htodo hreader]
      exact faithful_read h hs hout htodo hreader hpoll
  | write hs _ hout haccept => exact faithful_write h hs hout haccept
  | endRound hs _ hout htodo => exact faithful_endRound h hs hout htodo
  | interrupt | notify | request | exit | dog | kill => exact h.stay rfl rfl rfl
  | drop hs | abort hs | release hs => exact h.pass rfl rfl (by rw [hs]; rfl) rfl
  | arm hs =>
      have hnone : r.stand.outcome? = none := by rw [hs]; rfl
      refine Faithful.atTop (h.move rfl hnone ?_ ?_ (fun _ => rfl) ?_)
      · simp
      · rw [hs]; exact fun _ => trivial
      · simp [Stand.outcome?]
  | rearm hs =>
      have hnone : r.stand.outcome? = none := by rw [hs]; rfl
      refine h.move rfl hnone ?_ ?_ (fun _ => rfl) ?_
      · simp
      · exact False.elim
      · simp [Stand.outcome?]
  | leave hs | reap hs =>
      have hnone : r.stand.outcome? = none := by rw [hs]; rfl
      refine h.move rfl hnone ?_ ?_ (fun _ => rfl) ?_
      · simp
      · rw [hs]; exact fun _ => trivial
      · simp [Stand.outcome?]
  | judge hs =>
      refine h.keep rfl ?_ ?_ ?_ ?_
      · intro e; exact absurd e (by simp)
      · rw [hs]; exact fun _ => trivial
      · rw [hs]; exact fun _ => ⟨by simp [Unfailed, Stand.outcome?], rfl⟩
      · intro report hr
        injection hr with hr
        injection hr with hr
        exact hr ▸ rfl
  | spawnFailed hs | unready hs | reapFailed hs =>
      exact h.fail rfl (by rw [hs]; rfl) rfl (by simp) (fun _ => rfl)
  | overflow hs =>
      have hnone : r.stand.outcome? = none := by rcases hs with hs | hs <;> rw [hs] <;> rfl
      exact h.fail rfl hnone rfl (by simp) (fun _ => rfl)
  | readFailed hs _ _ htodo hreader hpoll =>
      rw [recorded, source?_eq htodo hreader, Reader.received_of_poll_failed hpoll]
      dsimp only
      rw [add_nil]
      exact h.fail rfl (by rw [hs]; rfl) rfl (by simp) (fun _ => rfl)
  | writeFailed hs _ hout haccept =>
      refine h.fail rfl (by rw [hs]; rfl) rfl (by simp) (fun hu => ?_)
      -- what a sink that has failed holds is not promised
      exact absurd rfl (hu _)

theorem faithful_perform {sink : Sink} {r s : Run} {c : Record} {actions : List Action}
    (h : Faithful sink r c) (hs : r.perform actions = some s) :
    Faithful sink s (r.record c actions) := by
  induction actions generalizing r c with
  | nil =>
      obtain rfl := Option.some.inj hs
      exact h
  | cons a more ih =>
      obtain ⟨r', hstep, hmore⟩ := perform_cons hs
      rw [record_of_step hstep]
      exact ih (faithful_step h (does_of_step hstep)) hmore

end Run

end IdleWatch
