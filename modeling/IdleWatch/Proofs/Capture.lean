import IdleWatch.Proofs.Assembler
import IdleWatch.Proofs.Reception
import IdleWatch.Terminal

/-!
# A stream on its way from the command to the reader

A command writes and closes, a reader polls, and a read returns what it likes of what is there: some
of the oldest bytes, nothing yet, an interruption, a failure, and at the end the end. `Conveyed`
says what holds at every moment of this. Its heart is that what was read and what is unread are
together what was written, in order; so a reader that is told of the end has nothing left to read.

Only a reader that asks for at least one byte at a time is told the truth: a read into no space at
all returns no bytes, as if there were no more to come.
-/

namespace IdleWatch

/-! ## What a read may return -/

/-- The command's side is closed, and all it wrote is read. -/
def Terminal.Drained (t : Terminal) : Prop := t.isOpen = false ∧ t.unread = []

instance (t : Terminal) : Decidable t.Drained := inferInstanceAs (Decidable (_ ∧ _))

/-- **What a read of at most `size` bytes may return**: the oldest bytes, as many as it likes but at
least one; no bytes or a hang-up only once the terminal is drained, except that a read into no space
brings no bytes at any time; and any other fault whenever it likes. -/
def Terminal.MayReturn (t : Terminal) (size : Nat) : ReadResult → Prop
  | .ok [] => size = 0 ∨ t.Drained
  | .ok (b :: bytes) => (b :: bytes).length ≤ size ∧ b :: bytes <+: t.unread
  | .error fault => fault.number? = some 5 → t.Drained

instance (t : Terminal) (size : Nat) : (result : ReadResult) → Decidable (t.MayReturn size result)
  | .ok [] => inferInstanceAs (Decidable (size = 0 ∨ t.Drained))
  | .ok (b :: bytes) =>
    inferInstanceAs (Decidable ((b :: bytes).length ≤ size ∧ b :: bytes <+: t.unread))
  | .error fault => inferInstanceAs (Decidable (fault.number? = some 5 → t.Drained))

/-- The terminal's own reads are such reads, and leave what comes behind the bytes they return. -/
theorem Terminal.mayReturn_read (t : Terminal) (size : Nat) :
    t.MayReturn size (t.read size).2
      ∧ (t.read size).1 = { t with unread := t.unread.drop (received (t.read size).2).length } := by
  unfold read
  by_cases hunread : t.unread.isEmpty = true
  · have hnil : t.unread = [] := List.isEmpty_iff.mp hunread
    rw [if_pos hunread]
    by_cases hopen : t.isOpen = true
    · rw [if_pos hopen]
      exact ⟨fun h => absurd h (by decide), rfl⟩
    · have hdrained : t.Drained := ⟨by simpa using hopen, hnil⟩
      rw [if_neg hopen]
      split
      · exact ⟨Or.inr hdrained, rfl⟩
      · exact ⟨fun _ => hdrained, rfl⟩
  · have hne : t.unread ≠ [] := fun e => hunread (List.isEmpty_iff.mpr e)
    have hdrop : t.unread.drop (t.unread.take size).length = t.unread.drop size := by
      rw [List.length_take]
      rcases Nat.le_total size t.unread.length with h | h
      · rw [Nat.min_eq_left h]
      · rw [Nat.min_eq_right h, List.drop_length, List.drop_eq_nil_of_le h]
    rw [if_neg hunread]
    refine ⟨?_, congrArg (fun unread => { t with unread }) hdrop.symm⟩
    cases htake : t.unread.take size with
    | nil =>
        -- bytes are there, so there was no room for them
        rcases List.take_eq_nil_iff.mp htake with h | h
        · exact Or.inl h
        · exact absurd h hne
    | cons b bytes =>
        constructor
        · rw [← htake]
          exact List.length_take_le size t.unread
        · rw [← htake]
          exact List.take_prefix size t.unread

/-- **With space to read into, a terminal returns the end exactly if it is drained.** -/
theorem Terminal.MayReturn.received_eq_nil_iff {t : Terminal} {size : Nat} {result : ReadResult}
    (h : t.MayReturn size result) (hsize : 0 < size) (htry : ¬ TryAgain result)
    (hfail : ¬ Failed result) : received result = [] ↔ t.Drained := by
  cases result with
  | ok bytes =>
      cases bytes with
      | nil =>
          rcases h with h | h
          · omega
          · exact iff_of_true rfl h
      | cons b bytes =>
          refine iff_of_false (by simp [received]) (fun hdrained => ?_)
          -- bytes cannot come from a terminal that has none
          have hprefix := h.2
          rw [hdrained.2] at hprefix
          exact List.cons_ne_nil b bytes (List.prefix_nil.mp hprefix)
  | error fault => exact iff_of_true rfl (h (number?_of_taken htry hfail))

/-! ## What happens to a stream -/

/-- A stream on its way: the terminal that the command writes to, the reader on the other side, and
what its polls have given so far. -/
structure Capture where
  terminal : Terminal := {}
  reader : Reader
  polls : List (Except Fault Polled) := []

namespace Capture

/-- One thing that happens to a stream. -/
inductive Event where
  | write (bytes : List UInt8)
  | close
  /-- The reader polls, and its read returns this. -/
  | poll (result : ReadResult)

/-- The chunk that an event feeds to the assembler: what was read, or nothing for the end. -/
def Event.chunk? : Event → Option (List UInt8)
  | .poll (.ok bytes) => some bytes
  | .poll (.error fault) => if fault.number? = some 5 then some [] else none
  | _ => none

/-- The reader polls. -/
def poll (c : Capture) (result : ReadResult) : Capture :=
  let terminal := { c.terminal with
    unread := c.terminal.unread.drop (received result).length }
  let (reader, polled) := c.reader.poll result
  { terminal, reader, polls := c.polls ++ [polled] }

/-- The stream after an event, if that can happen: a read returns only what it may. -/
def step (c : Capture) : Event → Option Capture
  | .write bytes => some { c with terminal := c.terminal.write bytes }
  | .close => some { c with terminal := c.terminal.close }
  | .poll result =>
    if c.terminal.MayReturn c.reader.chunk result then some (c.poll result) else none

/-- The stream after some events. -/
def perform (c : Capture) : List Event → Option Capture
  | [] => some c
  | e :: more => (c.step e).bind (perform · more)

/-- A stream that nothing has happened to, with a reader that asks for `size` bytes at a time. -/
def start (stream : Stream) (size : Nat) : Capture := { reader := .new stream size }

/-- What the polls gave that did not fail. -/
def results (c : Capture) : List Polled := c.polls.filterMap Except.toOption

/-- The lines of all polls. -/
def lines (c : Capture) : List Line := c.results.flatMap (·.output.lines.toList)

/-- The notes of all polls. -/
def notes (c : Capture) : List Note := c.results.flatMap (·.output.notes.toList)

/-- A poll has told of the end. -/
def Ended (c : Capture) : Prop := ∃ polled ∈ c.results, polled.stillOpen = false

/-- What the command wrote before it closed. -/
def written : List Event → List UInt8
  | [] => []
  | .write bytes :: more => bytes ++ written more
  | .close :: _ => []
  | .poll _ :: more => written more

/-- The chunks that the assembler is fed. -/
def fed (events : List Event) : List (List UInt8) := events.filterMap Event.chunk?

/-- The bytes in these chunks. -/
def brought (events : List Event) : List UInt8 := (fed events).flatten

theorem written_append_of_mem {events : List Event} (h : .close ∈ events) (later : List Event) :
    written (events ++ later) = written events := by
  induction events with
  | nil => exact absurd h List.not_mem_nil
  | cons first more ih =>
      cases first with
      | close => rfl
      | write bytes =>
          have hmore : .close ∈ more := List.mem_of_ne_of_mem (by simp) h
          rw [List.cons_append, written, written, ih hmore]
      | poll result =>
          have hmore : .close ∈ more := List.mem_of_ne_of_mem (by simp) h
          rw [List.cons_append, written, written, ih hmore]

theorem written_concat_of_notMem {events : List Event} (h : .close ∉ events) (e : Event) :
    written (events ++ [e]) = written events ++ written [e] := by
  induction events with
  | nil => rfl
  | cons first more ih =>
      have hmore : .close ∉ more := fun hm => h (List.mem_cons_of_mem first hm)
      cases first with
      | close => exact absurd List.mem_cons_self h
      | write bytes => rw [List.cons_append, written, written, ih hmore, List.append_assoc]
      | poll result => rw [List.cons_append, written, written, ih hmore]

theorem chunk?_of_not_taken {result : ReadResult} (h : TryAgain result ∨ Failed result) :
    (Event.poll result).chunk? = none := by
  cases result with
  | ok bytes => exact h.elim False.elim False.elim
  | error fault =>
      have hnumber : fault.number? ≠ some 5 := by
        rcases h with htry | hfail
        · exact Fault.number?_ne_of_condition htry
        · exact hfail.2
      rw [Event.chunk?, if_neg hnumber]

theorem chunk?_of_taken {result : ReadResult} (htry : ¬ TryAgain result)
    (hfail : ¬ Failed result) : (Event.poll result).chunk? = some (received result) := by
  cases result with
  | ok bytes => rfl
  | error fault => rw [Event.chunk?, if_pos (number?_of_taken htry hfail), received]

theorem fed_concat (events : List Event) (e : Event) :
    fed (events ++ [e]) = fed events ++ e.chunk?.toList := by
  rw [fed, List.filterMap_append, fed]
  cases h : e.chunk? with
  | none => simp [h]
  | some chunk => simp [h]

theorem fed_of_none {events : List Event} {e : Event} (h : e.chunk? = none) :
    fed (events ++ [e]) = fed events := by
  rw [fed_concat, h]
  exact List.append_nil _

theorem fed_of_some {events : List Event} {e : Event} {chunk : List UInt8}
    (h : e.chunk? = some chunk) : fed (events ++ [e]) = fed events ++ [chunk] := by
  rw [fed_concat, h]
  rfl

/-! ## What holds at every moment -/

/-- **Nothing is lost on the way.** -/
structure Conveyed (stream : Stream) (size : Nat) (events : List Event) (c : Capture) : Prop where
  source : c.reader.stream = stream
  chunk : c.reader.chunk = size
  isOpen : c.terminal.isOpen = false ↔ .close ∈ events
  /-- What was read and what is unread are what was written, in order. -/
  arrived : brought events ++ c.terminal.unread = (written events).flatMap Terminal.arriving
  /-- The assembler holds the unfinished line of what was read. At the end, it holds nothing, and
  nothing is left to come. -/
  held : (¬ c.Ended ∧ c.reader.assembler = Assembler.fed stream (brought events))
    ∨ (c.Ended ∧ c.reader.assembler = Assembler.fed stream [] ∧ c.terminal.Drained)
  /-- It has been fed these chunks and no others, the empty one only for the end. -/
  assembled : c.reader.assembler = (({ stream } : Assembler).feedAll (fed events)).1
  marked : [] ∈ fed events ↔ c.Ended
  lines : c.lines = Framing.lines stream (brought events)
  /-- Only the end of the stream, lines that are not UTF-8 and an unfinished line lost at the end
  are noted. -/
  notes : ∀ note ∈ c.notes, note = .ended stream
    ∨ note ∈ Framing.flaws stream (brought events)
    ∨ c.Ended ∧ note ∈ Framing.loss stream (brought events)

theorem conveyed_start (stream : Stream) (size : Nat) :
    Conveyed stream size [] (start stream size) where
  source := rfl
  chunk := rfl
  isOpen := by simp [start]
  arrived := rfl
  held := Or.inl ⟨by simp [Ended, results, start], rfl⟩
  assembled := rfl
  marked := by simp [fed, Ended, results, start]
  lines := rfl
  notes := by simp [Capture.notes, results, start]

theorem feedAll_concat (a : Assembler) (chunks : List (List UInt8)) (chunk : List UInt8) :
    (a.feedAll (chunks ++ [chunk])).1 = ((a.feedAll chunks).1.feed chunk).1 := by
  rw [Assembler.feedAll_append]
  rfl

variable {stream : Stream} {size : Nat} {events : List Event} {c c' : Capture}

theorem Conveyed.drained_iff (h : Conveyed stream size events c) :
    c.terminal.Drained
      ↔ .close ∈ events ∧ brought events = (written events).flatMap Terminal.arriving := by
  rw [← h.isOpen, ← h.arrived]
  simp [Terminal.Drained]

theorem Conveyed.drained_of_ended (h : Conveyed stream size events c) (hended : c.Ended) :
    c.terminal.Drained := by
  rcases h.held with ⟨hno, _⟩ | ⟨_, _, hdrained⟩
  · exact absurd hended hno
  · exact hdrained

/-- Nothing happens on the reader's side. -/
theorem Conveyed.move {e : Event} {terminal : Terminal} (h : Conveyed stream size events c)
    (he : e.chunk? = none) (hopen : terminal.isOpen = false ↔ .close ∈ events ++ [e])
    (harrived : brought events ++ terminal.unread
      = (written (events ++ [e])).flatMap Terminal.arriving)
    (hdrained : c.terminal.Drained → terminal.Drained) :
    Conveyed stream size (events ++ [e]) { c with terminal } := by
  have hfed : fed (events ++ [e]) = fed events := fed_of_none he
  have hbrought : brought (events ++ [e]) = brought events := congrArg List.flatten hfed
  constructor
  · exact h.source
  · exact h.chunk
  · exact hopen
  · rw [hbrought]
    exact harrived
  · rw [hbrought]
    exact h.held.imp_right (fun ⟨hended, hheld, hd⟩ => ⟨hended, hheld, hdrained hd⟩)
  · rw [hfed]
    exact h.assembled
  · rw [hfed]
    exact h.marked
  · rw [hbrought]
    exact h.lines
  · rw [hbrought]
    exact h.notes

theorem conveyed_write (h : Conveyed stream size events c) (bytes : List UInt8) :
    Conveyed stream size (events ++ [.write bytes])
      { c with terminal := c.terminal.write bytes } := by
  have hclose : .close ∈ events ++ [.write bytes] ↔ .close ∈ events := by simp
  by_cases hopen : c.terminal.isOpen = true
  · have hno : .close ∉ events := fun hm => by simp [h.isOpen.mpr hm] at hopen
    rw [Terminal.write, if_pos hopen]
    refine h.move rfl (h.isOpen.trans hclose.symm) ?_ ?_
    · rw [written_concat_of_notMem hno, List.flatMap_append, ← h.arrived, List.append_assoc]
      simp [written]
    · exact fun hd => absurd (hopen.symm.trans hd.1) (by simp)
  · -- what comes after the close is lost
    have hm : .close ∈ events := h.isOpen.mp (by simpa using hopen)
    rw [Terminal.write, if_neg hopen]
    refine h.move rfl (h.isOpen.trans hclose.symm) ?_ id
    rw [written_append_of_mem hm]
    exact h.arrived

theorem conveyed_close (h : Conveyed stream size events c) :
    Conveyed stream size (events ++ [.close]) { c with terminal := c.terminal.close } := by
  refine h.move rfl (by simp [Terminal.close]) ?_ (fun hd => ⟨rfl, hd.2⟩)
  have hwritten : written (events ++ [.close]) = written events := by
    by_cases hm : .close ∈ events
    · exact written_append_of_mem hm _
    · rw [written_concat_of_notMem hm, written, List.append_nil]
  rw [hwritten]
  exact h.arrived

theorem poll_of_tryAgain (c : Capture) {result : ReadResult} (h : TryAgain result) :
    c.poll result = { c with polls := c.polls ++ [.ok {}] } := by
  simp only [poll, c.reader.poll_of_tryAgain h, received_of_not_taken (Or.inl h),
    List.length_nil, List.drop_zero]

theorem poll_of_failed (c : Capture) {fault : Fault} (h : Failed (.error fault)) :
    c.poll (.error fault) = { c with polls := c.polls ++ [.error fault] } := by
  simp only [poll, c.reader.poll_of_failed h, received, List.length_nil, List.drop_zero]

theorem poll_of_taken (c : Capture) (result : ReadResult) (htry : ¬ TryAgain result)
    (hfail : ¬ Failed result) :
    c.poll result =
      { terminal := { c.terminal with
          unread := c.terminal.unread.drop (received result).length }
        reader := (c.reader.feed (received result)).1
        polls := c.polls ++ [.ok (c.reader.taken (received result))] } := by
  simp only [poll, c.reader.poll_of_taken htry hfail]

theorem written_poll (events : List Event) (result : ReadResult) :
    written (events ++ [.poll result]) = written events := by
  by_cases hm : .close ∈ events
  · exact written_append_of_mem hm _
  · rw [written_concat_of_notMem hm, written, written, List.append_nil]

theorem close_mem_poll {result : ReadResult} :
    .close ∈ events ++ [.poll result] ↔ .close ∈ events := by
  simp

/-! ### One more result -/

section Results

variable {polled : Polled} (h : c'.results = c.results ++ [polled])
include h

theorem lines_of_results : c'.lines = c.lines ++ polled.output.lines.toList := by
  rw [lines, h, List.flatMap_append, List.flatMap_singleton, lines]

theorem notes_of_results : c'.notes = c.notes ++ polled.output.notes.toList := by
  rw [notes, h, List.flatMap_append, List.flatMap_singleton, notes]

theorem ended_of_results : c'.Ended ↔ c.Ended ∨ polled.stillOpen = false := by
  simp [Ended, h, or_and_right, exists_or]

end Results

/-- A poll that brings nothing, neither bytes nor the end, leaves all as it was. -/
theorem conveyed_idle (h : Conveyed stream size events c) {result : ReadResult}
    (hr : TryAgain result ∨ Failed result) :
    Conveyed stream size (events ++ [.poll result]) (c.poll result) := by
  have hfed : fed (events ++ [.poll result]) = fed events := fed_of_none (chunk?_of_not_taken hr)
  have hbrought : brought (events ++ [.poll result]) = brought events := congrArg List.flatten hfed
  obtain ⟨polls, hpoll, hlines, hnotes, hended⟩ : ∃ polls, c.poll result = { c with polls }
      ∧ ({ c with polls } : Capture).lines = c.lines
      ∧ ({ c with polls } : Capture).notes = c.notes
      ∧ (({ c with polls } : Capture).Ended ↔ c.Ended) := by
    rcases hr with htry | hfail
    · have hresults : ({ c with polls := c.polls ++ [.ok {}] } : Capture).results
          = c.results ++ [({} : Polled)] := by
        simp [results, Except.toOption]
      refine ⟨_, poll_of_tryAgain c htry, ?_, ?_, ?_⟩
      · rw [lines_of_results hresults]; exact List.append_nil _
      · rw [notes_of_results hresults]; exact List.append_nil _
      · rw [ended_of_results hresults]; simp
    · cases result with
      | ok bytes => exact hfail.elim
      | error fault =>
          have hresults : ({ c with polls := c.polls ++ [.error fault] } : Capture).results
              = c.results := by
            simp [results, Except.toOption]
          refine ⟨_, poll_of_failed c hfail, ?_, ?_, ?_⟩
          · rw [Capture.lines, hresults, Capture.lines]
          · rw [Capture.notes, hresults, Capture.notes]
          · rw [Ended, hresults, Ended]
  rw [hpoll]
  constructor
  · exact h.source
  · exact h.chunk
  · exact h.isOpen.trans close_mem_poll.symm
  · rw [hbrought, written_poll]
    exact h.arrived
  · rw [hbrought, hended]
    exact h.held
  · rw [hfed]
    exact h.assembled
  · rw [hfed, hended]
    exact h.marked
  · rw [hbrought, hlines]
    exact h.lines
  · rw [hbrought, hnotes, hended]
    exact h.notes

theorem results_poll_of_taken (c : Capture) (result : ReadResult) (htry : ¬ TryAgain result)
    (hfail : ¬ Failed result) :
    (c.poll result).results = c.results ++ [c.reader.taken (received result)] := by
  rw [poll_of_taken c result htry hfail]
  simp [results, Except.toOption]

/-- A poll whose read brought bytes. -/
theorem conveyed_data (h : Conveyed stream size events c) {bytes : List UInt8} (hne : bytes ≠ [])
    (hmay : c.terminal.MayReturn c.reader.chunk (.ok bytes)) :
    Conveyed stream size (events ++ [.poll (.ok bytes)]) (c.poll (.ok bytes)) := by
  obtain ⟨rest, hrest⟩ : bytes <+: c.terminal.unread := by
    cases bytes with
    | nil => exact absurd rfl hne
    | cons b bytes => exact hmay.2
  -- there was something to read, so the end is still to come
  have hopen : ¬ c.Ended := by
    intro hended
    rw [(h.drained_of_ended hended).2] at hrest
    exact hne (List.append_eq_nil_iff.mp hrest).1
  have hfed : c.reader.assembler = Assembler.fed stream (brought events) := by
    rcases h.held with ⟨_, hfed⟩ | ⟨hended, _⟩
    · exact hfed
    · exact absurd hended hopen
  have hfeed : c.reader.feed bytes
      = ({ c.reader with assembler := Assembler.fed stream (brought events ++ bytes) },
        Framing.output stream (Framing.tail (brought events) ++ bytes)) := by
    rw [Reader.feed, hfed, Assembler.feed_fed stream _ hne]
  have htaken : c.reader.taken bytes
      = { output := Framing.output stream (Framing.tail (brought events) ++ bytes) } := by
    rw [Reader.taken, if_neg hne, hfeed]
  have hchunks : fed (events ++ [.poll (.ok bytes)]) = fed events ++ [bytes] := fed_of_some rfl
  have hbrought : brought (events ++ [.poll (.ok bytes)]) = brought events ++ bytes := by
    rw [brought, hchunks, List.flatten_concat, brought]
  have hresults := results_poll_of_taken c (.ok bytes) id id
  rw [received, htaken] at hresults
  have hpoll := poll_of_taken c (.ok bytes) id id
  rw [received, hfeed, ← hrest, List.drop_left] at hpoll
  constructor
  · rw [hpoll]
    rfl
  · rw [hpoll]
    exact h.chunk
  · rw [hpoll]
    exact h.isOpen.trans close_mem_poll.symm
  · rw [hpoll, hbrought, written_poll, ← h.arrived, ← hrest, List.append_assoc]
  · refine Or.inl ⟨?_, by rw [hpoll, hbrought]⟩
    rw [ended_of_results hresults]
    simpa using hopen
  · rw [hchunks, feedAll_concat, ← h.assembled, hpoll, hfed, Assembler.feed_fed stream _ hne]
  · rw [hchunks, ended_of_results hresults, List.mem_append, h.marked]
    simp [Ne.symm hne]
  · rw [lines_of_results hresults, h.lines, hbrought, Framing.lines_append]
    rfl
  · rw [notes_of_results hresults, hbrought, Framing.flaws_append]
    intro note hnote
    rcases List.mem_append.mp hnote with hold | hnew
    · rcases h.notes note hold with hend | hflaw | ⟨hended, _⟩
      · exact Or.inl hend
      · exact Or.inr (Or.inl (List.mem_append_left _ hflaw))
      · exact absurd hended hopen
    · exact Or.inr (Or.inl (List.mem_append_right _ hnew))

/-- A poll that tells of the end. -/
theorem conveyed_end (h : Conveyed stream size events c) {result : ReadResult}
    (htry : ¬ TryAgain result) (hfail : ¬ Failed result) (hreceived : received result = [])
    (hdrained : c.terminal.Drained) :
    Conveyed stream size (events ++ [.poll result]) (c.poll result) := by
  have hchunks : fed (events ++ [.poll result]) = fed events ++ [[]] :=
    fed_of_some (hreceived ▸ chunk?_of_taken htry hfail)
  have hbrought : brought (events ++ [.poll result]) = brought events := by
    rw [brought, hchunks, List.flatten_concat, List.append_nil, brought]
  have hresults := results_poll_of_taken c result htry hfail
  have hpoll := poll_of_taken c result htry hfail
  rw [hreceived] at hresults hpoll
  -- the assembler starts anew, and what it held is noted as lost
  obtain ⟨lost, hfeed, hloss⟩ : ∃ lost : List Note,
      c.reader.feed [] = ({ c.reader with assembler := { stream } }, { notes := lost.toArray })
        ∧ ∀ note ∈ lost, note ∈ Framing.loss stream (brought events) := by
    rcases h.held with ⟨_, hfed⟩ | ⟨_, hfed, _⟩
    · refine ⟨_, ?_, fun note hnote => hnote⟩
      rw [Reader.feed, hfed, Assembler.feed_nil]
    · refine ⟨[], ?_, fun note hnote => absurd hnote List.not_mem_nil⟩
      rw [Reader.feed, hfed, Assembler.feed_nil]
      rfl
  have htaken : c.reader.taken []
      = { output := { notes := #[.ended stream] ++ lost.toArray }, stillOpen := false } := by
    rw [Reader.taken, if_pos rfl, hfeed, h.source]
  rw [htaken] at hresults hpoll
  rw [hfeed] at hpoll
  have hended : (c.poll result).Ended := (ended_of_results hresults).mpr (Or.inr rfl)
  constructor
  · rw [hpoll]
    rfl
  · rw [hpoll]
    exact h.chunk
  · rw [hpoll]
    exact h.isOpen.trans close_mem_poll.symm
  · rw [hpoll, hbrought, written_poll]
    exact h.arrived
  · refine Or.inr ⟨hended, ?_, ?_⟩
    · rw [hpoll]
      rfl
    · rw [hpoll]
      exact hdrained
  · have hassembler : (c.reader.assembler.feed []).1 = { stream } :=
      congrArg (fun fed => fed.1.assembler) hfeed
    rw [hchunks, feedAll_concat, ← h.assembled, hassembler, hpoll]
  · rw [hchunks]
    exact iff_of_true (List.mem_append_right _ List.mem_cons_self) hended
  · rw [lines_of_results hresults, h.lines, hbrought]
    exact List.append_nil _
  · rw [notes_of_results hresults, hbrought]
    intro note hnote
    rcases List.mem_append.mp hnote with hold | hnew
    · rcases h.notes note hold with hend | hflaw | ⟨_, hlost⟩
      · exact Or.inl hend
      · exact Or.inr (Or.inl hflaw)
      · exact Or.inr (Or.inr ⟨hended, hlost⟩)
    · rcases List.mem_cons.mp (by simpa using hnew) with hend | hlost
      · exact Or.inl hend
      · exact Or.inr (Or.inr ⟨hended, hloss note hlost⟩)

theorem conveyed_step (hsize : 0 < size) {e : Event} (h : Conveyed stream size events c)
    (hs : c.step e = some c') : Conveyed stream size (events ++ [e]) c' := by
  cases e with
  | write bytes =>
      obtain rfl := Option.some.inj hs
      exact conveyed_write h bytes
  | close =>
      obtain rfl := Option.some.inj hs
      exact conveyed_close h
  | poll result =>
      rw [step] at hs
      split at hs
      · rename_i hmay
        obtain rfl := Option.some.inj hs
        by_cases hr : TryAgain result ∨ Failed result
        · exact conveyed_idle h hr
        obtain ⟨htry, hfail⟩ := not_or.mp hr
        by_cases hreceived : received result = []
        · have hdrained := (hmay.received_eq_nil_iff (h.chunk ▸ hsize) htry hfail).mp hreceived
          exact conveyed_end h htry hfail hreceived hdrained
        · cases result with
          | ok bytes => exact conveyed_data h hreceived hmay
          | error fault => exact absurd rfl hreceived
      · exact absurd hs (by simp)

theorem perform_cons {e : Event} {more : List Event} (h : c.perform (e :: more) = some c') :
    ∃ s, c.step e = some s ∧ s.perform more = some c' :=
  Option.bind_eq_some_iff.mp h

theorem conveyed_perform (hsize : 0 < size) {more : List Event}
    (h : Conveyed stream size events c) (hp : c.perform more = some c') :
    Conveyed stream size (events ++ more) c' := by
  induction more generalizing events c with
  | nil =>
      obtain rfl := Option.some.inj hp
      rw [List.append_nil]
      exact h
  | cons e more ih =>
      obtain ⟨s, hstep, hmore⟩ := perform_cons hp
      have hs := ih (conveyed_step hsize h hstep) hmore
      rwa [List.append_assoc] at hs

end Capture

end IdleWatch
