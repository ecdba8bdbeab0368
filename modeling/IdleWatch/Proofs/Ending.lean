import IdleWatch.Proofs.Capture
import IdleWatch.Settings.Basic

/-!
# The end of a stream

A poll tells of the end when its read brought nothing, and that only happens once the command's side
is closed and all it wrote was read. So the end loses nothing: by then every line that was completed
has come out, and what is discarded is what the command left unfinished.
-/

namespace IdleWatch.Capture

/-- Only a line feed arrives as anything else than itself. -/
theorem flatMap_arriving_of_notMem {bytes : List UInt8} (h : 10 ∉ bytes) :
    bytes.flatMap Terminal.arriving = bytes := by
  induction bytes with
  | nil => rfl
  | cons b bytes ih =>
      have hb : b ≠ lineFeed := fun e => h (e ▸ List.mem_cons_self)
      have hbytes : 10 ∉ bytes := fun hm => h (List.mem_cons_of_mem b hm)
      rw [List.flatMap_cons, ih hbytes, Terminal.arriving, if_neg hb]
      rfl

/-- **What arrives is cut where it was cut when it was written**, with a return at the end of each
line. -/
theorem split_arriving (bytes : List UInt8) :
    Framing.split 10 (bytes.flatMap Terminal.arriving)
      = ((Framing.split 10 bytes).1.map (· ++ [13]), (Framing.split 10 bytes).2) := by
  induction bytes using Framing.split_induction (d := (10 : UInt8)) with
  | rest bytes h =>
      rw [flatMap_arriving_of_notMem h, Framing.split_of_notMem h]
      rfl
  | piece bytes more h ih =>
      have harrive : (bytes ++ 10 :: more).flatMap Terminal.arriving
          = (bytes ++ [13]) ++ 10 :: more.flatMap Terminal.arriving := by
        rw [List.flatMap_append, flatMap_arriving_of_notMem h, List.flatMap_cons, List.append_assoc]
        rfl
      have hline : 10 ∉ bytes ++ [13] := by simpa using h
      rw [harrive, Framing.split_append_cons hline, ih, Framing.split_append_cons h, List.map_cons]

/-- The framing takes that return away again, and no other. -/
theorem lineBytes_arriving (bytes : List UInt8) :
    Framing.lineBytes (bytes.flatMap Terminal.arriving) = (Framing.split 10 bytes).1 := by
  have hdrop : ∀ line : List UInt8, Framing.dropLast 13 (line ++ [13]) = line := by
    intro line
    simp [Framing.dropLast]
  rw [Framing.lineBytes, split_arriving, List.map_map]
  exact (List.map_congr_left fun line _ => hdrop line).trans (List.map_id _)

/-- Settings without a defect ask for at least one byte at a time. -/
theorem readChunk_pos {s : Settings} (h : s.defect? = none) : 0 < s.options.readChunk := by
  have hchunk := List.find?_eq_none.mp h .zeroChunk (by simp)
  rw [Settings.has, decide_eq_true_eq] at hchunk
  exact Nat.pos_of_ne_zero hchunk

/--
**A poll tells of the end exactly when nothing is left to come.**

Whatever was written, read, interrupted or failed before, in whatever pieces: a poll that has
something to say feeds the assembler what its read brought, and tells of the end if and only if the
command's side is closed and all that was written has been fed. A read to be tried again changes
nothing, a failed one is passed on and changes nothing. The assembler has been fed the bytes read,
chunk by chunk, and the empty chunk only for the end; once that has come, the lines of all polls are
those of everything that was written before the close. Settings without a defect ask for at least
one byte at a time.
-/
theorem ended_iff_drained {stream : Stream} {size : Nat} {events : List Event} {c : Capture}
    (hsize : 0 < size) (h : (start stream size).perform events = some c) :
    (∀ result, c.terminal.MayReturn c.reader.chunk result → ¬ TryAgain result → ¬ Failed result →
        ∃ polled, c.reader.poll result = ((c.reader.feed (received result)).1, .ok polled)
          ∧ polled.output.lines = (c.reader.feed (received result)).2.lines
          ∧ (polled.stillOpen = false ↔ received result = [])
          ∧ (polled.stillOpen = false ↔ .close ∈ events
            ∧ (fed events).flatten = (written events).flatMap Terminal.arriving))
      ∧ (∀ result, TryAgain result → c.reader.poll result = (c.reader, .ok {}))
      ∧ (∀ fault, Failed (.error fault) → c.reader.poll (.error fault) = (c.reader, .error fault)
        ∧ (c.poll (.error fault)).reader = c.reader)
      ∧ c.reader.assembler = (({ stream } : Assembler).feedAll (fed events)).1
      ∧ ([] ∈ fed events ↔ c.Ended)
      ∧ (c.Ended → c.lines = Framing.lines stream ((written events).flatMap Terminal.arriving)
        ∧ c.lines.map Line.text = (Framing.split 10 (written events)).1.map
            (fun p => String.ofList (Text.Utf8.decode p)))
      ∧ ∀ s : Settings, s.defect? = none → 0 < s.options.readChunk := by
  have hall := conveyed_perform hsize (conveyed_start stream size) h
  rw [List.nil_append] at hall
  refine ⟨?_, ?_, ?_, hall.assembled, hall.marked, ?_, ?_⟩
  · intro result hmay htry hfail
    have hend : (c.reader.taken (received result)).stillOpen = false ↔ received result = [] :=
      c.reader.stillOpen_taken (received result)
    refine ⟨_, c.reader.poll_of_taken htry hfail, c.reader.lines_taken _, hend, ?_⟩
    rw [hend, hmay.received_eq_nil_iff (hall.chunk ▸ hsize) htry hfail]
    exact hall.drained_iff
  · exact fun result htry => c.reader.poll_of_tryAgain htry
  · intro fault hfail
    refine ⟨c.reader.poll_of_failed hfail, ?_⟩
    rw [poll_of_failed c hfail]
  · intro hended
    have hbrought : brought events = (written events).flatMap Terminal.arriving :=
      (hall.drained_iff.mp (hall.drained_of_ended hended)).2
    rw [hall.lines, hbrought]
    refine ⟨rfl, ?_⟩
    rw [← lineBytes_arriving, Framing.lines, Framing.texts, List.map_map]
    exact List.map_id _
  · exact fun s hs => readChunk_pos hs

/-- A reader of two bytes at a time: it is interrupted, a read fails, a line comes in pieces, and
what is left behind it at the close is lost. -/
theorem ended_iff_drained_disturbed :
    ∃ c, (start .stderr 2).perform
        [.write [97, 10, 98], .poll (.error (.number 4)), .poll (.ok [97, 13]),
          .poll (.error .badDescriptor), .poll (.ok [10]), .close, .write [10], .poll (.ok [98]),
          .poll (.error .tryAgain), .poll (.error .hangUp)] = some c
      ∧ c.Ended
      ∧ c.lines.map Line.text = ["a"]
      ∧ ∃ polled, c.reader.poll (.ok []) = ((c.reader.feed []).1, .ok polled)
        ∧ polled.stillOpen = false := by
  have h : (start .stderr 2).perform
      [.write [97, 10, 98], .poll (.error (.number 4)), .poll (.ok [97, 13]),
        .poll (.error .badDescriptor), .poll (.ok [10]), .close, .write [10], .poll (.ok [98]),
        .poll (.error .tryAgain), .poll (.error .hangUp)] = some _ := rfl
  obtain ⟨hpoll, _, _, _, hmarked, hlines, _⟩ := ended_iff_drained (by decide) h
  have hended := hmarked.mp (by decide)
  obtain ⟨polled, hp, _, hend, _⟩ := hpoll (.ok []) (Or.inr ⟨rfl, rfl⟩) id id
  exact ⟨_, h, hended, (hlines hended).2, polled, hp, hend.mpr rfl⟩

/-- A reader that asks for no bytes is told of the end while there is something to read. -/
example : ((start .stdout 0).perform [.write [97, 10], .poll (.ok [])]).map
    (fun c => (c.terminal.unread, c.results.map Polled.stillOpen))
      = some ([97, 13, 10], [false]) := by
  rfl

end IdleWatch.Capture
