import IdleWatch.Proofs.Ending

/-!
# Texts come through the terminal

A command writes texts, each with a line feed after it, and the same texts come out as lines. On the
way the texts become bytes, the terminal puts a return before each line feed, the bytes are read in
pieces that may end inside a character, one return is taken from each line, and the line is read as
text. Each of these is undone by its counterpart: lines are cut at line feeds before anything is
read as text, and just the return that the terminal has put there is taken away, so that a text may
have returns of its own, at its end too.
-/

namespace IdleWatch

namespace Text.Utf8

/-- A byte below 0x80 is written only for the character it stands for by itself. -/
theorem toNat_eq_of_mem_encodeChar {c : Char} {b : UInt8} (h : b ∈ encodeChar c)
    (hb : b.toNat < 0x80) : c.toNat = b.toNat := by
  have hvalid : c.toNat < 0xD800 ∨ 0xDFFF < c.toNat ∧ c.toNat < 0x110000 := c.valid
  unfold encodeChar at h
  generalize c.toNat = n at h hvalid ⊢
  dsimp only at h
  by_cases h1 : n < 0x80
  · rw [if_pos h1, List.mem_singleton] at h
    rw [h, UInt8.toNat_ofNat']
    omega
  -- from here on all bytes are 0x80 or above
  exfalso
  rw [if_neg h1] at h
  by_cases h2 : n < 0x800
  · rw [if_pos h2] at h
    simp only [List.mem_cons, List.not_mem_nil, or_false] at h
    rcases h with rfl | rfl <;> rw [UInt8.toNat_ofNat'] at hb <;> omega
  rw [if_neg h2] at h
  by_cases h3 : n < 0x10000
  · rw [if_pos h3] at h
    simp only [List.mem_cons, List.not_mem_nil, or_false] at h
    rcases h with rfl | rfl | rfl <;> rw [UInt8.toNat_ofNat'] at hb <;> omega
  · rw [if_neg h3] at h
    simp only [List.mem_cons, List.not_mem_nil, or_false] at h
    rcases h with rfl | rfl | rfl | rfl <;> rw [UInt8.toNat_ofNat'] at hb <;> omega

theorem newline_notMem_encode {text : String} (h : '\n' ∉ text.toList) : 10 ∉ encode text := by
  intro hm
  obtain ⟨c, hc, hbyte⟩ := List.mem_flatMap.mp hm
  have hnewline : c = '\n' := Char.toNat_inj.mp (toNat_eq_of_mem_encodeChar hbyte (by decide))
  exact h (hnewline ▸ hc)

theorem decode_encode (text : String) : String.ofList (decode (encode text)) = text := by
  rw [decode, encode, pieces_flatMap_encodeChar, List.map_map]
  have hshown : text.toList.map (Piece.shown ∘ Piece.char) = text.toList := List.map_id _
  rw [hshown, String.ofList_toList]

theorem wellFormed_encode (text : String) : wellFormed (encode text) = true :=
  (wellFormed_iff_exists _).mpr ⟨text.toList, rfl⟩

end Text.Utf8

namespace Capture

/-- Texts as a command writes them, a line feed after each. -/
def transcript (texts : List String) : List UInt8 :=
  texts.flatMap (fun text => Text.Utf8.encode text ++ [lineFeed])

theorem split_transcript {texts : List String} (h : ∀ text ∈ texts, '\n' ∉ text.toList) :
    Framing.split 10 (transcript texts) = (texts.map Text.Utf8.encode, []) := by
  refine Framing.Cut.eq_split ⟨?_, ?_, List.not_mem_nil⟩
  · rw [List.flatMap_map, List.append_nil]
    rfl
  · intro line hline
    obtain ⟨text, htext, rfl⟩ := List.mem_map.mp hline
    exact Text.Utf8.newline_notMem_encode (h text htext)

/-- What is written as text is read back as it was. -/
theorem texts_transcript {texts : List String} (h : ∀ text ∈ texts, '\n' ∉ text.toList) :
    Framing.texts ((transcript texts).flatMap Terminal.arriving) = texts := by
  rw [Framing.texts, lineBytes_arriving, split_transcript h, List.map_map]
  exact (List.map_congr_left fun text _ => Text.Utf8.decode_encode text).trans (List.map_id _)

/-- The lines that came out are these texts, and nothing but the end is noted. -/
def Delivers (c : Capture) (stream : Stream) (texts : List String) : Prop :=
  c.lines = texts.map (fun text => { text, stream })
    ∧ ∀ note ∈ c.notes, note = .ended stream

variable {stream : Stream} {size : Nat} {events more : List Event} {c c' : Capture}
  {texts : List String}

/-- At the end, the lines are the texts. -/
theorem Conveyed.delivers (h : Conveyed stream size events c) (hended : c.Ended)
    (htexts : ∀ text ∈ texts, '\n' ∉ text.toList) (hwritten : written events = transcript texts) :
    c.Delivers stream texts := by
  have hsplit := split_transcript htexts
  have hbrought : brought events = (transcript texts).flatMap Terminal.arriving := by
    rw [← hwritten]
    exact (h.drained_iff.mp (h.drained_of_ended hended)).2
  have hlines : Framing.lineBytes (brought events) = texts.map Text.Utf8.encode := by
    rw [hbrought, lineBytes_arriving, hsplit]
  have htail : Framing.tail (brought events) = [] := by
    rw [hbrought, Framing.tail, split_arriving, hsplit]
  constructor
  · rw [h.lines, Framing.lines, hbrought, texts_transcript htexts]
  · intro note hnote
    rcases h.notes note hnote with hend | hflaw | ⟨_, hloss⟩
    · exact hend
    · -- what was written as text is well formed
      obtain ⟨bytes, hbytes, _⟩ := List.mem_map.mp hflaw
      obtain ⟨hmem, hill⟩ := List.mem_filter.mp hbytes
      rw [hlines] at hmem
      obtain ⟨text, _, rfl⟩ := List.mem_map.mp hmem
      simp [Text.Utf8.wellFormed_encode] at hill
    · rw [Framing.loss, if_pos htail] at hloss
      exact absurd hloss List.not_mem_nil

/-! ## Reading on to the end -/

/-- A read of a closed terminal brings bytes or the end. -/
theorem taken_read {t : Terminal} (h : t.isOpen = false) (size : Nat) :
    ¬ TryAgain (t.read size).2 ∧ ¬ Failed (t.read size).2 := by
  unfold Terminal.read
  by_cases hunread : t.unread.isEmpty = true
  · rw [if_pos hunread, h, if_neg (by decide)]
    split
    · exact ⟨id, id⟩
    · exact ⟨fun htry => htry rfl, fun hfailed => hfailed.2 rfl⟩
  · rw [if_neg hunread]
    exact ⟨id, id⟩

/-- A reader that polls on after the close gets to the end. -/
theorem exists_polls (c : Capture) (hclosed : c.terminal.isOpen = false)
    (hchunk : 0 < c.reader.chunk) :
    ∃ (reads : List ReadResult) (c' : Capture), c.perform (reads.map .poll) = some c'
      ∧ c'.Ended := by
  induction hn : c.terminal.unread.length using Nat.strongRecOn generalizing c with
  | ind n ih =>
      let result := (c.terminal.read c.reader.chunk).2
      have hmay : c.terminal.MayReturn c.reader.chunk result := (c.terminal.mayReturn_read _).1
      have hstep : c.step (.poll result) = some (c.poll result) := if_pos hmay
      obtain ⟨htry, hfail⟩ := taken_read hclosed c.reader.chunk
      have hpoll := poll_of_taken c result htry hfail
      by_cases hreceived : received result = []
      · refine ⟨[result], c.poll result, ?_, ?_⟩
        · rw [List.map_singleton, perform, hstep]
          rfl
        · refine ⟨_, ?_, (c.reader.stillOpen_taken (received result)).mpr hreceived⟩
          rw [results_poll_of_taken c result htry hfail]
          exact List.mem_append_right _ List.mem_cons_self
      · -- each read with bytes leaves less to read
        have hunread : c.terminal.unread ≠ [] := fun e => hreceived
          ((hmay.received_eq_nil_iff hchunk htry hfail).mpr ⟨hclosed, e⟩)
        have hless : (c.poll result).terminal.unread.length < n := by
          have := List.length_pos_iff.mpr hunread
          have := List.length_pos_iff.mpr hreceived
          rw [hpoll, List.length_drop]
          omega
        obtain ⟨reads, c', hperform, hended⟩ := ih _ hless (c.poll result)
          (by rw [hpoll]; exact hclosed) (by rw [hpoll]; exact hchunk) rfl
        refine ⟨result :: reads, c', ?_, hended⟩
        rw [List.map_cons, perform, hstep]
        exact hperform

theorem length_le_length_flatten {chunks : List (List UInt8)} (h : [] ∉ chunks) :
    chunks.length ≤ chunks.flatten.length := by
  induction chunks with
  | nil => exact Nat.le_refl 0
  | cons chunk chunks ih =>
      have hchunk : 0 < chunk.length :=
        List.length_pos_iff.mpr (fun e => h (e ▸ List.mem_cons_self))
      have hchunks := ih (fun hm => h (List.mem_cons_of_mem chunk hm))
      rw [List.length_cons, List.flatten_cons, List.length_append]
      omega

/-- There is no other way than to the end: as many chunks as bytes were unread do not fit. -/
theorem ended_of_fed (h : Conveyed stream size events c) (hclosed : .close ∈ events)
    (h' : Conveyed stream size (events ++ more) c')
    (hfed : c.terminal.unread.length < (fed more).length) : c'.Ended := by
  have hchunks : fed (events ++ more) = fed events ++ fed more := List.filterMap_append
  by_cases hend : [] ∈ fed more
  · refine h'.marked.mp ?_
    rw [hchunks]
    exact List.mem_append_right _ hend
  have hunread : (fed more).flatten ++ c'.terminal.unread = c.terminal.unread := by
    have harrived := h'.arrived
    rw [written_append_of_mem hclosed, ← h.arrived, brought, hchunks, List.flatten_append,
      List.append_assoc] at harrived
    exact List.append_cancel_left harrived
  have hlength := length_le_length_flatten hend
  rw [← hunread, List.length_append] at hfed
  omega

/--
**Texts come through the terminal as they were written.**

However the writes cut the texts, also inside characters, and however the reads cut what arrives,
with interruptions and failures between them: at the end the lines are the texts in order, all with
the tag of the stream, no text has had anything replaced, and nothing was discarded. A text may be
empty, and may hold returns anywhere. Once the command has closed, the end can be reached by polling
on, and it is reached as soon as more reads have brought something than there were bytes to read.
-/
theorem texts_come_through (hsize : 0 < size)
    (h : (start stream size).perform events = some c)
    (htexts : ∀ text ∈ texts, '\n' ∉ text.toList) (hwritten : written events = transcript texts) :
    (c.Ended → c.Delivers stream texts)
      ∧ (.close ∈ events →
        (∃ (reads : List ReadResult) (c' : Capture), c.perform (reads.map .poll) = some c'
            ∧ c'.Ended ∧ c'.Delivers stream texts)
          ∧ ∀ more c', c.perform more = some c' → c.terminal.unread.length < (fed more).length →
            c'.Ended ∧ c'.Delivers stream texts) := by
  have hall := conveyed_perform hsize (conveyed_start stream size) h
  rw [List.nil_append] at hall
  have hlater : ∀ more c', .close ∈ events → c.perform more = some c' → c'.Ended →
      c'.Delivers stream texts := by
    intro more c' hclosed hmore hended
    have hwritten' : written (events ++ more) = transcript texts := by
      rw [written_append_of_mem hclosed, hwritten]
    exact (conveyed_perform hsize hall hmore).delivers hended htexts hwritten'
  refine ⟨fun hended => hall.delivers hended htexts hwritten, fun hclosed => ⟨?_, ?_⟩⟩
  · have hchunk : 0 < c.reader.chunk := hall.chunk ▸ hsize
    obtain ⟨reads, c', hreads, hended⟩ := exists_polls c (hall.isOpen.mpr hclosed) hchunk
    exact ⟨reads, c', hreads, hended, hlater _ _ hclosed hreads hended⟩
  · intro more c' hmore hfed
    have hended := ended_of_fed hall hclosed (conveyed_perform hsize hall hmore) hfed
    exact ⟨hended, hlater more c' hclosed hmore hended⟩

/-- A text with two returns of its own and an empty one, written and read in pieces that end inside
a character, with a read that came too early; what was left at the close is read byte by byte. -/
theorem texts_come_through_cut :
    ∃ c, (start .stdout 2).perform
        [.write [0xC3], .poll (.ok [0xC3]), .poll (.error .tryAgain), .write [0xA9, 13],
          .poll (.ok [0xA9, 13]), .write [13, 10, 10], .poll (.ok [13, 13]), .close,
          .poll (.ok [10]), .poll (.ok [13]), .poll (.ok [10]), .poll (.error .hangUp)] = some c
      ∧ c.Ended ∧ c.Delivers .stdout ["é\r\r", ""] := by
  have h : (start .stdout 2).perform
      [.write [0xC3], .poll (.ok [0xC3]), .poll (.error .tryAgain), .write [0xA9, 13],
        .poll (.ok [0xA9, 13]), .write [13, 10, 10], .poll (.ok [13, 13]), .close] = some _ := rfl
  have htexts : ∀ text ∈ ["é\r\r", ""], '\n' ∉ text.toList := by decide
  obtain ⟨_, hclosed⟩ := texts_come_through (by decide) h htexts (by decide)
  obtain ⟨_, hmore⟩ := hclosed (by simp)
  exact ⟨_, rfl, hmore [.poll (.ok [10]), .poll (.ok [13]), .poll (.ok [10]),
    .poll (.error .hangUp)] _ rfl (by decide)⟩

end Capture

end IdleWatch
