import IdleWatch.Proofs.Assembler

/-!
# Cutting into lines and reading as text commute

Lines are cut from the bytes and then read as text. Had all the bytes been read as text first, and
the text been cut, the lines would be the same, however broken the bytes are.

The reason is one fact about the reader: wherever it stands, a byte below 0x80 breaks off what was
begun, is read as itself, and leaves it between characters. So the text of a sequence falls apart at
each such byte (`pieces_append_cons`). The other way round, no such character is made out where its
byte does not stand, so the text falls apart nowhere else. Cutting at a byte below 0x80 and reading
can then change places, `split_decode`, and a return at the end of a line is taken away before or
after reading alike.
-/

namespace IdleWatch

namespace Text.Utf8

/-! ## Bytes below 0x80 are boundaries -/

/-- Behind the reader lies the beginning of a character or nothing, after each byte. -/
theorem begun_step {p : Place} {begun : List UInt8} (h : Begun p begun) (b : UInt8) :
    ∃ begun', Begun (step p b.toNat).1 begun' := by
  have hfirst : ∃ begun', Begun (first b.toNat).1 begun' := by
    rcases first_cases b with ⟨c, hf, _⟩ | ⟨q, hf, hq⟩ | ⟨hf, _⟩
    · rw [hf]
      exact ⟨[], Begun.none⟩
    · rw [hf]
      exact ⟨[b], hq⟩
    · rw [hf]
      exact ⟨[], Begun.none⟩
  cases p with
  | between => exact hfirst
  | inside left low high v =>
      by_cases hin : low ≤ b.toNat ∧ b.toNat ≤ high
      · rcases step_inside h hin.1 hin.2 with ⟨c, hs, _⟩ | ⟨q, hs, hq⟩
        · rw [hs]
          exact ⟨[], Begun.none⟩
        · rw [hs]
          exact ⟨begun ++ [b], hq⟩
      · rw [step, if_neg hin]
        exact hfirst

theorem begun_run {p : Place} {begun : List UInt8} (h : Begun p begun) (bytes : List UInt8) :
    ∃ begun', Begun (run p bytes).1 begun' := by
  induction bytes generalizing p begun with
  | nil => exact ⟨begun, h⟩
  | cons b bytes ih =>
      obtain ⟨begun', hstep⟩ := begun_step h b
      exact ih hstep

/-- A byte below 0x80 ends what was begun, as the end of all bytes would, and is a character. -/
theorem step_of_lt {p : Place} {begun : List UInt8} (h : Begun p begun) {b : UInt8}
    (hb : b.toNat < 0x80) :
    step p b.toNat = (.between, atEnd p ++ [.char (Char.ofNat b.toNat)]) := by
  have hfirst : first b.toNat = (.between, [.char (Char.ofNat b.toNat)]) := by
    rw [first, if_pos hb]
  cases p with
  | between => exact hfirst
  | inside left low high v =>
      have hlow := h.bounds.1
      have hout : ¬ (low ≤ b.toNat ∧ b.toNat ≤ high) := by omega
      rw [step, if_neg hout, hfirst]
      rfl

/-- **What was read falls apart at each byte below 0x80**, whatever stands before it. -/
theorem pieces_append_cons (front back : List UInt8) {b : UInt8} (hb : b.toNat < 0x80) :
    pieces (front ++ b :: back) = pieces front ++ .char (Char.ofNat b.toNat) :: pieces back := by
  obtain ⟨begun, hbegun⟩ := begun_run Begun.none front
  have hstep := step_of_lt hbegun hb
  rw [pieces_eq_run, run_append, run, hstep, pieces_eq_run front, pieces_eq_run back]
  simp

theorem decode_append_cons (front back : List UInt8) {b : UInt8} (hb : b.toNat < 0x80) :
    decode (front ++ b :: back) = decode front ++ Char.ofNat b.toNat :: decode back := by
  rw [decode, pieces_append_cons front back hb, List.map_append, List.map_cons]
  rfl

theorem toNat_charOfNat_of_lt {b : UInt8} (hb : b.toNat < 0x80) :
    (Char.ofNat b.toNat).toNat = b.toNat :=
  toNat_charOfNat (Or.inl (by omega))

/-- **And nowhere else**: without the byte there is no such character. -/
theorem notMem_decode {b : UInt8} (hb : b.toNat < 0x80) {bytes : List UInt8} (h : b ∉ bytes) :
    Char.ofNat b.toNat ∉ decode bytes := by
  intro hmem
  have hn := toNat_charOfNat_of_lt hb
  have hbyte := (spelled_pieces bytes).mem_of_lt (by rwa [hn]) hmem
  rw [hn, UInt8.ofNat_toNat] at hbyte
  exact h hbyte

/-- What is spelled by some bytes and ends in a character below 0x80 has its byte at the end. -/
theorem Spelled.getLast?_of_lt {bytes : List UInt8} {found : List Piece} (h : Spelled bytes found)
    {c : Char} (hc : c.toNat < 0x80) (hlast : (found.map Piece.shown).getLast? = some c) :
    bytes.getLast? = some (UInt8.ofNat c.toNat) := by
  have hbehind : ∀ {more : List UInt8} (front : List UInt8),
      more.getLast? = some (UInt8.ofNat c.toNat) →
      (front ++ more).getLast? = some (UInt8.ofNat c.toNat) := by
    intro more front hmore
    rw [List.getLast?_append, hmore]
    rfl
  induction h with
  | nil => exact absurd hlast (by simp)
  | @char d bytes found hrest ih =>
      rw [List.map_cons, List.getLast?_cons] at hlast
      cases hfound : (found.map Piece.shown).getLast? with
      | some x =>
          rw [hfound] at hlast
          exact hbehind _ (ih (hfound.trans hlast))
      | none =>
          -- the character is the last one, so nothing is spelled behind it
          rw [hfound] at hlast
          obtain rfl : d = c := Option.some.inj hlast
          obtain rfl : found = [] := List.map_eq_nil_iff.mp (List.getLast?_eq_none_iff.mp hfound)
          cases hrest
          rw [List.append_nil, encodeChar_of_lt hc]
          rfl
  | @flaw broken bytes found _ hrest ih =>
      rw [List.map_cons, List.getLast?_cons] at hlast
      cases hfound : (found.map Piece.shown).getLast? with
      | some x =>
          rw [hfound] at hlast
          exact hbehind _ (ih (hfound.trans hlast))
      | none =>
          -- what is shown for a flaw is no character below 0x80
          rw [hfound] at hlast
          obtain rfl : replacement = c := Option.some.inj hlast
          exact absurd hc (by decide)

theorem getLast?_decode {b : UInt8} (hb : b.toNat < 0x80) {bytes : List UInt8}
    (h : (decode bytes).getLast? = some (Char.ofNat b.toNat)) : bytes.getLast? = some b := by
  have hn := toNat_charOfNat_of_lt hb
  have hlast := (spelled_pieces bytes).getLast?_of_lt (by rwa [hn]) h
  rwa [hn, UInt8.ofNat_toNat] at hlast

end Text.Utf8

namespace Framing

open Text.Utf8 (decode)

/-! ## Reading and cutting change places -/

/-- **Cutting at a byte below 0x80 and reading change places.** -/
theorem split_decode {b : UInt8} (hb : b.toNat < 0x80) (bytes : List UInt8) :
    split (Char.ofNat b.toNat) (decode bytes)
      = ((split b bytes).1.map decode, decode (split b bytes).2) := by
  induction bytes using split_induction (d := b) with
  | rest bytes h =>
      rw [split_of_notMem h, split_of_notMem (Text.Utf8.notMem_decode hb h)]
      rfl
  | piece bytes more h ih =>
      rw [Text.Utf8.decode_append_cons bytes more hb,
        split_append_cons (Text.Utf8.notMem_decode hb h), ih, split_append_cons h]
      rfl

/-- The end of a line can be taken away before reading it or after. -/
theorem decode_dropLast {b : UInt8} (hb : b.toNat < 0x80) (bytes : List UInt8) :
    decode (dropLast b bytes) = dropLast (Char.ofNat b.toNat) (decode bytes) := by
  by_cases h : bytes.getLast? = some b
  · obtain ⟨front, rfl⟩ := List.getLast?_eq_some_iff.mp h
    have hread : decode (front ++ [b]) = decode front ++ [Char.ofNat b.toNat] :=
      Text.Utf8.decode_append_cons front [] hb
    rw [dropLast, if_pos h, hread, dropLast, if_pos List.getLast?_concat, List.dropLast_concat,
      List.dropLast_concat]
  · have hno : (decode bytes).getLast? ≠ some (Char.ofNat b.toNat) :=
      fun e => h (Text.Utf8.getLast?_decode hb e)
    rw [dropLast, if_neg h, dropLast, if_neg hno]

/-- **The lines of the text are the texts of the lines.** -/
theorem textsOfDecoded_eq (bytes : List UInt8) : textsOfDecoded bytes = texts bytes := by
  have hcut : split '\n' (decode bytes) = ((split 10 bytes).1.map decode, decode (tail bytes)) :=
    split_decode (b := 10) (by decide) bytes
  have hdrop : ∀ line, decode (dropLast 13 line) = dropLast '\r' (decode line) :=
    decode_dropLast (b := 13) (by decide)
  rw [textsOfDecoded, hcut, texts, lineBytes, List.map_map, List.map_map, List.map_map]
  refine List.map_congr_left (fun line _ => ?_)
  simp only [Function.comp_apply, hdrop]

end Framing

namespace Assembler

open Text.Utf8 (decode)

/--
**Lines may be cut before reading or after**, and come out the same.

However a stream is cut into chunks and whatever its bytes are: the texts that an assembler brings
out are those got by reading all bytes as text, cutting that at line feeds, and taking one return
from the end of each line. Line feeds and returns (and every other byte below 0x80) are found in the
text just where they stand among the bytes: between two of them lies the text of the bytes between
them, so that no broken character takes one away, moves one or brings one in.
-/
theorem texts_feedAll (stream : Stream) {chunks : List (List UInt8)} (h : [] ∉ chunks) :
    (({ stream } : Assembler).feedAll chunks).2.lines.toList.map Line.text
        = Framing.textsOfDecoded chunks.flatten
      ∧ ∀ b : UInt8, b.toNat < 0x80 →
        Framing.split (Char.ofNat b.toNat) (decode chunks.flatten)
            = ((Framing.split b chunks.flatten).1.map decode,
              decode (Framing.split b chunks.flatten).2)
          ∧ (decode chunks.flatten).count (Char.ofNat b.toNat) = chunks.flatten.count b
          ∧ ∀ front back, chunks.flatten = front ++ b :: back →
            decode chunks.flatten = decode front ++ Char.ofNat b.toNat :: decode back := by
  refine ⟨?_, fun b hb => ?_⟩
  · have hall := feedAll_fed stream h []
    rw [fed_nil] at hall
    rw [hall, Framing.textsOfDecoded_eq, Framing.output, Framing.lines, List.map_map]
    exact List.map_id _
  · have hcut := Framing.split_decode hb chunks.flatten
    refine ⟨hcut, ?_, ?_⟩
    · rw [← Framing.length_split, ← Framing.length_split, hcut, List.length_map]
    · intro front back e
      rw [e]
      exact Text.Utf8.decode_append_cons front back hb

/-- A character broken off by a return and its line feed, an overlong one, a surrogate and a stray
byte, cut into chunks that end inside them, and a tail that is broken off too. -/
def brokenChunks : List (List UInt8) :=
  [[0xE2, 0x82], [13, 10, 0xC0], [0xAF, 13, 13, 10, 0xED], [0xA0, 0xFF, 10, 0xF0, 0x9F]]

theorem texts_feedAll_brokenChunks :
    [] ∉ brokenChunks
      ∧ (({ stream := .stderr } : Assembler).feedAll brokenChunks).2.lines.toList.map Line.text
        = ["\ufffd", "\ufffd\ufffd\r", "\ufffd\ufffd\ufffd"]
      ∧ (decode brokenChunks.flatten).count '\r' = 3 := by
  have hne : [] ∉ brokenChunks := by decide
  obtain ⟨htexts, hmarks⟩ := texts_feedAll .stderr hne
  obtain ⟨_, hcount, _⟩ := hmarks 13 (by decide)
  refine ⟨hne, htexts.trans ?_, hcount⟩
  decide

end Assembler

end IdleWatch
