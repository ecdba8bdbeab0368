import IdleWatch.Line.Assembler
import IdleWatch.Proofs.Framing

/-!
# Chunks do not matter

An assembler takes a chunk all at once: it looks for the last line feed and cuts what stands before
it. The plainest thing it could do is to absorb the bytes one at a time, and that comes to the same
(`feed_eq_foldl`) as long as no line feed is held back, which is always so. One byte at a time, when
it holds `p` and is given `bytes`, it brings out what the framing of `p ++ bytes` demands and then
holds the tail of that. This lemma, `foldl_absorb`, is an induction over the bytes; that a chunk is
only a stretch of them, and that a close starts everything anew, is a second induction, over the
chunks.
-/

namespace IdleWatch

open Text.Utf8 (decode wellFormed)

/-- One output after another. -/
def Output.append (x y : Output) : Output :=
  { lines := x.lines ++ y.lines, notes := x.notes ++ y.notes }

@[simp] theorem Output.append_lines (x y : Output) : (x.append y).lines = x.lines ++ y.lines := rfl

@[simp] theorem Output.append_notes (x y : Output) : (x.append y).notes = x.notes ++ y.notes := rfl

theorem Output.append_assoc (x y z : Output) : (x.append y).append z = x.append (y.append z) := by
  simp [Output.append, Array.append_assoc]

@[simp] theorem Output.append_empty (x : Output) : x.append {} = x := by
  simp [Output.append]

@[simp] theorem Output.empty_append (x : Output) : Output.append {} x = x := by
  simp [Output.append]

namespace Framing

/-- The lines that these bytes of a stream have to bring out. -/
def lines (stream : Stream) (bytes : List UInt8) : List Line :=
  (texts bytes).map (fun text => { text, stream })

/-- One note for each of these lines whose bytes are not well formed. -/
def flaws (stream : Stream) (bytes : List UInt8) : List Note :=
  ((lineBytes bytes).filter (fun b => !wellFormed b)).map (fun _ => .replaced stream)

/-- The note on the unfinished line that is lost when the stream closes here. -/
def loss (stream : Stream) (bytes : List UInt8) : List Note :=
  if tail bytes = [] then [] else [.discarded stream (tail bytes).length]

/-- All that these bytes have to bring out. -/
def output (stream : Stream) (bytes : List UInt8) : Output :=
  { lines := (lines stream bytes).toArray, notes := (flaws stream bytes).toArray }

theorem output_of_notMem (stream : Stream) {bytes : List UInt8} (h : 10 ∉ bytes) :
    output stream bytes = {} := by
  simp [output, lines, flaws, texts, lineBytes_of_notMem h]

/-- The output of one line. -/
theorem output_concat (stream : Stream) {bytes : List UInt8} (h : 10 ∉ bytes) :
    output stream (bytes ++ [10])
      = { lines := #[{ text := String.ofList (decode (dropLast 13 bytes)), stream }]
          notes := if wellFormed (dropLast 13 bytes) then #[] else #[.replaced stream] } := by
  have hl : lineBytes (bytes ++ [10]) = [dropLast 13 bytes] := lineBytes_append_cons h []
  rw [output, lines, flaws, texts, hl]
  cases hw : wellFormed (dropLast 13 bytes) with
  | true => simp [hw]
  | false => simp [hw]

/-- The output of one line, then that of the bytes behind it. -/
theorem output_append_cons (stream : Stream) {bytes : List UInt8} (h : 10 ∉ bytes)
    (more : List UInt8) :
    output stream (bytes ++ 10 :: more)
      = (output stream (bytes ++ [10])).append (output stream more) := by
  have hl : lineBytes (bytes ++ 10 :: more) = lineBytes (bytes ++ [10]) ++ lineBytes more := by
    rw [lineBytes_append_cons h, lineBytes_append_cons h]
    rfl
  simp [output, Output.append, lines, flaws, texts, hl]

theorem lines_append (stream : Stream) (front bytes : List UInt8) :
    lines stream (front ++ bytes) = lines stream front ++ lines stream (tail front ++ bytes) := by
  rw [lines, texts_append, List.map_append, lines, lines]

theorem flaws_append (stream : Stream) (front bytes : List UInt8) :
    flaws stream (front ++ bytes) = flaws stream front ++ flaws stream (tail front ++ bytes) := by
  rw [flaws, lineBytes_append, List.filter_append, List.map_append, flaws, flaws]

/-- Only the tail of the front matters for what comes behind it. -/
theorem output_append (stream : Stream) (front bytes : List UInt8) :
    output stream (front ++ bytes)
      = (output stream front).append (output stream (tail front ++ bytes)) := by
  simp [output, Output.append, lines_append stream front, flaws_append stream front]

end Framing

namespace Assembler

/-- An assembler of a stream that has been fed these bytes since the last close. -/
def fed (stream : Stream) (bytes : List UInt8) : Assembler :=
  { stream, pending := (Framing.tail bytes).toArray }

theorem fed_nil (stream : Stream) : fed stream [] = { stream } := rfl

/-- Putting out a line is what framing demands of its bytes and a line feed. -/
theorem line_eq (out : Output) (stream : Stream) {raw : List UInt8} (h : 10 ∉ raw) :
    out.line stream raw = out.append (Framing.output stream (raw ++ [10])) := by
  have hdrop : dropReturn raw = Framing.dropLast 13 raw := rfl
  have hw : (Text.Utf8.pieces (Framing.dropLast 13 raw)).all (· != .flaw)
      = wellFormed (Framing.dropLast 13 raw) := rfl
  rw [Output.line, hdrop, hw, Framing.output_concat stream h, Output.append]
  cases wellFormed (Framing.dropLast 13 raw) with
  | true => simp [decode]
  | false => simp [decode]

/-! ## A chunk at once, and its bytes one by one -/

/-- Take one more byte: a line feed completes the line, any other byte is kept for it. -/
def absorb : Assembler × Output → UInt8 → Assembler × Output
  | (a, out), b =>
    if b = lineFeed then ({ a with pending := #[] }, out.line a.stream a.pending.toList)
    else ({ a with pending := a.pending.push b }, out)

theorem absorb_lineFeed (a : Assembler) (out : Output) :
    absorb (a, out) lineFeed = ({ a with pending := #[] }, out.line a.stream a.pending.toList) :=
  rfl

/-- Bytes without a line feed are held back. -/
theorem foldl_absorb_of_notMem (a : Assembler) (out : Output) {bytes : List UInt8}
    (h : lineFeed ∉ bytes) :
    bytes.foldl absorb (a, out) = ({ a with pending := a.pending ++ bytes }, out) := by
  induction bytes generalizing a with
  | nil => simp
  | cons b bytes ih =>
      have hb : b ≠ lineFeed := fun e => h (e ▸ List.mem_cons_self)
      have hbytes : lineFeed ∉ bytes := fun hm => h (List.mem_cons_of_mem b hm)
      rw [List.foldl_cons, absorb, if_neg hb, ih _ hbytes]
      simp

/-- **Lines absorbed are the pieces between their line feeds**, put out one after another. -/
theorem foldl_absorb_concat (stream : Stream) (out : Output) (bytes : List UInt8) :
    (bytes ++ [lineFeed]).foldl absorb ({ stream }, out)
      = ({ stream }, (bytes.splitOn lineFeed).foldl (·.line stream ·) out) := by
  induction bytes using Framing.split_induction (d := lineFeed) generalizing out with
  | rest raw h =>
      rw [List.foldl_append, foldl_absorb_of_notMem _ _ h, List.foldl_cons, absorb_lineFeed,
        List.splitOn_eq_singleton h]
      simp
  | piece raw more h ih =>
      rw [List.append_assoc, List.cons_append, List.foldl_append, foldl_absorb_of_notMem _ _ h,
        List.foldl_cons, absorb_lineFeed, ih, List.splitOn_append_cons_self_of_not_mem h]
      simp

theorem lastFeed?_of_notMem {bytes : Array UInt8} (h : lineFeed ∉ bytes) (n : Nat) :
    lastFeed? bytes n = none := by
  induction n with
  | zero => rfl
  | succ n ih =>
      have hn : bytes[n]? ≠ some lineFeed := fun e => h (Array.mem_of_getElem? e)
      rw [lastFeed?, if_neg hn, ih]

/-- The last line feed is found however many other bytes come behind it. -/
theorem lastFeed?_append (front : List UInt8) {rest : List UInt8} (h : lineFeed ∉ rest) (n : Nat) :
    lastFeed? (front ++ lineFeed :: rest).toArray (front.length + 1 + n) = some front.length := by
  induction n with
  | zero => simp [lastFeed?]
  | succ n ih =>
      -- the place that is looked at lies behind the line feed
      have hplace : (front ++ lineFeed :: rest).toArray[front.length + 1 + n]? = rest[n]? := by
        rw [List.getElem?_toArray, List.getElem?_append_right (by omega)]
        have hindex : front.length + 1 + n - front.length = n + 1 := by omega
        rw [hindex, List.getElem?_cons_succ]
      have hn : rest[n]? ≠ some lineFeed := fun e => h (List.mem_of_getElem? e)
      rw [← Nat.add_assoc, lastFeed?, hplace, if_neg hn, ih]

/-- Every list with a line feed has a last one. -/
theorem exists_last_lineFeed {bytes : List UInt8} (h : lineFeed ∈ bytes) :
    ∃ front rest, bytes = front ++ lineFeed :: rest ∧ lineFeed ∉ rest := by
  -- the last one is the first one from the end
  obtain ⟨rest, front, heq, hrest⟩ := List.eq_append_cons_of_mem (List.mem_reverse.mpr h)
  refine ⟨front.reverse, rest.reverse, ?_, fun hm => hrest (List.mem_reverse.mp hm)⟩
  rw [← List.reverse_reverse bytes, heq]
  simp

theorem append_eq_toArray (pending : Array UInt8) (chunk : List UInt8) :
    pending ++ chunk = (pending.toList ++ chunk).toArray :=
  Array.toList_inj.mp (by simp)

/-- A chunk that completes no line is held back. -/
theorem feed_of_notMem {a : Assembler} {chunk : List UInt8} (h : chunk ≠ [])
    (hmem : lineFeed ∉ a.pending.toList ++ chunk) :
    a.feed chunk = ({ a with pending := a.pending ++ chunk }, {}) := by
  have hne : chunk.isEmpty = false := List.isEmpty_eq_false_iff.mpr h
  have hnone : ∀ n, lastFeed? (a.pending ++ chunk) n = none := by
    rw [append_eq_toArray]
    exact lastFeed?_of_notMem (fun hm => hmem (List.mem_toArray.mp hm))
  rw [feed, hne, if_neg Bool.false_ne_true]
  dsimp only
  rw [hnone]

/-- A chunk with which a last line feed comes completes the lines before it. -/
theorem feed_of_eq_append {a : Assembler} {chunk front rest : List UInt8} (h : chunk ≠ [])
    (heq : a.pending.toList ++ chunk = front ++ lineFeed :: rest) (hrest : lineFeed ∉ rest) :
    a.feed chunk
      = ({ a with pending := rest.toArray },
        (front.splitOn lineFeed).foldl (·.line a.stream ·) {}) := by
  have hne : chunk.isEmpty = false := List.isEmpty_eq_false_iff.mpr h
  have hsize : (front ++ lineFeed :: rest).toArray.size = front.length + 1 + rest.length := by
    rw [List.size_toArray, List.length_append, List.length_cons]
    omega
  have htake : ((front ++ lineFeed :: rest).toArray.take front.length).toList = front := by simp
  have hdrop : (front ++ lineFeed :: rest).toArray.drop (front.length + 1) = rest.toArray := by
    have hle : rest.length ≤ front.length + (rest.length + 1) - (front.length + 1) := by omega
    simp only [Array.drop_eq_extract, List.size_toArray, List.length_append, List.length_cons,
      List.extract_toArray, List.extract_eq_take_drop, List.drop_length_add_append,
      List.drop_succ_cons, List.drop_zero, List.take_of_length_le hle]
  rw [feed, hne, if_neg Bool.false_ne_true, append_eq_toArray, heq]
  dsimp only
  rw [hsize, lastFeed?_append front hrest]
  dsimp only
  rw [htake, hdrop]

/-- **A chunk taken at once is its bytes taken one by one**, unless a line feed is held back. -/
theorem feed_eq_foldl {a : Assembler} (ha : lineFeed ∉ a.pending.toList) {chunk : List UInt8}
    (h : chunk ≠ []) : a.feed chunk = chunk.foldl absorb (a, {}) := by
  by_cases hmem : lineFeed ∈ a.pending.toList ++ chunk
  · obtain ⟨front, rest, heq, hrest⟩ := exists_last_lineFeed hmem
    have hsplit : front ++ lineFeed :: rest = (front ++ [lineFeed]) ++ rest := by simp
    -- what is held back might as well be absorbed once more
    have hfold : chunk.foldl absorb (a, {})
        = (a.pending.toList ++ chunk).foldl absorb ({ stream := a.stream }, {}) := by
      rw [List.foldl_append, foldl_absorb_of_notMem _ _ ha]
      simp
    rw [feed_of_eq_append h heq hrest, hfold, heq, hsplit, List.foldl_append,
      foldl_absorb_concat, foldl_absorb_of_notMem _ _ hrest, List.toArray_appendList,
      List.nil_append]
  · have hchunk : lineFeed ∉ chunk := fun hm => hmem (List.mem_append_right _ hm)
    rw [feed_of_notMem h hmem, foldl_absorb_of_notMem _ _ hchunk]

/-- **Absorbing bytes is framing them**, together with those held back. -/
theorem foldl_absorb (stream : Stream) {front : List UInt8} (h : 10 ∉ front) (out : Output)
    (bytes : List UInt8) :
    bytes.foldl absorb ({ stream, pending := front.toArray }, out)
      = (fed stream (front ++ bytes), out.append (Framing.output stream (front ++ bytes))) := by
  induction bytes generalizing front out with
  | nil =>
      rw [List.append_nil, Framing.output_of_notMem stream h, Output.append_empty, fed,
        Framing.tail_of_notMem h]
      rfl
  | cons b bytes ih =>
      rw [List.foldl_cons]
      by_cases hb : b = lineFeed
      · subst hb
        have habs : absorb ({ stream, pending := front.toArray }, out) lineFeed
            = ({ stream }, out.line stream front) := rfl
        have hf : fed stream (front ++ lineFeed :: bytes) = fed stream bytes := by
          rw [fed, lineFeed, Framing.tail_append_cons h, fed]
        have ho : Framing.output stream (front ++ lineFeed :: bytes)
            = (Framing.output stream (front ++ [10])).append (Framing.output stream bytes) :=
          Framing.output_append_cons stream h bytes
        have hnil : (10 : UInt8) ∉ ([] : List UInt8) := List.not_mem_nil
        rw [habs, ih hnil, hf, ho, line_eq out stream h, Output.append_assoc, List.nil_append]
      · have habs : absorb ({ stream, pending := front.toArray }, out) b
            = ({ stream, pending := (front ++ [b]).toArray }, out) := by
          simp [absorb, hb]
        have hfront : 10 ∉ front ++ [b] := by
          have hb' : (10 : UInt8) ≠ b := fun e => hb e.symm
          simp [h, hb']
        rw [habs, ih hfront, List.append_assoc]
        rfl

/-! ## Chunk after chunk -/

/-- Feed chunk after chunk; what comes out is put together. -/
def feedAll (a : Assembler) : List (List UInt8) → Assembler × Output
  | [] => (a, {})
  | chunk :: more =>
    (((a.feed chunk).1.feedAll more).1, (a.feed chunk).2.append ((a.feed chunk).1.feedAll more).2)

theorem feedAll_append (a : Assembler) (xs ys : List (List UInt8)) :
    a.feedAll (xs ++ ys)
      = (((a.feedAll xs).1.feedAll ys).1,
        (a.feedAll xs).2.append ((a.feedAll xs).1.feedAll ys).2) := by
  induction xs generalizing a with
  | nil => simp [feedAll]
  | cons x xs ih => rw [List.cons_append, feedAll, feedAll, ih, Output.append_assoc]

/-- A chunk adds what the bytes fed so far demand with it, and did not without it. -/
theorem feed_fed (stream : Stream) (bytes : List UInt8) {chunk : List UInt8} (h : chunk ≠ []) :
    (fed stream bytes).feed chunk
      = (fed stream (bytes ++ chunk), Framing.output stream (Framing.tail bytes ++ chunk)) := by
  have htail : 10 ∉ Framing.tail bytes := Framing.notMem_rest bytes
  rw [feed_eq_foldl (a := fed stream bytes) htail h, fed, foldl_absorb stream htail,
    Output.empty_append, fed, fed, ← Framing.tail_append]

/-- A close puts an assembler back to its start; an unfinished line is lost with a note. -/
theorem feed_nil (stream : Stream) (bytes : List UInt8) :
    (fed stream bytes).feed []
      = ({ stream }, { notes := (Framing.loss stream bytes).toArray }) := by
  rw [feed, List.isEmpty_nil, if_pos rfl, discard, fed, Framing.loss]
  by_cases h : Framing.tail bytes = []
  · rw [h]
    rfl
  · rw [if_neg h]
    simp [h]

/-- **A run of chunks is their concatenation.** -/
theorem feedAll_fed (stream : Stream) {run : List (List UInt8)} (h : [] ∉ run)
    (bytes : List UInt8) :
    (fed stream bytes).feedAll run
      = (fed stream (bytes ++ run.flatten),
        Framing.output stream (Framing.tail bytes ++ run.flatten)) := by
  induction run generalizing bytes with
  | nil =>
      have htail : 10 ∉ Framing.tail bytes := Framing.notMem_rest bytes
      rw [List.flatten_nil, List.append_nil, List.append_nil,
        Framing.output_of_notMem stream htail]
      rfl
  | cons chunk run ih =>
      have hchunk : chunk ≠ [] := fun e => h (e ▸ List.mem_cons_self)
      have hrun : [] ∉ run := fun hm => h (List.mem_cons_of_mem chunk hm)
      -- the bytes before the chunk count only through their tail
      have hout : Framing.output stream (Framing.tail bytes ++ (chunk ++ run.flatten))
          = (Framing.output stream (Framing.tail bytes ++ chunk)).append
            (Framing.output stream (Framing.tail (bytes ++ chunk) ++ run.flatten)) := by
        rw [← List.append_assoc, Framing.output_append, ← Framing.tail_append]
      rw [feedAll, feed_fed stream bytes hchunk, ih hrun, List.flatten_cons, hout,
        List.append_assoc]

/-- The bytes of the runs that a close has ended. -/
def closedRuns (chunks : List (List UInt8)) : List (List UInt8) :=
  (Framing.split [] chunks).1.map List.flatten

/-- The bytes fed since the last close. -/
def currentRun (chunks : List (List UInt8)) : List UInt8 := (Framing.split [] chunks).2.flatten

/-- What a run that a close has ended has to bring out. -/
def closedOutput (stream : Stream) (bytes : List UInt8) : Output :=
  (Framing.output stream bytes).append { notes := (Framing.loss stream bytes).toArray }

/-- An assembler fed any chunks stands where the last run leaves it, and has brought out what the
runs demand, one after another. -/
theorem feedAll_runs (stream : Stream) (chunks : List (List UInt8)) :
    ({ stream } : Assembler).feedAll chunks
      = (fed stream (currentRun chunks),
        ((closedRuns chunks).map (closedOutput stream)).foldr Output.append
          (Framing.output stream (currentRun chunks))) := by
  induction chunks using Framing.split_induction (d := []) with
  | rest run h =>
      rw [← fed_nil, feedAll_fed stream h, closedRuns, currentRun, Framing.split_of_notMem h]
      rfl
  | piece run more h ih =>
      rw [closedRuns, currentRun, Framing.split_append_cons h]
      rw [closedRuns, currentRun] at ih
      rw [feedAll_append, ← fed_nil, feedAll_fed stream h, feedAll, List.nil_append,
        feed_nil, ih, List.map_cons, List.map_cons, List.foldr_cons, closedOutput,
        Output.append_assoc]
      rfl

theorem lines_foldr_append (stream : Stream) (runs : List (List UInt8)) (out : Output) :
    ((runs.map (closedOutput stream)).foldr Output.append out).lines.toList
      = runs.flatMap (Framing.lines stream) ++ out.lines.toList := by
  induction runs with
  | nil => rfl
  | cons run runs ih => simp [closedOutput, Framing.output, ih]

theorem notes_foldr_append (stream : Stream) (runs : List (List UInt8)) (out : Output) :
    ((runs.map (closedOutput stream)).foldr Output.append out).notes.toList
      = runs.flatMap (fun run => Framing.flaws stream run ++ Framing.loss stream run)
        ++ out.notes.toList := by
  induction runs with
  | nil => rfl
  | cons run runs ih => simp [closedOutput, Framing.output, ih, List.append_assoc]

/--
**However a stream is cut into chunks, its lines are those of its bytes.**

Closes cut the chunks into runs. The lines that come out are those of each run's bytes, one for
each line feed, and held back is what follows the last line feed of the current run. Notes tell
which lines were not valid UTF-8, and at a close that stood in the middle of a line, how many bytes
were lost. A run is as good as all its bytes at once, fed to an assembler that is new.
-/
theorem feedAll_eq_framing (stream : Stream) (chunks : List (List UInt8)) :
    (({ stream } : Assembler).feedAll chunks).1
        = { stream, pending := (Framing.tail (currentRun chunks)).toArray }
      ∧ (({ stream } : Assembler).feedAll chunks).2.lines.toList
        = (closedRuns chunks ++ [currentRun chunks]).flatMap (Framing.lines stream)
      ∧ (({ stream } : Assembler).feedAll chunks).2.notes.toList
        = (closedRuns chunks).flatMap
            (fun run => Framing.flaws stream run ++ Framing.loss stream run)
          ++ Framing.flaws stream (currentRun chunks)
      ∧ (({ stream } : Assembler).feedAll chunks).1.feed []
        = ({ stream }, { notes := (Framing.loss stream (currentRun chunks)).toArray })
      ∧ (∀ run, run ≠ [] → [] ∉ run →
          ({ stream } : Assembler).feedAll run = ({ stream } : Assembler).feed run.flatten)
      -- what cutting means, for chunks at closes and for bytes at line feeds
      ∧ Framing.Cut [] chunks (Framing.split [] chunks).1 (Framing.split [] chunks).2
      ∧ (∀ bytes, Framing.Cut 10 bytes (Framing.split 10 bytes).1 (Framing.tail bytes)
          ∧ (Framing.lines stream bytes).length = bytes.count 10)
      ∧ ∀ bytes, wellFormed bytes = true ↔ bytes.toByteArray.IsValidUTF8 := by
  have hall := feedAll_runs stream chunks
  refine ⟨?_, ?_, ?_, ?_, ?_, Framing.cut_split [] chunks, ?_,
    Text.Utf8.wellFormed_iff_isValidUTF8⟩
  · rw [hall]
    rfl
  · rw [hall, lines_foldr_append, List.flatMap_append, List.flatMap_singleton]
    rfl
  · rw [hall, notes_foldr_append]
    rfl
  · rw [hall]
    exact feed_nil stream (currentRun chunks)
  · intro run hrun hne
    have hflat : run.flatten ≠ [] := by
      intro h
      obtain ⟨chunk, hchunk⟩ := List.exists_mem_of_ne_nil run hrun
      exact hne (List.flatten_eq_nil_iff.mp h chunk hchunk ▸ hchunk)
    rw [← fed_nil, feedAll_fed stream hne, feed_fed stream [] hflat]
  · intro bytes
    refine ⟨Framing.cut_split 10 bytes, ?_⟩
    rw [Framing.lines, Framing.texts, Framing.lineBytes, List.length_map, List.length_map,
      List.length_map, Framing.length_split]

/-- A return and its line feed may come apart, and a close loses what is unfinished. -/
example : (({ stream := .stdout } : Assembler).feedAll [[79, 75, 13], [10, 0xFF], [], [10]]).2
    = { lines := #[{ text := "OK", stream := .stdout }, { text := "", stream := .stdout }]
        notes := #[.discarded .stdout 1] } := by decide

end Assembler

end IdleWatch
