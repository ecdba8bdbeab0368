import IdleWatch.Reading

/-!
# What a read means to its reader

A read is to be tried again, or it has failed, or it is taken for what it brought: bytes, or the end
if it brought none. That is all that `Reception.classify` tells apart, and with it a poll is one of
three things: it changes nothing, it fails, or it feeds the assembler.
-/

namespace IdleWatch

/-- The read is to be tried again: it was interrupted, or found nothing yet. -/
def TryAgain : ReadResult → Prop
  | .ok _ => False
  | .error fault => fault.condition ≠ .other

/-- The read failed, and not because the other side has hung up. -/
def Failed : ReadResult → Prop
  | .ok _ => False
  | .error fault => fault.condition = .other ∧ fault.number? ≠ some 5

/-- A fault that is neither is the hang-up. -/
theorem number?_of_taken {fault : Fault} (htry : ¬ TryAgain (.error fault))
    (hfail : ¬ Failed (.error fault)) : fault.number? = some 5 := by
  have hcondition : fault.condition = .other := Decidable.of_not_not htry
  exact Decidable.of_not_not fun hnumber => hfail ⟨hcondition, hnumber⟩

/-- What is to be tried again, or has failed, has brought nothing. -/
theorem received_of_not_taken {result : ReadResult} (h : TryAgain result ∨ Failed result) :
    received result = [] := by
  cases result with
  | ok bytes => exact h.elim False.elim False.elim
  | error fault => rfl

/-- Hanging up is no condition that asks for another try. -/
theorem Fault.number?_ne_of_condition {fault : Fault} (h : fault.condition ≠ .other) :
    fault.number? ≠ some 5 := by
  intro e
  cases fault with
  | number n =>
      obtain rfl := Option.some.inj e
      exact h rfl
  | reported condition text => exact absurd e (by simp [number?])

theorem classify_of_tryAgain {result : ReadResult} (h : TryAgain result) :
    Reception.classify (result.map List.length) = .notReady := by
  cases result with
  | ok bytes => exact h.elim
  | error fault =>
      simp only [Except.map, Reception.classify, if_neg (Fault.number?_ne_of_condition h)]
      cases hcondition : fault.condition with
      | other => exact absurd hcondition h
      | interrupted => rfl
      | wouldBlock => rfl

theorem classify_of_failed {fault : Fault} (h : Failed (.error fault)) :
    Reception.classify (.error fault) = .failed fault := by
  simp only [Reception.classify, if_neg h.2, h.1]

/-- A read that is neither was data or the end. -/
theorem classify_of_taken {result : ReadResult} (htry : ¬ TryAgain result)
    (hfail : ¬ Failed result) :
    Reception.classify (result.map List.length)
      = if received result = [] then .closed else .data (received result).length := by
  cases result with
  | ok bytes => cases bytes <;> rfl
  | error fault =>
      simp only [Except.map, Reception.classify, if_pos (number?_of_taken htry hfail), received,
        if_true]

namespace Reader

theorem poll_of_tryAgain (reader : Reader) {result : ReadResult} (h : TryAgain result) :
    reader.poll result = (reader, .ok {}) := by
  rw [poll, classify_of_tryAgain h]

theorem poll_of_failed (reader : Reader) {fault : Fault} (h : Failed (.error fault)) :
    reader.poll (.error fault) = (reader, .error fault) := by
  rw [poll, Except.map, classify_of_failed h]

/-- A poll that fails leaves its reader as it was. -/
theorem poll_eq_of_error {reader : Reader} {result : ReadResult} {fault : Fault}
    (h : (reader.poll result).2 = .error fault) : reader.poll result = (reader, .error fault) := by
  cases hclass : Reception.classify (result.map List.length) with
  | data | closed | notReady =>
      rw [poll, hclass] at h
      exact absurd h (by simp)
  | failed fault' =>
      rw [poll, hclass] at h ⊢
      rw [Except.error.inj h]

/-- What a poll gives whose read brought these bytes, or the end if it brought none. -/
def taken (reader : Reader) (bytes : List UInt8) : Polled :=
  let out := (reader.feed bytes).2
  if bytes = [] then
    { output := { out with notes := #[.ended reader.stream] ++ out.notes }, stillOpen := false }
  else { output := out }

theorem lines_taken (reader : Reader) (bytes : List UInt8) :
    (reader.taken bytes).output.lines = (reader.feed bytes).2.lines := by
  unfold taken
  split <;> rfl

theorem stillOpen_taken (reader : Reader) (bytes : List UInt8) :
    (reader.taken bytes).stillOpen = false ↔ bytes = [] := by
  unfold taken
  split
  · rename_i h
    exact iff_of_true rfl h
  · rename_i h
    exact iff_of_false (by simp) h

theorem stream_feed_nil (reader : Reader) : (reader.feed []).1.stream = reader.stream := by
  simp only [feed, stream, Assembler.feed, Assembler.discard, List.isEmpty_nil, if_true]
  split <;> rfl

/-- **A read that is neither to be tried again nor failed feeds what it brought.** -/
theorem poll_of_taken (reader : Reader) {result : ReadResult} (htry : ¬ TryAgain result)
    (hfail : ¬ Failed result) :
    reader.poll result
      = ((reader.feed (received result)).1, .ok (reader.taken (received result))) := by
  rw [poll, classify_of_taken htry hfail]
  by_cases h : received result = []
  · rw [if_pos h, taken, if_pos h, h, ← stream_feed_nil]
  · rw [if_neg h, taken, if_neg h]
    dsimp only
    rw [List.take_length]

/-- The end completes no line. -/
theorem lines_feed_nil (reader : Reader) : (reader.feed []).2.lines = #[] := by
  simp only [feed, Assembler.feed, Assembler.discard, List.isEmpty_nil, if_true]
  split <;> rfl

/-- A poll that finds the end brings no line. -/
theorem lines_of_closed {reader reader' : Reader} {result : ReadResult} {polled : Polled}
    (h : reader.poll result = (reader', .ok polled)) (hclosed : polled.stillOpen = false) :
    polled.output.lines = #[] := by
  by_cases htry : TryAgain result
  · rw [poll_of_tryAgain reader htry] at h
    obtain ⟨_, rfl⟩ := (Prod.mk.inj h).imp_right Except.ok.inj
    exact absurd hclosed (by simp)
  by_cases hfail : Failed result
  · cases result with
    | ok bytes => exact hfail.elim
    | error fault => exact absurd ((reader.poll_of_failed hfail).symm.trans h) (by simp)
  · rw [poll_of_taken reader htry hfail] at h
    obtain ⟨_, rfl⟩ := (Prod.mk.inj h).imp_right Except.ok.inj
    rw [lines_taken, (stillOpen_taken reader _).mp hclosed, lines_feed_nil]

/-- A poll fails only if its read did, for the same fault, and leaves the reader as it was. -/
theorem failed_of_poll {reader reader' : Reader} {result : ReadResult} {fault : Fault}
    (h : reader.poll result = (reader', .error fault)) :
    result = .error fault ∧ Failed (.error fault) ∧ reader' = reader := by
  by_cases htry : TryAgain result
  · exact absurd ((reader.poll_of_tryAgain htry).symm.trans h) (by simp)
  by_cases hfail : Failed result
  · cases result with
    | ok bytes => exact hfail.elim
    | error fault' =>
        obtain ⟨hreader, hfault⟩ := Prod.mk.inj ((reader.poll_of_failed hfail).symm.trans h)
        obtain rfl := Except.error.inj hfault
        exact ⟨rfl, hfail, hreader.symm⟩
  · exact absurd ((reader.poll_of_taken htry hfail).symm.trans h) (by simp)

end Reader
end IdleWatch
