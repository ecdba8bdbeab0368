import IdleWatch.Proofs.Assembler
import IdleWatch.Reading

/-!
# One poll of a reader

What a read means is decided by `Reception.classify` alone, and only a read of at least one byte is
data. So the empty chunk, by which an assembler is told that its stream has closed, never stands
for bytes; and a poll brings out what the bytes it received complete, whatever the read returned.
-/

namespace IdleWatch

/-- Data is what a read of some bytes brings, all of them. -/
theorem classify_data {result : ReadResult} {n : Nat}
    (h : Reception.classify (result.map List.length) = .data n) :
    received result ≠ [] ∧ n = (received result).length := by
  cases result with
  | ok bytes =>
      cases bytes with
      | nil => exact absurd h (by simp [Except.map, Reception.classify])
      | cons b bytes =>
          simp only [Except.map, Reception.classify, List.length_cons, Reception.data.injEq] at h
          exact ⟨by simp [received], by simp [received, h]⟩
  | error fault =>
      simp only [Except.map, Reception.classify] at h
      split at h
      · exact absurd h (by simp)
      · split at h <;> exact absurd h (by simp)

/-- Any other read has brought nothing. -/
theorem received_of_classify {result : ReadResult}
    (h : ∀ n, Reception.classify (result.map List.length) ≠ .data n) : received result = [] := by
  cases result with
  | ok bytes =>
      cases bytes with
      | nil => rfl
      | cons b bytes => exact absurd rfl (h (bytes.length + 1))
  | error fault => rfl

namespace Reader

/-- **One poll of a reader** whose assembler has been fed `bytes` since the last close. -/
theorem poll_fed {reader reader' : Reader} {polled : Polled} {result : ReadResult}
    {bytes : List UInt8} (hfed : reader.assembler = Assembler.fed reader.stream bytes)
    (h : reader.poll result = (reader', .ok polled)) :
    reader'.stream = reader.stream
      ∧ polled.output.lines.toList
        = Framing.lines reader.stream (Framing.tail bytes ++ received result)
      ∧ (polled.stillOpen = true →
          reader'.assembler = Assembler.fed reader.stream (bytes ++ received result)) := by
  have htail : 10 ∉ Framing.tail bytes := Framing.notMem_rest bytes
  have hnothing : Framing.lines reader.stream (Framing.tail bytes ++ []) = [] := by
    rw [List.append_nil, Framing.lines, Framing.texts, Framing.lineBytes_of_notMem htail]
    rfl
  unfold poll at h
  split at h
  · rename_i n hclass
    obtain ⟨hne, hn⟩ := classify_data hclass
    rw [hn, List.take_length, feed, hfed, Assembler.feed_fed _ _ hne] at h
    obtain ⟨rfl, rfl⟩ := (Prod.mk.inj h).imp_right Except.ok.inj
    exact ⟨rfl, by simp [Framing.output], fun _ => rfl⟩
  · rename_i hclass
    have hr : received result = [] := received_of_classify (by simp [hclass])
    rw [feed, hfed, Assembler.feed_nil] at h
    obtain ⟨rfl, rfl⟩ := (Prod.mk.inj h).imp_right Except.ok.inj
    refine ⟨rfl, ?_, fun hopen => absurd hopen (by simp)⟩
    rw [hr, hnothing]
  · rename_i hclass
    have hr : received result = [] := received_of_classify (by simp [hclass])
    obtain ⟨rfl, rfl⟩ := (Prod.mk.inj h).imp_right Except.ok.inj
    refine ⟨rfl, ?_, fun _ => ?_⟩
    · rw [hr, hnothing]
    · rw [hr, List.append_nil, hfed]
  · exact absurd h (by simp)

/-- A read that fails a run has brought nothing. -/
theorem received_of_poll_failed {reader reader' : Reader} {result : ReadResult} {fault : Fault}
    (h : reader.poll result = (reader', .error fault)) : received result = [] := by
  refine received_of_classify (fun n hclass => ?_)
  rw [poll, hclass] at h
  exact absurd h (by simp)

end Reader

end IdleWatch
