import IdleWatch.Text.Utf8

/-!
# Reading undoes writing

The reader is a machine, and a machine is understood through what it has behind it. `Begun` says
which bytes of an unfinished character lie behind each place the machine can be in, and with it one
induction over the bytes shows that what is read is *spelled* by what was given: each character by
its own bytes, each flaw by bytes that are all 0x80 or above.

Two facts follow that the framing of lines relies on. A sequence is read without a flaw exactly
when it is valid UTF-8, and a character below 0x80, a line feed above all, is made out only where
its one byte stands.
-/

namespace IdleWatch.Text.Utf8

/-! ## The machine as a function of place and bytes -/

/-- Where the reader gets to from a place, and what it makes out on the way. -/
def run : Place → List UInt8 → Place × List Piece
  | p, [] => (p, [])
  | p, b :: bs =>
    ((run (step p b.toNat).1 bs).1, (step p b.toNat).2 ++ (run (step p b.toNat).1 bs).2)

theorem run_append (p : Place) (xs ys : List UInt8) :
    run p (xs ++ ys) = ((run (run p xs).1 ys).1, (run p xs).2 ++ (run (run p xs).1 ys).2) := by
  induction xs generalizing p with
  | nil => simp [run]
  | cons x xs ih => simp [run, ih, List.append_assoc]

/-- Reading on from a reading under way is `run`. -/
theorem foldl_push (r : Reading) (bytes : List UInt8) :
    bytes.foldl Reading.push r
      = { place := (run r.place bytes).1, found := r.found ++ (run r.place bytes).2 } := by
  induction bytes generalizing r with
  | nil => simp [run]
  | cons b bs ih =>
      rw [List.foldl_cons, ih]
      simp [Reading.push, run, ← Array.toList_inj, List.append_assoc]

theorem pieces_eq_run (bytes : List UInt8) :
    pieces bytes = (run .between bytes).2 ++ atEnd (run .between bytes).1 := by
  simp [pieces, foldl_push]

/-! ## What lies behind a place -/

/-- The bytes of an unfinished character that put the reader in each place. -/
inductive Begun : Place → List UInt8 → Prop where
  | none : Begun .between []
  | ofTwo {v : Nat} : 0x2 ≤ v → v < 0x20 →
      Begun (.inside 1 0x80 0xBF v) [UInt8.ofNat (0xC0 + v)]
  | ofThree {v low high : Nat} : v < 0x10 →
      low = (if v = 0x0 then 0xA0 else 0x80) → high = (if v = 0xD then 0x9F else 0xBF) →
      Begun (.inside 2 low high v) [UInt8.ofNat (0xE0 + v)]
  | ofThree' {v : Nat} : 0x20 ≤ v → v < 0x400 → (v < 0x360 ∨ 0x380 ≤ v) →
      Begun (.inside 1 0x80 0xBF v) [UInt8.ofNat (0xE0 + v / 64), UInt8.ofNat (0x80 + v % 64)]
  | ofFour {v low high : Nat} : v < 0x5 →
      low = (if v = 0x0 then 0x90 else 0x80) → high = (if v = 0x4 then 0x8F else 0xBF) →
      Begun (.inside 3 low high v) [UInt8.ofNat (0xF0 + v)]
  | ofFour' {v : Nat} : 0x10 ≤ v → v < 0x110 →
      Begun (.inside 2 0x80 0xBF v) [UInt8.ofNat (0xF0 + v / 64), UInt8.ofNat (0x80 + v % 64)]
  | ofFour'' {v : Nat} : 0x400 ≤ v → v < 0x4400 →
      Begun (.inside 1 0x80 0xBF v) [UInt8.ofNat (0xF0 + v / 4096),
        UInt8.ofNat (0x80 + v / 64 % 64), UInt8.ofNat (0x80 + v % 64)]

/-- **What was read, spelled out.** A character stands for its bytes, a flaw for some bytes none of
which is a character by itself. -/
inductive Spelled : List UInt8 → List Piece → Prop where
  | nil : Spelled [] []
  | char (c : Char) {bytes : List UInt8} {found : List Piece} :
      Spelled bytes found → Spelled (encodeChar c ++ bytes) (.char c :: found)
  | flaw {broken bytes : List UInt8} {found : List Piece} :
      (∀ b ∈ broken, 0x80 ≤ b.toNat) → Spelled bytes found →
      Spelled (broken ++ bytes) (.flaw :: found)

/-- Nothing but bytes from 0x80 on lies behind an unfinished character. -/
theorem Begun.high {p : Place} {bs : List UInt8} (h : Begun p bs) : ∀ b ∈ bs, 0x80 ≤ b.toNat := by
  cases h <;> simp only [List.mem_cons, List.not_mem_nil, or_false, forall_eq_or_imp, forall_eq,
    UInt8.toNat_ofNat', false_implies, implies_true] <;> omega

/-- Only bytes from 0x80 to 0xBF continue a character. -/
theorem Begun.bounds {left low high v : Nat} {bs : List UInt8}
    (h : Begun (.inside left low high v) bs) : 0x80 ≤ low ∧ high ≤ 0xBF := by
  cases h with
  | ofThree _ h1 h2 => split at h1 <;> split at h2 <;> omega
  | ofFour _ h1 h2 => split at h1 <;> split at h2 <;> omega
  | _ => omega

theorem toNat_charOfNat {n : Nat} (h : n < 0xD800 ∨ 0xE000 ≤ n ∧ n < 0x110000) :
    (Char.ofNat n).toNat = n := by
  have hv : n.isValidChar := by
    unfold Nat.isValidChar; omega
  rw [Char.ofNat, dif_pos hv]
  rfl

/-- A byte is determined by its number. -/
theorem byte_eq {b : UInt8} {n : Nat} (h : b.toNat = n) : b = UInt8.ofNat n := by
  rw [← h, UInt8.ofNat_toNat]

/-! ## One byte further -/

/-- A byte read between characters is a character, begins one, or is a flaw. -/
theorem first_cases (b : UInt8) :
    (∃ c, first b.toNat = (.between, [.char c]) ∧ [b] = encodeChar c)
      ∨ (∃ p, first b.toNat = (p, []) ∧ Begun p [b])
      ∨ (first b.toNat = (.between, [.flaw]) ∧ 0x80 ≤ b.toNat) := by
  have hb : b.toNat < 256 := b.toNat_lt
  by_cases hlow : b.toNat < 0x80
  · refine Or.inl ⟨Char.ofNat b.toNat, by rw [first, if_pos hlow], ?_⟩
    have hn : (Char.ofNat b.toNat).toNat = b.toNat := toNat_charOfNat (by omega)
    simp [encodeChar, hn, hlow]
  refine Or.inr ?_
  unfold first
  rw [if_neg hlow]
  -- a lead byte is the top bits of its character, counted from the first lead byte of its kind
  split
  · obtain ⟨v, hv⟩ : ∃ v, b.toNat = 0xC0 + v := ⟨b.toNat - 0xC0, by omega⟩
    refine Or.inl ⟨_, rfl, ?_⟩
    rw [hv, byte_eq hv, Nat.add_sub_cancel_left]
    exact Begun.ofTwo (by omega) (by omega)
  split
  · rename_i h
    exact Or.inl ⟨_, rfl, byte_eq h ▸ Begun.ofThree (by omega) rfl rfl⟩
  split
  · rename_i h
    exact Or.inl ⟨_, rfl, byte_eq h ▸ Begun.ofThree (v := 0xD) (by omega) rfl rfl⟩
  split
  · obtain ⟨v, hv⟩ : ∃ v, b.toNat = 0xE0 + v := ⟨b.toNat - 0xE0, by omega⟩
    refine Or.inl ⟨_, rfl, ?_⟩
    rw [hv, byte_eq hv, Nat.add_sub_cancel_left]
    exact Begun.ofThree (by omega) (if_neg (by omega)).symm (if_neg (by omega)).symm
  split
  · rename_i h
    exact Or.inl ⟨_, rfl, byte_eq h ▸ Begun.ofFour (by omega) rfl rfl⟩
  split
  · obtain ⟨v, hv⟩ : ∃ v, b.toNat = 0xF0 + v := ⟨b.toNat - 0xF0, by omega⟩
    refine Or.inl ⟨_, rfl, ?_⟩
    rw [hv, byte_eq hv, Nat.add_sub_cancel_left]
    exact Begun.ofFour (by omega) (if_neg (by omega)).symm (if_neg (by omega)).symm
  split
  · rename_i h
    exact Or.inl ⟨_, rfl, byte_eq h ▸ Begun.ofFour (v := 0x4) (by omega) rfl rfl⟩
  · exact Or.inr ⟨rfl, by omega⟩

theorem encodeChar_two {n : Nat} (h : 0x80 ≤ n) (h' : n < 0x800) :
    encodeChar (Char.ofNat n) = [UInt8.ofNat (0xC0 + n / 64), UInt8.ofNat (0x80 + n % 64)] := by
  rw [encodeChar, toNat_charOfNat (by omega)]
  rw [if_neg (by omega), if_pos h']

theorem encodeChar_three {n : Nat} (h : 0x800 ≤ n) (h' : n < 0xD800 ∨ 0xE000 ≤ n ∧ n < 0x10000) :
    encodeChar (Char.ofNat n) = [UInt8.ofNat (0xE0 + n / 4096),
      UInt8.ofNat (0x80 + n / 64 % 64), UInt8.ofNat (0x80 + n % 64)] := by
  rw [encodeChar, toNat_charOfNat (by omega)]
  rw [if_neg (by omega), if_neg (by omega), if_pos (by omega)]

theorem encodeChar_four {n : Nat} (h : 0x10000 ≤ n) (h' : n < 0x110000) :
    encodeChar (Char.ofNat n) = [UInt8.ofNat (0xF0 + n / 262144),
      UInt8.ofNat (0x80 + n / 4096 % 64), UInt8.ofNat (0x80 + n / 64 % 64),
      UInt8.ofNat (0x80 + n % 64)] := by
  rw [encodeChar, toNat_charOfNat (by omega)]
  rw [if_neg (by omega), if_neg (by omega), if_neg (by omega)]

/-- A byte that can continue a character completes it or brings it further. -/
theorem step_inside {left low high v : Nat} {bs : List UInt8} {b : UInt8}
    (h : Begun (.inside left low high v) bs) (hlow : low ≤ b.toNat) (hhigh : b.toNat ≤ high) :
    (∃ c, step (.inside left low high v) b.toNat = (.between, [.char c])
        ∧ bs ++ [b] = encodeChar c)
      ∨ (∃ p, step (.inside left low high v) b.toNat = (p, []) ∧ Begun p (bs ++ [b])) := by
  obtain ⟨w, hw⟩ : ∃ w, w = v * 64 + (b.toNat - 0x80) := ⟨_, rfl⟩
  have hstep : step (.inside left low high v) b.toNat
      = if left = 1 then (.between, [.char (Char.ofNat w)])
        else (.inside (left - 1) 0x80 0xBF w, []) := by
    rw [hw, step, if_pos ⟨hlow, hhigh⟩]
  rw [hstep]
  -- what the byte adds is its low six bits, and the bytes before it are those of `v`
  have hbounds := h.bounds
  have hv : v = w / 64 := by omega
  have hb : b = UInt8.ofNat (0x80 + w % 64) := byte_eq (by omega)
  cases h with
  | ofTwo h1 h2 =>
      refine Or.inl ⟨_, rfl, ?_⟩
      rw [encodeChar_two (by omega) (by omega), hb, hv]
      rfl
  | ofThree h1 h2 h3 =>
      have hw' : 0x20 ≤ w ∧ w < 0x400 ∧ (w < 0x360 ∨ 0x380 ≤ w) := by
        split at h2 <;> split at h3 <;> omega
      refine Or.inr ⟨_, rfl, ?_⟩
      rw [hb, hv]
      exact Begun.ofThree' hw'.1 hw'.2.1 hw'.2.2
  | ofThree' h1 h2 h3 =>
      refine Or.inl ⟨_, rfl, ?_⟩
      rw [encodeChar_three (by omega) (by omega), hb, hv, show w / 64 / 64 = w / 4096 by omega]
      rfl
  | ofFour h1 h2 h3 =>
      have hw' : 0x10 ≤ w ∧ w < 0x110 := by
        split at h2 <;> split at h3 <;> omega
      refine Or.inr ⟨_, rfl, ?_⟩
      rw [hb, hv]
      exact Begun.ofFour' hw'.1 hw'.2
  | ofFour' h1 h2 =>
      refine Or.inr ⟨_, rfl, ?_⟩
      rw [hb, hv, show w / 64 / 64 = w / 4096 by omega]
      exact Begun.ofFour'' (by omega) (by omega)
  | ofFour'' h1 h2 =>
      refine Or.inl ⟨_, rfl, ?_⟩
      rw [encodeChar_four (by omega) (by omega), hb, hv,
        show w / 64 / 4096 = w / 262144 by omega, show w / 64 / 64 = w / 4096 by omega]
      rfl

/-- **Whatever is read is spelled by the bytes**, from any place and what lies behind it. -/
theorem spelled_run {p : Place} {begun : List UInt8} (h : Begun p begun) (bytes : List UInt8) :
    Spelled (begun ++ bytes) ((run p bytes).2 ++ atEnd (run p bytes).1) := by
  induction bytes generalizing p begun with
  | nil =>
      cases p with
      | between =>
          cases h
          exact Spelled.nil
      | inside =>
          rw [run]
          exact Spelled.flaw h.high Spelled.nil
  | cons b bs ih =>
      -- a byte read between characters, with nothing behind it
      have fresh : Spelled (b :: bs) ((first b.toNat).2 ++ (run (first b.toNat).1 bs).2
          ++ atEnd (run (first b.toNat).1 bs).1) := by
        rcases first_cases b with ⟨c, hf, hc⟩ | ⟨p', hf, hp'⟩ | ⟨hf, hb⟩
        · rw [hf, ← List.singleton_append, hc]
          exact Spelled.char c (ih Begun.none)
        · rw [hf]
          exact ih hp'
        · rw [hf, ← List.singleton_append]
          exact Spelled.flaw (by simpa using hb) (ih Begun.none)
      rw [run]
      cases p with
      | between =>
          cases h
          exact fresh
      | inside left low high v =>
          by_cases hin : low ≤ b.toNat ∧ b.toNat ≤ high
          · rw [← List.singleton_append, ← List.append_assoc]
            rcases step_inside h hin.1 hin.2 with ⟨c, hs, hc⟩ | ⟨p', hs, hp'⟩
            · rw [hs, hc]
              exact Spelled.char c (ih Begun.none)
            · rw [hs]
              exact ih hp'
          · -- what was begun is a flaw, and the byte is read afresh
            rw [step, if_neg hin]
            exact Spelled.flaw h.high fresh

theorem spelled_pieces (bytes : List UInt8) : Spelled bytes (pieces bytes) := by
  rw [pieces_eq_run]
  exact spelled_run Begun.none bytes

/-! ## Written characters are read back -/

theorem run_cons {p q : Place} {out : List Piece} {n : Nat} (hn : n < 256)
    (h : step p n = (q, out)) (bs : List UInt8) :
    run p (UInt8.ofNat n :: bs) = ((run q bs).1, out ++ (run q bs).2) := by
  rw [run, UInt8.toNat_ofNat_of_lt' hn, h]

/-- The last byte of a character completes it. -/
theorem step_last {low high v k : Nat} (hlow : low ≤ 0x80 + k) (hhigh : 0x80 + k ≤ high) :
    step (.inside 1 low high v) (0x80 + k) = (.between, [.char (Char.ofNat (v * 64 + k))]) := by
  rw [step, if_pos ⟨hlow, hhigh⟩, Nat.add_sub_cancel_left]
  rfl

/-- A byte before the last one brings the character further. -/
theorem step_next {left low high v k : Nat} (hlow : low ≤ 0x80 + k) (hhigh : 0x80 + k ≤ high) :
    step (.inside (left + 2) low high v) (0x80 + k)
      = (.inside (left + 1) 0x80 0xBF (v * 64 + k), []) := by
  rw [step, if_pos ⟨hlow, hhigh⟩, Nat.add_sub_cancel_left]
  dsimp only
  rw [if_neg (by omega), show left + 2 - 1 = left + 1 by omega]

/-- The place after the first byte of a character of two, three and four bytes. -/
theorem first_two {v : Nat} (h : 0x2 ≤ v) (h' : v < 0x20) :
    step .between (0xC0 + v) = (.inside 1 0x80 0xBF v, []) := by
  rw [step, first, if_neg (by omega), if_pos (by omega), Nat.add_sub_cancel_left]

theorem first_three {v : Nat} (h : v < 0x10) :
    step .between (0xE0 + v) = (.inside 2 (if v = 0x0 then 0xA0 else 0x80)
      (if v = 0xD then 0x9F else 0xBF) v, []) := by
  rw [step, first, if_neg (by omega), if_neg (by omega)]
  by_cases h0 : v = 0x0
  · subst h0; rfl
  by_cases hD : v = 0xD
  · subst hD; rfl
  rw [if_neg (by omega), if_neg (by omega), if_pos (by omega), if_neg h0, if_neg hD,
    Nat.add_sub_cancel_left]

theorem first_four {v : Nat} (h : v < 0x5) :
    step .between (0xF0 + v) = (.inside 3 (if v = 0x0 then 0x90 else 0x80)
      (if v = 0x4 then 0x8F else 0xBF) v, []) := by
  rw [step, first, if_neg (by omega), if_neg (by omega), if_neg (by omega), if_neg (by omega),
    if_neg (by omega)]
  by_cases h0 : v = 0x0
  · subst h0; rfl
  by_cases h4 : v = 0x4
  · subst h4; rfl
  rw [if_neg (by omega), if_pos (by omega), if_neg h0, if_neg h4, Nat.add_sub_cancel_left]

theorem run_encodeChar (c : Char) : run .between (encodeChar c) = (.between, [.char c]) := by
  obtain ⟨n, hn⟩ : ∃ n, c.toNat = n := ⟨_, rfl⟩
  have hvalid : n < 0xD800 ∨ 0xDFFF < n ∧ n < 0x110000 := hn ▸ c.valid
  have hc : Char.ofNat n = c := by rw [← hn, Char.ofNat_toNat]
  rw [encodeChar, hn]
  split
  · rename_i h1
    have hs : step .between n = (.between, [.char c]) := by
      rw [step, first, if_pos h1, hc]
    rw [run_cons (by omega) hs]
    rfl
  split
  · rename_i h1 h2
    rw [run_cons (by omega) (first_two (v := n / 64) (by omega) (by omega)),
      run_cons (by omega) (step_last (k := n % 64) (by omega) (by omega)),
      show n / 64 * 64 + n % 64 = n by omega, hc]
    rfl
  split
  · rename_i h1 h2 h3
    have hlow : (if n / 4096 = 0x0 then 0xA0 else 0x80) ≤ 0x80 + n / 64 % 64 := by
      split <;> omega
    have hhigh : 0x80 + n / 64 % 64 ≤ (if n / 4096 = 0xD then 0x9F else 0xBF) := by
      split <;> omega
    rw [run_cons (by omega) (first_three (v := n / 4096) (by omega)),
      run_cons (by omega) (step_next hlow hhigh),
      run_cons (by omega) (step_last (k := n % 64) (by omega) (by omega)),
      show (n / 4096 * 64 + n / 64 % 64) * 64 + n % 64 = n by omega, hc]
    rfl
  · rename_i h1 h2 h3
    have hlow : (if n / 262144 = 0x0 then 0x90 else 0x80) ≤ 0x80 + n / 4096 % 64 := by
      split <;> omega
    have hhigh : 0x80 + n / 4096 % 64 ≤ (if n / 262144 = 0x4 then 0x8F else 0xBF) := by
      split <;> omega
    rw [run_cons (by omega) (first_four (v := n / 262144) (by omega)),
      run_cons (by omega) (step_next hlow hhigh),
      run_cons (by omega) (step_next (k := n / 64 % 64) (by omega) (by omega)),
      run_cons (by omega) (step_last (k := n % 64) (by omega) (by omega)),
      show ((n / 262144 * 64 + n / 4096 % 64) * 64 + n / 64 % 64) * 64 + n % 64 = n by omega, hc]
    rfl

/-- **Written text is read back**, whatever bytes follow it. -/
theorem run_flatMap_encodeChar (text : List Char) (bytes : List UInt8) :
    run .between (text.flatMap encodeChar ++ bytes)
      = ((run .between bytes).1, text.map .char ++ (run .between bytes).2) := by
  induction text with
  | nil => simp
  | cons c text ih =>
      rw [List.flatMap_cons, List.append_assoc, run_append, run_encodeChar, ih]
      simp

theorem pieces_flatMap_encodeChar (text : List Char) :
    pieces (text.flatMap encodeChar) = text.map .char := by
  have h := run_flatMap_encodeChar text []
  rw [List.append_nil] at h
  rw [pieces_eq_run, h]
  simp [run, atEnd]

/-! ## Well-formed means valid -/

theorem encodeChar_eq (c : Char) : encodeChar c = String.utf8EncodeChar c := by
  have hvalid : c.toNat < 0x110000 := by
    have := c.valid
    unfold UInt32.isValidChar Nat.isValidChar at this
    rw [Char.toNat_val] at this
    omega
  unfold encodeChar String.utf8EncodeChar
  rw [Char.toNat_val]
  generalize c.toNat = n at hvalid
  dsimp only
  by_cases h1 : n < 0x80
  · rw [if_pos h1, if_pos (show n ≤ 0x7f by omega)]
  rw [if_neg h1, if_neg (show ¬n ≤ 0x7f by omega)]
  by_cases h2 : n < 0x800
  · rw [if_pos h2, if_pos (show n ≤ 0x7ff by omega), Nat.add_comm 0xC0, Nat.add_comm 0x80,
      show n / 64 % 0x20 = n / 64 by omega]
  rw [if_neg h2, if_neg (show ¬n ≤ 0x7ff by omega)]
  by_cases h3 : n < 0x10000
  · rw [if_pos h3, if_pos (show n ≤ 0xffff by omega), Nat.add_comm 0xE0, Nat.add_comm 0x80,
      Nat.add_comm 0x80, show n / 4096 % 0x10 = n / 4096 by omega]
  · rw [if_neg h3, if_neg (show ¬n ≤ 0xffff by omega), Nat.add_comm 0xF0, Nat.add_comm 0x80,
      Nat.add_comm 0x80, Nat.add_comm 0x80, show n / 262144 % 0x08 = n / 262144 by omega]

/-- Without a flaw, what was read is a text, and the bytes are those of that text. -/
theorem Spelled.eq_encode {bytes : List UInt8} {found : List Piece} (h : Spelled bytes found)
    (hall : found.all (· != .flaw) = true) :
    bytes = (found.map Piece.shown).flatMap encodeChar := by
  induction h with
  | nil => rfl
  | char c _ ih =>
      simp only [List.all_cons, Bool.and_eq_true] at hall
      simp [Piece.shown, ← ih hall.2]
  | flaw => simp at hall

theorem wellFormed_iff_exists (bytes : List UInt8) :
    wellFormed bytes = true ↔ ∃ text : List Char, bytes = text.flatMap encodeChar := by
  constructor
  · intro h
    exact ⟨_, (spelled_pieces bytes).eq_encode h⟩
  · rintro ⟨text, rfl⟩
    rw [wellFormed, pieces_flatMap_encodeChar]
    simp

/-- **Well-formed means valid UTF-8.** -/
theorem wellFormed_iff_isValidUTF8 (bytes : List UInt8) :
    wellFormed bytes = true ↔ bytes.toByteArray.IsValidUTF8 := by
  rw [wellFormed_iff_exists, show encodeChar = String.utf8EncodeChar from funext encodeChar_eq]
  constructor
  · rintro ⟨text, rfl⟩
    exact ⟨text, rfl⟩
  · rintro ⟨text, h⟩
    exact ⟨text, List.toByteArray_inj.mp h⟩

/-! ## Where a character below 0x80 comes from -/

theorem encodeChar_of_lt {c : Char} (h : c.toNat < 0x80) :
    encodeChar c = [UInt8.ofNat c.toNat] := by
  rw [encodeChar, if_pos h]

/-- A character below 0x80 is made out only where its byte stands. -/
theorem Spelled.mem_of_lt {bytes : List UInt8} {found : List Piece} (h : Spelled bytes found)
    {c : Char} (hc : c.toNat < 0x80) (hmem : c ∈ found.map Piece.shown) :
    UInt8.ofNat c.toNat ∈ bytes := by
  induction h with
  | nil => simp at hmem
  | char d _ ih =>
      rcases List.mem_cons.mp hmem with h | h
      · rw [Piece.shown] at h
        subst h
        rw [encodeChar_of_lt hc]
        exact List.mem_cons_self
      · exact List.mem_append_right _ (ih h)
  | flaw _ _ ih =>
      rcases List.mem_cons.mp hmem with h | h
      · subst h
        exact absurd hc (by decide)
      · exact List.mem_append_right _ (ih h)

/-- **Text without the byte of a line feed has no line feed.** -/
theorem newline_notMem_decode {bytes : List UInt8} (h : 10 ∉ bytes) : '\n' ∉ decode bytes :=
  fun hmem => h ((spelled_pieces bytes).mem_of_lt (by decide) hmem)

end IdleWatch.Text.Utf8
