import IdleWatch.Toml.Print

/-!
# A string that is written can be read

Four forms, and for each a reader that has to undo what the form does: escapes between quotes,
nothing between apostrophes, and in the forms of several lines the first line end and the quotes
that stand before the closing ones. `Spells` says how a character may be written between quotes, on
one line or several, and both readers take every spelling.

The closing of a form of several lines is where care is needed: up to two quotes may come right
before it, and the reader has to look five characters ahead. So the induction goes over the text
with the quotes of the run that is going on still unread.
-/

namespace IdleWatch.Toml

/-! ## Characters between quotes -/

/-- A way to write a character between quotes. -/
inductive Spells (c : Char) : List Char → Prop where
  | short {x : Char} : shortEscape? x = some c → Spells c ['\\', x]
  | hex {a b d e : Char} : scalarOfHex? [a, b, d, e] = some c → Spells c ['\\', 'u', a, b, d, e]
  | plain : isBasic c = true → Spells c [c]

theorem ne_of_isBasic {c : Char} (h : isBasic c = true) :
    c ≠ '"' ∧ c ≠ '\\' ∧ c ≠ '\n' ∧ c ≠ '\r' := by
  refine ⟨?_, ?_, ?_, ?_⟩ <;> (rintro rfl; exact absurd h (by decide))

/-- The letters that announce a number are no escapes of their own. -/
theorem ne_of_shortEscape? {x c : Char} (h : shortEscape? x = some c) : x ≠ 'u' ∧ x ≠ 'U' := by
  refine ⟨?_, ?_⟩ <;> (rintro rfl; exact absurd h (by simp [shortEscape?]))

theorem Spells.exists_cons {c : Char} {e : List Char} (h : Spells c e) :
    ∃ x e', e = x :: e' ∧ x ≠ '"' := by
  cases h with
  | short | hex => exact ⟨_, _, rfl, by decide⟩
  | plain hx => exact ⟨_, _, rfl, (ne_of_isBasic hx).1⟩

theorem toNat_lt_of_isControl {c : Char} (h : isControl c = true) : c.toNat < 128 := by
  simp only [isControl, Bool.or_eq_true, Bool.and_eq_true, decide_eq_true_eq] at h
  rcases h with ⟨⟨hlt, _⟩, _⟩ | rfl
  · have : c.toNat < 32 := hlt
    omega
  · decide

/-- The number of a control character, in hexadecimal digits, is read back. -/
theorem scalarOfHex?_of_isControl : ∀ n < 128, isControl (Char.ofNat n) = true →
    scalarOfHex? ['0', '0', (Nat.digitChar ((Char.ofNat n).toNat / 16)).toUpper,
      (Nat.digitChar ((Char.ofNat n).toNat % 16)).toUpper] = some (Char.ofNat n) := by
  decide

theorem isPlain_of_not_isControl {c : Char} (h : isControl c = false) (hnewline : c ≠ '\n') :
    isPlain c = true := by
  simp only [isControl, Bool.or_eq_false_iff, Bool.and_eq_false_iff, decide_eq_false_iff_not,
    Classical.not_not] at h
  obtain ⟨hlow, hdelete⟩ := h
  rcases hlow with (hle | htab) | hfeed
  · simp [isPlain, Char.not_lt.mp hle, hdelete]
  · simp [isPlain, htab]
  · exact absurd hfeed hnewline

/-- Every character but the quote and the line feed is spelled. -/
theorem spells_escape {c : Char} (hquote : c ≠ '"') (hnewline : c ≠ '\n') :
    Spells c ((escape? c).getD [c]) := by
  unfold escape?
  split
  · exact Spells.short rfl
  · exact Spells.short rfl
  · exact Spells.short rfl
  · exact Spells.short rfl
  · rename_i hbackslash
    by_cases hc : isControl c = true
    · rw [if_pos hc]
      have hnumber := scalarOfHex?_of_isControl c.toNat (toNat_lt_of_isControl hc)
      rw [Char.ofNat_toNat] at hnumber
      exact Spells.hex (hnumber hc)
    · rw [if_neg hc]
      refine Spells.plain ?_
      rw [isBasic, isPlain_of_not_isControl (Bool.eq_false_iff.mpr hc) hnewline]
      simp only [Bool.true_and, Bool.and_eq_true, decide_eq_true_eq]
      exact ⟨hquote, hbackslash⟩

/-- Every character is spelled on one line. -/
theorem spells_basicChar (c : Char) : Spells c (basicChar c) := by
  unfold basicChar
  split
  · exact Spells.short rfl
  · exact Spells.short rfl
  · exact Spells.short rfl
  · rename_i hquote hnewline _
    exact spells_escape hquote hnewline

/-! ## One line -/

theorem basicBody_spells {c : Char} {e : List Char} (h : Spells c e) (acc t : List Char) :
    basicBody acc (e ++ t) = basicBody (c :: acc) t := by
  cases h with
  | @short x hx =>
      obtain ⟨hu, hU⟩ := ne_of_shortEscape? hx
      show basicBody acc ('\\' :: x :: t) = _
      rw [basicBody.eq_def]
      simp [hu, hU, hx]
  | @hex a b d e hx =>
      show basicBody acc ('\\' :: 'u' :: a :: b :: d :: e :: t) = _
      rw [basicBody, hx]
  | plain hx =>
      obtain ⟨_, hbackslash, _, _⟩ := ne_of_isBasic hx
      show basicBody acc (c :: t) = _
      rw [basicBody.eq_def]
      simp [hbackslash, hx]

/-- **Between quotes on one line every text is read back.** -/
theorem basicBody_flatMap (s acc rest : List Char) :
    basicBody acc (s.flatMap basicChar ++ '"' :: rest) = some (acc.reverse ++ s, rest) := by
  induction s generalizing acc with
  | nil => rw [List.flatMap_nil, List.nil_append, basicBody, List.append_nil]
  | cons c s ih =>
      rw [List.flatMap_cons, List.append_assoc, basicBody_spells (spells_basicChar c), ih,
        List.reverse_cons, List.append_assoc, List.singleton_append]

/-- **Between apostrophes on one line a text is read back** that can stand there. -/
theorem literalBody_append {s : List Char} (hplain : ∀ c ∈ s, isPlain c = true)
    (happ : '\'' ∉ s) (acc rest : List Char) :
    literalBody acc (s ++ '\'' :: rest) = some (acc.reverse ++ s, rest) := by
  induction s generalizing acc with
  | nil => rw [List.nil_append, literalBody, List.append_nil]
  | cons c s ih =>
      have hc : c ≠ '\'' := fun e => happ (e ▸ List.mem_cons_self)
      rw [List.cons_append, literalBody.eq_def]
      simp only [hplain c List.mem_cons_self, if_true]
      rw [ih (fun x hx => hplain x (List.mem_cons_of_mem c hx))
        (fun hm => happ (List.mem_cons_of_mem c hm)), List.reverse_cons, List.append_assoc,
        List.singleton_append]

/-! ## Three quotes -/

/-- **How a text between three quotes ends**, for one kind of quotes and a reader of such texts: as
two quotes may stand right before the closing ones, three close it if no quote comes next, and of
five the last three do. -/
structure Tripled (q : Char) (body : List Char → Reads (List Char)) : Prop where
  one : ∀ {x : Char}, x ≠ q → ∀ acc t, body acc (q :: x :: t) = body (q :: acc) (x :: t)
  two : ∀ {x : Char}, x ≠ q → ∀ acc t,
    body acc (q :: q :: x :: t) = body (q :: acc) (q :: x :: t)
  close : ∀ {rest : List Char}, rest.head? ≠ some q → ∀ acc,
    body acc (q :: q :: q :: rest) = some (acc.reverse, rest)
  closeOne : ∀ {rest : List Char}, rest.head? ≠ some q → ∀ acc,
    body acc (q :: q :: q :: q :: rest) = some ((q :: acc).reverse, rest)
  closeTwo : ∀ rest acc, body acc (q :: q :: q :: q :: q :: rest) = some ((q :: q :: acc).reverse, rest)

section Tripled

variable {q : Char} {body : List Char → Reads (List Char)} {run : Nat}

/-- Up to two quotes belong to the text if another character follows. -/
theorem Tripled.quotes (h : Tripled q body) (hrun : run ≤ 2) (acc : List Char) {x : Char}
    (hx : x ≠ q) (t : List Char) :
    body acc (List.replicate run q ++ x :: t) = body (List.replicate run q ++ acc) (x :: t) := by
  match run with
  | 0 => rfl
  | 1 => exact h.one hx acc t
  | 2 => exact (h.two hx acc t).trans (h.one hx (q :: acc) t)

/-- And if the closing ones follow, but no more. -/
theorem Tripled.closed (h : Tripled q body) (hrun : run ≤ 2) (acc : List Char) {rest : List Char}
    (hrest : rest.head? ≠ some q) :
    body acc (List.replicate run q ++ q :: q :: q :: rest)
      = some (acc.reverse ++ List.replicate run q, rest) := by
  rw [← List.reverse_replicate, ← List.reverse_append]
  match run with
  | 0 => exact h.close hrest acc
  | 1 => exact h.closeOne hrest acc
  | 2 => exact h.closeTwo rest acc

end Tripled

/-! ## Several lines -/

theorem multiBasicBody_spells {c : Char} {e : List Char} (h : Spells c e) (acc t : List Char) :
    multiBasicBody .off acc (e ++ t) = multiBasicBody .off (c :: acc) t := by
  cases h with
  | @short x hx =>
      obtain ⟨hu, hU⟩ := ne_of_shortEscape? hx
      show multiBasicBody .off acc ('\\' :: x :: t) = _
      rw [multiBasicBody.eq_def]
      simp [hu, hU, hx]
  | @hex a b d e hx =>
      show multiBasicBody .off acc ('\\' :: 'u' :: a :: b :: d :: e :: t) = _
      rw [multiBasicBody.eq_def]
      simp [hx]
  | plain hx =>
      obtain ⟨hquote, hbackslash, _, hreturn⟩ := ne_of_isBasic hx
      show multiBasicBody .off acc (c :: t) = _
      rw [multiBasicBody.eq_def]
      simp [hquote, hbackslash, hreturn, hx]

theorem multiBasicBody_newline (acc t : List Char) :
    multiBasicBody .off acc ('\n' :: t) = multiBasicBody .off ('\n' :: acc) t := by
  rw [multiBasicBody.eq_def]
  rfl

theorem tripled_multiBasicBody : Tripled '"' (multiBasicBody .off) where
  one := by
    intro x hx acc t
    rw [multiBasicBody.eq_def]
    simp [hx]
  two := by
    intro x hx acc t
    rw [multiBasicBody.eq_def]
    simp [hx]
  close := by
    intro rest hrest acc
    rw [multiBasicBody.eq_def]
    cases rest with
    | nil => simp
    | cons x rest => simp [show x ≠ '"' from fun e => hrest (congrArg some e)]
  closeOne := by
    intro rest hrest acc
    rw [multiBasicBody.eq_def]
    cases rest with
    | nil => simp
    | cons x rest => simp [show x ≠ '"' from fun e => hrest (congrArg some e)]
  closeTwo := by
    intro rest acc
    rw [multiBasicBody.eq_def]
    simp

/-- Between three quotes any character but the quote is spelled, or is the line feed itself. -/
theorem multiBasicChars_cons {c : Char} (hquote : c ≠ '"') (run : Nat) (s : List Char) :
    ∃ e, multiBasicChars run (c :: s) = e ++ multiBasicChars 0 s
      ∧ (Spells c e ∨ c = '\n' ∧ e = ['\n']) := by
  by_cases htab : c = '\t'
  · subst htab
    exact ⟨['\\', 't'], by rw [multiBasicChars]; rfl, Or.inl (Spells.short rfl)⟩
  · refine ⟨(escape? c).getD [c], ?_, ?_⟩
    · rw [multiBasicChars]
      · exact hquote
      · exact htab
    · by_cases hnewline : c = '\n'
      · -- a line feed stands for itself here, which no spelling on one line allows
        subst hnewline
        exact Or.inr ⟨rfl, rfl⟩
      · exact Or.inl (spells_escape hquote hnewline)

/-- **Between three quotes every text is read back**, from any run of quotes on. -/
theorem multiBasicBody_chars (s : List Char) {run : Nat} (hrun : run ≤ 2) (acc : List Char)
    {rest : List Char} (hrest : rest.head? ≠ some '"') :
    multiBasicBody .off acc
        (List.replicate run '"' ++ (multiBasicChars run s ++ '"' :: '"' :: '"' :: rest))
      = some (acc.reverse ++ (List.replicate run '"' ++ s), rest) := by
  induction s generalizing run acc with
  | nil =>
      rw [multiBasicChars, List.nil_append, List.append_nil]
      exact tripled_multiBasicBody.closed hrun acc hrest
  | cons c s ih =>
      -- the quotes of the run are read together with what follows them
      have hrev : (List.replicate run '"' ++ acc).reverse
          = acc.reverse ++ List.replicate run '"' := by
        rw [List.reverse_append, List.reverse_replicate]
      by_cases hquote : c = '"'
      · subst hquote
        by_cases htwo : run = 2
        · -- the third quote in a row is escaped, and a new run begins
          rw [multiBasicChars, if_pos htwo]
          rw [List.cons_append, tripled_multiBasicBody.quotes hrun acc (by decide)]
          have hspell : Spells '"' ['\\', '"'] := Spells.short rfl
          refine (multiBasicBody_spells hspell _ _).trans ?_
          refine (ih (Nat.zero_le 2) _).trans ?_
          rw [List.reverse_cons, hrev]
          simp
        · -- the run goes on
          rw [multiBasicChars, if_neg htwo]
          have hnext := @ih (run + 1) (by omega) acc
          rw [List.replicate_succ', List.append_assoc, List.append_assoc] at hnext
          exact hnext
      · obtain ⟨e, he, hspell⟩ := multiBasicChars_cons hquote run s
        have hread : ∀ acc t, multiBasicBody .off acc (e ++ t) = multiBasicBody .off (c :: acc) t := by
          intro acc t
          rcases hspell with hspell | ⟨rfl, rfl⟩
          · exact multiBasicBody_spells hspell acc t
          · exact multiBasicBody_newline acc t
        have hfirst : ∃ x e', e = x :: e' ∧ x ≠ '"' := by
          rcases hspell with hspell | ⟨rfl, rfl⟩
          · exact hspell.exists_cons
          · exact ⟨_, _, rfl, by decide⟩
        obtain ⟨x, e', rfl, hx⟩ := hfirst
        rw [he, List.append_assoc, List.cons_append, tripled_multiBasicBody.quotes hrun acc hx]
        refine (hread _ _).trans ?_
        refine (ih (Nat.zero_le 2) _).trans ?_
        rw [List.reverse_cons, hrev]
        simp

/-! ## Several lines between apostrophes -/

/-- The longest run, from a state in which the best so far and the run going on are known. -/
def runs (c : Char) (state : Nat × Nat) (s : List Char) : Nat :=
  (s.foldl (fun (best, run) d => if d = c then (max best (run + 1), run + 1) else (best, 0))
    state).1

theorem longestRun_eq (c : Char) (s : List Char) : longestRun c s = runs c (0, 0) s := rfl

theorem runs_cons_self (c : Char) (best run : Nat) (s : List Char) :
    runs c (best, run) (c :: s) = runs c (max best (run + 1), run + 1) s := by
  simp only [runs, List.foldl_cons, if_true]

theorem runs_cons_of_ne {c d : Char} (h : d ≠ c) (best run : Nat) (s : List Char) :
    runs c (best, run) (d :: s) = runs c (best, 0) s := by
  simp only [runs, List.foldl_cons, if_neg h]

theorem le_runs (c : Char) (best run : Nat) (s : List Char) : best ≤ runs c (best, run) s := by
  induction s generalizing best run with
  | nil => exact Nat.le_refl best
  | cons d s ih =>
      by_cases h : d = c
      · subst h
        rw [runs_cons_self]
        exact Nat.le_trans (Nat.le_max_left _ _) (ih _ _)
      · rw [runs_cons_of_ne h]
        exact ih _ _

theorem succ_le_runs (c : Char) (best run : Nat) (s : List Char) :
    run + 1 ≤ runs c (best, run) (c :: s) := by
  rw [runs_cons_self]
  exact Nat.le_trans (Nat.le_max_right _ _) (le_runs _ _ _ _)

theorem notMem_of_longestRun {c : Char} {s : List Char} (h : longestRun c s = 0) : c ∉ s := by
  rw [longestRun_eq] at h
  have hall : ∀ (s : List Char) (run : Nat), runs c (0, run) s = 0 → c ∉ s := by
    intro s
    induction s with
    | nil => exact fun _ _ hm => absurd hm (by simp)
    | cons d s ih =>
        intro run h hm
        by_cases hd : d = c
        · subst hd
          have := succ_le_runs d 0 run s
          omega
        · rw [runs_cons_of_ne hd] at h
          rcases List.mem_cons.mp hm with e | hm
          · exact hd e.symm
          · exact ih 0 h hm
  exact hall s 0 h

theorem tripled_multiLiteralBody : Tripled '\'' multiLiteralBody where
  one := by
    intro x hx acc t
    rw [multiLiteralBody.eq_def]
    simp [hx, isPlain]
  two := by
    intro x hx acc t
    rw [multiLiteralBody.eq_def]
    simp [hx, isPlain]
  close := by
    intro rest hrest acc
    rw [multiLiteralBody.eq_def]
    cases rest with
    | nil => simp
    | cons x rest => simp [show x ≠ '\'' from fun e => hrest (congrArg some e)]
  closeOne := by
    intro rest hrest acc
    rw [multiLiteralBody.eq_def]
    cases rest with
    | nil => simp
    | cons x rest => simp [show x ≠ '\'' from fun e => hrest (congrArg some e)]
  closeTwo := by
    intro rest acc
    rw [multiLiteralBody]

theorem multiLiteralBody_cons {c : Char} (hquote : c ≠ '\'') (hc : isPlain c = true ∨ c = '\n')
    (acc t : List Char) : multiLiteralBody acc (c :: t) = multiLiteralBody (c :: acc) t := by
  rcases hc with hc | rfl
  · have hreturn : c ≠ '\r' := by
      rintro rfl
      exact absurd hc (by decide)
    have hnewline : c ≠ '\n' := by
      rintro rfl
      exact absurd hc (by decide)
    rw [multiLiteralBody]
    · rw [if_pos hc]
    · exact fun _ e => absurd e hquote
    · exact fun _ e => absurd e hquote
    · exact fun _ e => absurd e hquote
    · exact hnewline
    · exact fun _ e => absurd e hreturn
  · rw [multiLiteralBody.eq_def]
    rfl

/-- **Between three apostrophes a text is read back** that can stand there and has not three
apostrophes in a row. -/
theorem multiLiteralBody_append (s : List Char) {best run : Nat} (hrun : run ≤ 2)
    (hruns : runs '\'' (best, run) s ≤ 2) (hplain : ∀ c ∈ s, isPlain c = true ∨ c = '\n')
    (acc : List Char) {rest : List Char} (hrest : rest.head? ≠ some '\'') :
    multiLiteralBody acc
        (List.replicate run '\'' ++ (s ++ '\'' :: '\'' :: '\'' :: rest))
      = some (acc.reverse ++ (List.replicate run '\'' ++ s), rest) := by
  induction s generalizing best run acc with
  | nil =>
      rw [List.nil_append, List.append_nil]
      exact tripled_multiLiteralBody.closed hrun acc hrest
  | cons c s ih =>
      have hmore : ∀ x ∈ s, isPlain x = true ∨ x = '\n' :=
        fun x hx => hplain x (List.mem_cons_of_mem c hx)
      by_cases hquote : c = '\''
      · -- the run goes on, and stays below three because no run of the text is longer
        subst hquote
        have hle := succ_le_runs '\'' best run s
        rw [runs_cons_self] at hle hruns
        have hnext := @ih _ (run + 1) (by omega) hruns hmore acc
        rw [List.replicate_succ', List.append_assoc, List.append_assoc] at hnext
        exact hnext
      · rw [runs_cons_of_ne hquote] at hruns
        rw [List.cons_append, tripled_multiLiteralBody.quotes hrun acc hquote,
          multiLiteralBody_cons hquote (hplain c List.mem_cons_self)]
        refine (ih (Nat.zero_le 2) hruns hmore _).trans ?_
        rw [List.reverse_cons, List.reverse_append, List.reverse_replicate]
        simp

/-! ## Which form is read -/

/-- A quote that is not the first of three opens a string of one line. -/
theorem string_quote {t : List Char} (h : ∀ u, t ≠ '"' :: '"' :: u) :
    string ('"' :: t) = (basicBody [] t).map string.asString := by
  rw [string]
  exact h

theorem string_apostrophe {t : List Char} (h : ∀ u, t ≠ '\'' :: '\'' :: u) :
    string ('\'' :: t) = (literalBody [] t).map string.asString := by
  rw [string]
  exact h

theorem string_basic (s : List Char) {rest : List Char} (hrest : rest.head? ≠ some '"') :
    string ('"' :: (s.flatMap basicChar ++ '"' :: rest)) = some (String.ofList s, rest) := by
  rw [string_quote]
  · rw [basicBody_flatMap]
    rfl
  · -- an empty text is followed by its closing quote and by no other
    intro u e
    cases s with
    | nil =>
        injection e with _ e
        rw [e] at hrest
        exact hrest rfl
    | cons c s =>
        obtain ⟨x, e', hx, hne⟩ := (spells_basicChar c).exists_cons
        rw [List.flatMap_cons, hx] at e
        injection e with e
        exact hne e

theorem string_literal {s : List Char} (hplain : ∀ c ∈ s, isPlain c = true) (happ : '\'' ∉ s)
    {rest : List Char} (hrest : rest.head? ≠ some '\'') :
    string ('\'' :: (s ++ '\'' :: rest)) = some (String.ofList s, rest) := by
  rw [string_apostrophe]
  · rw [literalBody_append hplain happ]
    rfl
  · intro u e
    cases s with
    | nil =>
        injection e with _ e
        rw [e] at hrest
        exact hrest rfl
    | cons c s =>
        injection e with e
        exact happ (e ▸ List.mem_cons_self)

/-- The line end in front of a text of several lines is skipped, and is there if it has to be. -/
theorem skipFirstNewline_start {newline : Bool} {t : List Char}
    (h : newline = false → ∃ x u, t = x :: u ∧ x ≠ '\n' ∧ x ≠ '\r') :
    skipFirstNewline ((if newline then ['\n'] else []) ++ t) = t := by
  cases newline with
  | true => rfl
  | false =>
      obtain ⟨x, u, rfl, hnewline, hreturn⟩ := h rfl
      have hnone : newline? (x :: u) = none := by
        rw [newline?.eq_def]
        simp [hnewline, hreturn]
      show skipFirstNewline (x :: u) = x :: u
      rw [skipFirstNewline, hnone]
      rfl

theorem string_multiBasic {newline : Bool} {s : List Char} (hnewline : newline = false → '\n' ∉ s)
    {rest : List Char} (hrest : rest.head? ≠ some '"') :
    string ('"' :: '"' :: '"' :: ((if newline then ['\n'] else [])
        ++ (multiBasicChars 0 s ++ '"' :: '"' :: '"' :: rest)))
      = some (String.ofList s, rest) := by
  rw [string, skipFirstNewline_start]
  · have hread := multiBasicBody_chars s (Nat.zero_le 2) [] hrest
    rw [List.replicate_zero, List.nil_append] at hread
    rw [hread]
    rfl
  · intro hno
    cases s with
    | nil => exact ⟨_, _, rfl, by decide, by decide⟩
    | cons c s =>
        have hc : c ≠ '\n' := fun e => hnewline hno (e ▸ List.mem_cons_self)
        by_cases hquote : c = '"'
        · subst hquote
          rw [multiBasicChars, if_neg (by decide)]
          exact ⟨_, _, rfl, by decide, by decide⟩
        · obtain ⟨e, he, hspell | ⟨e', _⟩⟩ := multiBasicChars_cons hquote 0 s
          · rw [he]
            cases hspell with
            | short | hex => exact ⟨_, _, rfl, by decide, by decide⟩
            | plain hx =>
                obtain ⟨_, _, hfeed, hreturn⟩ := ne_of_isBasic hx
                exact ⟨_, _, rfl, hfeed, hreturn⟩
          · exact absurd e' hc

theorem string_multiLiteral {newline : Bool} {s : List Char}
    (hnewline : newline = false → '\n' ∉ s) (hruns : longestRun '\'' s ≤ 2)
    (hplain : ∀ c ∈ s, isPlain c = true ∨ c = '\n') {rest : List Char}
    (hrest : rest.head? ≠ some '\'') :
    string ('\'' :: '\'' :: '\'' :: ((if newline then ['\n'] else [])
        ++ (s ++ '\'' :: '\'' :: '\'' :: rest)))
      = some (String.ofList s, rest) := by
  rw [string, skipFirstNewline_start]
  · have hread := multiLiteralBody_append s (Nat.zero_le 2) hruns hplain [] hrest
    rw [List.replicate_zero, List.nil_append] at hread
    rw [hread]
    rfl
  · intro hno
    cases s with
    | nil => exact ⟨_, _, rfl, by decide, by decide⟩
    | cons c s =>
        refine ⟨c, _, rfl, fun e => hnewline hno (e ▸ List.mem_cons_self), ?_⟩
        rintro rfl
        exact absurd (hplain _ List.mem_cons_self) (by decide)

/-! ## Every string -/

/-- What the features promise where a text is written between apostrophes on one line. -/
theorem Features.of_literal {f : Features} (h : f.form = .literal) :
    f.control = false ∧ f.apostrophes = 0 ∧ f.newline = false := by
  unfold form at h
  split at h
  · exact Form.noConfusion h
  split at h
  · rename_i hf
    simp only [Bool.and_eq_true, Bool.not_eq_true', decide_eq_true_eq] at hf
    exact ⟨hf.1.1, hf.1.2, hf.2⟩
  split at h
  · exact Form.noConfusion h
  split at h
  · exact Form.noConfusion h
  split at h
  · exact Form.noConfusion h
  · exact Form.noConfusion h

/-- And on several lines. -/
theorem Features.of_multiLiteral {f : Features} (h : f.form = .multiLiteral) :
    f.control = false ∧ f.apostrophes ≤ 2 := by
  unfold form at h
  split at h
  · exact Form.noConfusion h
  split at h
  · exact Form.noConfusion h
  split at h
  · exact Form.noConfusion h
  split at h
  · rename_i hf
    simp only [Bool.and_eq_true, Bool.not_eq_true', decide_eq_true_eq] at hf
    exact hf
  split at h
  · exact Form.noConfusion h
  · exact Form.noConfusion h

theorem notMem_newline {s : List Char} (h : (Features.of s).newline = false) : '\n' ∉ s := by
  have hno : s.contains '\n' = false := h
  rw [List.contains_eq_mem] at hno
  exact of_decide_eq_false hno

theorem isPlain_or_newline {s : List Char} (h : (Features.of s).control = false) :
    ∀ c ∈ s, isPlain c = true ∨ c = '\n' := by
  intro c hc
  have hno : isControl c = false := Bool.eq_false_iff.mpr (List.any_eq_false.mp h c hc)
  by_cases hnewline : c = '\n'
  · exact Or.inr hnewline
  · exact Or.inl (isPlain_of_not_isControl hno hnewline)

/-- **Every string that is written is read back**, whatever it holds and in whatever form, if no
quote or apostrophe follows it. -/
theorem string_printString (text : String) {rest : List Char} (hquote : rest.head? ≠ some '"')
    (happ : rest.head? ≠ some '\'') : string (printString text ++ rest) = some (text, rest) := by
  have htext : String.ofList text.toList = text := String.ofList_toList
  have hnewline := fun h => notMem_newline (s := text.toList) h
  unfold printString
  dsimp only
  cases hform : (Features.of text.toList).form with
  | basic =>
      have hread := string_basic text.toList hquote
      rw [htext] at hread
      simpa [stringChars] using hread
  | literal =>
      obtain ⟨hcontrol, hnone, hno⟩ := Features.of_literal hform
      have hplain : ∀ c ∈ text.toList, isPlain c = true := by
        intro c hc
        rcases isPlain_or_newline hcontrol c hc with h | rfl
        · exact h
        · exact absurd hc (hnewline hno)
      have hread := string_literal hplain (notMem_of_longestRun hnone) happ
      rw [htext] at hread
      simpa [stringChars] using hread
  | multiBasic =>
      have hread := string_multiBasic hnewline hquote
      rw [htext] at hread
      simpa [stringChars] using hread
  | multiLiteral =>
      obtain ⟨hcontrol, hruns⟩ := Features.of_multiLiteral hform
      have hread := string_multiLiteral hnewline hruns (isPlain_or_newline hcontrol) happ
      rw [htext] at hread
      simpa [stringChars] using hread

end IdleWatch.Toml
