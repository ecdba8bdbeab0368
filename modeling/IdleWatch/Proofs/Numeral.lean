import IdleWatch.Proofs.Quotation
import IdleWatch.Toml.Grammar

/-!
# A value that is written can be read

Numbers, truth values and arrays of strings. A number is written in decimal digits, and where digits
stand a reader tries a date and a time of day first; neither fits, because digits are followed by
the end of the line and by no other mark.
-/

namespace IdleWatch.Toml

/-! ## Digits -/

theorem isDigit_of_mem_printNat {n : Nat} {c : Char} (h : c ∈ printNat n) : isDigit c = true := by
  have hc := Nat.isDigit_of_mem_toDigits (by decide) (Nat.le_refl 10) h
  simpa [Char.isDigit, isDigit, Char.le_def] using hc

theorem hexDigit?_digitChar : ∀ d < 10, hexDigit? (Nat.digitChar d) = some d := by decide

theorem numberOf_concat (ds : List Char) (c : Char) :
    numberOf 10 (ds ++ [c]) = numberOf 10 ds * 10 + (hexDigit? c).getD 0 := by
  rw [numberOf, List.foldl_append, List.foldl_cons, List.foldl_nil, numberOf]

theorem printNat_of_lt {n : Nat} (h : n < 10) : printNat n = [] ++ [Nat.digitChar n] :=
  Nat.toDigits_of_lt_base h

theorem printNat_of_le {n : Nat} (h : 10 ≤ n) :
    printNat n = printNat (n / 10) ++ [Nat.digitChar (n % 10)] :=
  Nat.toDigits_of_base_le (by decide) h

/-- **The digits of a number are read as that number.** -/
theorem numberOf_printNat (n : Nat) : numberOf 10 (printNat n) = n := by
  induction n using Nat.strongRecOn with
  | ind n ih =>
      by_cases hlt : n < 10
      · rw [printNat_of_lt hlt, numberOf_concat, hexDigit?_digitChar n hlt]
        exact Nat.zero_add n
      · rw [printNat_of_le (Nat.not_lt.mp hlt), numberOf_concat, ih (n / 10) (by omega),
          hexDigit?_digitChar _ (Nat.mod_lt n (by decide))]
        show n / 10 * 10 + n % 10 = n
        omega

theorem digitChar_ne_zero : ∀ d < 10, d ≠ 0 → Nat.digitChar d ≠ '0' := by decide

/-- A number has no leading nought. -/
theorem printNat_of_pos {n : Nat} (h : n ≠ 0) : ∃ c ds, printNat n = c :: ds ∧ c ≠ '0' := by
  induction n using Nat.strongRecOn with
  | ind n ih =>
      by_cases hlt : n < 10
      · exact ⟨_, _, printNat_of_lt hlt, digitChar_ne_zero n hlt h⟩
      · obtain ⟨c, ds, hcs, hc⟩ := ih (n / 10) (by omega) (by omega)
        exact ⟨c, ds ++ [_], by rw [printNat_of_le (Nat.not_lt.mp hlt), hcs]; rfl, hc⟩

/-! ## Digits are no date -/

/-- Digits, and then the end of the line. -/
def IsDigits (s : List Char) : Prop :=
  ∃ ds rest, s = ds ++ '\n' :: rest ∧ ∀ c ∈ ds, isDigit c = true

theorem IsDigits.tail {c : Char} {s : List Char} (h : IsDigits (c :: s)) (hc : isDigit c = true) :
    IsDigits s := by
  obtain ⟨ds, rest, e, hds⟩ := h
  cases ds with
  | nil =>
      injection e with e
      exact absurd hc (by rw [e]; decide)
  | cons d ds =>
      injection e with _ e
      exact ⟨ds, rest, e, fun x hx => hds x (List.mem_cons_of_mem d hx)⟩

/-- The mark that would make them a date or a time does not come. -/
theorem IsDigits.mark {c : Char} {s : List Char} (h : IsDigits s) (hc : isDigit c = false)
    (hnewline : c ≠ '\n') : mark c s = none := by
  obtain ⟨ds, rest, rfl, hds⟩ := h
  cases ds with
  | nil => exact if_neg (fun e => hnewline e.symm)
  | cons d ds =>
      refine if_neg (fun e => ?_)
      exact absurd (hds d List.mem_cons_self) (by rw [e, hc]; simp)

theorem IsDigits.date {s : List Char} (h : IsDigits s) : date? s = none := by
  unfold date?
  cases hyear : fourDigits s with
  | none => rfl
  | some year =>
      obtain ⟨n, t⟩ := year
      have ht : IsDigits t := by
        unfold fourDigits at hyear
        split at hyear
        · rename_i a b c d u
          split at hyear
          · rename_i hall
            simp only [List.all_cons, List.all_nil, Bool.and_true, Bool.and_eq_true] at hall
            injection hyear with e
            injection e with _ e
            subst e
            exact (((h.tail hall.1).tail hall.2.1).tail hall.2.2.1).tail hall.2.2.2
          · exact absurd hyear (by simp)
        · exact absurd hyear (by simp)
      -- four digits may be a year, but no hyphen follows them
      have hno := ht.mark (c := '-') (by decide) (by decide)
      simp [hno]

theorem IsDigits.time {s : List Char} (h : IsDigits s) : time? s = none := by
  unfold time?
  cases hhour : twoDigits 0 23 s with
  | none => rfl
  | some hour =>
      obtain ⟨n, t⟩ := hour
      have ht : IsDigits t := by
        unfold twoDigits at hhour
        split at hhour
        · rename_i a b u
          split at hhour
          · rename_i hall
            rw [Bool.and_eq_true] at hall
            dsimp only at hhour
            split at hhour
            · injection hhour with e
              injection e with _ e
              subst e
              exact (h.tail hall.1).tail hall.2
            · exact absurd hhour (by simp)
          · exact absurd hhour (by simp)
        · exact absurd hhour (by simp)
      -- two digits may be an hour, but no colon follows them
      have hno := ht.mark (c := ':') (by decide) (by decide)
      simp [hno]

theorem IsDigits.moment {s : List Char} (h : IsDigits s) : moment s = none := by
  rw [Toml.moment, h.date, h.time]
  rfl

/-! ## Numbers -/

theorem moreDigits_append {ds : List Char} (hds : ∀ c ∈ ds, isDigit c = true) (acc : List Char)
    (rest : List Char) :
    moreDigits isDigit acc (ds ++ '\n' :: rest) = some (acc.reverse ++ ds, '\n' :: rest) := by
  induction ds generalizing acc with
  | nil =>
      rw [List.nil_append, List.append_nil, moreDigits]
      · rfl
      · simp
      · simp
  | cons c ds ih =>
      have hc := hds c List.mem_cons_self
      have hmark : c ≠ '_' := by
        rintro rfl
        exact absurd hc (by decide)
      rw [List.cons_append, moreDigits, if_pos hc,
        ih (fun x hx => hds x (List.mem_cons_of_mem c hx)), List.reverse_cons, List.append_assoc,
        List.singleton_append]
      · exact fun _ _ e => absurd e hmark
      · exact fun e => absurd e hmark

theorem wholeDigits_printNat (n : Nat) (rest : List Char) :
    wholeDigits (printNat n ++ '\n' :: rest) = some (printNat n, '\n' :: rest) := by
  by_cases hn : n = 0
  · subst hn
    rfl
  · obtain ⟨c, ds, hcs, hc⟩ := printNat_of_pos hn
    have hall : ∀ x ∈ printNat n, isDigit x = true := fun x => isDigit_of_mem_printNat
    rw [hcs] at hall ⊢
    rw [List.cons_append, wholeDigits, digits, if_pos (hall c List.mem_cons_self),
      moreDigits_append (fun x hx => hall x (List.mem_cons_of_mem c hx))]
    · rfl
    · exact fun _ e => hc (List.cons.inj e).1

theorem decimal_printNat {n : Nat} (h : (n : Int) ≤ maxInteger) (rest : List Char) :
    decimal false (printNat n ++ '\n' :: rest) = some (.integer n, '\n' :: rest) := by
  have hmin : minInteger ≤ (n : Int) := Int.le_trans (by decide) (Int.natCast_nonneg n)
  have hinteger : integer? (n : Int) = some (.integer n) := if_pos ⟨hmin, h⟩
  have hfraction : fraction? ('\n' :: rest) = some (none, '\n' :: rest) := rfl
  have hexponent : exponent? ('\n' :: rest) = some (none, '\n' :: rest) := rfl
  unfold decimal
  rw [wholeDigits_printNat]
  simp [hfraction, hexponent, numberOf_printNat, hinteger]

/-- **A number is read back**, up to the greatest integer. -/
theorem number_printNat {n : Nat} (h : (n : Int) ≤ maxInteger) (rest : List Char) :
    number (printNat n ++ '\n' :: rest) = some (.integer n, '\n' :: rest) := by
  by_cases hn : n = 0
  · subst hn
    rfl
  · obtain ⟨c, ds, hcs, hc⟩ := printNat_of_pos hn
    have hdigit : isDigit c = true := isDigit_of_mem_printNat (hcs ▸ List.mem_cons_self)
    have hdecimal := decimal_printNat h rest
    rw [hcs, List.cons_append] at hdecimal ⊢
    have hsign : sign (c :: (ds ++ '\n' :: rest)) = (false, c :: (ds ++ '\n' :: rest)) := by
      rw [sign]
      · rintro s e
        injection e with e
        exact absurd hdigit (by rw [e]; decide)
      · rintro s e
        injection e with e
        exact absurd hdigit (by rw [e]; decide)
    -- no nought in front, so no base is announced; and a digit begins no name of a float
    rw [number, hsign]
    · split
      · rename_i e
        injection e with _ e
        injection e with e
        exact absurd hdigit (by rw [e]; decide)
      · rename_i e
        injection e with _ e
        injection e with e
        exact absurd hdigit (by rw [e]; decide)
      · rename_i e
        injection e with e1 e2
        subst e1; subst e2
        exact hdecimal
    · exact fun s e => hc (List.cons.inj e).1
    · exact fun s e => hc (List.cons.inj e).1
    · exact fun s e => hc (List.cons.inj e).1

/-! ## Values -/

theorem scalar_printNat {n : Nat} (h : (n : Int) ≤ maxInteger) (rest : List Char) :
    scalar (printNat n ++ '\n' :: rest) = some (.integer n, '\n' :: rest) := by
  have hdigits : IsDigits (printNat n ++ '\n' :: rest) :=
    ⟨_, rest, rfl, fun c => isDigit_of_mem_printNat⟩
  have hnumber := number_printNat h rest
  have hmoment := hdigits.moment
  obtain ⟨c, s, hs, hc⟩ : ∃ c s, printNat n ++ '\n' :: rest = c :: s ∧ isDigit c = true := by
    cases hcs : printNat n with
    | nil => exact absurd hcs Nat.toDigits_ne_nil
    | cons c ds => exact ⟨c, _, rfl, isDigit_of_mem_printNat (hcs ▸ List.mem_cons_self)⟩
  rw [hs] at hmoment hnumber ⊢
  -- the first character leaves only a date and a number, and it is no date
  have hne : ∀ d, isDigit d = false → c ≠ d := by
    rintro d hd rfl
    exact absurd hc (by simp [hd])
  rw [scalar, hmoment]
  · exact hnumber
  · exact fun s e => hne 't' (by decide) (List.cons.inj e).1
  · exact fun s e => hne 'f' (by decide) (List.cons.inj e).1
  · exact fun s e => hne '"' (by decide) (List.cons.inj e).1
  · exact fun s e => hne '\'' (by decide) (List.cons.inj e).1

theorem scalar_printBool (b : Bool) (rest : List Char) :
    scalar (printBool b ++ rest) = some (.boolean b, rest) := by
  cases b <;> rfl

theorem printString_cons (text : String) :
    ∃ c s, printString text = c :: s ∧ (c = '"' ∨ c = '\'') := by
  unfold printString
  dsimp only
  cases (Features.of text.toList).form with
  | basic | multiBasic => exact ⟨_, _, rfl, Or.inl rfl⟩
  | literal | multiLiteral => exact ⟨_, _, rfl, Or.inr rfl⟩

theorem scalar_printString (text : String) {rest : List Char} (hquote : rest.head? ≠ some '"')
    (happ : rest.head? ≠ some '\'') :
    scalar (printString text ++ rest) = some (.string text, rest) := by
  have hread := string_printString text hquote happ
  obtain ⟨c, s, hcs, hc⟩ := printString_cons text
  rw [hcs, List.cons_append] at hread ⊢
  rcases hc with rfl | rfl
  · rw [scalar, hread]
    rfl
  · rw [scalar, hread]
    rfl

/-- What begins with no bracket and no brace is read as a scalar at any depth. -/
theorem value_eq_scalar {c : Char} (hbracket : c ≠ '[') (hbrace : c ≠ '\x7b') (depth : Nat)
    (s : List Char) : value depth (c :: s) = scalar (c :: s) := by
  cases depth with
  | zero => rw [value]
  | succ depth =>
      rw [value]
      · exact fun _ e => hbracket (List.cons.inj e).1
      · exact fun _ e => hbrace (List.cons.inj e).1

theorem value_printString (depth : Nat) (text : String) {rest : List Char}
    (hquote : rest.head? ≠ some '"') (happ : rest.head? ≠ some '\'') :
    value depth (printString text ++ rest) = some (.string text, rest) := by
  have hread := scalar_printString text hquote happ
  obtain ⟨c, s, hcs, hc⟩ := printString_cons text
  rw [hcs, List.cons_append] at hread ⊢
  rw [value_eq_scalar _ _ depth]
  · exact hread
  · rcases hc with rfl | rfl <;> decide
  · rcases hc with rfl | rfl <;> decide

theorem value_printNat (depth : Nat) {n : Nat} (h : (n : Int) ≤ maxInteger) (rest : List Char) :
    value depth (printNat n ++ '\n' :: rest) = some (.integer n, '\n' :: rest) := by
  have hread := scalar_printNat h rest
  cases hcs : printNat n with
  | nil => exact absurd hcs Nat.toDigits_ne_nil
  | cons c ds =>
      have hdigit : isDigit c = true := isDigit_of_mem_printNat (hcs ▸ List.mem_cons_self)
      rw [hcs, List.cons_append] at hread
      rw [List.cons_append, value_eq_scalar _ _ depth]
      · exact hread
      · rintro rfl
        exact absurd hdigit (by decide)
      · rintro rfl
        exact absurd hdigit (by decide)

theorem value_printBool (depth : Nat) (b : Bool) (rest : List Char) :
    value depth (printBool b ++ rest) = some (.boolean b, rest) := by
  have hread := scalar_printBool b rest
  cases b with
  | true => exact (value_eq_scalar (by decide) (by decide) depth _).trans hread
  | false => exact (value_eq_scalar (by decide) (by decide) depth _).trans hread

/-! ## Arrays of strings -/

theorem skipVoid_printString (text : String) (rest : List Char) :
    skipVoid false (printString text ++ rest) = printString text ++ rest := by
  obtain ⟨c, s, hcs, hc⟩ := printString_cons text
  rw [hcs]
  rcases hc with rfl | rfl <;> rfl

/-- An element is read, and then what follows it is looked at. -/
theorem elements_printString (depth : Nat) (text : String) {s rest : List Char} (fuel : Nat)
    (hs : skipVoid false s = printString text ++ rest) (hquote : rest.head? ≠ some '"')
    (happ : rest.head? ≠ some '\'') :
    elements (value depth) (fuel + 1) s
      = match skipVoid false rest with
        | ']' :: s => some ([.string text], s)
        | ',' :: s => (elements (value depth) fuel s).map (fun (vs, s) => (.string text :: vs, s))
        | _ => none := by
  have hread := value_printString depth text hquote happ
  obtain ⟨c, t, hcs, hc⟩ := printString_cons text
  have hbracket : c ≠ ']' := by
    rcases hc with rfl | rfl <;> decide
  rw [hcs, List.cons_append] at hs hread
  rw [elements, hs]
  split
  · rename_i e
    exact absurd (List.cons.inj e).1 hbracket
  · rw [hread]
    show (match skipVoid false rest with
      | ']' :: s => _
      | ',' :: s => _
      | _ => _) = _
    split
    · rfl
    · cases elements (value depth) fuel _ <;> rfl
    · rfl

/-- One element of an array, on a line of its own. -/
def arrayLine (text : String) : List Char :=
  [' ', ' ', ' ', ' '] ++ printString text ++ [',', '\n']

/-- **Elements on a line each are read one by one.** -/
theorem elements_arrayLines (depth : Nat) (texts : List String) (rest : List Char) {fuel : Nat}
    (hfuel : texts.length < fuel) :
    elements (value depth) fuel ('\n' :: (texts.flatMap arrayLine ++ ']' :: rest))
      = some (texts.map Value.string, rest) := by
  induction texts generalizing fuel with
  | nil =>
      cases fuel with
      | zero => exact absurd hfuel (by simp)
      | succ fuel => rfl
  | cons text texts ih =>
      cases fuel with
      | zero => exact absurd hfuel (by simp)
      | succ fuel =>
          have hline : '\n' :: ((text :: texts).flatMap arrayLine ++ ']' :: rest)
              = '\n' :: ' ' :: ' ' :: ' ' :: ' ' :: (printString text
                ++ ',' :: '\n' :: (texts.flatMap arrayLine ++ ']' :: rest)) := by
            simp [arrayLine]
          have hvoid : skipVoid false ('\n' :: ' ' :: ' ' :: ' ' :: ' ' :: (printString text
              ++ ',' :: '\n' :: (texts.flatMap arrayLine ++ ']' :: rest)))
              = printString text ++ ',' :: '\n' :: (texts.flatMap arrayLine ++ ']' :: rest) :=
            skipVoid_printString text _
          rw [hline, elements_printString depth text fuel hvoid (by simp) (by simp)]
          show (elements (value depth) fuel ('\n' :: (texts.flatMap arrayLine ++ ']' :: rest))).map _
            = _
          rw [ih (Nat.lt_of_succ_lt_succ hfuel)]
          rfl

theorem length_le_flatMap_arrayLine (texts : List String) :
    texts.length ≤ (texts.flatMap arrayLine).length := by
  induction texts with
  | nil => exact Nat.le_refl 0
  | cons text texts ih =>
      rw [List.flatMap_cons, List.length_append, List.length_cons]
      have : 1 ≤ (arrayLine text).length := by simp [arrayLine]
      omega

/-- **An array of strings is read back**, on one line or on several. -/
theorem value_printStrings (depth : Nat) (texts : List String) (rest : List Char) :
    value (depth + 1) (printStrings texts ++ rest)
      = some (.array (texts.map Value.string), rest) := by
  match texts with
  | [] => rfl
  | [text] =>
      show value (depth + 1) ('[' :: (printString text ++ [']'] ++ rest)) = _
      rw [List.append_assoc, value,
        elements_printString depth text _ (skipVoid_printString text _) (by simp) (by simp)]
      rfl
  | first :: second :: more =>
      have hprint : printStrings (first :: second :: more) ++ rest
          = '[' :: '\n' :: ((first :: second :: more).flatMap arrayLine ++ ']' :: rest) := by
        show '[' :: '\n' :: (((first :: second :: more).flatMap arrayLine ++ [']']) ++ rest) = _
        rw [List.append_assoc]
        rfl
      rw [hprint, value, elements_arrayLines]
      · rfl
      · refine Nat.lt_succ_of_le (Nat.le_succ_of_le ?_)
        rw [List.length_append]
        exact Nat.le_add_right_of_le (length_le_flatMap_arrayLine _)

end IdleWatch.Toml
