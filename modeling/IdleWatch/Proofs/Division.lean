import IdleWatch.Args.Read

/-!
# Where the command begins

Arguments are read up to a certain word and no further: the first two dashes, or the first plain word
that is no option's value. That word can be found without looking at any value and without asking
what was given before, `divide`: all it takes is to know whether an option waits for its value.

The reader stops at the same word, because what it waits for after a word does not depend on more
than that (`waiting_of_long`, `waiting_of_letters`). So it treats an argument in one of three ways,
`read_cons`: it goes on behind it, or leaves all that follows to the command, or leaves this word too.
What follows the word it stops at is then the command's as it stands, whatever it is; neither
settings nor refusals can depend on it.
-/

namespace IdleWatch.Args

/-- After these letters an option waits for its value: it is the last one, and flags are before it. -/
def lettersWait : List Char → Bool
  | [] => false
  | c :: rest =>
    match Name.ofShort? c with
    | some (.flag _) => lettersWait rest
    | some (.valued _) => rest.isEmpty
    | none => false

/-- After this word an option waits for its value. -/
def Word.waits : Word → Bool
  | .long (.valued _) none => true
  | .short letters => lettersWait letters
  | _ => false

/-- Arguments that are divided where the command begins. -/
structure Division where
  /-- What is before the command, with the two dashes if these begin it. -/
  front : List String
  /-- The plain word that begins the command, if it was not two dashes. -/
  first : Option String
  /-- All words behind. -/
  tail : List String
  deriving DecidableEq, Repr

namespace Division

/-- With one more argument in front. -/
def behind (argument : String) (d : Division) : Division := { d with front := argument :: d.front }

/-- What stays if the words behind are replaced. -/
def head (d : Division) : List String := d.front ++ d.first.toList

end Division

/-- The division of arguments, with or without an option that waits for its value, if the command
begins in them. -/
def divide (waiting : Bool) : List String → Option Division
  | [] => none
  | argument :: rest =>
    match Word.of argument with
    | .separator => some { front := [argument], first := none, tail := rest }
    | .plain _ =>
      if waiting then (divide false rest).map (.behind argument)
      else some { front := [], first := some argument, tail := rest }
    | word => (divide word.waits rest).map (.behind argument)

/-- A division divides the arguments. -/
theorem divide_eq {waiting : Bool} {arguments : List String} {d : Division}
    (h : divide waiting arguments = some d) : d.head ++ d.tail = arguments := by
  induction arguments generalizing waiting d with
  | nil => exact absurd h (by simp [divide])
  | cons argument rest ih =>
      have hbehind : ∀ waiting, (divide waiting rest).map (.behind argument) = some d →
          d.head ++ d.tail = argument :: rest := by
        intro waiting h
        obtain ⟨d, hd, rfl⟩ := Option.map_eq_some_iff.mp h
        exact congrArg (List.cons argument) (ih hd)
      rw [divide] at h
      split at h
      · obtain rfl := Option.some.inj h
        rfl
      · split at h
        · exact hbehind _ h
        · obtain rfl := Option.some.inj h
          rfl
      · exact hbehind _ h

/-! ## What is waited for -/

/-- An argument is letters only if they are some and all are known. -/
theorem letters_of_short {argument : String} {letters : List Char}
    (h : Word.of argument = .short letters) :
    letters ≠ [] ∧ ∀ c ∈ letters, (Name.ofShort? c).isSome = true := by
  unfold Word.of at h
  split at h
  · exact absurd h (by simp)
  · dsimp only at h
    split at h
    · exact absurd h (by simp)
    · exact absurd h (by simp)
  · split at h
    · rename_i hall
      injection h with h
      subst h
      exact ⟨by simp, List.all_eq_true.mp hall⟩
    · exact absurd h (by simp)
  · exact absurd h (by simp)

namespace Progress

/-- Once all values are looked at, nothing waits for one. -/
theorem waiting_of_complete {p q : Progress} (h : p.complete = .ok q) : q.waiting = none := by
  unfold complete at h
  split at h
  · exact absurd h (by simp)
  · rename_i hnone
    have hwaiting : p.waiting = none := by simpa using hnone
    split at h
    · injection h with h
      exact h ▸ hwaiting
    · rename_i o value _
      split at h
      · exact absurd h (by simp)
      · cases hset : setValue p.args value o with
        | error refusal =>
            rw [hset] at h
            exact absurd h (by simp [Except.map])
        | ok args =>
            rw [hset] at h
            injection h with h
            subst h
            exact hwaiting

theorem waiting_of_flag {p q : Progress} {f : Flag} (h : p.flag f = .ok q) : q.waiting = none := by
  unfold flag at h
  cases hcomplete : p.complete with
  | error refusal =>
      rw [hcomplete] at h
      exact absurd h (by simp [bind, Except.bind])
  | ok p' =>
      simp only [hcomplete, bind, Except.bind] at h
      have hwaiting := waiting_of_complete hcomplete
      split at h
      · exact absurd h (by simp)
      · split at h
        · exact absurd h (by simp)
        · injection h with h
          subst h
          exact hwaiting

/-- An option waits for its value exactly if that is not written with it. -/
theorem waiting_of_option {p q : Progress} {o : Valued} {value : Option String}
    (h : p.option o value = .ok q) : q.waiting.isSome = value.isNone := by
  unfold option at h
  cases hcomplete : p.complete with
  | error refusal =>
      rw [hcomplete] at h
      exact absurd h (by simp [bind, Except.bind])
  | ok p' =>
      simp only [hcomplete, bind, Except.bind] at h
      cases value with
      | none =>
          injection h with h
          subst h
          rfl
      | some value =>
          rw [waiting_of_complete h]
          rfl

theorem waiting_of_long {p q : Progress} {name : Name} {value : Option String}
    (h : p.long name value = .ok q) : q.waiting.isSome = (Word.long name value).waits := by
  cases name with
  | flag f =>
      cases value with
      | none =>
          rw [waiting_of_flag h]
          rfl
      | some value => exact absurd h (by simp [long])
  | valued o =>
      rw [waiting_of_option h]
      cases value with
      | none => rfl
      | some value => rfl

theorem waiting_of_letters {p q : Progress} {letters : List Char}
    (hknown : ∀ c ∈ letters, (Name.ofShort? c).isSome = true)
    (hstart : letters ≠ [] ∨ p.waiting = none) (h : p.letters letters = .ok q) :
    q.waiting.isSome = lettersWait letters := by
  induction letters generalizing p with
  | nil =>
      injection h with h
      subst h
      rcases hstart with hne | hnone
      · exact absurd rfl hne
      · rw [hnone]
        rfl
  | cons c rest ih =>
      have hc := hknown c List.mem_cons_self
      unfold Progress.letters at h
      unfold lettersWait
      cases hname : Name.ofShort? c with
      | none =>
          rw [hname] at hc
          exact absurd hc (by simp)
      | some name =>
          rw [hname] at h
          cases name with
          | flag f =>
              cases hflag : p.flag f with
              | error refusal =>
                  simp only [hflag, bind, Except.bind] at h
                  exact absurd h (by simp)
              | ok p' =>
                  simp only [hflag, bind, Except.bind] at h
                  exact ih (fun d hd => hknown d (List.mem_cons_of_mem c hd))
                    (Or.inr (waiting_of_flag hflag)) h
          | valued o =>
              rw [waiting_of_option h]
              cases rest with
              | nil => rfl
              | cons d rest => rfl

/-! ## One argument -/

/-- **What the reader does with an argument, and the division with it.** It goes on behind the
argument, with the same option waiting or none; or the rest is the command; or this is. -/
theorem read_cons (p : Progress) (argument : String) :
    (∃ (next : Except Refusal Progress) (waiting : Bool),
        (∀ rest, p.read (argument :: rest) = next.bind (·.read rest))
          ∧ (∀ q, next = .ok q → q.waiting.isSome = waiting)
          ∧ ∀ rest, divide p.waiting.isSome (argument :: rest)
            = (divide waiting rest).map (.behind argument))
      ∨ (∀ rest, p.read (argument :: rest) = p.finish rest
          ∧ divide p.waiting.isSome (argument :: rest)
            = some { front := [argument], first := none, tail := rest })
      ∨ ∀ rest, p.read (argument :: rest) = p.finish (argument :: rest)
          ∧ divide p.waiting.isSome (argument :: rest)
            = some { front := [], first := some argument, tail := rest } := by
  cases hword : Word.of argument with
  | separator =>
      refine Or.inr (Or.inl (fun rest => ⟨?_, ?_⟩))
      · rw [read, hword]
      · rw [divide, hword]
  | plain text =>
      cases hwaiting : p.waiting with
      | some o =>
          refine Or.inl ⟨.ok { p with waiting := none, unchecked := some (o, text) }, false,
            fun rest => ?_, fun q hq => ?_, fun rest => ?_⟩
          · simp only [read, hword, hwaiting]
            rfl
          · injection hq with hq
            subst hq
            rfl
          · rw [divide, hword]
            rfl
      | none =>
          refine Or.inr (Or.inr (fun rest => ⟨?_, ?_⟩))
          · simp only [read, hword, hwaiting]
          · rw [divide, hword]
            rfl
  | long name value =>
      refine Or.inl ⟨p.long name value, (Word.long name value).waits, fun rest => ?_,
        fun q hq => waiting_of_long hq, fun rest => ?_⟩
      · rw [read, hword]
        rfl
      · rw [divide, hword]
  | short letters =>
      obtain ⟨hne, hknown⟩ := letters_of_short hword
      refine Or.inl ⟨p.letters letters, lettersWait letters, fun rest => ?_,
        fun q hq => waiting_of_letters hknown (Or.inl hne) hq, fun rest => ?_⟩
      · rw [read, hword]
        rfl
      · rw [divide, hword]
        rfl

/-- What was read before the command does not depend on it. -/
theorem finish_map (p : Progress) (command new : List String) :
    p.finish new = (p.finish command).map (fun a => { a with command := new }) := by
  unfold finish
  cases p.complete with
  | error refusal => rfl
  | ok q => rfl

/-! ## All arguments -/

/-- **Whatever follows where the command begins, the same is read before it.** -/
theorem read_divided {p : Progress} {arguments : List String} {d : Division}
    (h : divide p.waiting.isSome arguments = some d) (new : List String) :
    p.read (d.head ++ new)
      = (p.read arguments).map (fun a => { a with command := d.first.toList ++ new }) := by
  induction arguments generalizing p d with
  | nil => exact absurd h (by simp [divide])
  | cons argument rest ih =>
      rcases p.read_cons argument with ⟨next, waiting, hread, hwaiting, hdivide⟩ | hread | hread
      · -- the command begins further behind
        rw [hdivide] at h
        obtain ⟨d, hd, rfl⟩ := Option.map_eq_some_iff.mp h
        show p.read (argument :: (d.head ++ new)) = _
        rw [hread, hread]
        cases next with
        | error refusal => rfl
        | ok q => exact ih (hwaiting q rfl ▸ hd)
      · obtain ⟨hfinish, hdivide⟩ := hread rest
        obtain rfl := Option.some.inj (hdivide.symm.trans h)
        show p.read (argument :: new) = _
        rw [(hread new).1, hfinish]
        exact p.finish_map rest new
      · obtain ⟨hfinish, hdivide⟩ := hread rest
        obtain rfl := Option.some.inj (hdivide.symm.trans h)
        show p.read (argument :: new) = _
        rw [(hread new).1, hfinish]
        exact p.finish_map (argument :: rest) (argument :: new)

/-- Where no command begins, there is none. -/
theorem command_of_undivided {p : Progress} {arguments : List String} {a : Args}
    (h : divide p.waiting.isSome arguments = none) (hread : p.read arguments = .ok a) :
    a.command = [] := by
  induction arguments generalizing p with
  | nil =>
      rw [read, finish] at hread
      cases hcomplete : p.complete with
      | error refusal =>
          rw [hcomplete] at hread
          exact absurd hread (by simp [Except.map])
      | ok q =>
          rw [hcomplete] at hread
          injection hread with hread
          exact hread ▸ rfl
  | cons argument rest ih =>
      rcases p.read_cons argument with ⟨next, waiting, hgo, hwaiting, hdivide⟩ | hstop | hstop
      · rw [hdivide] at h
        rw [hgo] at hread
        cases next with
        | error refusal => exact absurd hread (by simp [Except.bind])
        | ok q => exact ih (hwaiting q rfl ▸ Option.map_eq_none_iff.mp h) hread
      · exact absurd ((hstop rest).2.symm.trans h) (by simp)
      · exact absurd ((hstop rest).2.symm.trans h) (by simp)

end Progress

/--
**The command has no say in how it is watched.**

The command that is read is the end of the arguments, word for word. Where it begins, `divide` tells
from what is before it. If its words behind that place are replaced by any others, also by such as
name options, ask for help or are two dashes, the arguments are accepted if they were accepted
before, with the same settings and the new words as they stand; and if they were refused, they are
refused again, for the same reason. Where it begins nowhere, there is none.
-/
theorem read_replaced (arguments : List String) :
    (∀ a, read arguments = .ok a → a.command <:+ arguments
        ∧ (divide false arguments = none → a.command = []))
      ∧ ∀ d, divide false arguments = some d →
        d.head ++ d.tail = arguments
          ∧ (∀ a, read arguments = .ok a → a.command = d.first.toList ++ d.tail
            ∧ ∀ new, read (d.head ++ new) = .ok { a with command := d.first.toList ++ new })
          ∧ ∀ refusal, read arguments = .error refusal → ∀ new,
            read (d.head ++ new) = .error refusal := by
  have hcommand : ∀ a, read arguments = .ok a → ∀ d, divide false arguments = some d →
      a.command = d.first.toList ++ d.tail := by
    intro a ha d hd
    have hsame := Progress.read_divided (p := {}) hd d.tail
    rw [divide_eq hd] at hsame
    have hok : Except.ok a
        = (read arguments).map (fun a => { a with command := d.first.toList ++ d.tail }) :=
      ha.symm.trans hsame
    rw [ha] at hok
    exact congrArg Args.command (Except.ok.inj hok)
  refine ⟨fun a ha => ⟨?_, fun hnone => Progress.command_of_undivided (p := {}) hnone ha⟩,
    fun d hd => ⟨divide_eq hd, fun a ha => ⟨hcommand a ha d hd, fun new => ?_⟩,
      fun refusal hrefusal new => ?_⟩⟩
  · cases hd : divide false arguments with
    | none =>
        rw [Progress.command_of_undivided (p := {}) hd ha]
        exact List.nil_suffix
    | some d =>
        refine ⟨d.front, ?_⟩
        rw [hcommand a ha d hd, ← List.append_assoc]
        exact divide_eq hd
  · have hall : read (d.head ++ new) = (read arguments).map _ :=
      Progress.read_divided (p := {}) hd new
    rw [hall, ha]
    rfl
  · have hall : read (d.head ++ new) = (read arguments).map _ :=
      Progress.read_divided (p := {}) hd new
    rw [hall, hrefusal]
    rfl

/-- The command begins with a word that looks like an option and is none, behind a flag and an
option in one argument and behind a value that is a dash alone. -/
theorem read_replaced_dash :
    read ["-qt", "7", "--sentinel", "-", "-x", "--help", "-c", "--", "-V"]
        = .ok { command := ["-x", "--help", "-c", "--", "-V"], timeout := some 7,
                sentinel := some "-", quiet := true }
      ∧ read ["-v", "--", "--version"] = .ok { command := ["--version"], verbose := true } := by
  constructor
  · obtain ⟨_, hdivided⟩ := read_replaced ["-qt", "7", "--sentinel", "-", "-x", "y"]
    have h := hdivided ⟨["-qt", "7", "--sentinel", "-"], some "-x", ["y"]⟩ (by decide)
    exact (h.2.1 { command := ["-x", "y"], timeout := some 7, sentinel := some "-", quiet := true }
      rfl).2 ["--help", "-c", "--", "-V"]
  · obtain ⟨_, hdivided⟩ := read_replaced ["-v", "--"]
    have h := hdivided ⟨["-v", "--"], none, []⟩ (by decide)
    exact (h.2.1 { verbose := true } rfl).2 ["--version"]

end IdleWatch.Args
