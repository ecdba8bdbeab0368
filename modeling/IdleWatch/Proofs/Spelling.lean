import IdleWatch.Args.Read
import Mathlib.Data.List.Nodup
import Mathlib.Data.List.TakeDrop
import Mathlib.Data.List.TakeWhile

/-!
# Arguments are read as they were written

What arguments say besides the command is a set of settings, and each can be written in a few ways:
a name with its value, the name and then the value, a letter and then the value, and for a flag its
name or its letter. A reader takes the words of one setting at a time. When it has taken them, it
stands as before with that setting made, except that a value in a word of its own is looked at only
when the next word acts. So whatever the order and the spelling, the same is read; and behind the
two dashes nothing is read at all.
-/

namespace IdleWatch.Args

/-- One thing that arguments say besides the command. -/
inductive Setting where
  | config (path : String)
  | timeout (seconds : Nat)
  | sentinel (text : String)
  | dryRun
  | verbose
  | quiet
  deriving DecidableEq, Repr

namespace Setting

/-- The option or flag that says it. -/
def name : Setting → Name
  | config _ => .valued .config
  | timeout _ => .valued .timeout
  | sentinel _ => .valued .sentinel
  | dryRun => .flag .dryRun
  | verbose => .flag .verbose
  | quiet => .flag .quiet

/-- The value that is written with the name, if there is one. -/
def value? : Setting → Option String
  | config path => some path
  | timeout seconds => some (toString seconds)
  | sentinel text => some text
  | dryRun | verbose | quiet => none

/-- The arguments that say this too. -/
def set (a : Args) : Setting → Args
  | config path => { a with config := some path }
  | timeout seconds => { a with timeout := some seconds }
  | sentinel text => { a with sentinel := some text }
  | dryRun => { a with dryRun := true }
  | verbose => { a with verbose := true }
  | quiet => { a with quiet := true }

/-- A path is not empty, and seconds are counted in 64 bits. -/
def Sound : Setting → Prop
  | config path => path ≠ ""
  | timeout seconds => seconds < UInt64.size
  | _ => True

/-- The ways to write a setting. A value in a word of its own must not begin with a dash. -/
inductive Written (s : Setting) : List String → Prop where
  | joined {text : String} : s.value? = some text →
      Written s ["--" ++ s.name.long ++ "=" ++ text]
  | apart {text : String} : s.value? = some text → text.toList.head? ≠ some '-' →
      Written s ["--" ++ s.name.long, text]
  | letter {text : String} {c : Char} : s.value? = some text → s.name.short? = some c →
      text.toList.head? ≠ some '-' → Written s [String.ofList ['-', c], text]
  | long : s.value? = none → Written s ["--" ++ s.name.long]
  | short {c : Char} : s.value? = none → s.name.short? = some c →
      Written s [String.ofList ['-', c]]

/-- Words that write these settings, one after the other. -/
inductive Spelled : List Setting → List String → Prop where
  | nil : Spelled [] []
  | cons {s : Setting} {more : List Setting} {words rest : List String} :
      Written s words → Spelled more rest → Spelled (s :: more) (words ++ rest)

end Setting

/-- What the arguments say besides the command. -/
def settings (a : Args) : List Setting :=
  (a.config.map Setting.config).toList ++ (a.timeout.map Setting.timeout).toList
    ++ (a.sentinel.map Setting.sentinel).toList ++ (if a.dryRun then [.dryRun] else [])
    ++ (if a.verbose then [.verbose] else []) ++ (if a.quiet then [.quiet] else [])

/-! ## One word -/

theorem splitValue_of_notMem {s : List Char} (h : '=' ∉ s) : splitValue s = (s, none) := by
  have hs : ∀ c ∈ s, decide (c ≠ '=') = true := fun c hc => decide_eq_true (fun e => h (e ▸ hc))
  rw [splitValue, List.span_eq_takeWhile_dropWhile, List.takeWhile_eq_self_iff.mpr hs,
    List.dropWhile_eq_nil_iff.mpr hs]

/-- The first equals sign ends the name. -/
theorem splitValue_append {s : List Char} (h : '=' ∉ s) (value : List Char) :
    splitValue (s ++ '=' :: value) = (s, some value) := by
  have hs : ∀ c ∈ s, decide (c ≠ '=') = true := fun c hc => decide_eq_true (fun e => h (e ▸ hc))
  rw [splitValue, List.span_eq_takeWhile_dropWhile, List.takeWhile_append_of_pos hs,
    List.dropWhile_append_of_pos hs, List.takeWhile_cons_of_neg (by simp),
    List.dropWhile_cons_of_neg (by simp), List.append_nil]

theorem Name.mem_all (name : Name) : name ∈ all := by
  cases name with
  | valued o => cases o <;> decide
  | flag f => cases f <;> decide

theorem Name.equals_notMem_long (name : Name) : '=' ∉ name.long.toList :=
  (by decide : ∀ name ∈ all, '=' ∉ name.long.toList) name name.mem_all

theorem Name.long_ne_nil (name : Name) : name.long.toList ≠ [] :=
  (by decide : ∀ name ∈ all, name.long.toList ≠ []) name name.mem_all

/-- No two options or flags share a name. -/
theorem Name.ofLong?_long (name : Name) : Name.ofLong? name.long = some name :=
  (by decide : ∀ name ∈ all, Name.ofLong? name.long = some name) name name.mem_all

/-- Nor do they share a letter. -/
theorem Name.ofShort?_short {name : Name} {c : Char} (h : name.short? = some c) :
    Name.ofShort? c = some name := by
  have hall : ∀ name ∈ all, name.short?.bind ofShort? = name.short?.map (fun _ => name) := by
    decide
  have hname := hall name name.mem_all
  rw [h] at hname
  exact hname

theorem Name.short?_ne_dash (name : Name) : name.short? ≠ some '-' :=
  (by decide : ∀ name ∈ all, name.short? ≠ some '-') name name.mem_all

theorem Word.of_dashes {argument : String} {s : List Char} (hs : s ≠ [])
    (h : argument.toList = '-' :: '-' :: s) :
    Word.of argument
      = match Name.ofLong? (String.ofList (splitValue s).1) with
        | some name => .long name ((splitValue s).2.map String.ofList)
        | none => .plain argument := by
  rw [Word.of.eq_def, h]
  cases s with
  | nil => exact absurd rfl hs
  | cons c s => rfl

theorem Word.of_long (name : Name) : Word.of ("--" ++ name.long) = .long name none := by
  have hsplit := splitValue_of_notMem name.equals_notMem_long
  rw [Word.of_dashes name.long_ne_nil (String.toList_append), hsplit, String.ofList_toList,
    Name.ofLong?_long]
  rfl

theorem Word.of_joined (name : Name) (text : String) :
    Word.of ("--" ++ name.long ++ "=" ++ text) = .long name (some text) := by
  have hsplit := splitValue_append name.equals_notMem_long text.toList
  have hlist : ("--" ++ name.long ++ "=" ++ text).toList
      = '-' :: '-' :: (name.long.toList ++ '=' :: text.toList) := by
    simp [String.toList_append]
  rw [Word.of_dashes (by simp) hlist, hsplit, String.ofList_toList, Name.ofLong?_long]
  simp

theorem Word.of_short {name : Name} {c : Char} (h : name.short? = some c) :
    Word.of (String.ofList ['-', c]) = .short [c] := by
  have hdash : c ≠ '-' := fun e => name.short?_ne_dash (e ▸ h)
  rw [Word.of.eq_def, String.toList_ofList]
  simp [hdash, Name.ofShort?_short h]

theorem Word.of_plain {text : String} (h : text.toList.head? ≠ some '-') :
    Word.of text = .plain text := by
  rw [Word.of.eq_def]
  split
  · rename_i e
    exact absurd (by rw [e]; rfl) h
  · rename_i e
    exact absurd (by rw [e]; rfl) h
  · rename_i e
    exact absurd (by rw [e]; rfl) h
  · rfl

/-! ## One value -/

/-- A number that is written in digits is read as that number. -/
theorem number?_toString {n : Nat} (h : n < UInt64.size) : number? (toString n) = some n := by
  have hdigits : ∀ c ∈ Nat.toDigits 10 n, c.isDigit = true :=
    fun c hc => Nat.isDigit_of_mem_toDigits (by decide) (Nat.le_refl 10) hc
  have hvalue : (Nat.toDigits 10 n).foldl (fun n c => n * 10 + (c.toNat - '0'.toNat)) 0 = n := by
    have hfold := Nat.ofDigitChars_ten_toDigits (n := n)
    simp only [Nat.ofDigitChars_eq_foldl, Nat.mul_comm 10] at hfold
    exact hfold
  rw [number?, Nat.toString_eq_ofList_toDigits, String.toList_ofList]
  cases hds : Nat.toDigits 10 n with
  | nil => exact absurd hds Nat.toDigits_ne_nil
  | cons c ds =>
      rw [hds] at hdigits hvalue
      -- no digit is a plus sign
      have hplus : c ≠ '+' := by
        intro e
        have hc := hdigits c List.mem_cons_self
        rw [e] at hc
        exact absurd hc (by decide)
      have hall : (c :: ds).all Char.isDigit = true := List.all_eq_true.mpr hdigits
      split
      · rename_i e
        exact absurd (List.cons.inj e).1 hplus
      · rw [hall, hvalue]
        exact if_pos h

namespace Setting

/-- What a setting with a value says is what its option makes of the value. -/
theorem setValue_of_value? {s : Setting} {text : String} (h : s.value? = some text)
    (hsound : s.Sound) :
    ∃ o, s.name = .valued o ∧ ∀ a, setValue a text o = .ok (s.set a) := by
  cases s with
  | config path =>
      obtain rfl := Option.some.inj h
      exact ⟨.config, rfl, fun a => if_neg hsound⟩
  | timeout seconds =>
      obtain rfl := Option.some.inj h
      refine ⟨.timeout, rfl, fun a => ?_⟩
      rw [setValue, number?_toString hsound]
      rfl
  | sentinel text =>
      obtain rfl := Option.some.inj h
      exact ⟨.sentinel, rfl, fun a => rfl⟩
  | dryRun => exact absurd h (by simp [value?])
  | verbose => exact absurd h (by simp [value?])
  | quiet => exact absurd h (by simp [value?])

theorem setFlag_of_value? {s : Setting} (h : s.value? = none) :
    ∃ f, s.name = .flag f ∧ ∀ a, setFlag a f = .ok (s.set a) := by
  cases s with
  | dryRun => exact ⟨.dryRun, rfl, fun a => rfl⟩
  | verbose => exact ⟨.verbose, rfl, fun a => rfl⟩
  | quiet => exact ⟨.quiet, rfl, fun a => rfl⟩
  | config path => exact absurd h (by simp [value?])
  | timeout seconds => exact absurd h (by simp [value?])
  | sentinel text => exact absurd h (by simp [value?])

end Setting

/-! ## One setting -/

namespace Progress

variable {p : Progress} {a : Args} {seen : List Name} {s : Setting} {words : List String}

/-- The value that an option has waited for comes to be looked at. -/
theorem complete_unchecked {o : Valued} {text : String} (hname : s.name = .valued o)
    (hset : ∀ a, setValue a text o = .ok (s.set a)) (hnew : s.name ∉ seen) :
    ({ args := a, seen, unchecked := some (o, text) } : Progress).complete
      = .ok { args := s.set a, seen := s.name :: seen } := by
  have hnot : .valued o ∉ seen := hname ▸ hnew
  simp [complete, hnot, hset, hname, Except.map]

theorem flag_of_complete {f : Flag} (h : p.complete = .ok { args := a, seen })
    (hname : s.name = .flag f) (hset : ∀ a, setFlag a f = .ok (s.set a)) (hnew : s.name ∉ seen) :
    p.flag f = .ok { args := s.set a, seen := s.name :: seen } := by
  have hnot : .flag f ∉ seen := hname ▸ hnew
  simp [flag, h, hnot, hset, hname, bind, Except.bind]

/-- **The words of one setting make that setting and no other.** -/
theorem read_written (h : p.complete = .ok { args := a, seen }) (hsound : s.Sound)
    (hnew : s.name ∉ seen) (hw : s.Written words) :
    ∃ p' : Progress, (∀ rest, p.read (words ++ rest) = p'.read rest)
      ∧ p'.complete = .ok { args := s.set a, seen := s.name :: seen } := by
  cases hw with
  | joined hvalue =>
      obtain ⟨o, hname, hset⟩ := Setting.setValue_of_value? hvalue hsound
      have hlook := complete_unchecked hname hset hnew (a := a)
      refine ⟨{ args := s.set a, seen := s.name :: seen }, fun rest => ?_, rfl⟩
      rw [List.singleton_append, read, Word.of_joined, hname]
      simp only [long, option, h, bind, Except.bind, hlook]
      rw [hname]
  | apart hvalue hdash =>
      obtain ⟨o, hname, hset⟩ := Setting.setValue_of_value? hvalue hsound
      refine ⟨_, fun rest => ?_, complete_unchecked hname hset hnew⟩
      rw [List.cons_append, List.singleton_append, read, Word.of_long, hname]
      simp only [long, option, h, bind, Except.bind]
      rw [read, Word.of_plain hdash]
  | letter hvalue hshort hdash =>
      obtain ⟨o, hname, hset⟩ := Setting.setValue_of_value? hvalue hsound
      refine ⟨_, fun rest => ?_, complete_unchecked hname hset hnew⟩
      rw [List.cons_append, List.singleton_append, read, Word.of_short hshort]
      simp only [letters, Name.ofShort?_short hshort, hname, option, h, bind, Except.bind,
        List.isEmpty_nil, if_true]
      rw [read, Word.of_plain hdash]
  | long hvalue =>
      obtain ⟨f, hname, hset⟩ := Setting.setFlag_of_value? hvalue
      refine ⟨{ args := s.set a, seen := s.name :: seen }, fun rest => ?_, rfl⟩
      have hflag := flag_of_complete h hname hset hnew
      rw [List.singleton_append, read, Word.of_long, hname]
      simp only [long, hflag, bind, Except.bind]
      rw [hname]
  | short hvalue hshort =>
      obtain ⟨f, hname, hset⟩ := Setting.setFlag_of_value? hvalue
      refine ⟨{ args := s.set a, seen := s.name :: seen }, fun rest => ?_, rfl⟩
      have hflag := flag_of_complete h hname hset hnew
      rw [List.singleton_append, read, Word.of_short hshort]
      simp only [letters, Name.ofShort?_short hshort, hname, hflag, bind, Except.bind]

theorem read_separator (h : p.complete = .ok { args := a, seen }) (command : List String) :
    p.read ("--" :: command) = .ok { a with command } := by
  have hword : Word.of "--" = .separator := by decide
  rw [read, hword]
  simp only [finish, h, Except.map]

/-- **Settings are made one after the other**, whatever was made before them. -/
theorem read_spelled {order : List Setting} (hw : Setting.Spelled order words)
    (h : p.complete = .ok { args := a, seen }) (hsound : ∀ s ∈ order, s.Sound)
    (hnew : ∀ s ∈ order, s.name ∉ seen) (hnodup : (order.map Setting.name).Nodup)
    (command : List String) :
    p.read (words ++ "--" :: command) = .ok { order.foldl Setting.set a with command } := by
  induction hw generalizing p a seen with
  | nil => exact read_separator h command
  | @cons s more words rest hwritten _ ih =>
      rw [List.map_cons, List.nodup_cons] at hnodup
      obtain ⟨p', hread, hcomplete⟩ := read_written h (hsound s List.mem_cons_self)
        (hnew s List.mem_cons_self) hwritten
      rw [List.append_assoc, hread, List.foldl_cons]
      refine ih hcomplete (fun t ht => hsound t (List.mem_cons_of_mem s ht)) ?_ hnodup.2
      -- what comes later has another name than this one, and than those before it
      intro t ht hm
      rcases List.mem_cons.mp hm with heq | hseen
      · exact hnodup.1 (heq ▸ List.mem_map_of_mem ht)
      · exact hnew t (List.mem_cons_of_mem s ht) hseen

end Progress

/-! ## All settings -/

variable {a : Args}

/-- Settings of different names do not touch each other. -/
theorem Setting.set_comm {s t : Setting} (h : s.name ≠ t.name) (a : Args) :
    t.set (s.set a) = s.set (t.set a) := by
  cases s <;> cases t <;> first | rfl | exact absurd rfl h

/-- Nothing is said twice. -/
theorem nodup_settings (a : Args) : (a.settings.map Setting.name).Nodup := by
  have hvalue {α : Type} (x : Option α) (mk : α → Setting) (name : Name)
      (h : ∀ v, (mk v).name = name) :
      ((x.map mk).toList.map Setting.name).Sublist [name] := by
    cases x with
    | none => exact List.nil_sublist _
    | some v => simp [h]
  have hflag (b : Bool) (s : Setting) :
      ((if b then [s] else []).map Setting.name).Sublist [s.name] := by
    cases b with
    | false => exact List.nil_sublist _
    | true => exact List.Sublist.refl _
  have hnames : ([Name.valued .config] ++ [Name.valued .timeout] ++ [Name.valued .sentinel]
      ++ [Setting.dryRun.name] ++ [Setting.verbose.name] ++ [Setting.quiet.name]).Nodup := by
    decide
  have hconfig := hvalue a.config .config (.valued .config) (fun _ => rfl)
  have htimeout := hvalue a.timeout .timeout (.valued .timeout) (fun _ => rfl)
  have hsentinel := hvalue a.sentinel .sentinel (.valued .sentinel) (fun _ => rfl)
  have hvalues := (hconfig.append htimeout).append hsentinel
  have hloud := (hvalues.append (hflag a.dryRun .dryRun)).append (hflag a.verbose .verbose)
  have hflags := hloud.append (hflag a.quiet .quiet)
  refine List.Nodup.sublist ?_ hnames
  simpa only [settings, List.map_append] using hflags

theorem sound_of_mem_settings (hconfig : a.config ≠ some "")
    (htimeout : ∀ n, a.timeout = some n → n < UInt64.size) : ∀ s ∈ a.settings, s.Sound := by
  intro s hs
  cases s with
  | config path =>
      have hpath : a.config = some path := by simpa [settings] using hs
      exact fun e => hconfig (e ▸ hpath)
  | timeout seconds =>
      have hseconds : a.timeout = some seconds := by simpa [settings] using hs
      exact htimeout seconds hseconds
  | _ => trivial

/-- Saying all that arguments say gives these arguments, but for the command. -/
theorem foldl_settings (a : Args) : a.settings.foldl Setting.set {} = { a with command := [] } := by
  obtain ⟨command, config, timeout, sentinel, dryRun, verbose, quiet⟩ := a
  cases config <;> cases timeout <;> cases sentinel <;> cases dryRun <;> cases verbose
    <;> cases quiet <;> rfl

/-- It does not matter in which order they are said. -/
theorem foldl_order {order : List Setting} (h : order.Perm a.settings) :
    order.foldl Setting.set {} = { a with command := [] } := by
  have hnodup : (order.map Setting.name).Nodup := (h.map _).nodup_iff.mpr a.nodup_settings
  rw [← foldl_settings]
  refine h.foldl_eq' (fun s hs t ht b => ?_) _
  by_cases hname : s.name = t.name
  · -- one name stands for one setting only
    have heq : s = t := List.inj_on_of_nodup_map hnodup hs ht hname
    rw [heq]
  · exact Setting.set_comm hname b

/--
**What arguments say is read from every spelling of it.**

All settings in any order, each written in any of its ways, then two dashes and the command: what is
read are these very arguments. A value that is written with its name may be any text, also one that
looks like an option; a value in a word of its own may be any text that does not begin with a dash;
and behind the two dashes the words of the command may be whatever they are.
-/
theorem read_of_spelled {a : Args} {order : List Setting} {words : List String}
    (hconfig : a.config ≠ some "") (htimeout : ∀ n, a.timeout = some n → n < UInt64.size)
    (horder : order.Perm a.settings) (hwords : Setting.Spelled order words) :
    read (words ++ "--" :: a.command) = .ok a := by
  have hsound : ∀ s ∈ order, s.Sound := fun s hs =>
    sound_of_mem_settings hconfig htimeout s (horder.mem_iff.mp hs)
  have hnodup : (order.map Setting.name).Nodup := (horder.map _).nodup_iff.mpr a.nodup_settings
  have hstart : ({} : Progress).complete = .ok { args := {}, seen := [] } := rfl
  have hread := Progress.read_spelled hwords hstart hsound (fun _ _ => List.not_mem_nil) hnodup
    a.command
  rw [read, hread, foldl_order horder]

/-- All at once, in an odd order and in mixed spellings: a path that looks like an option, the
largest number of seconds, an empty sentinel, and a command that looks like more options. -/
theorem read_of_spelled_mixed :
    read ["-v", "--sentinel", "", "--config=-c=x", "--dry-run", "-t", "18446744073709551615", "--",
        "--quiet", "--", "-c"]
      = .ok { command := ["--quiet", "--", "-c"], config := some "-c=x",
              timeout := some 18446744073709551615, sentinel := some "", dryRun := true,
              verbose := true } := by
  have hpath : (Setting.config "-c=x").value? = some "-c=x" := rfl
  have hempty : "".toList.head? ≠ some '-' := by decide
  have hseconds : (toString 18446744073709551615).toList.head? ≠ some '-' := by decide
  have hwords : Setting.Spelled
      [.verbose, .sentinel "", .config "-c=x", .dryRun, .timeout 18446744073709551615]
      ["-v", "--sentinel", "", "--config=-c=x", "--dry-run", "-t", "18446744073709551615"] :=
    .cons (.short rfl rfl) <| .cons (.apart rfl hempty) <| .cons (.joined hpath) <|
      .cons (.long rfl) <| .cons (.letter rfl rfl hseconds) .nil
  refine read_of_spelled
    (a := { command := ["--quiet", "--", "-c"], config := some "-c=x",
            timeout := some 18446744073709551615, sentinel := some "", dryRun := true,
            verbose := true })
    (by decide) (fun n h => ?_) (by decide) hwords
  rw [← Option.some.inj h]
  decide

end IdleWatch.Args
