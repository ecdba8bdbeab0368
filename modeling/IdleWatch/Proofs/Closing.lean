import IdleWatch.Proofs.Failure
import IdleWatch.Proofs.Reception
import IdleWatch.Proofs.Rounds

/-!
# Readers leave when their streams have closed

A run begins with a reader for each stream. `Attended` says what the turns of a whole run tell: the
readers that are live and not marked are those of the streams that no turn has found closed. From
that follows all else. A reader that has a turn is live and not marked, so it has not closed before.
And where the last stream closes, no line can be left over from that turn and no reader is left to
have another, so the only way on leads out of the loop.
-/

namespace IdleWatch.Run

/-! ## Which streams are live -/

/-- One of these turns has found the stream closed. -/
def closedIn (turns : List Turn) (stream : Stream) : Bool :=
  turns.any fun turn => turn.closes && turn.reader.stream = stream

/-- The streams that no turn has found closed. -/
def unclosed (turns : List Turn) : List Stream :=
  [.stdout, .stderr].filter fun stream => !closedIn turns stream

theorem unclosed_eq_nil {turns : List Turn} :
    unclosed turns = [] ↔ ∀ stream, closedIn turns stream = true := by
  rw [unclosed, List.filter_eq_nil_iff]
  constructor
  · intro h stream
    simpa using h stream (by cases stream <;> simp)
  · exact fun h stream _ => by simp [h stream]

theorem unclosed_concat (turns : List Turn) (turn : Turn) :
    unclosed (turns ++ [turn])
      = if turn.closes then (unclosed turns).filter (· ≠ turn.reader.stream)
        else unclosed turns := by
  have hin : ∀ stream, closedIn (turns ++ [turn]) stream
      = (closedIn turns stream || (turn.closes && turn.reader.stream = stream)) := by
    intro stream
    simp [closedIn]
  unfold unclosed
  cases hcloses : turn.closes with
  | false => simp [hin, hcloses]
  | true =>
      rw [if_pos rfl, List.filter_filter]
      refine List.filter_congr fun stream _ => ?_
      rw [hin, hcloses]
      by_cases he : turn.reader.stream = stream
      · simp [he]
      · simp [he, Ne.symm he]

/-- A watchdog that acts by itself owes nothing more and nothing less. -/
theorem owed_of_isDogs {s t : Watchdog.System} {a : Watchdog.Action} (ha : isDogs a = true)
    (h : s.step a = some t) : t.owed = s.owed := by
  cases Watchdog.System.does_of_step h with
  | armLate | overflow | arm | cancelLate | cancel | notify | abort | abortLate =>
      exact absurd ha (by simp [isDogs])
  | _ => rfl

/-- The child was not started yet, or could not be. -/
def Unstarted (r : Run) : Prop :=
  r.live = [] ∧ r.phases = [.spawning]
    ∧ (r.stand = .spawning ∨ ∃ e, r.stand = .ended (.error e))

/-- **What turns say about a run whose child was started.** -/
structure Attended (r : Run) (turns : List Turn) : Prop where
  born : r.stand ≠ .spawning
  inside : ∀ place, place ∈ r.closed ∨ place ∈ r.todo → place < r.live.length
  /-- Without the marked readers, those are live that have not found their streams closed. -/
  streams : eraseAll (r.live.map Reader.stream) r.closed = unclosed turns
  order : turns.Pairwise fun first later =>
    first.closes = true → later.reader.stream ≠ first.reader.stream
  drained : .draining ∈ r.phases → unclosed turns = []
  /-- When the last one has, the supervisor has nothing left to do in the loop. -/
  spent : unclosed turns = [] →
    .draining ∈ r.phases ∨ (r.stand = .serving ∧ r.outbox = [] ∧ r.dog.owed = 0)

section Attended

variable {sink : Sink} {r s : Run} {c : Record} {turns : List Turn}

/-- A step that has no turn and leaves the readers alone. -/
theorem Attended.keep (h : Attended r turns) (hborn : s.stand ≠ .spawning)
    (hlive : s.live = r.live) (hclosed : s.closed = r.closed) (htodo : s.todo = r.todo)
    (hphases : .draining ∈ s.phases ↔ .draining ∈ r.phases)
    (hspent : r.stand = .serving → r.outbox = [] → r.dog.owed = 0 →
      s.stand = .serving ∧ s.outbox = [] ∧ s.dog.owed = 0) : Attended s turns where
  born := hborn
  inside := by rw [hlive, hclosed, htodo]; exact h.inside
  streams := by rw [hlive, hclosed]; exact h.streams
  order := h.order
  drained := fun hs => h.drained (hphases.mp hs)
  spent := by
    intro hnil
    rcases h.spent hnil with hr | ⟨hs, hout, ho⟩
    · exact Or.inl (hphases.mpr hr)
    · exact Or.inr (hspent hs hout ho)

/-- The reader whose turn it is has not found its stream closed. -/
theorem Attended.mem_unclosed (h : Attended r turns) (hr : Faithful sink r c) {place : Nat}
    {todo : List Nat} {reader : Reader} (htodo : r.todo = place :: todo)
    (hreader : r.live[place]? = some reader) : reader.stream ∈ unclosed turns := by
  rw [← h.streams, ← map_eraseAll,
    eraseAll_eq hr.closed_decreasing fun p hp => h.inside p (Or.inl hp)]
  refine List.mem_map.mpr ⟨reader, List.mem_filterMap.mpr ⟨(reader, place), ?_, ?_⟩, rfl⟩
  · exact List.mem_zipIdx_iff_getElem?.mpr hreader
  · exact if_neg (hr.notMem_closed htodo)

theorem Attended.order_concat (h : Attended r turns) {turn : Turn}
    (hm : turn.reader.stream ∈ unclosed turns) :
    (turns ++ [turn]).Pairwise fun first later =>
      first.closes = true → later.reader.stream ≠ first.reader.stream := by
  refine List.pairwise_append.mpr ⟨h.order, List.pairwise_singleton _ _, ?_⟩
  intro first hfirst later hlater hcloses hsame
  rw [List.mem_singleton.mp hlater] at hsame
  have hno := (List.mem_filter.mp hm).2
  rw [hsame] at hno
  have hyes : closedIn turns first.reader.stream = true :=
    List.any_eq_true.mpr ⟨first, hfirst, by simp [hcloses]⟩
  rw [hyes] at hno
  exact absurd hno (by simp)

theorem attended_spawn (hr : Faithful sink r c) (hunstarted : Unstarted r)
    (hs : r.stand = .spawning) : Attended { r with
      live := [.new .stdout r.options.readChunk, .new .stderr r.options.readChunk]
      stand := .arming } [] := by
  obtain ⟨_, hphases, _⟩ := hunstarted
  obtain ⟨htodo, hclosed, _⟩ := hr.clear (by rw [hs]; trivial)
  have hno : Phase.draining ∉ r.phases := by
    rw [hphases]
    decide
  constructor
  · simp
  · intro place hm
    rw [htodo, hclosed] at hm
    exact absurd hm (by simp)
  · dsimp only
    rw [hclosed]
    rfl
  · exact List.Pairwise.nil
  · exact fun hs => absurd hs hno
  · exact fun hnil => absurd hnil (by simp [unclosed, closedIn])

theorem attended_ready (h : Attended r turns) (hr : Faithful sink r c)
    (hs : r.stand = .waiting) {places : List Nat} (hbound : ∀ p ∈ places, p < r.live.length) :
    Attended { r with stand := .serving, todo := places, closed := [] } turns := by
  have hclosed : r.closed = [] := (hr.clear (by rw [hs]; trivial)).2.1
  constructor
  · simp
  · exact fun place hm => hbound place (hm.resolve_left List.not_mem_nil)
  · have hstreams := h.streams
    rwa [hclosed] at hstreams
  · exact h.order
  · exact h.drained
  · intro hnil
    refine (h.spent hnil).imp id fun hserving => ?_
    exact absurd (hs.symm.trans hserving.1) (by simp)

/-- A reader marked in its turn is behind those marked before it. -/
theorem Faithful.closed_cons (hr : Faithful sink r c) {place : Nat} {todo : List Nat}
    (htodo : r.todo = place :: todo) : (place :: r.closed).Pairwise (· > ·) := by
  have hplaces := hr.places
  rw [htodo] at hplaces
  refine List.pairwise_cons.mpr ⟨fun p hp => ?_, hr.closed_decreasing⟩
  exact (List.pairwise_append.mp hplaces).2.2 p (List.mem_reverse.mpr hp) place List.mem_cons_self

theorem attended_read (h : Attended r turns) (hr : Faithful sink r c) {result : ReadResult}
    {place : Nat} {todo : List Nat} {reader reader' : Reader} {polled : Polled}
    (hs : r.stand = .serving) (ho : r.dog.owed = 0) (htodo : r.todo = place :: todo)
    (hreader : r.live[place]? = some reader) (hpoll : reader.poll result = (reader', .ok polled)) :
    Attended { r with
      live := r.live.set place reader'
      todo
      closed := if polled.stillOpen then r.closed else place :: r.closed
      outbox := polled.output.lines.toList
      notes := r.notes ++ polled.output.notes } (turns ++ [⟨place, reader, result⟩]) := by
  have hm := h.mem_unclosed hr htodo hreader
  have hlt := (List.getElem?_eq_some_iff.mp hreader).1
  have hcloses : Turn.closes ⟨place, reader, result⟩ = !polled.stillOpen := by
    rw [Turn.closes, hpoll]
  obtain ⟨hstream, _⟩ :=
    Reader.poll_fed (hr.held place reader hreader (hr.notMem_closed htodo)) hpoll
  have hstreams := map_set_of_eq Reader.stream hreader hstream
  constructor
  · exact h.born
  · intro p hp
    rw [List.length_set]
    dsimp only at hp
    rcases hp with hp | hp
    · split at hp
      · exact h.inside p (Or.inl hp)
      · rcases List.mem_cons.mp hp with rfl | hp
        · exact hlt
        · exact h.inside p (Or.inl hp)
    · exact h.inside p (Or.inr (htodo ▸ List.mem_cons_of_mem place hp))
  · dsimp only
    rw [hstreams, unclosed_concat, hcloses, ← h.streams]
    cases polled.stillOpen with
    | true => rfl
    | false =>
        have hget : (r.live.map Reader.stream)[place]? = some reader.stream := by
          rw [List.getElem?_map, hreader]
          rfl
        exact eraseAll_cons (hr.closed_cons htodo) hget (hr.ordered.nodup (by simp))
          (by simpa using fun p hp => h.inside p (Or.inl hp))
  · exact h.order_concat hm
  · intro hd
    rw [h.drained hd] at hm
    exact absurd hm List.not_mem_nil
  · intro hnil
    rw [unclosed_concat, hcloses] at hnil
    cases hopen : polled.stillOpen with
    | true =>
        rw [hopen] at hnil
        rw [show unclosed turns = [] from hnil] at hm
        exact absurd hm List.not_mem_nil
    | false =>
        exact Or.inr ⟨hs, congrArg Array.toList (Reader.lines_of_closed hpoll hopen), ho⟩

/-- The loop ends where no reader is left. -/
theorem Attended.atTop (h : Attended r turns) (hclosed : r.closed = []) :
    Attended r.atTop turns := by
  have hstreams : r.live.map Reader.stream = unclosed turns := by
    have := h.streams
    rwa [hclosed] at this
  rcases atTop_cases r with ⟨hnil, heq⟩ | ⟨hlive, heq⟩
  · have hphases : .draining ∈ (r.enter .draining).phases := by
      rw [enter, phases_note]
      exact List.mem_append_right _ List.mem_cons_self
    rw [heq]
    refine ⟨by simp, h.inside, h.streams, h.order, fun _ => ?_, fun _ => Or.inl hphases⟩
    rw [← hstreams, hnil]
    rfl
  · rw [heq]
    refine ⟨by simp, h.inside, h.streams, h.order, h.drained, fun hnone => ?_⟩
    rw [← hstreams] at hnone
    exact absurd (List.map_eq_nil_iff.mp hnone) hlive

theorem attended_step (h : Attended r turns) (hr : Faithful sink r c) {a : Action}
    (hd : Does r a s) : Attended s (r.turned turns a) := by
  -- most steps start where the supervisor is not in the middle of a round
  have hnot : ∀ {stand : Stand}, r.stand = stand → stand ≠ .serving → ∀ {P : Prop},
      r.stand = .serving → r.outbox = [] → r.dog.owed = 0 → P :=
    fun he hne _ hs => absurd (he.symm.trans hs) hne
  have hnote : ∀ e : Effect, e.phase? ≠ some .draining →
      (.draining ∈ (r.note e).phases ↔ .draining ∈ r.phases) := by
    intro e he
    rw [phases_note, List.mem_append, Option.mem_toList, or_iff_left]
    exact he
  cases hd with
  | spawn hs | spawnFailed hs => exact absurd hs h.born
  | ready hs _ _ _ hbound => exact attended_ready h hr hs hbound
  | unready hs | leave hs | drop hs | abort hs | reapFailed hs | rearm hs =>
      exact h.keep (by simp [giveUp]) rfl rfl rfl Iff.rfl (hnot hs (by simp))
  | interrupt hs =>
      exact h.keep h.born rfl rfl rfl (hnote (.killed .shutdown) (by simp [Effect.phase?]))
        (hnot hs (by simp))
  | reap hs =>
      exact h.keep (by simp) rfl rfl rfl (hnote .reaped (by simp [Effect.phase?]))
        (hnot hs (by simp))
  | release hs =>
      exact h.keep (by simp) rfl rfl rfl (hnote .released (by simp [Effect.phase?]))
        (hnot hs (by simp))
  | judge hs =>
      exact h.keep (by simp) rfl rfl rfl (hnote (.entered .terminated) (by simp [Effect.phase?]))
        (hnot hs (by simp))
  | overflow hs =>
      refine h.keep (by simp [giveUp]) rfl rfl rfl Iff.rfl fun hserving => ?_
      rcases hs with hs | hs <;> rw [hs] at hserving <;> exact absurd hserving (by simp)
  | arm hs =>
      have hclosed : r.closed = [] := (hr.clear (by rw [hs]; trivial)).2.1
      refine Attended.atTop (h.keep h.born rfl rfl rfl ?_ (hnot hs (by simp))) hclosed
      exact hnote (.entered .running) (by simp [Effect.phase?])
  | read hs ho _ htodo hreader hpoll =>
      rw [turned_read htodo hreader]
      exact attended_read h hr hs ho htodo hreader hpoll
  | @readFailed result place _ reader _ _ _ _ htodo hreader hpoll =>
      have hm := h.mem_unclosed hr htodo hreader
      have hsame : unclosed (turns ++ [⟨place, reader, result⟩]) = unclosed turns := by
        rw [unclosed_concat, Turn.closes, hpoll]
        rfl
      rw [turned_read htodo hreader]
      refine ⟨by simp [giveUp], h.inside, hsame ▸ h.streams, h.order_concat hm,
        hsame ▸ h.drained, fun hnil => ?_⟩
      rw [hsame] at hnil
      rw [hnil] at hm
      exact absurd hm List.not_mem_nil
  | write _ _ hout | writeFailed _ _ hout =>
      refine h.keep (by simp [giveUp]) rfl rfl rfl Iff.rfl fun _ hnil => ?_
      exact absurd (hnil.symm.trans hout) (by simp)
  | endRound _ _ _ htodo =>
      refine Attended.atTop ⟨h.born, ?_, ?_, h.order, h.drained, h.spent⟩ rfl
      · intro place hm
        rw [htodo] at hm
        exact absurd hm (by simp)
      · exact (map_eraseAll Reader.stream r.live r.closed).trans h.streams
  | notify howed =>
      refine h.keep h.born rfl rfl rfl Iff.rfl fun _ _ ho => ?_
      exact absurd ho (Nat.ne_of_gt howed)
  | request => exact h.keep h.born rfl rfl rfl Iff.rfl fun hs hout ho => ⟨hs, hout, ho⟩
  | exit =>
      exact h.keep h.born rfl rfl rfl (hnote .exited (by simp [Effect.phase?]))
        fun hs hout ho => ⟨hs, hout, ho⟩
  | dog ha hdog =>
      exact h.keep h.born rfl rfl rfl Iff.rfl
        fun hs hout ho => ⟨hs, hout, (owed_of_isDogs ha hdog).trans ho⟩
  | kill ha hdog =>
      exact h.keep h.born rfl rfl rfl (hnote (.killed .watchdog) (by simp [Effect.phase?]))
        fun hs hout ho => ⟨hs, hout, (owed_of_isDogs ha hdog).trans ho⟩

theorem unstarted_step (h : Unstarted r) (hr : Faithful sink r c) {a : Action}
    (hd : Does r a s) :
    Unstarted s ∧ r.turned [] a = [] ∨ Attended s (r.turned [] a) := by
  obtain ⟨hlive, hphases, hstand⟩ := h
  have hnote : ∀ e : Effect, e.phase? = none → (r.note e).phases = [.spawning] :=
    fun e he => (phases_note_of_none r he).trans hphases
  cases hd with
  | spawn hs => exact Or.inr (attended_spawn hr ⟨hlive, hphases, hstand⟩ hs)
  | spawnFailed => exact Or.inl ⟨⟨hlive, hphases, Or.inr ⟨_, rfl⟩⟩, rfl⟩
  | notify | request | dog => exact Or.inl ⟨⟨hlive, hphases, hstand⟩, rfl⟩
  | exit => exact Or.inl ⟨⟨hlive, hnote .exited rfl, hstand⟩, rfl⟩
  | kill => exact Or.inl ⟨⟨hlive, hnote (.killed .watchdog) rfl, hstand⟩, rfl⟩
  | ready hs | unready hs | interrupt hs | read hs | readFailed hs | write hs | writeFailed hs
  | endRound hs | arm hs | rearm hs | leave hs | reap hs | reapFailed hs | judge hs | drop hs
  | abort hs | release hs =>
      rw [hs] at hstand
      exact absurd hstand (by simp)
  | overflow hs =>
      rcases hs with hs | hs
      · rw [hs] at hstand
        exact absurd hstand (by simp)
      · rw [hs] at hstand
        exact absurd hstand (by simp)

theorem attended_perform (hr : Faithful sink r c) {actions : List Action}
    (h : Unstarted r ∧ turns = [] ∨ Attended r turns) (hp : r.perform actions = some s) :
    Unstarted s ∧ r.turns turns actions = [] ∨ Attended s (r.turns turns actions) := by
  induction actions generalizing r c turns with
  | nil =>
      obtain rfl := Option.some.inj hp
      exact h
  | cons a more ih =>
      obtain ⟨r', hstep, hmore⟩ := perform_cons hp
      have hd := does_of_step hstep
      rw [turns_of_step hstep]
      refine ih (faithful_step hr hd) ?_ hmore
      rcases h with ⟨h, rfl⟩ | h
      · exact unstarted_step h hr hd
      · exact Or.inr (attended_step h hr hd)

/-- When the last reader has found its stream closed, the loop is over or ends with the next step of
the supervisor. -/
theorem Attended.ends (h : Attended r turns) (hr : Faithful sink r c)
    (hnil : unclosed turns = []) :
    .draining ∈ r.phases ∨ ∃ s, r.step .next = some s ∧ .draining ∈ s.phases := by
  refine (h.spent hnil).imp id fun ⟨hs, hout, ho⟩ => ?_
  have htodo : r.todo = [] := by
    cases htodo : r.todo with
    | nil => rfl
    | cons place todo =>
        have hlt := h.inside place (Or.inr (htodo ▸ List.mem_cons_self))
        have hm := h.mem_unclosed hr htodo (List.getElem?_eq_getElem hlt)
        rw [hnil] at hm
        exact absurd hm List.not_mem_nil
  have hnext := Does.endRound hs ho hout htodo
  refine ⟨_, step_of_does hnext, ?_⟩
  rcases (attended_step h hr hnext).spent hnil with hdraining | ⟨hserving, _⟩
  · exact hdraining
  · rcases atTop_cases { r with live := eraseAll r.live r.closed, closed := [] } with
      ⟨_, heq⟩ | ⟨_, heq⟩
    · rw [heq] at hserving
      exact absurd hserving (by simp)
    · rw [heq] at hserving
      exact absurd hserving (by simp)

end Attended

/-! ## What is promised of a run -/

/-- **What is promised of a run** that has led to `s` with these turns. -/
structure AllRounds (turns : List Turn) (s : Run) : Prop where
  /-- Nobody has a turn after the one that found its stream closed. -/
  order : turns.Pairwise fun first later =>
    first.closes = true → later.reader.stream ≠ first.reader.stream
  /-- Between rounds those are live that have had no such turn. -/
  live : .running ∈ s.phases → Clear s.stand → s.live.map Reader.stream = unclosed turns
  /-- The loop has not ended before all had theirs. -/
  ended : .draining ∈ s.phases → ∀ stream, closedIn turns stream = true
  /-- It has ended then, or ends with the next step. -/
  ends : (∀ stream, closedIn turns stream = true) →
    .draining ∈ s.phases ∨ ∃ t, s.step .next = some t ∧ .draining ∈ t.phases

/--
**A wake-up serves who is ready, and drops who has closed.**

Take any list of live readers, however long, and any increasing places of it that are ready. As long
as the round lasts, the ready readers have their turns in this order, each one at most and in the
state that the round has found it in; the supervisor is never stuck, and no place it uses is outside
of the list. When the round is over, all of them have had their turns, and the list is the old one:
those that had no turn are as they were, those whose stream has closed are gone, all others are as
their turns left them, and the order is the old one. And whatever the reads return, if none of them
fails, the round can be brought to this end, unless the sink or the clock is in the way.

Over a whole run, therefore, nobody has a turn after the one that found its stream closed. Between
rounds just those are live that have had no such turn yet. And the loop ends when all have had
theirs, in whatever order: not before, and then with the next step of the supervisor.
-/
theorem live_follows_turns :
    (∀ {r q : Run} {places : List Nat}, r.step (.ready places) = some q →
      (∀ {actions : List Action} {s : Run}, q.perform actions = some s →
        (∀ places, .ready places ∉ actions) → OneRound r places (q.turns [] actions) s)
      ∧ (Unhindered r → ∀ answer : Nat → ReadResult,
        (∀ place ∈ places, ∀ reader, r.live[place]? = some reader →
          ∃ polled, (reader.poll (answer place)).2 = .ok polled) →
        ∃ actions s, (∀ places, .ready places ∉ actions) ∧ q.perform actions = some s
          ∧ Clear s.stand ∧ ∀ turn ∈ q.turns [] actions, turn.result = answer turn.place))
    ∧ ∀ {options : Options} {sink : Sink} {actions : List Action} {s : Run},
      ({ options, sink } : Run).perform actions = some s →
      AllRounds (({ options, sink } : Run).turns [] actions) s := by
  constructor
  · intro r q places hready
    cases does_of_step hready with
    | ready _ _ _ hsorted hbound =>
        have hbegun : Underway r places
            { r with stand := .serving, todo := places, closed := [] } [] :=
          ⟨rfl, by simp, by simp, fun _ => rfl, rfl, rfl⟩
        refine ⟨fun {actions s} hp hno => ?_, fun hfree answer hanswer => ?_⟩
        · have hround := inRound_perform hsorted hbound hno (.busy (by trivial) hbegun) hp
          exact hround.oneRound hsorted hbound
        · exact hbegun.completes hsorted hbound trivial hfree hanswer (by simp)
  · intro options sink actions s hp
    have hstart : Unstarted { options, sink } := ⟨rfl, rfl, Or.inl rfl⟩
    have hfaithful := faithful_perform (faithful_start options sink) hp
    rcases attended_perform (faithful_start options sink) (Or.inl ⟨hstart, rfl⟩) hp with
      ⟨⟨_, hphases, _⟩, hturns⟩ | h
    · rw [hturns]
      refine ⟨List.Pairwise.nil, fun hrunning => ?_, fun hdraining => ?_, fun hall => ?_⟩
      · rw [hphases] at hrunning
        exact absurd hrunning (by decide)
      · rw [hphases] at hdraining
        exact absurd hdraining (by decide)
      · exact absurd (hall .stdout) (by simp [closedIn])
    · refine ⟨h.order, fun _ hclear => ?_, fun hdraining => ?_, fun hall => ?_⟩
      · have hstreams := h.streams
        rwa [(hfaithful.clear hclear).2.1] at hstreams
      · exact unclosed_eq_nil.mp (h.drained hdraining)
      · exact h.ends hfaithful (unclosed_eq_nil.mpr hall)

/-- Four readers are live. -/
def crowd : Run where
  options := ⟨"sh", [], false, 5, "OK", 8⟩
  stand := .waiting
  live := [.new .stdout 8, .new .stderr 4, .new .stdout 2, .new .stderr 1]

/-- The first and the last of them find their streams closed, another one finds nothing yet. -/
def crowdRound : List Action :=
  [.read (.ok []), .read (.error (.number 11)), .read (.ok []), .next]

/-- Standard error closes in the round in which standard output brings a line, and standard output
in the next. -/
def closingRounds : List Action :=
  [.spawned (.ok ()), .next, .next, .ready [0, 1], .read (.ok [97, 10]), .next, .next, .next,
    .read (.ok []), .next, .ready [0], .read (.ok [])]

theorem live_follows_turns_crowd :
    (∃ q s, crowd.step (.ready [0, 1, 3]) = some q ∧ q.perform crowdRound = some s
      ∧ OneRound crowd [0, 1, 3] (q.turns [] crowdRound) s
      ∧ s.live = [.new .stderr 4, .new .stdout 2])
    ∧ ∃ s t, ({ options := crowd.options } : Run).perform closingRounds = some s
      ∧ .draining ∉ s.phases ∧ s.step .next = some t ∧ .draining ∈ t.phases := by
  constructor
  · obtain ⟨q, s, hready, hp, hlive⟩ : ∃ q s, crowd.step (.ready [0, 1, 3]) = some q
        ∧ q.perform crowdRound = some s ∧ s.live = [.new .stderr 4, .new .stdout 2] :=
      ⟨_, _, rfl, rfl, rfl⟩
    have hno : ∀ places, Action.ready places ∉ crowdRound := by simp [crowdRound]
    exact ⟨q, s, hready, hp, (live_follows_turns.1 hready).1 hp hno, hlive⟩
  · obtain ⟨s, hp, hphases, hclosed⟩ : ∃ s,
        ({ options := crowd.options } : Run).perform closingRounds = some s
          ∧ .draining ∉ s.phases
          ∧ unclosed (({ options := crowd.options } : Run).turns [] closingRounds) = [] :=
      ⟨_, rfl, by decide, by decide⟩
    rcases (live_follows_turns.2 hp).ends (unclosed_eq_nil.mp hclosed) with h | ⟨t, hnext, ht⟩
    · exact absurd h hphases
    · exact ⟨s, t, hp, hphases, hnext, ht⟩

end IdleWatch.Run
