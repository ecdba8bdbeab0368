import IdleWatch.Proofs.Faithful
import IdleWatch.Proofs.Idling

/-!
# Only a line is a sign of life

Output that completes no line counts for nothing: neither a piece of a line, nor a read that finds
nothing, nor what is dropped when a stream closes moves the deadline. A read completes a line if
it brings a line feed, so a stretch of a run is silent if none of its reads does. Along such a
stretch the deadline stays where it was, or the watchdog has fired.

With that the law of the diary is complete: `kills_follow_lulls`.
-/

namespace IdleWatch.Run

/-- No line feed is among what was read. -/
def Silent (a : Action) : Prop := ∀ result, a = .read result → 10 ∉ received result

/-- The watchdog has the deadline it had, or has fired since. -/
def Waits (s t : Watchdog.System) : Prop :=
  s.shared.fired ≤ t.shared.fired
    ∧ (t.shared.deadline = s.shared.deadline
      ∨ t.shared.deadline = none ∧ s.shared.fired < t.shared.fired)

theorem Waits.trans {s t u : Watchdog.System} (h : Waits s t) (h' : Waits t u) : Waits s u := by
  refine ⟨Nat.le_trans h.1 h'.1, ?_⟩
  rcases h'.2 with e | ⟨e, hlt⟩
  · rcases h.2 with e' | ⟨e', hlt⟩
    · exact Or.inl (e.trans e')
    · exact Or.inr ⟨e.trans e', Nat.lt_of_lt_of_le hlt h'.1⟩
  · exact Or.inr ⟨e, Nat.lt_of_le_of_lt h.1 hlt⟩

/-- Nobody but a caller moves the deadline. -/
theorem waits_of_step {s t : Watchdog.System} {a : Watchdog.Action} (hs : s.Reachable)
    (h : s.step a = some t) (harm : ∀ timeout, a ≠ .arm timeout) (hcancel : a ≠ .cancel) :
    Waits s t := by
  have hle := Watchdog.System.fired_le (Watchdog.System.does_of_step h)
  by_cases hfired : t.shared.fired = s.shared.fired
  · refine ⟨hle, Or.inl ?_⟩
    cases Watchdog.System.does_of_step h with
    | armLate | overflow | arm => exact absurd rfl (harm _)
    | cancelLate | cancel => exact absurd rfl hcancel
    | fire => exact absurd hfired (Nat.succ_ne_self _)
    | _ => rfl
  · obtain ⟨_, hnone, _⟩ := fired_of_step hs h hfired
    exact ⟨hle, Or.inr ⟨hnone, Nat.lt_of_le_of_ne hle (Ne.symm hfired)⟩⟩

/-- A read that brings no line feed brings out no line. -/
theorem lines_of_silent {sink : Sink} {r : Run} {c : Record} {result : ReadResult} {place : Nat}
    {todo : List Nat} {reader reader' : Reader} {polled : Polled} (h : Faithful sink r c)
    (htodo : r.todo = place :: todo) (hreader : r.live[place]? = some reader)
    (hpoll : reader.poll result = (reader', .ok polled)) (hsilent : 10 ∉ received result) :
    polled.output.lines.toList = [] := by
  obtain ⟨_, hlines, _⟩ :=
    Reader.poll_fed (h.held place reader hreader (h.notMem_closed htodo)) hpoll
  have hno : 10 ∉ Framing.tail (c.bytes reader.stream) ++ received result := by
    intro hm
    rcases List.mem_append.mp hm with hm | hm
    · exact Framing.notMem_rest _ hm
    · exact hsilent hm
  rw [hlines, Framing.lines, Framing.texts, Framing.lineBytes_of_notMem hno]
  rfl

/-- Between two lines: the supervisor waits or serves, and has nothing to write. -/
structure Between (r : Run) : Prop where
  stand : r.stand = .waiting ∨ r.stand = .serving
  outbox : r.outbox = []

/-- **A silent step between two lines writes none**, and leaves the deadline where it is. -/
theorem silent_step {sink : Sink} {r s : Run} {c : Record} {a : Action} (h : Faithful sink r c)
    (hr : r.dog.Reachable) (hb : Between r) (hsilent : Silent a) (hd : Does r a s) :
    s.lines = r.lines ∧ (s.stand.Past ∨ Between s ∧ Waits r.dog s.dog) := by
  have hself : Waits r.dog r.dog := ⟨Nat.le_refl _, Or.inl rfl⟩
  have hstand : ∀ {stand : Stand}, r.stand = stand → stand = .waiting ∨ stand = .serving :=
    fun e => e ▸ hb.stand
  cases hd with
  | ready => exact ⟨rfl, Or.inr ⟨⟨Or.inr rfl, hb.outbox⟩, hself⟩⟩
  | unready | readFailed | writeFailed | spawnFailed | leave | reap | reapFailed | judge | drop
  | abort | release | overflow => exact ⟨rfl, Or.inl trivial⟩
  | interrupt | request | exit => exact ⟨rfl, Or.inr ⟨⟨hb.stand, hb.outbox⟩, hself⟩⟩
  | read _ _ _ htodo hreader hpoll =>
      have hnone := lines_of_silent h htodo hreader hpoll (hsilent _ rfl)
      exact ⟨rfl, Or.inr ⟨⟨hb.stand, hnone⟩, hself⟩⟩
  | notify _ hdog =>
      exact ⟨rfl, Or.inr ⟨⟨hb.stand, hb.outbox⟩, waits_of_step hr hdog (by simp) (by simp)⟩⟩
  | dog ha hdog | kill ha hdog =>
      refine ⟨rfl, Or.inr ⟨⟨hb.stand, hb.outbox⟩, waits_of_step hr hdog ?_ ?_⟩⟩
      · rintro timeout rfl
        exact absurd ha (by simp [isDogs])
      · rintro rfl
        exact absurd ha (by simp [isDogs])
  | write _ _ hout => exact absurd (hb.outbox.symm.trans hout) (by simp)
  | spawn hs | arm hs | rearm hs => exact absurd (hstand hs) (by simp)
  | endRound =>
      rcases atTop_cases { r with live := eraseAll r.live r.closed, closed := [] } with
        ⟨_, heq⟩ | ⟨_, heq⟩
      · rw [heq]
        exact ⟨rfl, Or.inl trivial⟩
      · rw [heq]
        exact ⟨rfl, Or.inr ⟨⟨Or.inl rfl, hb.outbox⟩, hself⟩⟩

/-- **Along a silent stretch no line is written**, and as long as the loop goes on the deadline
stays where it is, or the watchdog has fired. -/
theorem silent_perform {sink : Sink} {r s : Run} {c : Record} {actions : List Action}
    (h : Faithful sink r c) (hr : r.dog.Reachable) (hb : Between r)
    (hsilent : ∀ a ∈ actions, Silent a) (hs : r.perform actions = some s) :
    s.lines = r.lines ∧ (s.stand.Past ∨ Between s ∧ Waits r.dog s.dog) := by
  induction actions generalizing r c with
  | nil =>
      obtain rfl := Option.some.inj hs
      exact ⟨rfl, Or.inr ⟨hb, Nat.le_refl _, Or.inl rfl⟩⟩
  | cons a more ih =>
      obtain ⟨r', hstep, hmore⟩ := perform_cons hs
      have hd := does_of_step hstep
      obtain ⟨hlines, hpast | ⟨hb', hwaits⟩⟩ :=
        silent_step h hr hb (hsilent a List.mem_cons_self) hd
      · have hend := perform_induction
          (motive := fun s => s.stand.Past ∧ s.lines = r'.lines)
          (fun ⟨hp, hl⟩ hd => ⟨(past_of_does hp hd).1, (past_of_does hp hd).2.1.trans hl⟩)
          ⟨hpast, rfl⟩ hmore
        exact ⟨hend.2.trans hlines, Or.inl hend.1⟩
      · obtain ⟨hlines', hrest⟩ := ih (faithful_step h hd) (reachable_dog_step hr hd) hb'
          (fun b hm => hsilent b (List.mem_cons_of_mem a hm)) hmore
        refine ⟨hlines'.trans hlines, ?_⟩
        rcases hrest with hp | ⟨hb'', hwaits'⟩
        · exact Or.inl hp
        · exact Or.inr ⟨hb'', hwaits.trans hwaits'⟩

/-! ## The law -/

theorem Idle.deadline_eq {d : Diary} {r : Run} (h : Idle d r) (hl : r.stand.Looping) :
    ∃ lull earlier, d.lulls = lull :: earlier
      ∧ r.dog.shared.deadline
        = if lull.kills = [] then some (lull.start + r.options.idleTimeout) else none := by
  obtain ⟨lull, earlier, e, hd⟩ := h.armed hl
  refine ⟨lull, earlier, e, ?_⟩
  by_cases hk : lull.kills = []
  · rw [if_pos hk]
    exact hd hk
  · rw [if_neg hk]
    refine Option.eq_none_iff_forall_ne_some.mpr (fun deadline hset => ?_)
    obtain ⟨_, _, lull', earlier', e', hk', _⟩ := h.set deadline hset
    injection e.symm.trans e' with e''
    exact hk (e'' ▸ hk')

/-- A line that was just written was written now. -/
theorem Idle.written_head {d : Diary} {r : Run} (h : Idle d r) (hs : r.stand = .rearming) :
    d.written.head? = some r.dog.now := by
  have hstarts := h.rearming hs
  obtain ⟨lull, earlier, hl, _⟩ := h.armed (by rw [hs]; trivial)
  rw [hl] at hstarts
  cases hw : d.written with
  | nil =>
      -- the first arm alone does not begin two lulls
      rw [hw] at hstarts
      cases ha : d.armed <;> simp [ha] at hstarts
  | cons time written =>
      rw [hw] at hstarts
      injection hstarts with e
      rw [e]
      rfl

/-- If every lull was shorter than the timeout, the watchdog has not fired. -/
theorem Idle.fires_of_short {d : Diary} {r : Run} (h : Idle d r)
    (hshort : ∀ lull finish, (lull, finish) ∈ spans (d.finish r.dog.now) d.lulls →
      finish < lull.start + r.options.idleTimeout) : r.dog.fires = [] := by
  rw [h.fires, List.reverse_eq_nil_iff, List.flatMap_eq_nil_iff]
  intro lull hm
  obtain ⟨finish, hspan⟩ := mem_spans hm (d.finish r.dog.now)
  exact (h.lawful lull finish hspan).answered.1 (hshort lull finish hspan)

/--
**A command is killed when it has been silent for the timeout**, and at no other time.

On a virtual clock, however the streams are read, as long as the clock can represent the deadlines:
while the supervisor waits or serves, the deadline is the moment of the last line, or of the first
arm if there is none, and the timeout after it, and there is none if the watchdog has fired since
(a line that was just written has no lull yet, but is about to begin one at the same moment). Of
the lulls between arm, lines and the end of the loop, each one that is longer than the timeout is
answered with one kill, at its start and the timeout after it; a shorter one with none. Those are
all the times the watchdog fires, in order, and the child is killed once each time. And from any
moment on, as long as no read brings a line feed, no line is written and the deadline does not move.
-/
theorem kills_follow_lulls {options : Options} {sink : Sink} {actions : List Action} {r : Run}
    (hp : ({ options, sink } : Run).promptly actions = true)
    (h : ({ options, sink } : Run).perform actions = some r)
    (hov : r.stand.outcome? ≠ some .overflow) :
    let d := ({ options, sink } : Run).diary {} actions
    (r.stand = .waiting ∨ r.stand = .serving →
        ∃ lull earlier, d.lulls = lull :: earlier
          ∧ (d.written ++ d.armed.toList).head? = some lull.start
          ∧ r.dog.shared.deadline
            = if lull.kills = [] then some (lull.start + options.idleTimeout) else none)
      ∧ (r.stand = .rearming → d.written.head? = some r.dog.now)
      ∧ (r.stand ≠ .rearming → d.lulls.map Lull.start = d.written ++ d.armed.toList)
      ∧ d.written.length = r.lines.size
      ∧ (∀ lull finish, (lull, finish) ∈ spans (d.finish r.dog.now) d.lulls →
          (finish < lull.start + options.idleTimeout → lull.kills = [])
            ∧ (lull.start + options.idleTimeout < finish →
              lull.kills = [lull.start + options.idleTimeout])
            ∧ (lull.kills = [] ∨ lull.kills = [lull.start + options.idleTimeout]))
      ∧ r.dog.fires = (d.lulls.flatMap Lull.kills).reverse
      ∧ r.kills.count .watchdog = r.dog.fires.length
      ∧ ((∀ lull finish, (lull, finish) ∈ spans (d.finish r.dog.now) d.lulls →
            finish < lull.start + options.idleTimeout) → .watchdog ∉ r.kills)
      ∧ ∀ more s, Between r → (∀ a ∈ more, Silent a) → r.perform more = some s →
          s.lines = r.lines ∧ (s.stand.Past ∨ Between s ∧ Waits r.dog s.dog) := by
  have hidle := idle_diary hp h hov
  have ho := options_perform h
  have hr := reachable_dog h
  have hj := judged_perform h
  have hcounted := (Watchdog.System.tied_reachable hr).counted
  dsimp only
  refine ⟨?_, ?_, hidle.starts, hidle.lines, ?_, hidle.fires, hj.watchdog.trans hcounted, ?_, ?_⟩
  · intro hs
    have hl : r.stand.Looping := by
      rcases hs with e | e
      · rw [e]; trivial
      · rw [e]; trivial
    have hre : r.stand ≠ .rearming := by
      rcases hs with e | e
      · rw [e]; simp
      · rw [e]; simp
    obtain ⟨lull, earlier, e, hd⟩ := hidle.deadline_eq hl
    refine ⟨lull, earlier, e, ?_, ho ▸ hd⟩
    rw [← hidle.starts hre, e]
    rfl
  · exact hidle.written_head
  · intro lull finish hspan
    exact ho ▸ (hidle.lawful lull finish hspan).answered
  · intro hshort
    have hnone := hidle.fires_of_short (fun lull finish hm => by
      rw [ho]
      exact hshort lull finish hm)
    rw [hj.watchdog_mem_iff, hcounted, hnone]
    exact Nat.lt_irrefl _
  · intro more s hb hsilent hs
    exact silent_perform (faithful_perform (faithful_start options sink) h) hr hb hsilent hs

/-- A piece of a line comes and the command is killed all the same, 5 after the first arm; the rest
of the line comes at 9, and the streams close at 10. -/
def lateLine : List Action :=
  [.spawned (.ok ()), .next, .next,
    .dog .snapshot, .dog .wake, .dog .snapshot, .dog (.tick 3),
    .ready [0], .read (.ok [97]), .next, .dog (.tick 2),
    .dog .elapse, .dog .expire, .dog .snapshot, .dog (.tick 4),
    .ready [0], .read (.ok [10]), .next, .next, .next, .next,
    .dog .wake, .dog .snapshot, .dog (.tick 1),
    .ready [0, 1], .read (.ok []), .read (.ok []), .next]

theorem kills_follow_lulls_lateLine :
    ∃ r : Run, ({ options := ⟨"sh", [], false, 5, "OK", 4⟩ } : Run).promptly lateLine = true
      ∧ ({ options := ⟨"sh", [], false, 5, "OK", 4⟩ } : Run).perform lateLine = some r
      ∧ r.stand = .leaving
      ∧ ({ options := ⟨"sh", [], false, 5, "OK", 4⟩ } : Run).diary {} lateLine
        = { armed := some 0, written := [9], lulls := [⟨9, []⟩, ⟨0, [5]⟩], ended := some 10 }
      ∧ r.dog.fires = [5]
      ∧ r.kills.count .watchdog = 1 := by
  have hp : ({ options := ⟨"sh", [], false, 5, "OK", 4⟩ } : Run).promptly lateLine = true := rfl
  have h : ({ options := ⟨"sh", [], false, 5, "OK", 4⟩ } : Run).perform lateLine = some _ := rfl
  obtain ⟨_, _, _, _, _, hfires, hkills, _⟩ := kills_follow_lulls hp h (by decide)
  exact ⟨_, hp, h, rfl, rfl, hfires, hkills⟩

end IdleWatch.Run
