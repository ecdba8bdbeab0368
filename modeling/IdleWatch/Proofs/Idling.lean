import IdleWatch.Proofs.Diary

/-!
# A command is killed for being silent

The watchdog is armed anew after each line, and knows nothing of lines; the supervisor writes lines,
and knows nothing of deadlines. What they do together is the law of this file: on a virtual clock
the deadline is always the moment of the last line (or of the first arm) and the timeout after it,
until it is reached, and then there is none before the next line.

`Idle` ties the diary of a run to the watchdog. That a kill comes at its deadline and not later is
where the virtual clock is used, once, in `idle_tick`: time does not pass a deadline that is set.
-/

namespace IdleWatch.Run

/-! ## What a step of the watchdog changes -/

/-- Time, deadline and history are as before. -/
structure Unmoved (s t : Watchdog.System) : Prop where
  now : t.now = s.now
  deadline : t.shared.deadline = s.shared.deadline
  cancelled : t.shared.cancelled = s.shared.cancelled
  fired : t.shared.fired = s.shared.fired
  fires : t.fires = s.fires

theorem unmoved_self (s : Watchdog.System) : Unmoved s s := ⟨rfl, rfl, rfl, rfl, rfl⟩

/-- Most of what the task does, and a notification, move nothing. -/
theorem unmoved_of_step {s t : Watchdog.System} {a : Watchdog.Action} (h : s.step a = some t)
    (harm : ∀ timeout, a ≠ .arm timeout) (hcancel : a ≠ .cancel) (htick : ∀ d, a ≠ .tick d)
    (hfired : t.shared.fired = s.shared.fired) : Unmoved s t := by
  cases Watchdog.System.does_of_step h with
  | armLate | overflow | arm => exact absurd rfl (harm _)
  | cancelLate | cancel => exact absurd rfl hcancel
  | tick => exact absurd rfl (htick _)
  | fire => exact absurd hfired (Nat.succ_ne_self _)
  | _ => exact ⟨rfl, rfl, rfl, rfl, rfl⟩

theorem armed_of_step {s t : Watchdog.System} {timeout : Time}
    (h : s.step (.arm timeout) = some t) (hc : s.shared.cancelled = false)
    (hov : (s.shared.arm s.now timeout).2 ≠ .overflowed) :
    t.shared.deadline = some (s.now + timeout) ∧ t.now = s.now ∧ t.shared.cancelled = false
      ∧ t.fires = s.fires := by
  cases Watchdog.System.does_of_step h with
  | armLate hc' => exact absurd (hc.symm.trans hc') (by simp)
  | overflow _ hd => exact absurd (by simp [Watchdog.Shared.arm, hc, hd]) hov
  | arm _ hd =>
      obtain rfl := Time.after?_eq_some hd
      exact ⟨rfl, rfl, hc, by simp [Watchdog.System.fires, Watchdog.Event.fireTime?]⟩

theorem disarmed_of_step {s t : Watchdog.System} (hs : s.Reachable)
    (h : s.step .cancel = some t) :
    t.shared.deadline = none ∧ t.now = s.now ∧ t.fires = s.fires := by
  cases Watchdog.System.does_of_step h with
  | cancelLate hc => exact ⟨(Watchdog.System.alert_reachable hs).disarmed hc, rfl, rfl⟩
  | cancel =>
      exact ⟨rfl, rfl, by simp [Watchdog.System.fires, Watchdog.Event.fireTime?]⟩

/-- A callback runs when a deadline is reached, and takes it away. -/
theorem fired_of_step {s t : Watchdog.System} {a : Watchdog.Action} (hs : s.Reachable)
    (h : s.step a = some t) (hfired : t.shared.fired ≠ s.shared.fired) :
    (∃ deadline, s.shared.deadline = some deadline ∧ deadline ≤ s.now)
      ∧ t.shared.deadline = none ∧ t.now = s.now ∧ t.shared.cancelled = s.shared.cancelled
      ∧ t.fires = s.fires ++ [s.now] := by
  cases Watchdog.System.does_of_step h with
  | fire ht =>
      refine ⟨((Watchdog.System.tied_reachable hs).expiring _ ht).2 rfl, rfl, rfl, rfl, ?_⟩
      simp [Watchdog.System.fires, Watchdog.Event.fireTime?]
  | _ => exact absurd rfl hfired

/-! ## What the diary says of the watchdog -/

/-- **The diary and the watchdog agree.** -/
structure Idle (d : Diary) (r : Run) : Prop where
  /-- Every lull was answered as it should be. -/
  lawful : AllLawful r.options.idleTimeout (d.finish r.dog.now) d.lulls
  /-- A deadline that is set is that of the latest lull. It is not past, and has no time to pass if
  the loop is over. -/
  set : ∀ deadline, r.dog.shared.deadline = some deadline →
    r.dog.now ≤ deadline ∧ d.finish r.dog.now = r.dog.now
      ∧ ∃ lull earlier, d.lulls = lull :: earlier ∧ lull.kills = []
        ∧ deadline = lull.start + r.options.idleTimeout
  /-- In the loop there is a deadline as long as the latest lull has seen no kill. -/
  armed : r.stand.Looping → ∃ lull earlier, d.lulls = lull :: earlier
    ∧ (lull.kills = [] → r.dog.shared.deadline = some (lull.start + r.options.idleTimeout))
  uncancelled : ¬ r.stand.Past → r.dog.shared.cancelled = false
  unborn : r.stand = .spawning ∨ r.stand = .arming → d.lulls = []
  ended : d.ended = none ↔ ¬ r.stand.Past
  /-- Every callback was noted. -/
  fires : r.dog.fires = (d.lulls.flatMap Lull.kills).reverse
  lines : d.written.length = r.lines.size
  /-- Lulls begin with the first arm and with each line. -/
  starts : r.stand ≠ .rearming → d.lulls.map Lull.start = d.written ++ d.armed.toList
  /-- After a line the next lull is about to begin, at the same moment. -/
  rearming : r.stand = .rearming →
    r.dog.now :: d.lulls.map Lull.start = d.written ++ d.armed.toList

theorem idle_start (options : Options) (sink : Sink) : Idle {} { options, sink } where
  lawful := by intro lull finish h; exact absurd h (by simp [spans])
  set := by intro deadline h; exact absurd h (by simp)
  armed := False.elim
  uncancelled := fun _ => rfl
  unborn := fun _ => rfl
  ended := ⟨fun _ => id, fun _ => rfl⟩
  fires := rfl
  lines := rfl
  starts := fun _ => rfl
  rearming := by intro h; exact absurd h (by simp)

/-! ## Steps that note nothing but the end of the loop -/

/-- The watchdog is not armed and does not fire, no line is written, and no time passes. -/
structure Calm (r s : Run) : Prop where
  options : s.options = r.options
  lines : s.lines = r.lines
  now : s.dog.now = r.dog.now
  fired : s.dog.shared.fired = r.dog.shared.fired
  fires : s.dog.fires = r.dog.fires
  /-- No deadline is set. -/
  deadline : ∀ deadline, s.dog.shared.deadline = some deadline →
    r.dog.shared.deadline = some deadline
  /-- The watchdog is not about to be armed, or still is. -/
  arming : r.stand = .arming ∨ r.stand = .rearming → s.stand = r.stand
  past : r.stand.Past → s.stand.Past
  /-- As long as the loop is not over, only the way round in it matters. -/
  stay : ¬ s.stand.Past → s.dog.shared.cancelled = r.dog.shared.cancelled
    ∧ s.dog.shared.deadline = r.dog.shared.deadline ∧ (s.stand.Looping → r.stand.Looping)
    ∧ (s.stand = .spawning ∨ s.stand = .arming → r.stand = .spawning ∨ r.stand = .arming)
    ∧ (s.stand = .rearming → r.stand = .rearming)

theorem Calm.noted {r s : Run} (h : Calm r s) (d : Diary) :
    d.noted r s = { d with ended := d.ended.or (if s.stand.Past then some r.dog.now else none) } := by
  have hbegin : ¬ ((r.stand = .arming ∨ r.stand = .rearming) ∧ s.stand ≠ r.stand) :=
    fun ⟨ha, hne⟩ => hne (h.arming ha)
  have hfirst : ¬ (r.stand = .arming ∧ s.stand ≠ r.stand) :=
    fun ⟨ha, hne⟩ => hbegin ⟨Or.inl ha, hne⟩
  unfold Diary.noted
  rw [if_neg hbegin, if_neg hfirst, h.lines, h.fired, if_neg (Nat.lt_irrefl _),
    if_neg (Nat.lt_irrefl _), h.now]

/-- **Calm steps keep the diary right.** -/
theorem Idle.calm {d : Diary} {r s : Run} (h : Idle d r) (hcalm : Calm r s) :
    Idle (d.noted r s) s := by
  have hfinish : (d.noted r s).finish s.dog.now = d.finish r.dog.now := by
    rw [hcalm.noted, Diary.finish, Diary.finish, hcalm.now]
    cases d.ended with
    | some time => rfl
    | none => by_cases hp : s.stand.Past <;> simp [hp]
  have hlulls : (d.noted r s).lulls = d.lulls := by rw [hcalm.noted]
  have hstarts : (d.noted r s).written ++ (d.noted r s).armed.toList
      = d.written ++ d.armed.toList := by rw [hcalm.noted]
  constructor
  · rw [hfinish, hlulls, hcalm.options]
    exact h.lawful
  · intro deadline hd
    rw [hfinish, hlulls, hcalm.options, hcalm.now]
    exact h.set deadline (hcalm.deadline deadline hd)
  · intro hl
    have hp : ¬ s.stand.Past := by
      cases hs : s.stand <;> rw [hs] at hl <;> first | exact id | exact hl.elim
    obtain ⟨_, hd, hloop, _⟩ := hcalm.stay hp
    rw [hlulls, hcalm.options, hd]
    exact h.armed (hloop hl)
  · intro hp
    rw [(hcalm.stay hp).1]
    exact h.uncancelled (fun hr => hp (hcalm.past hr))
  · intro hs
    have hp : ¬ s.stand.Past := by
      rcases hs with hs | hs
      · rw [hs]; exact id
      · rw [hs]; exact id
    rw [hlulls]
    exact h.unborn ((hcalm.stay hp).2.2.2.1 hs)
  · rw [hcalm.noted]
    by_cases hp : s.stand.Past
    · refine iff_of_false ?_ (fun hnp => hnp hp)
      cases d.ended <;> simp [hp]
    · have hr : ¬ r.stand.Past := fun hr => hp (hcalm.past hr)
      simp [hp, h.ended.mpr hr]
  · rw [hcalm.fires, hlulls]
    exact h.fires
  · rw [hcalm.lines]
    rw [hcalm.noted]
    exact h.lines
  · intro hs
    rw [hlulls, hstarts]
    exact h.starts (fun hr => hs ((hcalm.arming (Or.inr hr)).trans hr))
  · intro hs
    have hp : ¬ s.stand.Past := by rw [hs]; exact id
    rw [hlulls, hstarts, hcalm.now]
    exact h.rearming ((hcalm.stay hp).2.2.2.2 hs)

/-! ## The other steps -/

/-- The end of the loop is noted once. -/
theorem Idle.ended_or {d : Diary} {r : Run} (h : Idle d r) (time : Time) :
    d.ended.or (if r.stand.Past then some time else none) = d.ended := by
  by_cases hp : r.stand.Past
  · cases ho : d.ended with
    | some time => rfl
    | none => exact absurd hp (h.ended.mp ho)
  · rw [if_neg hp, Option.or_none]

/-- Where the supervisor stays where it is and writes no line, only kills are noted. -/
theorem Idle.noted_of_stand {d : Diary} {r s : Run} (h : Idle d r) (hs : s.stand = r.stand)
    (hlines : s.lines = r.lines) :
    d.noted r s = { d with
      lulls := if r.dog.shared.fired < s.dog.shared.fired then Diary.addKill s.dog.now d.lulls
        else d.lulls } := by
  have hsame : ¬ s.stand ≠ r.stand := fun hne => hne hs
  have hbegin : ∀ p, ¬ (p ∧ s.stand ≠ r.stand) := fun _ hb => hsame hb.2
  unfold Diary.noted
  rw [if_neg (hbegin _), if_neg (hbegin _), hlines, if_neg (Nat.lt_irrefl _), hs, h.ended_or]

/-- In the loop, and nowhere else, a lull goes on. -/
theorem Idle.looping {d : Diary} {r : Run} {lull : Lull} {earlier : List Lull} (h : Idle d r)
    (hl : d.lulls = lull :: earlier) (hended : d.ended = none) : r.stand.Looping := by
  have hborn : ¬ (r.stand = .spawning ∨ r.stand = .arming) :=
    fun e => absurd (hl.symm.trans (h.unborn e)) (by simp)
  have hpast := h.ended.mp hended
  cases hs : r.stand with
  | spawning => exact absurd (Or.inl hs) hborn
  | arming => exact absurd (Or.inr hs) hborn
  | waiting | serving | rearming => trivial
  | _ => exact absurd (by rw [hs]; trivial) hpast

/-- **Time does not pass a deadline**, so a lull that saw no kill has not yet lasted the timeout. -/
theorem idle_tick {d : Diary} {r : Run} {t : Time} {dog : Watchdog.System} (h : Idle d r)
    (hs : Sheltered r) (hp : r.prompt (.dog (.tick t)) = true)
    (hdog : r.dog.step (.tick t) = some dog) :
    Idle (d.noted r { r with dog }) { r with dog } := by
  obtain rfl := Option.some.inj hdog
  have hnoted := h.noted_of_stand (s := { r with dog := { r.dog with now := r.dog.now + t } }) rfl rfl
  dsimp only at hnoted
  rw [if_neg (Nat.lt_irrefl _)] at hnoted
  obtain ⟨_, hre, hleaving, hdropping⟩ := stand_of_next? (next?_of_prompt hp)
  rw [hnoted]
  refine ⟨?_, ?_, h.armed, h.uncancelled, h.unborn, h.ended, h.fires, h.lines, h.starts,
    fun e => absurd e hre⟩
  · show AllLawful r.options.idleTimeout (d.finish (r.dog.now + t)) d.lulls
    cases ho : d.ended with
    | some time =>
        have hlawful := h.lawful
        rw [Diary.finish_of_some ho] at hlawful ⊢
        exact hlawful
    | none =>
        have hlawful := h.lawful
        rw [Diary.finish_of_none ho] at hlawful ⊢
        refine hlawful.later (Nat.le_add_right _ _) ?_
        intro lull earlier hl hk
        -- the loop goes on, so the deadline of this lull is set
        obtain ⟨lull', earlier', e, hd⟩ := h.armed (h.looping hl ho)
        injection hl.symm.trans e with e
        exact le_of_prompt hs.dog hp (e ▸ hd (e ▸ hk))
  · intro deadline hd
    refine ⟨le_of_prompt hs.dog hp hd, ?_, (h.set deadline hd).2.2⟩
    -- had the loop been over, the watchdog would have been cancelled before time could pass
    refine Diary.finish_of_none (h.ended.mpr (fun hpast => ?_)) _
    have hunarmed : r.stand.Unarmed := by
      cases hstand : r.stand with
      | leaving => exact absurd hstand hleaving
      | dropping outcome => exact absurd hstand (hdropping outcome)
      | waiting | serving | rearming => rw [hstand] at hpast; exact hpast.elim
      | _ => trivial
    exact absurd (hd.symm.trans (hs.unarmed hunarmed)) (by simp)

/-- **The watchdog kills at the deadline of the latest lull**, and the kill is its first. -/
theorem idle_kill {d : Diary} {r : Run} {a : Watchdog.Action} {dog : Watchdog.System}
    (h : Idle d r) (hr : r.dog.Reachable) (hdog : r.dog.step a = some dog)
    (hfired : dog.shared.fired ≠ r.dog.shared.fired) :
    Idle (d.noted r ({ r with dog }.note (.killed .watchdog)))
      ({ r with dog }.note (.killed .watchdog)) := by
  obtain ⟨⟨deadline, hd, hle⟩, hnone, hnow, hcancelled, hfires⟩ := fired_of_step hr hdog hfired
  obtain ⟨hge, hfinish, lull, earlier, hl, hk, hdeadline⟩ := h.set deadline hd
  -- the virtual clock has not passed the deadline, which is reached, so it is now
  have heq : r.dog.now = lull.start + r.options.idleTimeout :=
    (Nat.le_antisymm hge hle).trans hdeadline
  have hlt : r.dog.shared.fired < dog.shared.fired :=
    Nat.lt_of_le_of_ne (Watchdog.System.fired_le (Watchdog.System.does_of_step hdog)) (Ne.symm hfired)
  have hnoted : d.noted r ({ r with dog }.note (.killed .watchdog))
      = { d with lulls := { lull with kills := [r.dog.now] } :: earlier } := by
    refine (h.noted_of_stand (s := { r with dog }.note (.killed .watchdog)) rfl rfl).trans ?_
    simp [note, hlt, hl, hnow, Diary.addKill, hk]
  have hlawful := h.lawful
  rw [hl, allLawful_cons, hfinish] at hlawful
  have hstarts : ∀ e, ({ lull with kills := e } :: earlier).map Lull.start
      = d.lulls.map Lull.start := by
    intro e
    rw [hl]
    rfl
  rw [hnoted]
  constructor
  · have hfinish' : ({ d with lulls := { lull with kills := [r.dog.now] } :: earlier } : Diary).finish
        dog.now = r.dog.now := by
      rw [hnow]
      exact hfinish
    dsimp only [note]
    rw [hfinish']
    refine allLawful_cons.mpr ⟨Or.inr ⟨?_, ?_⟩, hlawful.2⟩
    · rw [heq]
    · exact Nat.le_of_eq heq.symm
  · intro deadline' hd'
    exact absurd (hnone.symm.trans hd') (by simp)
  · intro _
    exact ⟨_, _, rfl, fun e => absurd e (by simp)⟩
  · intro hp
    exact hcancelled.trans (h.uncancelled hp)
  · intro e
    exact absurd (hl.symm.trans (h.unborn e)) (by simp)
  · exact h.ended
  · have hbefore := h.fires
    rw [hl, List.flatMap_cons, hk, List.nil_append] at hbefore
    dsimp only [note]
    rw [hfires, hbefore, List.flatMap_cons, List.singleton_append, List.reverse_cons]
  · exact h.lines
  · intro hs
    dsimp only
    rw [hstarts]
    exact h.starts hs
  · intro hs
    dsimp only [note]
    rw [hstarts, hnow]
    exact h.rearming hs

/-- **An arm begins a lull**, at the moment in which the line before it was written. -/
theorem idle_armed {d : Diary} {r s : Run} (h : Idle d r)
    (hstand : r.stand = .arming ∨ r.stand = .rearming)
    (hs : s.stand = .waiting ∨ s.stand = .serving ∨ s.stand = .leaving)
    (ho : s.options = r.options) (hlines : s.lines = r.lines)
    (hdog : r.dog.step (.arm r.options.idleTimeout) = some s.dog)
    (hov : (r.dog.shared.arm r.dog.now r.options.idleTimeout).2 ≠ .overflowed) :
    Idle (d.noted r s) s := by
  have hpast := Stand.not_past_of_arms hstand
  have hended := h.ended.mpr hpast
  obtain ⟨hdeadline, hnow, hcancelled, hfires⟩ := armed_of_step hdog (h.uncancelled hpast) hov
  have hne : s.stand ≠ r.stand := by
    rcases hstand with e | e
    · rw [e]; rcases hs with e | e | e <;> simp [e]
    · rw [e]; rcases hs with e | e | e <;> simp [e]
  have hlulls : (d.noted r s).lulls = { start := r.dog.now } :: d.lulls := by
    dsimp only [Diary.noted]
    rw [if_pos ⟨hstand, hne⟩, hnow]
  have hwritten : (d.noted r s).written = d.written := by
    dsimp only [Diary.noted]
    rw [hlines, if_neg (Nat.lt_irrefl _)]
  have hended' : (d.noted r s).ended = if s.stand.Past then some r.dog.now else none := by
    dsimp only [Diary.noted]
    rw [hended, Option.none_or, hnow]
  have hfinish : (d.noted r s).finish s.dog.now = r.dog.now := by
    rw [Diary.finish, hended', hnow]
    by_cases hp : s.stand.Past <;> simp [hp]
  constructor
  · -- the lull before ends where the new one begins, which is now
    rw [hlulls, hfinish]
    refine allLawful_cons.mpr ⟨Or.inl ⟨rfl, Nat.le_add_right _ _⟩, ?_⟩
    have hlawful := h.lawful
    rw [Diary.finish_of_none hended] at hlawful
    rw [ho]
    exact hlawful
  · intro deadline hd
    obtain rfl := Option.some.inj (hdeadline.symm.trans hd)
    rw [hfinish, hnow, ho]
    exact ⟨Nat.le_add_right _ _, rfl, _, _, hlulls, rfl, rfl⟩
  · intro _
    rw [ho]
    exact ⟨_, _, hlulls, fun _ => hdeadline⟩
  · exact fun _ => hcancelled
  · intro e
    rcases hs with hs | hs | hs
    · simp [hs] at e
    · simp [hs] at e
    · simp [hs] at e
  · rw [hended']
    by_cases hp : s.stand.Past <;> simp [hp]
  · rw [hfires, hlulls, h.fires]
    rfl
  · rw [hwritten, hlines]
    exact h.lines
  · intro _
    rw [hlulls, hwritten, List.map_cons]
    rcases hstand with e | e
    · -- the first arm: no line was written, and no lull has begun
      have hborn := h.unborn (Or.inr e)
      have hstarts := h.starts (by rw [e]; simp)
      rw [hborn, List.map_nil] at hstarts
      obtain ⟨hw, _⟩ := List.append_eq_nil_iff.mp hstarts.symm
      dsimp only [Diary.noted]
      rw [hborn, hw, if_pos ⟨e, hne⟩, hnow]
      rfl
    · -- the lull that was about to begin has begun
      have hfirst : (d.noted r s).armed = d.armed := by
        dsimp only [Diary.noted]
        rw [if_neg (fun hb => absurd (e.symm.trans hb.1) (by simp))]
      rw [hfirst]
      exact h.rearming e
  · intro e
    rcases hs with hs | hs | hs
    · rw [hs] at e; simp at e
    · rw [hs] at e; simp at e
    · rw [hs] at e; simp at e

/-- A line was written: the arm is still to come. -/
theorem idle_write {d : Diary} {r : Run} {line : Line} {rest : List Line} {sink : Sink}
    (h : Idle d r) (hs : r.stand = .serving) :
    Idle
      (d.noted r { r with sink, outbox := rest, lines := r.lines.push line, stand := .rearming })
      { r with sink, outbox := rest, lines := r.lines.push line, stand := .rearming } := by
  have hended := h.ended.mpr (by rw [hs]; exact id)
  -- the line is noted, and the lull it ends goes on being the latest until the arm
  have hnoted : d.noted r
      { r with sink, outbox := rest, lines := r.lines.push line, stand := .rearming }
      = { d with written := r.dog.now :: d.written } := by
    simp [Diary.noted, hs, hended, Stand.Past]
  rw [hnoted]
  refine ⟨h.lawful, h.set, fun _ => h.armed (by rw [hs]; trivial), ?_, ?_, ?_, h.fires, ?_, ?_, ?_⟩
  · exact fun _ => h.uncancelled (by rw [hs]; exact id)
  · rintro (e | e)
    · exact Stand.noConfusion e
    · exact Stand.noConfusion e
  · exact ⟨fun _ => id, fun _ => hended⟩
  · simp [h.lines]
  · exact fun e => absurd rfl e
  · intro _
    exact congrArg (r.dog.now :: ·) (h.starts (by rw [hs]; simp))

/-! ## Every step -/

theorem Unmoved.calm {r s : Run} (h : Unmoved r.dog s.dog) (ho : s.options = r.options)
    (hlines : s.lines = r.lines) (harming : r.stand = .arming ∨ r.stand = .rearming →
      s.stand = r.stand) (hpast : r.stand.Past → s.stand.Past)
    (hstay : ¬ s.stand.Past → (s.stand.Looping → r.stand.Looping)
      ∧ (s.stand = .spawning ∨ s.stand = .arming → r.stand = .spawning ∨ r.stand = .arming)
      ∧ (s.stand = .rearming → r.stand = .rearming)) : Calm r s where
  options := ho
  lines := hlines
  now := h.now
  fired := h.fired
  fires := h.fires
  deadline := fun _ hd => h.deadline ▸ hd
  arming := harming
  past := hpast
  stay := fun hp => ⟨h.cancelled, h.deadline, hstay hp⟩

theorem Unmoved.calm_of_stand {r s : Run} (h : Unmoved r.dog s.dog) (hs : s.stand = r.stand)
    (ho : s.options = r.options) (hlines : s.lines = r.lines) : Calm r s := by
  refine h.calm ho hlines (fun _ => hs) ?_ (fun _ => ?_)
  · rw [hs]
    exact id
  · rw [hs]
    exact ⟨id, id, id⟩

theorem Unmoved.calm_of_past {r s : Run} (h : Unmoved r.dog s.dog) (hs : s.stand.Past)
    (hr : r.stand ≠ .arming ∧ r.stand ≠ .rearming) (ho : s.options = r.options)
    (hlines : s.lines = r.lines) : Calm r s := by
  refine h.calm ho hlines ?_ (fun _ => hs) (fun hp => absurd hs hp)
  rintro (e | e)
  · exact absurd e hr.1
  · exact absurd e hr.2

theorem calm_of_cancel {r s : Run} (hreach : r.dog.Reachable)
    (hdog : r.dog.step .cancel = some s.dog) (hr : r.stand.Past) (hs : s.stand.Past)
    (ho : s.options = r.options) (hlines : s.lines = r.lines) : Calm r s := by
  obtain ⟨hnone, hnow, hfires⟩ := disarmed_of_step hreach hdog
  refine ⟨ho, hlines, hnow, (dog_quiet hdog (by simp)).1, hfires, ?_, ?_, fun _ => hs,
    fun hp => absurd hs hp⟩
  · intro deadline hd
    exact absurd (hnone.symm.trans hd) (by simp)
  · rintro (e | e)
    · rw [e] at hr; exact hr.elim
    · rw [e] at hr; exact hr.elim

theorem idle_arm {d : Diary} {r : Run} {dog : Watchdog.System} (h : Idle d r)
    (hs : r.stand = .arming) (hdog : r.dog.step (.arm r.options.idleTimeout) = some dog)
    (hov : (r.dog.shared.arm r.dog.now r.options.idleTimeout).2 ≠ .overflowed) :
    Idle (d.noted r ({ r with dog }.enter .running).atTop)
      ({ r with dog }.enter .running).atTop := by
  rcases atTop_cases ({ r with dog }.enter .running) with ⟨_, heq⟩ | ⟨_, heq⟩
  · rw [heq]
    exact idle_armed h (Or.inl hs) (Or.inr (Or.inr rfl)) rfl rfl hdog hov
  · rw [heq]
    exact idle_armed h (Or.inl hs) (Or.inl rfl) rfl rfl hdog hov

theorem calm_endRound {r : Run} (hs : r.stand = .serving) :
    Calm r { r with live := eraseAll r.live r.closed, closed := [] }.atTop := by
  rcases atTop_cases { r with live := eraseAll r.live r.closed, closed := [] } with
    ⟨_, heq⟩ | ⟨_, heq⟩
  · rw [heq]
    exact Unmoved.calm_of_past (unmoved_self _) trivial (by simp [hs]) rfl rfl
  · rw [heq]
    exact Unmoved.calm (unmoved_self _) rfl rfl (by simp [hs]) (by simp [hs, Stand.Past])
      (by simp [hs, Stand.Looping])

/-- **Every step of a run on a virtual clock keeps the diary right.** -/
theorem idle_step {d : Diary} {r s : Run} {a : Action} (h : Idle d r) (hr : Sheltered r)
    (hp : r.prompt a = true) (hov : s.stand.outcome? ≠ some .overflow) (hd : Does r a s) :
    Idle (d.noted r s) s := by
  have hself := unmoved_self r.dog
  cases hd with
  | spawn hs | ready hs =>
      refine h.calm ?_
      exact Unmoved.calm hself rfl rfl (by simp [hs]) (by simp [hs, Stand.Past])
        (by simp [hs, Stand.Looping])
  | spawnFailed hs | unready hs | readFailed hs | writeFailed hs | reap hs | reapFailed hs
  | judge hs | release hs =>
      refine h.calm ?_
      exact Unmoved.calm_of_past hself trivial (by simp [hs]) rfl rfl
  | interrupt | read | request | exit =>
      refine h.calm ?_
      exact Unmoved.calm_of_stand hself rfl rfl rfl
  | overflow => exact absurd rfl hov
  | arm hs _ hdog hno => exact idle_arm h hs hdog hno
  | rearm hs _ hdog hno =>
      exact idle_armed h (Or.inr hs) (Or.inr (Or.inl rfl)) rfl rfl hdog hno
  | write hs => exact idle_write h hs
  | endRound hs => exact h.calm (calm_endRound hs)
  | leave hs _ hdog | drop hs _ hdog =>
      exact h.calm (calm_of_cancel hr.dog hdog (by rw [hs]; trivial) trivial rfl rfl)
  | notify _ hdog =>
      have hfired := (dog_quiet hdog (by simp)).1
      have hdog' := unmoved_of_step hdog (by simp) (by simp) (by simp) hfired
      exact h.calm (Unmoved.calm_of_stand hdog' rfl rfl rfl)
  | abort hs _ hdog =>
      have hfired := (dog_quiet hdog (by simp)).1
      have hdog' := unmoved_of_step hdog (by simp) (by simp) (by simp) hfired
      exact h.calm (Unmoved.calm_of_past hdog' trivial (by simp [hs]) rfl rfl)
  | kill _ hdog hfired => exact idle_kill h hr.dog hdog hfired
  | @dog a dog ha hdog hfired =>
      cases a with
      | tick t => exact idle_tick h hr hp hdog
      | arm | cancel | notify | abort => exact absurd ha (by simp [isDogs])
      | snapshot | wake | elapse | expire =>
          have hdog' := unmoved_of_step hdog (by simp) (by simp) (by simp) hfired
          exact h.calm (Unmoved.calm_of_stand hdog' rfl rfl rfl)

/-- The diary of a run on a virtual clock that does not fail for an overflow. -/
theorem idle_diary {options : Options} {sink : Sink} {actions : List Action} {r : Run}
    (hp : ({ options, sink } : Run).promptly actions = true)
    (h : ({ options, sink } : Run).perform actions = some r)
    (hov : r.stand.outcome? ≠ some .overflow) :
    Idle (({ options, sink } : Run).diary {} actions) r := by
  have hall := diary_induction
    (motive := fun d r => Sheltered r ∧ (r.stand.outcome? ≠ some .overflow → Idle d r))
    (by
      intro d r s a ⟨hs, hidle⟩ hp hd
      refine ⟨sheltered_step hs hd, fun hov => ?_⟩
      have hr : r.stand.outcome? ≠ some .overflow := fun e => hov (outcome_step e hd)
      exact idle_step (hidle hr) hs hp hov hd)
    ⟨sheltered_start options sink, fun _ => idle_start options sink⟩ hp h
  exact hall.2 hov

end IdleWatch.Run
