import IdleWatch.Proofs.Emission
import IdleWatch.Proofs.Judgement
import IdleWatch.Proofs.Reception
import IdleWatch.Proofs.Rehearsal
import IdleWatch.Proofs.Rounds

/-!
# A command that is left alone

A command writes something to its standard output and ends. No time passes, nobody asks for a
shutdown, the sink takes every line, and the clock can represent the deadlines. Then there is
nothing that could go wrong, and the run comes to a report: its lines are those of the bytes that
the command wrote, whatever the size of a read.

That is shown along the rehearsal, thing by thing. After each of them the supervisor rests, and it
can only rest where it waits for the next one, because `Smooth` leaves no other way. While the
command writes, each round takes a piece of what is unread and ends where it began; when the command
has ended, both streams close in one round, and the child is reaped.
-/

namespace IdleWatch

namespace Run

variable {options : Options} {sink : Sink} {r s : Run} {c : Record}

/-! ## Going on by itself -/

/-- What each step of the supervisor keeps is kept until it rests. -/
theorem goOn_induction {motive : Run → Prop}
    (step : ∀ {r s : Run}, motive r → Does r .next s → motive s) (h : motive r) (fuel : Nat) :
    motive (r.goOn fuel) := by
  induction fuel generalizing r with
  | zero => exact h
  | succ fuel ih =>
      rw [goOn]
      split
      · rename_i s hnext
        exact ih (step h (does_next hnext))
      · exact h

/-- A supervisor at rest does nothing. -/
theorem AtRest.proceed_eq (h : AtRest r) : r.proceed = r := by
  change r.goOn ((3 * r.outbox.length + 11) + 1) = r
  rw [goOn, h.next?_eq]

theorem act_of_does {a : Action} (hd : Does r a s) : r.act a = s := by
  rw [act, step_of_does hd]
  rfl

/-- The supervisor leaves the child alone. -/
theorem child_of_next (hd : Does r .next s) : s.child = r.child := by
  cases hd with
  | @arm dog =>
      obtain ⟨_, _, heq⟩ := atTop_eq ({ r with dog }.enter .running)
      rw [heq]
      rfl
  | endRound =>
      obtain ⟨_, _, heq⟩ := atTop_eq { r with live := eraseAll r.live r.closed, closed := [] }
      rw [heq]
  | _ => rfl

/-! ## Nothing goes wrong -/

/-- **Nothing has gone wrong**: what was read has come out, nothing is in the way of the next line,
and nobody has killed. -/
structure Smooth (options : Options) (sink : Sink) (r : Run) (c : Record) : Prop where
  faithful : Faithful sink r c
  options : r.options = options
  free : Unhindered r
  unfired : r.dog.shared.fired = 0
  uninterrupted : r.interrupted = false

theorem smooth_start (hsink : sink.failure = none) (htime : options.idleTimeout < Time.limit) :
    Smooth options sink { options, sink } {} where
  faithful := faithful_start options sink
  options := rfl
  free := ⟨hsink, by simpa using htime⟩
  unfired := rfl
  uninterrupted := rfl

/-- What a step leaves as it was that is neither the watchdog's nor a shutdown. -/
theorem calm_step {a : Action} (hsink : r.sink.failure = none) (hd : Does r a s)
    (ha : ∀ b, a ≠ .dog b) (hi : a ≠ .interrupt) :
    s.sink.failure = none ∧ s.dog.now = r.dog.now ∧ s.dog.shared.fired = r.dog.shared.fired
      ∧ s.interrupted = r.interrupted := by
  cases hd with
  | interrupt => exact absurd rfl hi
  | dog | kill => exact absurd rfl (ha _)
  | write _ _ _ haccept =>
      rw [Sink.accept_of_sound hsink] at haccept
      obtain ⟨rfl, _⟩ := Prod.mk.inj haccept
      exact ⟨hsink, rfl, rfl, rfl⟩
  | writeFailed _ _ _ haccept =>
      rw [Sink.accept_of_sound hsink] at haccept
      exact absurd haccept (by simp)
  | notify _ hdog | overflow _ _ hdog | rearm _ _ hdog | leave _ _ hdog | drop _ _ hdog
  | abort _ _ hdog =>
      obtain ⟨hnow, hfired⟩ := dog_of_call rfl hdog
      exact ⟨hsink, hnow, hfired, rfl⟩
  | @arm dog _ _ hdog =>
      obtain ⟨hnow, hfired⟩ := dog_of_call rfl hdog
      obtain ⟨_, _, heq⟩ := atTop_eq ({ r with dog }.enter .running)
      rw [heq]
      exact ⟨hsink, hnow, hfired, rfl⟩
  | endRound =>
      obtain ⟨_, _, heq⟩ := atTop_eq { r with live := eraseAll r.live r.closed, closed := [] }
      rw [heq]
      exact ⟨hsink, rfl, rfl, rfl⟩
  | _ => exact ⟨hsink, rfl, rfl, rfl⟩

theorem Smooth.step (h : Smooth options sink r c) {a : Action} (hd : Does r a s)
    (ha : ∀ b, a ≠ .dog b) (hi : a ≠ .interrupt) : Smooth options sink s (r.recorded c a) := by
  obtain ⟨hsink, hnow, hfired, hint⟩ := calm_step h.free.1 hd ha hi
  have hoptions := options_step hd
  exact {
    faithful := faithful_step h.faithful hd
    options := hoptions.trans h.options
    free := ⟨hsink, by rw [hnow, hoptions]; exact h.free.2⟩
    unfired := hfired.trans h.unfired
    uninterrupted := hint.trans h.uninterrupted }

theorem Smooth.next (h : Smooth options sink r c) (hd : Does r .next s) :
    Smooth options sink s c :=
  h.step hd (by simp) (by simp)

/-- It stays so while the supervisor goes on until it rests. -/
theorem Smooth.proceed {motive : Run → Prop} (h : Smooth options sink r c) (ho : r.dog.owed = 0)
    (hr : motive r)
    (step : ∀ {r s : Run}, Smooth options sink r c → motive r → Does r .next s → motive s) :
    Smooth options sink r.proceed c ∧ motive r.proceed ∧ AtRest r.proceed
      ∧ r.proceed.child = r.child := by
  have hall := goOn_induction
    (motive := fun s => Smooth options sink s c ∧ motive s ∧ s.child = r.child)
    (fun ⟨hsmooth, hs, hchild⟩ hd =>
      ⟨hsmooth.next hd, step hsmooth hs hd, (child_of_next hd).trans hchild⟩)
    ⟨h, hr, rfl⟩ (3 * r.outbox.length + 12)
  exact ⟨hall.1, hall.2.1, atRest_proceed ho, hall.2.2⟩

/-! ## Where the supervisor comes to rest -/

/-- On the way to where the supervisor waits for these readers. -/
def TowardWaiting (live : List Reader) (r : Run) : Prop :=
  (r.stand = .arming ∨ Busy r.stand ∨ r.stand = .waiting)
    ∧ r.live = live ∧ r.todo = [] ∧ r.closed = []

theorem towardWaiting_next {live : List Reader} (hlive : live ≠ []) (h : Smooth options sink r c)
    (hr : TowardWaiting live r) (hd : Does r .next s) : TowardWaiting live s := by
  obtain ⟨hstand, hsame, htodo, hclosed⟩ := hr
  have htop : ∀ q : Run, q.live = live → q.todo = [] → q.closed = [] →
      TowardWaiting live q.atTop := by
    intro q hq htodo hclosed
    rcases atTop_cases q with ⟨hnil, _⟩ | ⟨_, heq⟩
    · exact absurd (hq.symm.trans hnil) hlive
    · rw [heq]
      exact ⟨Or.inr (Or.inr rfl), hq, htodo, hclosed⟩
  -- where it stands: about to arm, in a round, or already waiting
  rcases hstand with hs | hs | hs
  · cases hd with
    | notify => exact ⟨Or.inl hs, hsame, htodo, hclosed⟩
    | overflow _ _ _ hov =>
        exact absurd h.free.2 (Nat.not_lt.mpr (Watchdog.Shared.arm_eq_overflowed.mp hov).2)
    | arm => exact htop _ hsame htodo hclosed
    | rearm he | write he | writeFailed he | endRound he | leave he | judge he | drop he
    | abort he | release he => exact absurd (hs.symm.trans he) (by simp)
  · rcases busy_next hs h.free hd with rfl | ⟨hbusy, _, hlive', htodo', hclosed'⟩
    · refine htop _ ?_ htodo rfl
      dsimp only
      rw [hclosed]
      exact hsame
    · exact ⟨Or.inr (Or.inl hbusy), hlive'.trans hsame, htodo'.trans htodo,
        hclosed'.trans hclosed⟩
  · cases hd with
    | notify => exact ⟨Or.inr (Or.inr hs), hsame, htodo, hclosed⟩
    | overflow he => rcases he with he | he <;> exact absurd (hs.symm.trans he) (by simp)
    | arm he | rearm he | write he | writeFailed he | endRound he | leave he | judge he | drop he
    | abort he | release he => exact absurd (hs.symm.trans he) (by simp)

theorem TowardWaiting.waiting {live : List Reader} (h : TowardWaiting live r) (hrest : AtRest r) :
    r.stand = .waiting := by
  obtain ⟨_, hrest⟩ := hrest
  rcases h.1 with hs | hs | hs
  · rw [hs] at hrest
    exact hrest.elim
  · cases hstand : r.stand with
    | serving =>
        rw [hstand] at hrest
        exact absurd h.2.2.1 hrest.2
    | rearming =>
        rw [hstand] at hrest
        exact hrest.elim
    | waiting => rfl
    | _ =>
        rw [hstand] at hs
        exact hs.elim
  · exact hs

/-- On the way out of the loop, no reader being left. -/
def TowardReaping (r : Run) : Prop :=
  (r.stand = .serving ∧ r.outbox = [] ∧ r.todo = [] ∧ eraseAll r.live r.closed = [])
    ∨ r.stand = .leaving ∨ r.stand = .reaping

theorem towardReaping_next (h : TowardReaping r) (hd : Does r .next s) : TowardReaping s := by
  cases hd with
  | notify => exact h
  | leave => exact Or.inr (Or.inr rfl)
  | endRound hs =>
      rcases h with ⟨_, _, _, hnil⟩ | he | he
      · rcases atTop_cases { r with live := eraseAll r.live r.closed, closed := [] } with
          ⟨_, heq⟩ | ⟨hlive, _⟩
        · rw [heq]
          exact Or.inr (Or.inl rfl)
        · exact absurd hnil hlive
      · exact absurd (he.symm.trans hs) (by simp)
      · exact absurd (he.symm.trans hs) (by simp)
  | write hs _ hout | writeFailed hs _ hout =>
      rcases h with ⟨_, hnil, _⟩ | he | he
      · exact absurd (hnil.symm.trans hout) (by simp)
      · exact absurd (he.symm.trans hs) (by simp)
      · exact absurd (he.symm.trans hs) (by simp)
  | overflow hs =>
      rcases hs with hs | hs <;> rcases h with ⟨he, _⟩ | he | he <;>
        exact absurd (he.symm.trans hs) (by simp)
  | arm hs | rearm hs | judge hs | drop hs | abort hs | release hs =>
      rcases h with ⟨he, _⟩ | he | he <;> exact absurd (he.symm.trans hs) (by simp)

theorem TowardReaping.reaping (h : TowardReaping r) (hrest : AtRest r) : r.stand = .reaping := by
  obtain ⟨_, hrest⟩ := hrest
  rcases h with ⟨hs, _, htodo, _⟩ | hs | hs
  · rw [hs] at hrest
    exact absurd htodo hrest.2
  · rw [hs] at hrest
    exact hrest.elim
  · exact hs

/-- On the way to the end, with a report or about to make one. -/
def TowardReport (r : Run) : Prop :=
  (r.stand = .judging ∧ ∃ status, r.child = .reaped status)
    ∨ ∃ report, r.stand.outcome? = some (.report report)

theorem towardReport_next (h : TowardReport r) (hd : Does r .next s) : TowardReport s := by
  rcases h with ⟨hs, status, hchild⟩ | ⟨report, hreport⟩
  · cases hd with
    | notify => exact Or.inl ⟨hs, status, hchild⟩
    | judge => exact Or.inr ⟨_, rfl⟩
    | overflow he => rcases he with he | he <;> exact absurd (hs.symm.trans he) (by simp)
    | arm he | rearm he | write he | writeFailed he | endRound he | leave he | drop he | abort he
    | release he => exact absurd (hs.symm.trans he) (by simp)
  · exact Or.inr ⟨report, outcome_step hreport hd⟩

theorem TowardReport.outcome? (h : TowardReport r) (hrest : AtRest r) (hjudged : Judged r) :
    ∃ report, r.outcome? = some (.report report) := by
  obtain ⟨_, hrest⟩ := hrest
  rcases h with ⟨hs, status, hchild⟩ | ⟨report, hreport⟩
  · rw [hs] at hrest
    exact absurd hchild (hrest status)
  · have hcancelled := hjudged.cancelled (Or.inr (Or.inr ⟨report, hreport⟩))
    cases hs : r.stand with
    | ended outcome =>
        rw [hs] at hreport
        obtain rfl := Option.some.inj hreport
        exact ⟨report, by rw [Run.outcome?, hs]⟩
    | aborting outcome =>
        -- it would rest here only if the watchdog still ran, but that is cancelled
        rw [hs] at hrest
        exact absurd (hrest.symm.trans hcancelled) (by simp)
    | dropping outcome | releasing outcome =>
        rw [hs] at hrest
        exact hrest.elim
    | _ =>
        rw [hs] at hreport
        exact absurd hreport (by simp [Stand.outcome?])

/-! ## What comes from outside -/

/-- The start leads to where the supervisor waits for its two streams. -/
theorem smooth_begin (hsink : sink.failure = none) (htime : options.idleTimeout < Time.limit) :
    Smooth options sink ({ options, sink } : Run).begin {}
      ∧ TowardWaiting [.new .stdout options.readChunk, .new .stderr options.readChunk]
        ({ options, sink } : Run).begin
      ∧ AtRest ({ options, sink } : Run).begin
      ∧ ({ options, sink } : Run).begin.child = .alive := by
  have hd : Does ({ options, sink } : Run) (.spawned (.ok ())) _ := Does.spawn rfl
  have hspawned := (smooth_start hsink htime).step hd (by simp) (by simp)
  rw [begin, act_of_does hd]
  exact hspawned.proceed rfl ⟨Or.inl rfl, rfl, rfl, rfl⟩ (towardWaiting_next (by simp))

/-- A round begins, and the supervisor rests until the first read. -/
theorem smooth_ready (h : Smooth options sink r c) (hrest : AtRest r) (hs : r.stand = .waiting)
    (places : List Nat) (hne : places ≠ []) (hsorted : places.Pairwise (· < ·))
    (hbound : ∀ place ∈ places, place < r.live.length) :
    ∃ q, (r.act (.ready places)).proceed = q ∧ Smooth options sink q c.begin ∧ AtRest q
      ∧ q.stand = .serving ∧ q.live = r.live ∧ q.todo = places ∧ q.closed = []
      ∧ q.child = r.child := by
  have hnone : r.outbox = [] := (h.faithful.clear (by rw [hs]; trivial)).2.2
  have hd := Does.ready hs hrest.1 hne hsorted hbound
  have hserving : AtRest { r with stand := .serving, todo := places, closed := [] } :=
    ⟨hrest.1, hnone, hne⟩
  refine ⟨_, ?_, h.step hd (by simp) (by simp), hserving, rfl, rfl, rfl, rfl, rfl⟩
  rw [act_of_does hd, hserving.proceed_eq]

/-- The next reader takes what a read has brought, or the end. -/
theorem smooth_read (h : Smooth options sink r c) (hrest : AtRest r) (hs : r.stand = .serving)
    {place : Nat} {todo : List Nat} {reader : Reader} (htodo : r.todo = place :: todo)
    (hreader : r.live[place]? = some reader) (result : ReadResult) (htry : ¬ TryAgain result)
    (hfail : ¬ Failed result) :
    ∃ q, r.act (.read result) = q ∧ Smooth options sink q (c.add reader.stream (received result))
      ∧ q.dog.owed = 0 ∧ q.stand = .serving
      ∧ q.live = r.live.set place (reader.feed (received result)).1 ∧ q.todo = todo
      ∧ q.closed = (if received result = [] then place :: r.closed else r.closed)
      ∧ q.outbox = (reader.feed (received result)).2.lines.toList ∧ q.child = r.child := by
  obtain ⟨ho, hwait⟩ := hrest
  rw [hs] at hwait
  have hd := Does.read hs ho hwait.1 htodo hreader (reader.poll_of_taken htry hfail)
  have hread := h.step hd (by simp) (by simp)
  rw [recorded, source?_eq htodo hreader] at hread
  refine ⟨_, act_of_does hd, hread, ho, hs, rfl, rfl, ?_, ?_, rfl⟩
  · by_cases hnil : received result = []
    · have hclosed := (reader.stillOpen_taken (received result)).mpr hnil
      rw [if_pos hnil]
      exact if_neg (by simp [hclosed])
    · have hopen := mt (reader.stillOpen_taken (received result)).mp hnil
      rw [if_neg hnil]
      exact if_pos (by simpa using hopen)
  · exact congrArg Array.toList (reader.lines_taken (received result))

/-- A piece is read from standard output, and the lines that it completes are written. -/
theorem smooth_hear (h : Smooth options sink r c) (hrest : AtRest r) (hs : r.stand = .waiting)
    {out err : Reader} (hlive : r.live = [out, err]) (hout : out.stream = .stdout)
    {bytes : List UInt8} (hbytes : bytes ≠ []) :
    Smooth options sink (r.serve [(0, .ok bytes)]) (c.begin.add .stdout bytes)
      ∧ TowardWaiting [(out.feed bytes).1, err] (r.serve [(0, .ok bytes)])
      ∧ AtRest (r.serve [(0, .ok bytes)]) ∧ (r.serve [(0, .ok bytes)]).child = r.child := by
  obtain ⟨p, hp, hround, hprest, hpserving, hplive, hptodo, hpclosed, hpchild⟩ :=
    smooth_ready h hrest hs [0] (by simp) (by simp) (by simp [hlive])
  rw [hlive] at hplive
  obtain ⟨q, hq, hheard, ho, hserving, hqlive, htodo, hclosed, -, hchild⟩ :=
    smooth_read hround hprest hpserving hptodo (by rw [hplive]; rfl) (.ok bytes) id id
  have hserve : r.serve [(0, .ok bytes)] = q.proceed := by
    rw [← hq, ← hp]
    rfl
  rw [hserve]
  rw [hout] at hheard
  have htoward : TowardWaiting [(out.feed bytes).1, err] q := by
    refine ⟨Or.inr (Or.inl (hserving ▸ trivial)), ?_, htodo, ?_⟩
    · rw [hqlive, hplive]
      rfl
    · rw [hclosed, hpclosed]
      exact if_neg hbytes
  obtain ⟨hsmooth, hwaiting, hqrest, hqchild⟩ :=
    hheard.proceed ho htoward (towardWaiting_next (by simp))
  exact ⟨hsmooth, hwaiting, hqrest, hqchild.trans (hchild.trans hpchild)⟩

/-- Both streams hang up in one round, and the supervisor goes on to wait for the child. -/
theorem smooth_hangUp (h : Smooth options sink r c) (hrest : AtRest r) (hs : r.stand = .waiting)
    {out err : Reader} (hlive : r.live = [out, err]) :
    Smooth options sink (r.serve [(0, .error .hangUp), (1, .error .hangUp)]) c.begin
      ∧ (r.serve [(0, .error .hangUp), (1, .error .hangUp)]).stand = .reaping
      ∧ AtRest (r.serve [(0, .error .hangUp), (1, .error .hangUp)])
      ∧ (r.serve [(0, .error .hangUp), (1, .error .hangUp)]).child = r.child := by
  have htry : ¬ TryAgain (.error .hangUp) := fun h => h rfl
  have hfail : ¬ Failed (.error .hangUp) := fun h => h.2 rfl
  obtain ⟨p, hp, hround, hprest, hpserving, hplive, hptodo, hpclosed, hpchild⟩ :=
    smooth_ready h hrest hs [0, 1] (by simp) (by simp) (by simp [hlive])
  rw [hlive] at hplive
  obtain ⟨q, hq, hfirst, ho, hserving, hqlive, htodo, hclosed, hnone, hchild⟩ :=
    smooth_read hround hprest hpserving hptodo (by rw [hplive]; rfl) _ htry hfail
  -- the end of a stream brings no line, so nothing comes between the two reads
  have hqnone : q.outbox = [] := hnone.trans (congrArg Array.toList out.lines_feed_nil)
  have hqrest : AtRest q := ⟨ho, by rw [hserving]; exact ⟨hqnone, by simp [htodo]⟩⟩
  rw [hplive] at hqlive
  obtain ⟨t, ht, hsecond, hto, htserving, htlive, httodo, htclosed, htnone, htchild⟩ :=
    smooth_read hfirst hqrest hserving htodo (by rw [hqlive]; rfl) _ htry hfail
  have hserve : r.serve [(0, .error .hangUp), (1, .error .hangUp)] = t.proceed := by
    rw [← ht, ← hqrest.proceed_eq, ← hq, ← hp]
    rfl
  have htoward : TowardReaping t := by
    refine Or.inl ⟨htserving, htnone.trans (congrArg Array.toList err.lines_feed_nil), httodo, ?_⟩
    rw [htlive, hqlive, htclosed, hclosed, hpclosed]
    rfl
  have hbrought : ∀ stream, c.begin.add stream (received (.error .hangUp)) = c.begin :=
    fun stream => add_nil c.begin stream
  rw [hbrought, hbrought] at hsecond
  rw [hserve]
  obtain ⟨hsmooth, hreaping, hrest', hchild'⟩ :=
    hsecond.proceed hto htoward (fun _ => towardReaping_next)
  exact ⟨hsmooth, hreaping.reaping hrest', hrest',
    hchild'.trans (htchild.trans (hchild.trans hpchild))⟩

/-- The child is reaped, and a report is made. -/
theorem smooth_reap (h : Smooth options sink r c) (hrest : AtRest r) (hs : r.stand = .reaping)
    {status : ExitStatus} (hchild : r.child = .exited status) :
    Smooth options sink r.reap c ∧ TowardReport r.reap := by
  have hd := Does.reap hs hrest.1 hchild
  have hreaped := h.step hd (by simp) (by simp)
  rw [reap, act_of_does hd]
  obtain ⟨hsmooth, hreport, _⟩ :=
    hreaped.proceed hrest.1 (Or.inl ⟨rfl, status, rfl⟩) (fun _ => towardReport_next)
  exact ⟨hsmooth, hreport⟩

/-- While the supervisor waits for its streams nobody is reaped. -/
theorem reap_of_waiting (hrest : AtRest r) (hs : r.stand = .waiting) : r.reap = r := by
  have hnone : r.step (.reaped (.ok ())) = none := by
    simp [Run.step, hs]
  rw [reap, act, hnone]
  exact hrest.proceed_eq

/-- A child that still lives ends. -/
theorem smooth_childEnds (h : Smooth options sink r c) (hrest : AtRest r)
    (hs : r.stand = .waiting) (hchild : r.child = .alive) (status : ExitStatus) :
    Smooth options sink (r.childEnds status) c ∧ AtRest (r.childEnds status)
      ∧ (r.childEnds status).stand = .waiting ∧ (r.childEnds status).live = r.live
      ∧ (r.childEnds status).child = .exited status := by
  have hd : Does r (.exit status) _ := Does.exit (by simp [hs]) hchild
  obtain ⟨ho, _⟩ := hrest
  rw [Run.childEnds, act_of_does hd]
  exact ⟨h.step hd (by simp) (by simp), ⟨ho, by dsimp only [note]; rw [hs]; trivial⟩, hs, rfl, rfl⟩

end Run

namespace Rehearsal.Scene

open Run (Record Smooth AtRest TowardWaiting TowardReport Judged)

variable {options : Options} {sink : Sink} {s : Scene} {c : Record}

/-! ## The command writes and ends -/

/-- The command is at work and the supervisor waits for it, having heard what is in the record. -/
structure Listening (options : Options) (sink : Sink) (s : Scene) (c : Record) : Prop where
  smooth : Smooth options sink s.run c
  rest : AtRest s.run
  waiting : s.run.stand = .waiting
  alive : s.run.child = .alive
  readers : ∃ out err, s.run.live = [out, err] ∧ out.chunk = options.readChunk
    ∧ err.chunk = options.readChunk
  working : s.working = true
  own : s.work = .own
  stdout : s.stdout.isOpen = true
  stderr : s.stderr = {}

theorem listening_start (hsink : sink.failure = none) (htime : options.idleTimeout < Time.limit) :
    Listening options sink (start options sink) {} := by
  obtain ⟨hsmooth, htoward, hrest, halive⟩ := Run.smooth_begin hsink htime
  exact {
    smooth := hsmooth
    rest := hrest
    waiting := htoward.waiting hrest
    alive := halive
    readers := ⟨_, _, htoward.2.1, rfl, rfl⟩
    working := rfl
    own := rfl
    stdout := rfl
    stderr := rfl }

theorem Listening.streams (h : Listening options sink s c) {out err : Reader}
    (hlive : s.run.live = [out, err]) : out.stream = .stdout ∧ err.stream = .stderr :=
  h.smooth.faithful.streams (i := 0) (j := 1) (by rw [hlive]; rfl) (by rw [hlive]; rfl) (by decide)

/-- One round: a piece of what is unread is heard. -/
theorem listening_hear (h : Listening options sink s c) {out err : Reader}
    (hlive : s.run.live = [out, err]) (hochunk : out.chunk = options.readChunk)
    (hechunk : err.chunk = options.readChunk) {bytes : List UInt8} (hbytes : bytes ≠ [])
    (unread : List UInt8) :
    Listening options sink { s with
      stdout := { s.stdout with unread }
      run := s.run.serve [(0, .ok bytes)] } (c.begin.add .stdout bytes) := by
  obtain ⟨hsmooth, htoward, hrest, hchild⟩ :=
    Run.smooth_hear h.smooth h.rest h.waiting hlive (h.streams hlive).1 hbytes
  exact {
    smooth := hsmooth
    rest := hrest
    waiting := htoward.waiting hrest
    alive := hchild.trans h.alive
    readers := ⟨_, _, htoward.2.1, hochunk, hechunk⟩
    working := h.working
    own := h.own
    stdout := h.stdout
    stderr := h.stderr }

/-- **The supervisor hears all that is unread**, piece by piece. -/
theorem listening_attendFor (hchunk : 0 < options.readChunk) {fuel : Nat}
    (h : Listening options sink s c) (hfuel : s.stdout.unread.length ≤ fuel) :
    ∃ c', Listening options sink (s.attendFor fuel) c' ∧ (s.attendFor fuel).stdout.unread = []
      ∧ c'.bytes .stdout = c.bytes .stdout ++ s.stdout.unread
      ∧ c'.bytes .stderr = c.bytes .stderr := by
  induction fuel generalizing s c with
  | zero =>
      have hnil := List.length_eq_zero_iff.mp (Nat.le_zero.mp hfuel)
      exact ⟨c, h, hnil, by rw [hnil, List.append_nil], rfl⟩
  | succ fuel ih =>
      obtain ⟨out, err, hlive, hochunk, hechunk⟩ := h.readers
      obtain ⟨hout, herr⟩ := h.streams hlive
      rw [attendFor, if_pos h.waiting]
      by_cases hunread : s.stdout.unread = []
      · have hready : s.ready = [] := by
          simp [ready, hlive, terminal, hout, herr, Terminal.isReady, hunread, h.stdout, h.stderr]
        rw [hready]
        exact ⟨c, h, hunread, by rw [hunread, List.append_nil], rfl⟩
      · -- standard error is silent, so this is the only stream that is ready
        have hready : s.ready = [(0, out)] := by
          simp [ready, hlive, terminal, hout, herr, Terminal.isReady, hunread, h.stderr]
        have hread : s.readAll [(0, out)] = ({ s with
            stdout := { s.stdout with unread := s.stdout.unread.drop out.chunk } },
            [(0, .ok (s.stdout.unread.take out.chunk))]) := by
          simp [readAll, terminal, hout, Terminal.read, hunread, setTerminal]
        have hpiece : s.stdout.unread.take out.chunk ≠ [] := by
          simp [hunread, hochunk, Nat.ne_of_gt hchunk]
        have hless : (s.stdout.unread.drop out.chunk).length ≤ fuel := by
          rw [List.length_drop]
          omega
        obtain ⟨c', hlistening, hnil, hstdout, hstderr⟩ :=
          ih (listening_hear h hlive hochunk hechunk hpiece _) hless
        rw [Run.bytes_add, Run.bytes_begin] at hstdout hstderr
        rw [hready]
        dsimp only
        rw [hread]
        refine ⟨c', hlistening, hnil, ?_, hstderr⟩
        rw [hstdout, if_pos rfl, List.append_assoc, List.take_append_drop]

theorem listening_attend (hchunk : 0 < options.readChunk) (h : Listening options sink s c) :
    ∃ c', Listening options sink s.attend c' ∧ s.attend.stdout.unread = []
      ∧ c'.bytes .stdout = c.bytes .stdout ++ s.stdout.unread
      ∧ c'.bytes .stderr = c.bytes .stderr := by
  have hfuel : s.stdout.unread.length ≤ s.stdout.unread.length + s.stderr.unread.length + 3 := by
    omega
  obtain ⟨c', hlistening, hheard⟩ := listening_attendFor hchunk h hfuel
  have hattend : s.attend
      = s.attendFor (s.stdout.unread.length + s.stderr.unread.length + 3) := by
    rw [attend, Run.reap_of_waiting hlistening.rest hlistening.waiting]
  exact hattend ▸ ⟨c', hlistening, hheard⟩

/-- What the command writes to its standard output is heard. -/
theorem listening_write (hchunk : 0 < options.readChunk) (h : Listening options sink s c)
    (hnil : s.stdout.unread = []) (bytes : List UInt8) :
    ∃ c', Listening options sink (s.perform (.write bytes [])) c'
      ∧ (s.perform (.write bytes [])).stdout.unread = []
      ∧ c'.bytes .stdout = c.bytes .stdout ++ bytes.flatMap Terminal.arriving
      ∧ c'.bytes .stderr = c.bytes .stderr := by
  have hwritten : Listening options sink
      { s with stdout := s.stdout.write bytes, stderr := s.stderr.write [] } c := by
    refine { h with stdout := ?_, stderr := ?_ }
    · rw [Terminal.write, if_pos h.stdout]
      exact h.stdout
    · rw [h.stderr]
      rfl
  have hunread : (s.stdout.write bytes).unread = bytes.flatMap Terminal.arriving := by
    rw [Terminal.write, if_pos h.stdout, hnil, List.nil_append]
  have hperform : s.perform (.write bytes [])
      = { s with stdout := s.stdout.write bytes, stderr := s.stderr.write [] : Scene }.attend := by
    unfold perform
    rw [if_neg (by simp [h.working])]
  rw [hperform, ← hunread]
  exact listening_attend hchunk hwritten

theorem attendFor_of_ne_waiting (h : s.run.stand ≠ .waiting) (fuel : Nat) :
    s.attendFor fuel = s := by
  cases fuel with
  | zero => rfl
  | succ fuel => rw [attendFor, if_neg h]

theorem setTerminal_self (s : Scene) (stream : Stream) :
    s.setTerminal (s.terminal stream) stream = s := by
  cases stream <;> rfl

/-- Both streams have closed with nothing left to read: they hang up, and the child is reaped. -/
theorem report_of_closed (hchunk : 0 < options.readChunk) (hsmooth : Smooth options sink s.run c)
    (hrest : AtRest s.run) (hwaiting : s.run.stand = .waiting) {status : ExitStatus}
    (hchild : s.run.child = .exited status) {out err : Reader} (hlive : s.run.live = [out, err])
    (hochunk : out.chunk = options.readChunk) (hechunk : err.chunk = options.readChunk)
    (hstdout : s.stdout = { isOpen := false }) (hstderr : s.stderr = { isOpen := false }) :
    Smooth options sink s.attend.run c.begin ∧ TowardReport s.attend.run := by
  obtain ⟨hout, herr⟩ := hsmooth.faithful.streams (i := 0) (j := 1) (by rw [hlive]; rfl)
    (by rw [hlive]; rfl) (by decide)
  have hready : s.ready = [(0, out), (1, err)] := by
    simp [ready, hlive, terminal, hout, herr, Terminal.isReady, hstdout, hstderr]
  have hread : s.readAll [(0, out), (1, err)]
      = (s, [(0, .error .hangUp), (1, .error .hangUp)]) := by
    have hend : ∀ stream, (s.terminal stream).read options.readChunk
        = (s.terminal stream, .error .hangUp) := by
      intro stream
      have hclosed : s.terminal stream = { isOpen := false } := by
        cases stream with
        | stdout => exact hstdout
        | stderr => exact hstderr
      rw [hclosed]
      simp [Terminal.read, Nat.ne_of_gt hchunk]
    simp only [readAll, hochunk, hechunk, hend, setTerminal_self]
  obtain ⟨hserved, hreaping, hrest', hchild'⟩ := Run.smooth_hangUp hsmooth hrest hwaiting hlive
  have hfor : ∀ fuel, s.attendFor (fuel + 1)
      = { s with run := s.run.serve [(0, .error .hangUp), (1, .error .hangUp)] } := by
    intro fuel
    rw [attendFor, if_pos hwaiting, hready]
    dsimp only
    rw [hread]
    exact attendFor_of_ne_waiting (by simp [hreaping]) fuel
  have hattend : s.attend.run
      = (s.run.serve [(0, .error .hangUp), (1, .error .hangUp)]).reap := by
    rw [attend, hfor]
  rw [hattend]
  exact Run.smooth_reap hserved hrest' hreaping (hchild'.trans hchild)

/-- **When the command ends, a report is made** on what was heard. -/
theorem report_of_finish (hchunk : 0 < options.readChunk) (h : Listening options sink s c)
    (hnil : s.stdout.unread = []) (ending : Ending) :
    Smooth options sink (s.perform (.finish ending)).run c.begin
      ∧ TowardReport (s.perform (.finish ending)).run := by
  obtain ⟨out, err, hlive, hochunk, hechunk⟩ := h.readers
  obtain ⟨hsmooth, hrest, hwaiting, hsame, hchild⟩ :=
    Run.smooth_childEnds h.smooth h.rest h.waiting h.alive ending.status
  have hstdout : s.stdout.close = { isOpen := false } := by rw [Terminal.close, hnil]
  have hstderr : s.stderr.close = { isOpen := false } := by rw [h.stderr, Terminal.close]
  have hends : s.work.finish ending = some ending.status := by
    rw [h.own]
    rfl
  have hperform : s.perform (.finish ending) = attend
      { s with
        run := s.run.childEnds ending.status, working := false, stdout := s.stdout.close
        stderr := s.stderr.close } := by
    unfold perform
    rw [if_neg (by simp [h.working])]
    dsimp only
    rw [hends]
    rfl
  rw [hperform]
  exact report_of_closed hchunk (s := { s with run := _, working := _, stdout := _, stderr := _ })
    hsmooth hrest hwaiting hchild (hsame.trans hlive) hochunk hechunk hstdout hstderr

end Rehearsal.Scene

end IdleWatch
