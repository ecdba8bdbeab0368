import IdleWatch.Proofs.Faithful
import IdleWatch.Proofs.Resting
import Mathlib.Data.List.Induction
import Mathlib.Data.List.InsertIdx
import Mathlib.Data.List.Nodup

/-!
# One round

The places of a round are places in the list of live readers as it was when the round began. They
stay good because nothing leaves the list while the round goes on: a reader that has found its
stream closed is only marked. At the end the marked ones go, the last place first, so no removal
moves a reader that is still to go.

In a round each ready reader has its turn. Beside the run its turns are collected, and they alone
say what the list is at the end of the round. The list may be as long as it likes, and its readers
may be in any state.
-/

namespace IdleWatch

/-- A sink that never fails takes every line, and still does not fail. -/
theorem Sink.accept_of_sound {sink : Sink} (h : sink.failure = none) (line : Line) :
    sink.accept line = (sink.written line, none) := by
  rw [accept, failing?, h]

namespace Run

/-! ## Erasing by place -/

section Erasing

variable {α : Type}

/-- Each of these places is in the list when it is erased. -/
def Erasable : List α → List Nat → Prop
  | _, [] => True
  | l, place :: places => place < l.length ∧ Erasable (l.eraseIdx place) places

theorem erasable_of_decreasing {l : List α} {places : List Nat} (h : places.Pairwise (· > ·))
    (hl : ∀ place ∈ places, place < l.length) : Erasable l places := by
  induction places generalizing l with
  | nil => trivial
  | cons p places ih =>
      obtain ⟨hp, hplaces⟩ := List.pairwise_cons.mp h
      have hlt := hl p List.mem_cons_self
      refine ⟨hlt, ih hplaces fun q hq => ?_⟩
      have := hp q hq
      rw [List.length_eraseIdx_of_lt hlt]
      omega

theorem eraseAll_concat {l : List α} {places : List Nat} (h : Erasable l places) (x : α) :
    eraseAll (l ++ [x]) places = eraseAll l places ++ [x] := by
  induction places generalizing l with
  | nil => rfl
  | cons p places ih =>
      obtain ⟨hp, hplaces⟩ := h
      have hfirst := List.eraseIdx_append_of_lt_length hp [x]
      exact (congrArg (eraseAll · places) hfirst).trans (ih hplaces)

/-- **What is left after erasing in decreasing order** is what stands at no place that was erased,
in its old order. -/
theorem eraseAll_eq {l : List α} {places : List Nat} (h : places.Pairwise (· > ·))
    (hl : ∀ place ∈ places, place < l.length) :
    eraseAll l places
      = l.zipIdx.filterMap (fun x => if x.2 ∈ places then none else some x.1) := by
  induction l using List.reverseRecOn generalizing places with
  | nil =>
      cases places with
      | nil => rfl
      | cons p places => exact absurd (hl p List.mem_cons_self) (Nat.not_lt_zero p)
  | append_singleton l x ih =>
      have hbound : ∀ place ∈ places, place ≤ l.length := by
        intro place hm
        have := hl place hm
        rw [List.length_append, List.length_singleton] at this
        omega
      rw [List.zipIdx_append, List.filterMap_append]
      by_cases hlast : l.length ∈ places
      · -- it is the greatest place, so it comes first
        obtain ⟨places, rfl, hlt⟩ : ∃ rest, places = l.length :: rest
            ∧ ∀ place ∈ rest, place < l.length := by
          cases places with
          | nil => exact absurd hlast List.not_mem_nil
          | cons p places =>
              have hp := (List.pairwise_cons.mp h).1
              rcases List.mem_cons.mp hlast with e | hm
              · exact ⟨places, by rw [e], fun place hm => e ▸ hp place hm⟩
              · have := hp _ hm
                have := hbound p List.mem_cons_self
                omega
        have hfirst : (l ++ [x]).eraseIdx l.length = l := by
          rw [List.eraseIdx_append_of_length_le (Nat.le_refl _), Nat.sub_self]
          exact List.append_nil l
        refine (congrArg (eraseAll · places) hfirst).trans ?_
        rw [ih (List.pairwise_cons.mp h).2 hlt]
        have hsame : ∀ y ∈ l.zipIdx, (if y.2 ∈ places then none else some y.1)
            = if y.2 ∈ l.length :: places then none else some y.1 := by
          intro y hy
          have hne : y.2 ≠ l.length := Nat.ne_of_lt (List.snd_lt_of_mem_zipIdx hy)
          simp only [List.mem_cons, or_iff_right hne]
        rw [List.filterMap_congr hsame]
        simp
      · have hlt : ∀ place ∈ places, place < l.length := fun place hm =>
          Nat.lt_of_le_of_ne (hbound place hm) fun e => hlast (e ▸ hm)
        rw [eraseAll_concat (erasable_of_decreasing h hlt), ih h hlt]
        simp [hlast]

theorem map_eraseAll {β : Type} (f : α → β) (l : List α) (places : List Nat) :
    (eraseAll l places).map f = eraseAll (l.map f) places := by
  induction places generalizing l with
  | nil => rfl
  | cons p places ih =>
      exact (ih (l.eraseIdx p)).trans (congrArg (eraseAll · places) (List.eraseIdx_map f l p).symm)

/-- One place more takes one element more, if no other is like it. -/
theorem eraseAll_cons [DecidableEq α] {l : List α} {p : Nat} {places : List Nat} {x : α}
    (h : (p :: places).Pairwise (· > ·)) (hp : l[p]? = some x) (hl : l.Nodup)
    (hplaces : ∀ place ∈ places, place < l.length) :
    eraseAll l (p :: places) = (eraseAll l places).filter (· ≠ x) := by
  have hlt := (List.getElem?_eq_some_iff.mp hp).1
  rw [eraseAll_eq h (List.forall_mem_cons.mpr ⟨hlt, hplaces⟩),
    eraseAll_eq (List.pairwise_cons.mp h).2 hplaces, List.filter_filterMap]
  refine List.filterMap_congr fun y hy => ?_
  have hy' : l[y.2]? = some y.1 := List.mem_zipIdx_iff_getElem?.mp hy
  have hsame : y.2 = p ↔ y.1 = x := by
    constructor
    · intro e
      rw [e, hp] at hy'
      exact (Option.some.inj hy').symm
    · intro e
      exact (List.getElem?_inj (List.getElem?_eq_some_iff.mp hy').1 hl).mp
        (hy'.trans ((congrArg some e).trans hp.symm))
  simp only [List.mem_cons, hsame]
  by_cases hm : y.2 ∈ places
  · simp [hm]
  · by_cases hx : y.1 = x
    · simp [hm, hx, Option.filter]
    · simp [hm, hx, Option.filter]

end Erasing

/-! ## Turns -/

/-- The turn that a reader has in a round. -/
structure Turn where
  place : Nat
  /-- The reader as it is then. -/
  reader : Reader
  /-- What the read returns. -/
  result : ReadResult

namespace Turn

/-- The reader after its turn. -/
def after (turn : Turn) : Reader := (turn.reader.poll turn.result).1

/-- The stream has closed. -/
def closes (turn : Turn) : Bool :=
  match (turn.reader.poll turn.result).2 with
  | .ok polled => !polled.stillOpen
  | .error _ => false

/-- The stream cannot be read. -/
def fails (turn : Turn) : Bool :=
  match (turn.reader.poll turn.result).2 with
  | .ok _ => false
  | .error _ => true

/-- What is left of the reader for the rounds to come. -/
def left (turn : Turn) : Option Reader := if turn.closes then none else some turn.after

end Turn

/-- The turn that a read is. -/
def turn? (r : Run) (result : ReadResult) : Option Turn :=
  match r.todo with
  | place :: _ => r.live[place]?.map fun reader => ⟨place, reader, result⟩
  | [] => none

/-- The turns after an action of the run. -/
def turned (r : Run) (turns : List Turn) : Action → List Turn
  | .read result => turns ++ (r.turn? result).toList
  | _ => turns

/-- The turns after a whole run of actions. -/
def turns (r : Run) (before : List Turn) : List Action → List Turn
  | [] => before
  | a :: more =>
    match r.step a with
    | some s => s.turns (r.turned before a) more
    | none => before

theorem turns_of_step {r s : Run} {a : Action} (h : r.step a = some s) (before : List Turn)
    (more : List Action) : r.turns before (a :: more) = s.turns (r.turned before a) more := by
  rw [turns, h]

theorem turned_read {r : Run} {place : Nat} {todo : List Nat} {reader : Reader}
    (htodo : r.todo = place :: todo) (hreader : r.live[place]? = some reader)
    (result : ReadResult) (before : List Turn) :
    r.turned before (.read result) = before ++ [⟨place, reader, result⟩] := by
  simp only [turned, turn?, htodo, hreader, Option.map_some, Option.toList_some]

/-! ## What a round does to the list -/

/-- The reader at a place after these turns. -/
def current? (live : List Reader) (turns : List Turn) (place : Nat) : Option Reader :=
  match turns.find? (·.place = place) with
  | some turn => some turn.after
  | none => live[place]?

/-- **The list after a round**: a reader that had no turn is as it was, one whose stream has closed
is gone, and any other is as its turn left it. -/
def served (live : List Reader) (turns : List Turn) : List Reader :=
  live.zipIdx.filterMap fun x =>
    match turns.find? (·.place = x.2) with
    | some turn => turn.left
    | none => some x.1

/-- A round is under way. -/
def Busy : Stand → Prop
  | .serving | .rearming => True
  | _ => False

theorem not_clear_of_busy {stand : Stand} (h : Busy stand) : ¬ Clear stand := by
  cases stand with
  | serving | rearming => exact id
  | _ => exact h.elim

theorem outcome?_of_busy {stand : Stand} (h : Busy stand) : stand.outcome? = none := by
  cases stand with
  | serving | rearming => rfl
  | _ => exact h.elim

/-- A round that began in `r`, under way, when `turns` were had. -/
structure Underway (r : Run) (places : List Nat) (s : Run) (turns : List Turn) : Prop where
  /-- Who was ready has had its turn or will have it. -/
  places : turns.map Turn.place ++ s.todo = places
  own : ∀ turn ∈ turns, r.live[turn.place]? = some turn.reader
  fine : ∀ turn ∈ turns, turn.fails = false
  live : ∀ place, s.live[place]? = current? r.live turns place
  length : s.live.length = r.live.length
  marked : s.closed = ((turns.filter Turn.closes).map Turn.place).reverse

/-- Three things can have become of a round: it is under way, it is over, or the run was given up
in it or later. -/
inductive InRound (r : Run) (places : List Nat) (s : Run) (turns : List Turn) : Prop where
  | busy : Busy s.stand → Underway r places s turns → InRound r places s turns
  | done : Clear s.stand → s.stand ≠ .spawning → turns.map Turn.place = places →
      (∀ turn ∈ turns, r.live[turn.place]? = some turn.reader) →
      (∀ turn ∈ turns, turn.fails = false) → s.live = served r.live turns →
      InRound r places s turns
  | broken {outcome : Outcome} : s.stand.outcome? = some outcome → ¬ Clear s.stand →
      turns.map Turn.place <+: places →
      (∀ turn ∈ turns, r.live[turn.place]? = some turn.reader) → InRound r places s turns

section Round

variable {r s t : Run} {places : List Nat} {turns : List Turn}

/-- Who has had no turn is as it was. -/
theorem current?_of_notMem {live : List Reader} {place : Nat}
    (h : place ∉ turns.map Turn.place) : current? live turns place = live[place]? := by
  have hnone : turns.find? (·.place = place) = none := by
    refine List.find?_eq_none.mpr fun turn hm e => h ?_
    exact List.mem_map.mpr ⟨turn, hm, of_decide_eq_true e⟩
  rw [current?, hnone]

/-- One turn more. -/
theorem current?_concat {live : List Reader} {turn : Turn}
    (h : turn.place ∉ turns.map Turn.place) (place : Nat) :
    current? live (turns ++ [turn]) place
      = if turn.place = place then some turn.after else current? live turns place := by
  unfold current?
  rw [List.find?_append]
  by_cases he : turn.place = place
  · have hnone : turns.find? (·.place = place) = none := by
      refine List.find?_eq_none.mpr fun other hm e => h ?_
      exact List.mem_map.mpr ⟨other, hm, (of_decide_eq_true e).trans he.symm⟩
    simp [hnone, he]
  · simp [he]

theorem Underway.nodup (h : Underway r places s turns) (hsorted : places.Pairwise (· < ·)) :
    (turns.map Turn.place).Nodup := by
  have hnodup : places.Nodup := hsorted.imp Nat.ne_of_lt
  rw [← h.places] at hnodup
  exact (List.nodup_append.mp hnodup).1

theorem Underway.notMem (h : Underway r places s turns) (hsorted : places.Pairwise (· < ·))
    {place : Nat} (hm : place ∈ s.todo) : place ∉ turns.map Turn.place := by
  rw [← h.places] at hsorted
  intro hm'
  exact Nat.lt_irrefl place ((List.pairwise_append.mp hsorted).2.2 place hm' place hm)

/-- A turn is had in the state that the round found. -/
theorem Underway.reader (h : Underway r places s turns) (hsorted : places.Pairwise (· < ·))
    {place : Nat} (hm : place ∈ s.todo) : s.live[place]? = r.live[place]? := by
  rw [h.live, current?_of_notMem (h.notMem hsorted hm)]

theorem Underway.read (h : Underway r places s turns) (hsorted : places.Pairwise (· < ·))
    {result : ReadResult} {place : Nat} {todo : List Nat} {reader reader' : Reader}
    {polled : Polled} (htodo : s.todo = place :: todo) (hreader : s.live[place]? = some reader)
    (hpoll : reader.poll result = (reader', .ok polled)) :
    Underway r places { s with
      live := s.live.set place reader'
      todo
      closed := if polled.stillOpen then s.closed else place :: s.closed
      outbox := polled.output.lines.toList
      notes := s.notes ++ polled.output.notes } (turns ++ [⟨place, reader, result⟩]) := by
  have hm : place ∈ s.todo := htodo ▸ List.mem_cons_self
  have hnew := h.notMem hsorted hm
  have hown := (h.reader hsorted hm).symm.trans hreader
  have hafter : Turn.after ⟨place, reader, result⟩ = reader' := by rw [Turn.after, hpoll]
  have hcloses : Turn.closes ⟨place, reader, result⟩ = !polled.stillOpen := by
    rw [Turn.closes, hpoll]
  constructor
  · rw [← h.places, htodo, List.map_append, List.append_assoc]
    rfl
  · exact fun turn hturn => (List.mem_append.mp hturn).elim (h.own turn)
      fun e => List.mem_singleton.mp e ▸ hown
  · refine fun turn hturn => (List.mem_append.mp hturn).elim (h.fine turn) fun e => ?_
    rw [List.mem_singleton.mp e, Turn.fails, hpoll]
  · intro p
    dsimp only
    rw [current?_concat hnew, hafter]
    by_cases hp : place = p
    · rw [if_pos hp, ← hp, List.getElem?_set_self (List.getElem?_eq_some_iff.mp hreader).1]
    · rw [if_neg hp, List.getElem?_set_ne hp, h.live]
  · exact List.length_set.trans h.length
  · dsimp only
    rw [List.filter_append, h.marked]
    cases ho : polled.stillOpen with
    | true => simp [hcloses, ho]
    | false => simp [hcloses, ho]

/-- Where the list stands now, told by where it stood when the round began. -/
theorem Underway.zipIdx (h : Underway r places s turns) :
    s.live.zipIdx = r.live.zipIdx.map fun x =>
      (((turns.find? (·.place = x.2)).map Turn.after).getD x.1, x.2) := by
  refine List.ext_getElem? fun i => ?_
  rw [List.getElem?_map, List.getElem?_zipIdx, List.getElem?_zipIdx, h.live, current?,
    Option.map_map, Nat.zero_add]
  cases hfind : turns.find? (·.place = i) with
  | none => simp [Function.comp_def, hfind]
  | some turn =>
      have hplace : turn.place = i := by simpa using List.find?_some hfind
      have hreader := h.own turn (List.mem_of_find?_eq_some hfind)
      rw [← hplace, hreader]
      simp [Function.comp_def, hplace, hfind]

/-- A place is marked if the turn that was had there has found the stream closed. -/
theorem Underway.mem_closed (h : Underway r places s turns) (hsorted : places.Pairwise (· < ·))
    {turn : Turn} (hm : turn ∈ turns) : turn.place ∈ s.closed ↔ turn.closes = true := by
  rw [h.marked, List.mem_reverse]
  constructor
  · intro hplace
    obtain ⟨other, hother, he⟩ := List.mem_map.mp hplace
    obtain ⟨hother, hcloses⟩ := List.mem_filter.mp hother
    rw [← List.inj_on_of_nodup_map (h.nodup hsorted) hother hm he]
    exact hcloses
  · exact fun hcloses => List.mem_map.mpr ⟨turn, List.mem_filter.mpr ⟨hm, hcloses⟩, rfl⟩

theorem Underway.decreasing (h : Underway r places s turns) (hsorted : places.Pairwise (· < ·)) :
    s.closed.Pairwise (· > ·) := by
  rw [← h.places] at hsorted
  rw [h.marked, List.pairwise_reverse]
  exact (List.pairwise_append.mp hsorted).1.sublist (List.filter_sublist.map Turn.place)

theorem Underway.place_lt (h : Underway r places s turns)
    (hbound : ∀ place ∈ places, place < r.live.length) :
    (∀ place ∈ s.todo, place < s.live.length) ∧ ∀ place ∈ s.closed, place < s.live.length := by
  rw [h.length]
  constructor
  · exact fun place hm => hbound place (h.places ▸ List.mem_append_right _ hm)
  · intro place hm
    rw [h.marked, List.mem_reverse] at hm
    obtain ⟨turn, hturn, rfl⟩ := List.mem_map.mp hm
    exact (List.getElem?_eq_some_iff.mp (h.own turn (List.mem_filter.mp hturn).1)).1

/-- When the marked readers go, the list is as it has to be. -/
theorem Underway.eraseAll (h : Underway r places s turns) (hsorted : places.Pairwise (· < ·))
    (hbound : ∀ place ∈ places, place < r.live.length) :
    eraseAll s.live s.closed = served r.live turns := by
  rw [eraseAll_eq (h.decreasing hsorted) (h.place_lt hbound).2, h.zipIdx, List.filterMap_map,
    served]
  refine List.filterMap_congr fun x hx => ?_
  dsimp only [Function.comp]
  cases hfind : turns.find? (·.place = x.2) with
  | none =>
      have hnot : x.2 ∉ s.closed := by
        rw [h.marked, List.mem_reverse]
        intro hm
        obtain ⟨turn, hturn, he⟩ := List.mem_map.mp hm
        have := List.find?_eq_none.mp hfind turn (List.mem_filter.mp hturn).1
        exact this (decide_eq_true he)
      rw [if_neg hnot]
      rfl
  | some turn =>
      have hplace : turn.place = x.2 := by simpa using List.find?_some hfind
      have hmem := h.mem_closed hsorted (List.mem_of_find?_eq_some hfind)
      rw [hplace] at hmem
      simp only [hmem]
      rfl

/-- Elsewhere a step may do what it likes with the supervisor, the watchdog and the child. -/
theorem Underway.keep (h : Underway r places s turns) (hlive : t.live = s.live)
    (htodo : t.todo = s.todo) (hclosed : t.closed = s.closed) : Underway r places t turns where
  places := htodo ▸ h.places
  own := h.own
  fine := h.fine
  live := hlive ▸ h.live
  length := hlive ▸ h.length
  marked := hclosed ▸ h.marked

theorem busy_step (hsorted : places.Pairwise (· < ·))
    (hbound : ∀ place ∈ places, place < r.live.length) {a : Action} (hs : Busy s.stand)
    (h : Underway r places s turns) (hd : Does s a t) :
    InRound r places t (s.turned turns a) := by
  have hturns : turns.map Turn.place <+: places := ⟨s.todo, h.places⟩
  cases hd with
  | read hserving _ _ htodo hreader hpoll =>
      rw [turned_read htodo hreader]
      exact .busy hs (h.read hsorted htodo hreader hpoll)
  | @readFailed result place todo reader fault hserving _ _ htodo hreader hpoll =>
      have hm : place ∈ s.todo := htodo ▸ List.mem_cons_self
      have hown := (h.reader hsorted hm).symm.trans hreader
      rw [turned_read htodo hreader]
      refine .broken rfl (by simp [giveUp, Clear]) ?_ ?_
      · refine ⟨todo, ?_⟩
        rw [← h.places, htodo, List.map_append, List.append_assoc]
        rfl
      · exact fun turn hturn => (List.mem_append.mp hturn).elim (h.own turn)
          fun e => List.mem_singleton.mp e ▸ hown
  | write | rearm => exact .busy trivial (h.keep rfl rfl rfl)
  | writeFailed | overflow => exact .broken rfl (by simp [giveUp, Clear]) hturns h.own
  | endRound _ _ _ htodo =>
      have hplaces : turns.map Turn.place = places := by
        rw [← h.places, htodo, List.append_nil]
      have hlive := h.eraseAll hsorted hbound
      rcases atTop_cases { s with live := Run.eraseAll s.live s.closed, closed := [] } with
        ⟨_, heq⟩ | ⟨_, heq⟩
      · rw [heq]
        exact .done trivial (by simp) hplaces h.own h.fine hlive
      · rw [heq]
        exact .done trivial (by simp) hplaces h.own h.fine hlive
  | notify | request | exit | dog | kill => exact .busy hs (h.keep rfl rfl rfl)
  | spawn he | spawnFailed he | ready he | unready he | interrupt he | arm he | leave he | reap he
  | reapFailed he | judge he | drop he | abort he | release he =>
      rw [he] at hs
      exact hs.elim

theorem over_step {a : Action} (hs : Clear s.stand) (hborn : s.stand ≠ .spawning)
    (hplaces : turns.map Turn.place = places)
    (hown : ∀ turn ∈ turns, r.live[turn.place]? = some turn.reader)
    (hfine : ∀ turn ∈ turns, turn.fails = false) (hlive : s.live = served r.live turns)
    (ha : ∀ places, a ≠ .ready places) (hd : Does s a t) :
    InRound r places t (s.turned turns a) := by
  have hturns : turns.map Turn.place <+: places := hplaces ▸ List.prefix_rfl
  cases hd with
  | ready => exact absurd rfl (ha _)
  | spawn he | spawnFailed he => exact absurd he hborn
  | read he | readFailed he | write he | writeFailed he | endRound he | rearm he =>
      rw [he] at hs
      exact hs.elim
  | unready | reapFailed | overflow => exact .broken rfl (by simp [giveUp, Clear]) hturns hown
  | @arm dog =>
      rcases atTop_cases ({ s with dog }.enter .running) with ⟨_, heq⟩ | ⟨_, heq⟩
      · rw [heq]
        exact .done trivial (by simp) hplaces hown hfine hlive
      · rw [heq]
        exact .done trivial (by simp) hplaces hown hfine hlive
  | drop he | abort he | release he =>
      rw [he] at hs
      exact .done hs (by simp) hplaces hown hfine hlive
  | leave | reap => exact .done trivial (by simp) hplaces hown hfine hlive
  | judge => exact .done ⟨_, rfl⟩ (by simp) hplaces hown hfine hlive
  | interrupt | notify | request | exit | dog | kill =>
      exact .done hs hborn hplaces hown hfine hlive

/-- After a run was given up nobody has a turn. -/
theorem broken_step {a : Action} {outcome : Outcome} (hs : s.stand.outcome? = some outcome)
    (hbroken : ¬ Clear s.stand) (hturns : turns.map Turn.place <+: places)
    (hown : ∀ turn ∈ turns, r.live[turn.place]? = some turn.reader) (hd : Does s a t) :
    InRound r places t (s.turned turns a) := by
  have hnone : s.turned turns a = turns := by
    cases hd with
    | read he | readFailed he =>
        rw [he] at hs
        exact absurd hs (by simp [Stand.outcome?])
    | _ => rfl
  have ht := outcome_step hs hd
  rw [hnone]
  exact .broken ht (by rwa [clear_iff ht, ← clear_iff hs]) hturns hown

/-- **No step but the beginning of the next round leads out of this.** -/
theorem inRound_step (hsorted : places.Pairwise (· < ·))
    (hbound : ∀ place ∈ places, place < r.live.length) {a : Action}
    (ha : ∀ places, a ≠ .ready places) (h : InRound r places s turns) (hd : Does s a t) :
    InRound r places t (s.turned turns a) := by
  cases h with
  | busy hs h => exact busy_step hsorted hbound hs h hd
  | done hs hborn hplaces hown hfine hlive =>
      exact over_step hs hborn hplaces hown hfine hlive ha hd
  | broken hs hbroken hturns hown => exact broken_step hs hbroken hturns hown hd

theorem inRound_perform (hsorted : places.Pairwise (· < ·))
    (hbound : ∀ place ∈ places, place < r.live.length) {actions : List Action}
    (ha : ∀ places, .ready places ∉ actions) (h : InRound r places s turns)
    (hp : s.perform actions = some t) : InRound r places t (s.turns turns actions) := by
  induction actions generalizing s turns with
  | nil =>
      obtain rfl := Option.some.inj hp
      exact h
  | cons a more ih =>
      obtain ⟨s', hstep, hmore⟩ := perform_cons hp
      rw [turns_of_step hstep]
      refine ih (fun places hm => ha places (List.mem_cons_of_mem a hm)) ?_ hmore
      refine inRound_step hsorted hbound ?_ h (does_of_step hstep)
      exact fun places e => ha places (e ▸ List.mem_cons_self)

/-- Where the supervisor cannot go on by itself it is the turn of a reader, and that reader is
there. -/
theorem Underway.awaits (h : Underway r places s turns)
    (hbound : ∀ place ∈ places, place < r.live.length) (hs : Busy s.stand)
    (hnext : s.next? = none) :
    s.stand = .serving ∧ s.dog.owed = 0 ∧ s.outbox = []
      ∧ ∃ place todo reader, s.todo = place :: todo ∧ s.live[place]? = some reader := by
  obtain ⟨ho, hrest⟩ := next?_eq_none.mp hnext
  cases hstand : s.stand with
  | serving =>
      rw [hstand] at hrest
      obtain ⟨place, todo, htodo⟩ := List.exists_cons_of_ne_nil hrest.2
      have hlt := (h.place_lt hbound).1 place (htodo ▸ List.mem_cons_self)
      exact ⟨rfl, ho, hrest.1, place, todo, _, htodo, List.getElem?_eq_getElem hlt⟩
  | rearming =>
      rw [hstand] at hrest
      exact hrest.elim
  | _ =>
      rw [hstand] at hs
      exact hs.elim

/-- **In a round the supervisor is never stuck**: it can go on, or read next whatever the read
returns. -/
theorem Underway.goesOn (h : Underway r places s turns)
    (hbound : ∀ place ∈ places, place < r.live.length) (hs : Busy s.stand) :
    (∃ t, s.step .next = some t) ∨ ∀ result, ∃ t, s.step (.read result) = some t := by
  cases hnext : s.next? with
  | some t => exact Or.inl ⟨t, hnext⟩
  | none =>
      obtain ⟨hserving, ho, hout, place, todo, reader, htodo, hreader⟩ := h.awaits hbound hs hnext
      refine Or.inr fun result => ?_
      cases houtcome : (reader.poll result).2 with
      | ok polled =>
          have hpoll : reader.poll result = (_, .ok polled) := Prod.ext rfl houtcome
          exact ⟨_, step_of_does (.read hserving ho hout htodo hreader hpoll)⟩
      | error fault =>
          have hpoll := Reader.poll_eq_of_error houtcome
          exact ⟨_, step_of_does (.readFailed hserving ho hout htodo hreader hpoll)⟩

end Round

/-! ## A round comes to its end -/

/-- Nothing stands in the way of a line: the sink takes it, and the next deadline can be
represented. -/
def Unhindered (s : Run) : Prop :=
  s.sink.failure = none ∧ s.dog.now + s.options.idleTimeout < Time.limit

/-- A call to the watchdog takes no time and fires nothing. -/
theorem dog_of_call {dog dog' : Watchdog.System} {a : Watchdog.Action} (ha : isDogs a = false)
    (h : dog.step a = some dog') : dog'.now = dog.now ∧ dog'.shared.fired = dog.shared.fired := by
  cases Watchdog.System.does_of_step h with
  | armLate | overflow | arm | cancelLate | cancel | notify | abort | abortLate => exact ⟨rfl, rfl⟩
  | tick | snapshot | stop | wake | elapse | fire | stale => exact absurd ha (by simp [isDogs])

/-- **By itself the supervisor goes on with the round**, and the readers stay as they are, or it
ends it. -/
theorem busy_next {s t : Run} (hs : Busy s.stand) (hfree : Unhindered s) (hd : Does s .next t) :
    t = { s with live := eraseAll s.live s.closed, closed := [] }.atTop
      ∨ Busy t.stand ∧ Unhindered t ∧ t.live = s.live ∧ t.todo = s.todo
        ∧ t.closed = s.closed := by
  obtain ⟨hsink, htime⟩ := hfree
  cases hd with
  | notify _ hdog =>
      have hnow := (dog_of_call rfl hdog).1
      exact Or.inr ⟨hs, ⟨hsink, hnow.symm ▸ htime⟩, rfl, rfl, rfl⟩
  | overflow _ _ _ hov =>
      exact absurd htime (Nat.not_lt.mpr (Watchdog.Shared.arm_eq_overflowed.mp hov).2)
  | rearm _ _ hdog =>
      have hnow := (dog_of_call rfl hdog).1
      exact Or.inr ⟨trivial, ⟨hsink, hnow.symm ▸ htime⟩, rfl, rfl, rfl⟩
  | write _ _ _ haccept =>
      rw [Sink.accept_of_sound hsink] at haccept
      obtain ⟨rfl, _⟩ := Prod.mk.inj haccept
      exact Or.inr ⟨trivial, ⟨hsink, htime⟩, rfl, rfl, rfl⟩
  | writeFailed _ _ _ haccept =>
      rw [Sink.accept_of_sound hsink] at haccept
      exact absurd haccept (by simp)
  | endRound => exact Or.inl rfl
  | arm he | leave he | judge he | drop he | abort he | release he =>
      rw [he] at hs
      exact hs.elim

theorem clear_atTop (s : Run) : Clear s.atTop.stand := by
  rcases atTop_cases s with ⟨_, heq⟩ | ⟨_, heq⟩
  · rw [heq]; trivial
  · rw [heq]; trivial

/-- **A round can be brought to its end** whatever the reads return, if none of them fails. -/
theorem Underway.completes {r s : Run} {places : List Nat} {turns : List Turn}
    {answer : Nat → ReadResult} (h : Underway r places s turns)
    (hsorted : places.Pairwise (· < ·)) (hbound : ∀ place ∈ places, place < r.live.length)
    (hs : Busy s.stand) (hfree : Unhindered s)
    (hanswer : ∀ place ∈ places, ∀ reader, r.live[place]? = some reader →
      ∃ polled, (reader.poll (answer place)).2 = .ok polled)
    (hturns : ∀ turn ∈ turns, turn.result = answer turn.place) :
    ∃ actions t, (∀ places, .ready places ∉ actions) ∧ s.perform actions = some t
      ∧ Clear t.stand ∧ ∀ turn ∈ s.turns turns actions, turn.result = answer turn.place := by
  cases hnext : s.next? with
  | some t =>
      have hstep : s.step .next = some t := hnext
      have hd := does_next hnext
      have hrank := rank_step hd
      rcases busy_next hs hfree hd with heq | ⟨ht, hfree', hlive, htodo, hclosed⟩
      · refine ⟨[.next], t, by simp, perform_of_step hstep [], heq ▸ clear_atTop _, ?_⟩
        rw [turns_of_step hstep]
        exact hturns
      · obtain ⟨actions, u, hno, hp, hclear, hall⟩ := (h.keep hlive htodo hclosed).completes
          hsorted hbound ht hfree' hanswer hturns
        refine ⟨.next :: actions, u, by simpa using hno, (perform_of_step hstep _).trans hp,
          hclear, ?_⟩
        rw [turns_of_step hstep]
        exact hall
  | none =>
      obtain ⟨hserving, ho, hout, place, todo, reader, htodo, hreader⟩ := h.awaits hbound hs hnext
      have hm : place ∈ s.todo := htodo ▸ List.mem_cons_self
      obtain ⟨polled, houtcome⟩ := hanswer place (h.places ▸ List.mem_append_right _ hm)
        reader ((h.reader hsorted hm).symm.trans hreader)
      have hpoll : reader.poll (answer place) = (_, .ok polled) := Prod.ext rfl houtcome
      have hd := Does.read hserving ho hout htodo hreader hpoll
      have hstep := step_of_does hd
      have hshorter : todo.length < s.todo.length := by
        rw [htodo]
        exact Nat.lt_succ_self _
      have hturns' : ∀ turn ∈ turns ++ [⟨place, reader, answer place⟩],
          turn.result = answer turn.place := fun turn hturn =>
        (List.mem_append.mp hturn).elim (hturns turn) fun e => by rw [List.mem_singleton.mp e]
      obtain ⟨actions, u, hno, hp, hclear, hall⟩ :=
        (h.read hsorted htodo hreader hpoll).completes hsorted hbound hs hfree hanswer hturns'
      refine ⟨.read (answer place) :: actions, u, by simpa using hno,
        (perform_of_step hstep _).trans hp, hclear, ?_⟩
      rw [turns_of_step hstep, turned_read htodo hreader]
      exact hall
termination_by (s.todo.length, s.rank)
decreasing_by
  · exact Prod.Lex.left _ _ hshorter
  · rw [htodo]
    exact Prod.Lex.right _ hrank

/-! ## What is promised of a round -/

/-- **What is promised of a round** that began in `r` with these places ready and has led to `s`. -/
structure OneRound (r : Run) (places : List Nat) (turns : List Turn) (s : Run) : Prop where
  /-- The ready readers have their turns in their order, and each has one at most. -/
  inOrder : turns.map Turn.place <+: places
  /-- Each has it in its own state, as the round has found it. -/
  own : ∀ turn ∈ turns, r.live[turn.place]? = some turn.reader
  /-- No place is outside of the list, neither when its reader is read nor when it is removed. -/
  inRange : Busy s.stand →
    (∀ place ∈ s.todo, place < s.live.length) ∧ Erasable s.live s.closed
  /-- The supervisor can go on, or it can read next whatever the read returns. -/
  goesOn : Busy s.stand →
    (∃ t, s.step .next = some t) ∨ ∀ result, ∃ t, s.step (.read result) = some t
  /-- When the round is over, all that were ready have had their turns, and the list is the old one
  without those whose streams have closed. -/
  completed : Clear s.stand → turns.map Turn.place = places ∧ (∀ turn ∈ turns, turn.fails = false)
    ∧ s.live = served r.live turns

theorem InRound.oneRound {r s : Run} {places : List Nat} {turns : List Turn}
    (hsorted : places.Pairwise (· < ·)) (hbound : ∀ place ∈ places, place < r.live.length)
    (h : InRound r places s turns) : OneRound r places turns s := by
  cases h with
  | busy hs h =>
      obtain ⟨htodo, hclosed⟩ := h.place_lt hbound
      exact {
        inOrder := ⟨s.todo, h.places⟩
        own := h.own
        inRange := fun _ => ⟨htodo, erasable_of_decreasing (h.decreasing hsorted) hclosed⟩
        goesOn := h.goesOn hbound
        completed := fun hclear => absurd hclear (not_clear_of_busy hs) }
  | done hs _ hplaces hown hfine hlive =>
      exact {
        inOrder := hplaces ▸ List.prefix_rfl
        own := hown
        inRange := fun hbusy => absurd hs (not_clear_of_busy hbusy)
        goesOn := fun hbusy => absurd hs (not_clear_of_busy hbusy)
        completed := fun _ => ⟨hplaces, hfine, hlive⟩ }
  | broken hs hbroken hturns hown =>
      have hnot : ¬ Busy s.stand := fun hbusy =>
        absurd ((outcome?_of_busy hbusy).symm.trans hs) (by simp)
      exact {
        inOrder := hturns
        own := hown
        inRange := fun hbusy => absurd hbusy hnot
        goesOn := fun hbusy => absurd hbusy hnot
        completed := fun hclear => absurd hclear hbroken }

end Run

end IdleWatch
