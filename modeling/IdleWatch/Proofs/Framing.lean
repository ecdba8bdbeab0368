import IdleWatch.Line.Framing
import IdleWatch.Proofs.Utf8

/-!
# Cutting at marks

`split d` cuts a list at every `d`. That is pinned down by `Cut`: the pieces and the rest hold no
`d`, and put together again, a `d` after each piece, they are the list. What makes cutting work
on a stream is `split_append`: only the rest of the front matters for what comes behind it.

For bytes cut at line feeds this gives the framing of lines: how the lines of a longer sequence
extend those of a shorter one, and that no line has a line feed in its text.
-/

namespace IdleWatch.Framing

section Split

variable {α : Type} [DecidableEq α] {d : α}

theorem split_cons_self (l : List α) : split d (d :: l) = ([] :: (split d l).1, (split d l).2) := by
  simp [split]

theorem split_cons_of_ne {x : α} (h : x ≠ d) {l : List α} (hl : (split d l).1 = []) :
    split d (x :: l) = ([], x :: (split d l).2) := by
  simp [split, h, hl]

theorem split_cons_of_ne' {x : α} (h : x ≠ d) {l first : List α} {more : List (List α)}
    (hl : (split d l).1 = first :: more) :
    split d (x :: l) = ((x :: first) :: more, (split d l).2) := by
  simp [split, h, hl]

/-- Without a mark there is nothing to cut. -/
theorem split_of_notMem {l : List α} (h : d ∉ l) : split d l = ([], l) := by
  induction l with
  | nil => rfl
  | cons x l ih =>
      have hx : x ≠ d := fun e => h (e ▸ List.mem_cons_self)
      have hl := ih (fun hm => h (List.mem_cons_of_mem x hm))
      rw [split_cons_of_ne hx (by rw [hl]), hl]

/-- The first mark ends the first piece. -/
theorem split_append_cons {l : List α} (h : d ∉ l) (m : List α) :
    split d (l ++ d :: m) = (l :: (split d m).1, (split d m).2) := by
  induction l with
  | nil => exact split_cons_self m
  | cons x l ih =>
      have hx : x ≠ d := fun e => h (e ▸ List.mem_cons_self)
      have hl := ih (fun hm => h (List.mem_cons_of_mem x hm))
      rw [List.cons_append, split_cons_of_ne' hx (by rw [hl]), hl]

omit [DecidableEq α] in
/-- Every list is some pieces, a mark behind each, and a rest; none of them holds a mark. -/
theorem split_induction {motive : List α → Prop} (rest : ∀ l, d ∉ l → motive l)
    (piece : ∀ l m, d ∉ l → motive m → motive (l ++ d :: m)) (l : List α) : motive l := by
  induction hn : l.length using Nat.strongRecOn generalizing l with
  | ind n ih =>
      by_cases h : d ∈ l
      · obtain ⟨front, back, hl, hfront⟩ := List.eq_append_cons_of_mem h
        subst hl
        refine piece front back hfront (ih back.length ?_ back rfl)
        rw [← hn, List.length_append, List.length_cons]
        omega
      · exact rest l h

/-- Put together again, the pieces and the rest are the list. -/
theorem split_join (l : List α) :
    (split d l).1.flatMap (fun p => p ++ [d]) ++ (split d l).2 = l := by
  induction l using split_induction (d := d) with
  | rest l h => simp [split_of_notMem h]
  | piece l m h ih =>
      rw [split_append_cons h, List.flatMap_cons, List.append_assoc, ih, List.append_assoc]
      rfl

theorem notMem_piece (l : List α) : ∀ p ∈ (split d l).1, d ∉ p := by
  induction l using split_induction (d := d) with
  | rest l h => simp [split_of_notMem h]
  | piece l m h ih =>
      rw [split_append_cons h]
      intro p hp
      rcases List.mem_cons.mp hp with hp | hp
      · exact hp ▸ h
      · exact ih p hp

theorem notMem_rest (l : List α) : d ∉ (split d l).2 := by
  induction l using split_induction (d := d) with
  | rest l h => rwa [split_of_notMem h]
  | piece l m h ih => rwa [split_append_cons h]

/-- Cut at the marks `d`, the list is these pieces and this rest. -/
def Cut (d : α) (l : List α) (pieces : List (List α)) (rest : List α) : Prop :=
  pieces.flatMap (fun p => p ++ [d]) ++ rest = l ∧ (∀ p ∈ pieces, d ∉ p) ∧ d ∉ rest

theorem cut_split (d : α) (l : List α) : Cut d l (split d l).1 (split d l).2 :=
  ⟨split_join l, notMem_piece l, notMem_rest l⟩

/-- There is only one way to cut a list. -/
theorem Cut.eq_split {l rest : List α} {pieces : List (List α)} (h : Cut d l pieces rest) :
    split d l = (pieces, rest) := by
  obtain ⟨rfl, hp, hr⟩ := h
  induction pieces with
  | nil => exact split_of_notMem hr
  | cons p pieces ih =>
      have hp' : ∀ q ∈ pieces, d ∉ q := fun q hq => hp q (List.mem_cons_of_mem p hq)
      rw [List.flatMap_cons, List.append_assoc, List.append_assoc, List.singleton_append,
        split_append_cons (hp p List.mem_cons_self), ih hp']

/-- There is one piece for each mark. -/
theorem length_split (l : List α) : (split d l).1.length = l.count d := by
  induction l using split_induction (d := d) with
  | rest l h => rw [split_of_notMem h, List.count_eq_zero.mpr h]; rfl
  | piece l m h ih =>
      rw [split_append_cons h, List.length_cons, ih, List.count_append, List.count_cons_self,
        List.count_eq_zero.mpr h]
      omega

/-- Only the rest of the front matters for what comes behind it. -/
theorem split_append (l m : List α) :
    split d (l ++ m) = ((split d l).1 ++ (split d ((split d l).2 ++ m)).1,
      (split d ((split d l).2 ++ m)).2) := by
  induction l using split_induction (d := d) with
  | rest l h => simp [split_of_notMem h]
  | piece l l' h ih =>
      rw [List.append_assoc, List.cons_append, split_append_cons h, split_append_cons h, ih,
        List.cons_append]

end Split

/-! ## Lines -/

theorem tail_append (front bytes : List UInt8) :
    tail (front ++ bytes) = tail (tail front ++ bytes) := by
  simp only [tail, split_append front bytes]

theorem lineBytes_append (front bytes : List UInt8) :
    lineBytes (front ++ bytes) = lineBytes front ++ lineBytes (tail front ++ bytes) := by
  simp only [lineBytes, tail, split_append front bytes, List.map_append]

theorem texts_append (front bytes : List UInt8) :
    texts (front ++ bytes) = texts front ++ texts (tail front ++ bytes) := by
  rw [texts, lineBytes_append, List.map_append]
  rfl

theorem tail_of_notMem {bytes : List UInt8} (h : 10 ∉ bytes) : tail bytes = bytes := by
  rw [tail, split_of_notMem h]

theorem lineBytes_of_notMem {bytes : List UInt8} (h : 10 ∉ bytes) : lineBytes bytes = [] := by
  rw [lineBytes, split_of_notMem h]
  rfl

theorem tail_append_cons {bytes : List UInt8} (h : 10 ∉ bytes) (more : List UInt8) :
    tail (bytes ++ 10 :: more) = tail more := by
  rw [tail, split_append_cons h, tail]

theorem lineBytes_append_cons {bytes : List UInt8} (h : 10 ∉ bytes) (more : List UInt8) :
    lineBytes (bytes ++ 10 :: more) = dropLast 13 bytes :: lineBytes more := by
  rw [lineBytes, split_append_cons h, List.map_cons, lineBytes]

theorem mem_of_mem_dropLast {α : Type} [DecidableEq α] {x y : α} {l : List α}
    (h : y ∈ dropLast x l) : y ∈ l := by
  unfold dropLast at h
  split at h
  · exact (List.dropLast_sublist l).subset h
  · exact h

/-- **No line has a line feed in its text.** -/
theorem newline_notMem_texts {bytes : List UInt8} :
    ∀ text ∈ texts bytes, '\n' ∉ text.toList := by
  intro text htext
  obtain ⟨b, hb, rfl⟩ := List.mem_map.mp htext
  obtain ⟨p, hp, rfl⟩ := List.mem_map.mp hb
  rw [String.toList_ofList]
  exact Text.Utf8.newline_notMem_decode
    (fun hm => notMem_piece bytes p hp (mem_of_mem_dropLast hm))

end IdleWatch.Framing
