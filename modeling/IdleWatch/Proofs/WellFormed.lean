import IdleWatch.Toml.Document

/-!
# Documents are well formed

A document that is read keeps what TOML demands of it: no table has a key twice, an array of tables
has a table for every header, and an integer is taken for one only if it fits into 64 bits. Values
are moved about but never made later, so it is enough that what was read is well formed and that
each change of a table keeps it so.
-/

namespace IdleWatch.Toml

/-- The value is a table. -/
def Value.IsTable : Value → Prop
  | .table _ _ => True
  | _ => False

/-- No key comes twice. -/
def Entries.Distinct (entries : Entries) : Prop := (entries.map Prod.fst).Nodup

/-- A value as a document can hold it, however deep. -/
inductive WellFormed : Value → Prop where
  | string {text : String} : WellFormed (.string text)
  | integer {n : Int} : minInteger ≤ n → n ≤ maxInteger → WellFormed (.integer n)
  | float {x : Binary} : WellFormed (.float x)
  | boolean {b : Bool} : WellFormed (.boolean b)
  | moment : WellFormed .moment
  | array {items : List Value} : (∀ v ∈ items, WellFormed v) → WellFormed (.array items)
  | table {origin : Origin} {entries : List (String × Value)} :
      Entries.Distinct entries → (∀ e ∈ entries, WellFormed e.2) →
        WellFormed (.table origin entries)
  /-- An array of tables comes about with its first element. -/
  | tables {elements : List Value} : elements ≠ [] → (∀ v ∈ elements, v.IsTable) →
      (∀ v ∈ elements, WellFormed v) → WellFormed (.tables elements)

/-! ## Scalars -/

theorem wellFormed_of_integer? {n : Int} {v : Value} (h : integer? n = some v) : WellFormed v := by
  unfold integer? at h
  split at h
  · rename_i hrange
    injection h with h
    exact h ▸ WellFormed.integer hrange.1 hrange.2
  · exact absurd h (by simp)

theorem wellFormed_of_float? {negative : Bool} {ds : List Char} {exponent : Int} {v : Value}
    (h : float? negative ds exponent = some v) : WellFormed v := by
  unfold float? at h
  dsimp only at h
  split at h
  · exact absurd h (by simp)
  · injection h with h
    exact h ▸ WellFormed.float

theorem wellFormed_of_based {base : Nat} {ok : Char → Bool} {s t : List Char} {v : Value}
    (h : based base ok s = some (v, t)) : WellFormed v := by
  obtain ⟨⟨ds, s'⟩, _, h⟩ := Option.bind_eq_some_iff.mp h
  obtain ⟨w, hw, h⟩ := Option.bind_eq_some_iff.mp h
  injection h with h
  injection h with h
  exact h ▸ wellFormed_of_integer? hw

theorem wellFormed_of_decimal {negative : Bool} {s t : List Char} {v : Value}
    (h : decimal negative s = some (v, t)) : WellFormed v := by
  obtain ⟨⟨whole, s'⟩, _, h⟩ := Option.bind_eq_some_iff.mp h
  obtain ⟨⟨frac, s'⟩, _, h⟩ := Option.bind_eq_some_iff.mp h
  obtain ⟨⟨exp, s'⟩, _, h⟩ := Option.bind_eq_some_iff.mp h
  dsimp only at h
  split at h
  · obtain ⟨w, hw, h⟩ := Option.bind_eq_some_iff.mp h
    injection h with h
    injection h with h
    exact h ▸ wellFormed_of_integer? hw
  · obtain ⟨w, hw, h⟩ := Option.bind_eq_some_iff.mp h
    injection h with h
    injection h with h
    exact h ▸ wellFormed_of_float? hw

theorem wellFormed_of_number {s t : List Char} {v : Value} (h : number s = some (v, t)) :
    WellFormed v := by
  unfold number at h
  split at h
  · exact wellFormed_of_based h
  · exact wellFormed_of_based h
  · exact wellFormed_of_based h
  · split at h
    · injection h with h
      injection h with h
      exact h ▸ WellFormed.float
    · injection h with h
      injection h with h
      exact h ▸ WellFormed.float
    · exact wellFormed_of_decimal h

theorem wellFormed_of_moment {s t : List Char} {v : Value} (h : moment s = some (v, t)) :
    WellFormed v := by
  unfold moment at h
  split at h
  · split at h
    · obtain ⟨_, _, e⟩ := Option.map_eq_some_iff.mp h
      injection e with e
      exact e ▸ WellFormed.moment
    · injection h with h
      injection h with h
      exact h ▸ WellFormed.moment
  · obtain ⟨_, _, e⟩ := Option.map_eq_some_iff.mp h
    injection e with e
    exact e ▸ WellFormed.moment

theorem wellFormed_of_scalar {s t : List Char} {v : Value} (h : scalar s = some (v, t)) :
    WellFormed v := by
  unfold scalar at h
  split at h
  · injection h with h
    injection h with h
    exact h ▸ WellFormed.boolean
  · injection h with h
    injection h with h
    exact h ▸ WellFormed.boolean
  · obtain ⟨_, _, e⟩ := Option.map_eq_some_iff.mp h
    injection e with e
    exact e ▸ WellFormed.string
  · obtain ⟨_, _, e⟩ := Option.map_eq_some_iff.mp h
    injection e with e
    exact e ▸ WellFormed.string
  · split at h
    · rename_i hm
      injection h with h
      exact wellFormed_of_moment (h ▸ hm)
    · exact wellFormed_of_number h

/-! ## Arrays and the lines of tables -/

/-- What a reader of values reads is well formed. -/
def Reliable (value : Reads Value) : Prop := ∀ s v t, value s = some (v, t) → WellFormed v

theorem wellFormed_of_elements {value : Reads Value} (hvalue : Reliable value) {fuel : Nat}
    {s t : List Char} {vs : List Value} (h : elements value fuel s = some (vs, t)) :
    ∀ v ∈ vs, WellFormed v := by
  induction fuel generalizing s t vs with
  | zero => exact absurd h (by simp [elements])
  | succ fuel ih =>
      rw [elements] at h
      split at h
      · injection h with h
        injection h with h
        exact h ▸ by simp
      · obtain ⟨⟨w, s'⟩, hw, h⟩ := Option.bind_eq_some_iff.mp h
        have hfits := hvalue _ _ _ hw
        dsimp only at h
        split at h
        · injection h with h
          injection h with h
          subst h
          intro v hv
          rw [List.mem_singleton.mp hv]
          exact hfits
        · obtain ⟨⟨ws, s''⟩, hws, h⟩ := Option.bind_eq_some_iff.mp h
          injection h with h
          injection h with h
          subst h
          intro v hv
          rcases List.mem_cons.mp hv with rfl | hv
          · exact hfits
          · exact ih hws v hv
        · exact absurd h (by simp)

theorem wellFormed_of_assignment {value : Reads Value} (hvalue : Reliable value) {s t : List Char}
    {m : Key × Value} (h : assignment value s = some (m, t)) : WellFormed m.2 := by
  obtain ⟨⟨k, s'⟩, _, h⟩ := Option.bind_eq_some_iff.mp h
  obtain ⟨s', _, h⟩ := Option.bind_eq_some_iff.mp h
  obtain ⟨⟨v, s'⟩, hv, h⟩ := Option.bind_eq_some_iff.mp h
  injection h with h
  injection h with h
  exact h ▸ hvalue _ _ _ hv

theorem wellFormed_of_members {value : Reads Value} (hvalue : Reliable value) {fuel : Nat}
    {s t : List Char} {ms : List (Key × Value)} (h : members value fuel s = some (ms, t)) :
    ∀ m ∈ ms, WellFormed m.2 := by
  induction fuel generalizing s t ms with
  | zero => exact absurd h (by simp [members])
  | succ fuel ih =>
      obtain ⟨⟨m, s'⟩, hm, h⟩ := Option.bind_eq_some_iff.mp h
      have hfits := wellFormed_of_assignment hvalue hm
      dsimp only at h
      split at h
      · injection h with h
        injection h with h
        subst h
        intro x hx
        rw [List.mem_singleton.mp hx]
        exact hfits
      · obtain ⟨⟨ms', s''⟩, hms, h⟩ := Option.bind_eq_some_iff.mp h
        injection h with h
        injection h with h
        subst h
        intro x hx
        rcases List.mem_cons.mp hx with rfl | hx
        · exact hfits
        · exact ih hms x hx
      · exact absurd h (by simp)

/-! ## Tables -/

variable {origin : Origin} {entries : Entries} {key : String} {v : Value}

theorem WellFormed.of_table (h : WellFormed (.table origin entries)) :
    entries.Distinct ∧ ∀ e ∈ entries, WellFormed e.2 := by
  cases h with
  | table hdistinct hall => exact ⟨hdistinct, hall⟩

/-- How a table came about does not matter. -/
theorem WellFormed.ofOrigin (h : WellFormed (.table origin entries)) (origin' : Origin) :
    WellFormed (.table origin' entries) :=
  .table h.of_table.1 h.of_table.2

theorem wellFormed_empty (origin : Origin) : WellFormed (.table origin []) :=
  .table List.nodup_nil (by simp)

theorem mem_of_get? (h : entries.get? key = some v) : (key, v) ∈ entries := by
  obtain ⟨l, l', rfl, _⟩ := List.lookup_eq_some_iff.mp h
  exact List.mem_append_right l List.mem_cons_self

theorem notMem_of_get? (h : entries.get? key = none) : key ∉ entries.map Prod.fst := by
  intro hkey
  obtain ⟨⟨k, v⟩, hmem, rfl⟩ := List.mem_map.mp hkey
  exact absurd (List.lookup_eq_none_iff.mp h _ hmem) (by simp)

/-- If no key comes twice, to be there is to be found. -/
theorem get?_of_mem (hdistinct : entries.Distinct) (h : (key, v) ∈ entries) :
    entries.get? key = some v := by
  induction entries with
  | nil => exact absurd h List.not_mem_nil
  | cons e entries ih =>
      obtain ⟨k, w⟩ := e
      obtain ⟨hfirst, hrest⟩ := List.nodup_cons.mp hdistinct
      rcases List.mem_cons.mp h with heq | h
      · injection heq with hk hw
        subst hk hw
        exact List.lookup_cons_self
      · have hkey : key ∈ entries.map Prod.fst := List.mem_map.mpr ⟨_, h, rfl⟩
        have hne : key ≠ k := fun e => hfirst (e ▸ hkey)
        rw [Entries.get?, List.lookup_cons, beq_false_of_ne hne]
        exact ih hrest h

theorem WellFormed.get? (h : WellFormed (.table origin entries))
    (hv : entries.get? key = some v) : WellFormed v :=
  h.of_table.2 _ (mem_of_get? hv)

theorem wellFormed_append (h : WellFormed (.table origin entries))
    (hkey : key ∉ entries.map Prod.fst) (hv : WellFormed v) :
    WellFormed (.table origin (entries.append key v)) := by
  obtain ⟨hdistinct, hall⟩ := h.of_table
  refine .table ?_ ?_
  · rw [Entries.Distinct, Entries.append, List.map_append]
    refine List.nodup_append.mpr ⟨hdistinct, by simp, ?_⟩
    rintro k hk k' hk' rfl
    obtain rfl := List.mem_singleton.mp hk'
    exact hkey hk
  · intro e he
    rcases List.mem_append.mp he with he | he
    · exact hall e he
    · rw [List.mem_singleton.mp he]
      exact hv

theorem wellFormed_replace (h : WellFormed (.table origin entries)) (hv : WellFormed v)
    (key : String) : WellFormed (.table origin (entries.replace key v)) := by
  obtain ⟨hdistinct, hall⟩ := h.of_table
  have hkeys : (entries.replace key v).map Prod.fst = entries.map Prod.fst := by
    rw [Entries.replace, List.map_map]
    refine List.map_congr_left (fun e _ => ?_)
    dsimp only [Function.comp_apply]
    split <;> rfl
  refine .table ?_ ?_
  · rw [Entries.Distinct, hkeys]
    exact hdistinct
  · intro e he
    obtain ⟨⟨k, w⟩, hm, rfl⟩ := List.mem_map.mp he
    dsimp only
    split
    · exact hv
    · exact hall _ hm

theorem wellFormed_remove (h : WellFormed (.table origin entries)) (key : String) :
    WellFormed (.table origin (entries.remove key)) := by
  obtain ⟨hdistinct, hall⟩ := h.of_table
  exact .table (hdistinct.sublist (List.filter_sublist.map Prod.fst))
    (fun e he => hall e (List.mem_filter.mp he).1)

theorem notMem_remove (entries : Entries) (key : String) :
    key ∉ (entries.remove key).map Prod.fst := by
  intro hkey
  obtain ⟨⟨k, v⟩, hmem, rfl⟩ := List.mem_map.mp hkey
  exact absurd (List.mem_filter.mp hmem).2 (by simp)

/-- One more table at the end of an array of tables, whose last ones may be missing. -/
theorem wellFormed_tables {front : List Value} {entries : Entries}
    (hfront : ∀ v ∈ front, v.IsTable ∧ WellFormed v) (h : WellFormed (.table origin entries)) :
    WellFormed (.tables (front ++ [.table origin entries])) := by
  refine .tables (by simp) ?_ ?_
  · intro v hv
    rcases List.mem_append.mp hv with hv | hv
    · exact (hfront v hv).1
    · rw [List.mem_singleton.mp hv]
      trivial
  · intro v hv
    rcases List.mem_append.mp hv with hv | hv
    · exact (hfront v hv).2
    · rw [List.mem_singleton.mp hv]
      exact h

theorem WellFormed.of_tables {elements : List Value} (h : WellFormed (.tables elements)) :
    ∀ v ∈ elements, v.IsTable ∧ WellFormed v := by
  cases h with
  | tables _ htables hall => exact fun v hv => ⟨htables v hv, hall v hv⟩

/-- A change of a table that keeps it well formed. -/
def Keeps (change : Table → Option Table) : Prop :=
  ∀ t t' : Table, WellFormed t.toValue → change t = some t' → WellFormed t'.toValue

theorem keeps_insert (dotted : Bool) (key : String) {v : Value} (hv : WellFormed v) :
    Keeps (Table.insert dotted key v) := by
  intro t t' ht h
  unfold Table.insert at h
  split at h
  · exact absurd h (by simp)
  · split at h
    · exact absurd h (by simp)
    · rename_i hget
      injection h with h
      exact h ▸ wellFormed_append ht (notMem_of_get? hget) hv

theorem keeps_openTable (key : String) : Keeps (Table.openTable key) := by
  intro t t' ht h
  unfold Table.openTable at h
  split at h
  · rename_i hget
    injection h with h
    exact h ▸ wellFormed_append ht (notMem_of_get? hget) (wellFormed_empty _)
  · rename_i hget
    injection h with h
    -- a table that was opened implicitly keeps its entries, at a new place
    exact h ▸ wellFormed_append (wellFormed_remove ht key) (notMem_remove _ _)
      ((ht.get? hget).ofOrigin .headed)
  · exact absurd h (by simp)

theorem keeps_openElement (key : String) : Keeps (Table.openElement key) := by
  intro t t' ht h
  unfold Table.openElement at h
  split at h
  · rename_i hget
    injection h with h
    have hfirst := wellFormed_tables (fun _ hv => absurd hv List.not_mem_nil)
      (wellFormed_empty .headed)
    exact h ▸ wellFormed_append ht (notMem_of_get? hget) hfirst
  · rename_i hget
    injection h with h
    have hmore := wellFormed_tables (ht.get? hget).of_tables (wellFormed_empty .headed)
    exact h ▸ wellFormed_replace ht hmore key
  · exact absurd h (by simp)

/-- **What keeps tables well formed may be done to the table at the end of a path.** -/
theorem keeps_descend (dotted : Bool) {change : Table → Option Table} (hchange : Keeps change)
    (path : List String) : Keeps (Table.descend dotted change path) := by
  induction path with
  | nil => exact hchange
  | cons key path ih =>
      intro t t' ht h
      rw [Table.descend] at h
      split at h
      · -- there is no such table yet: the change is made to an empty one
        rename_i hget
        obtain ⟨sub, hsub, h⟩ := Option.bind_eq_some_iff.mp h
        injection h with h
        have hformed := ih ⟨_, []⟩ sub (wellFormed_empty _) hsub
        exact h ▸ wellFormed_append ht (notMem_of_get? hget) hformed
      · rename_i hget
        split at h
        · exact absurd h (by simp)
        · obtain ⟨sub, hsub, h⟩ := Option.bind_eq_some_iff.mp h
          injection h with h
          exact h ▸ wellFormed_replace ht (ih ⟨_, _⟩ sub (ht.get? hget) hsub) key
      · rename_i hget
        split at h
        · -- of several tables the last one is changed
          rename_i hlast
          obtain ⟨sub, hsub, h⟩ := Option.bind_eq_some_iff.mp h
          injection h with h
          have helements := (ht.get? hget).of_tables
          have hold := (helements _ (List.mem_of_getLast? hlast)).2
          refine h ▸ wellFormed_replace ht (wellFormed_tables ?_ (ih ⟨_, _⟩ sub hold hsub)) key
          exact fun v hv => helements v ((List.dropLast_sublist _).subset hv)
        · exact absurd h (by simp)
      · exact absurd h (by simp)

theorem keeps_assign (path : List String) (key : String) {v : Value} (hv : WellFormed v) :
    Keeps (Table.assign path key v) :=
  keeps_descend true (keeps_insert _ key hv) path

/-- What every step of a fold keeps, the fold keeps. -/
theorem foldlM_keeps {α β : Type} {P : β → Prop} {f : β → α → Option β} {l : List α} {b c : β}
    (step : ∀ a ∈ l, ∀ b c, P b → f b a = some c → P c) (hb : P b)
    (h : l.foldlM f b = some c) : P c := by
  induction l generalizing b with
  | nil => exact Option.some.inj h ▸ hb
  | cons a l ih =>
      rw [List.foldlM_cons] at h
      obtain ⟨b', hb', h⟩ := Option.bind_eq_some_iff.mp h
      exact ih (fun x hx => step x (List.mem_cons_of_mem a hx))
        (step a List.mem_cons_self b b' hb hb') h

theorem wellFormed_of_inlineTable? {ms : List (Key × Value)} (hms : ∀ m ∈ ms, WellFormed m.2)
    (h : inlineTable? ms = some v) : WellFormed v := by
  obtain ⟨t, ht, rfl⟩ := Option.map_eq_some_iff.mp h
  refine foldlM_keeps (P := fun t => WellFormed t.toValue) ?_ (wellFormed_empty .inline) ht
  intro m hm t t' hformed hstep
  exact keeps_assign m.1.path m.1.last (hms m hm) t t' hformed hstep

/-- **Every value that is read is well formed.** -/
theorem reliable_value (depth : Nat) : Reliable (value depth) := by
  induction depth with
  | zero =>
      intro s v t h
      rw [value] at h
      exact wellFormed_of_scalar h
  | succ depth ih =>
      intro s v t h
      rw [value.eq_def] at h
      dsimp only at h
      split at h
      · exact wellFormed_of_scalar h
      · rename_i e
        injection e with e
        subst e
        obtain ⟨⟨vs, s'⟩, hvs, e⟩ := Option.map_eq_some_iff.mp h
        injection e with e
        exact e ▸ WellFormed.array (wellFormed_of_elements ih hvs)
      · rename_i e
        injection e with e
        subst e
        split at h
        · injection h with h
          injection h with h
          exact h ▸ wellFormed_empty _
        · obtain ⟨⟨ms, s'⟩, hms, h⟩ := Option.bind_eq_some_iff.mp h
          obtain ⟨w, hw, h⟩ := Option.bind_eq_some_iff.mp h
          injection h with h
          injection h with h
          exact h ▸ wellFormed_of_inlineTable? (wellFormed_of_members ih hms) hw
      · exact wellFormed_of_scalar h

/-! ## Documents -/

/-- What a statement assigns is well formed. -/
def Statement.Sound : Statement → Prop
  | .assign _ v => WellFormed v
  | .table _ | .element _ => True

theorem sound_of_statement {s t : List Char} {st : Statement}
    (h : statement s = some (st, t)) : st.Sound := by
  unfold statement at h
  split at h
  · obtain ⟨⟨k, s'⟩, _, h⟩ := Option.bind_eq_some_iff.mp h
    obtain ⟨s', _, h⟩ := Option.bind_eq_some_iff.mp h
    obtain ⟨s', _, h⟩ := Option.bind_eq_some_iff.mp h
    injection h with h
    injection h with h
    exact h ▸ trivial
  · obtain ⟨⟨k, s'⟩, _, h⟩ := Option.bind_eq_some_iff.mp h
    obtain ⟨s', _, h⟩ := Option.bind_eq_some_iff.mp h
    injection h with h
    injection h with h
    exact h ▸ trivial
  · obtain ⟨⟨⟨k, v⟩, s'⟩, hm, e⟩ := Option.map_eq_some_iff.mp h
    injection e with e
    exact e ▸ wellFormed_of_assignment (reliable_value nestingLimit) hm

theorem sound_of_statements {fuel : Nat} {s : List Char} {sts : List Statement}
    (h : statements fuel s = some sts) : ∀ st ∈ sts, st.Sound := by
  induction fuel generalizing s sts with
  | zero => exact absurd h (by simp [statements])
  | succ fuel ih =>
      rw [statements] at h
      split at h
      · injection h with h
        exact h ▸ by simp
      · split at h
        · exact ih h
        · obtain ⟨⟨st, s'⟩, hst, h⟩ := Option.bind_eq_some_iff.mp h
          obtain ⟨s', _, h⟩ := Option.bind_eq_some_iff.mp h
          obtain ⟨sts', hsts, h⟩ := Option.bind_eq_some_iff.mp h
          injection h with h
          subst h
          intro x hx
          rcases List.mem_cons.mp hx with rfl | hx
          · exact sound_of_statement hst
          · exact ih hsts x hx

theorem wellFormed_add {d d' : Draft} {st : Statement} (hst : st.Sound)
    (hd : WellFormed d.root.toValue) (h : d.add st = some d') : WellFormed d'.root.toValue := by
  cases st with
  | assign k v =>
      obtain ⟨root, hroot, h⟩ := Option.bind_eq_some_iff.mp h
      injection h with h
      exact h ▸ keeps_descend false (keeps_assign k.path k.last hst) d.current _ _ hd hroot
  | table k =>
      obtain ⟨root, hroot, h⟩ := Option.bind_eq_some_iff.mp h
      injection h with h
      exact h ▸ keeps_descend false (keeps_openTable k.last) k.path _ _ hd hroot
  | element k =>
      obtain ⟨root, hroot, h⟩ := Option.bind_eq_some_iff.mp h
      injection h with h
      exact h ▸ keeps_descend false (keeps_openElement k.last) k.path _ _ hd hroot

/-- **Every document is well formed.** -/
theorem wellFormed_parse? {text : String} (h : parse? text = some entries) :
    entries.Distinct ∧ ∀ e ∈ entries, WellFormed e.2 := by
  obtain ⟨sts, hsts, h⟩ := Option.bind_eq_some_iff.mp h
  obtain ⟨d, hd, rfl⟩ := Option.map_eq_some_iff.mp h
  have hroot : WellFormed d.root.toValue := by
    refine foldlM_keeps (P := fun d : Draft => WellFormed d.root.toValue) ?_ ?_ hd
    · intro st hst d d' hformed hstep
      exact wellFormed_add (sound_of_statements hsts st hst) hformed hstep
    · exact wellFormed_empty _
  exact hroot.of_table

end IdleWatch.Toml
