import IdleWatch.Proofs.WellFormed
import IdleWatch.Settings.Fit
import IdleWatch.Settings.Render

/-!
# Numbers of settings can be written

The numbers of settings that were read are integers of a document, and these are well formed: they
fit. So they can be written again.
-/

namespace IdleWatch

namespace Settings

open Toml

/-- All numbers can be written. -/
def Writable (s : Settings) : Prop := s.idleTimeoutSecs ≤ maxNumber ∧ s.readChunk ≤ maxNumber

theorem le_of_asNat {wanted : String} {v : Value} {n : Nat} (hv : WellFormed v)
    (h : asNat wanted v = .ok n) : n ≤ maxNumber := by
  unfold asNat at h
  split at h
  · split at h
    · rename_i hpos
      injection h with h
      cases hv with
      | integer _ hle =>
          rw [← h]
          exact Int.toNat_le.mpr hle
    · exact absurd h (by simp)
  · exact absurd h (by simp)

theorem eq_ok_of_map {ε α β : Type} {x : Except ε α} {f : α → β} {b : β}
    (h : x.map f = .ok b) : ∃ a, x = .ok a ∧ f a = b := by
  cases x with
  | error e => injection h
  | ok a =>
      injection h with h
      exact ⟨a, rfl, h⟩

theorem writable_set {s s' : Settings} {v : Value} {field : Field} (hs : s.Writable)
    (hv : WellFormed v) (h : s.set v field = .ok s') : s'.Writable := by
  cases field with
  | program | args | processGroup | sentinel =>
      obtain ⟨_, _, rfl⟩ := eq_ok_of_map h
      exact hs
  | idleTimeoutSecs =>
      obtain ⟨n, hn, rfl⟩ := eq_ok_of_map h
      exact ⟨le_of_asNat hv hn, hs.2⟩
  | readChunk =>
      obtain ⟨n, hn, rfl⟩ := eq_ok_of_map h
      exact ⟨hs.1, le_of_asNat hv hn⟩

theorem ok_of_foldlM_cons {ε α β : Type} {f : β → α → Except ε β} {a : α} {l : List α} {b c : β}
    (h : (a :: l).foldlM f b = .ok c) : ∃ b', f b a = .ok b' ∧ l.foldlM f b' = .ok c := by
  rw [List.foldlM_cons] at h
  cases hb' : f b a with
  | error e =>
      rw [hb'] at h
      exact absurd h (by simp [bind, Except.bind])
  | ok b' =>
      rw [hb'] at h
      exact ⟨b', rfl, h⟩

theorem foldlM_ok {ε α β : Type} {P : β → Prop} {f : β → α → Except ε β} {l : List α} {b c : β}
    (step : ∀ a ∈ l, ∀ b c, P b → f b a = .ok c → P c) (hb : P b)
    (h : l.foldlM f b = .ok c) : P c := by
  induction l generalizing b with
  | nil =>
      injection h with h
      exact h ▸ hb
  | cons a l ih =>
      obtain ⟨b', hb', hrest⟩ := ok_of_foldlM_cons h
      exact ih (fun x hx => step x (List.mem_cons_of_mem a hx))
        (step a List.mem_cons_self b b' hb hb') hrest

theorem writable_setEntries {part : Part} {s s' : Settings} {entries : Entries}
    (hs : s.Writable) (hformed : ∀ e ∈ entries, WellFormed e.2)
    (h : setEntries part s entries = .ok s') : s'.Writable := by
  refine foldlM_ok (P := Writable) ?_ hs h
  intro e he t t' ht hstep
  dsimp only at hstep
  split at hstep
  · exact writable_set ht (hformed e he) hstep
  · injection hstep with hstep
    exact hstep ▸ ht

theorem writable_setElements {part : Part} {s s' : Settings} {elements : List Value}
    (hs : s.Writable) (hformed : ∀ v ∈ elements, WellFormed v)
    (h : setElements part s elements = .ok s') : s'.Writable := by
  refine foldlM_ok (P := Writable) ?_ hs h
  intro e he t t' ht hstep
  exact writable_set ht (hformed e.2 (List.of_mem_zip he).2) hstep

theorem writable_setPart {part : Part} {s s' : Settings} {v : Value} (hs : s.Writable)
    (hv : WellFormed v) (h : setPart part s v = .ok s') : s'.Writable := by
  cases hv with
  | table _ hentries => exact writable_setEntries hs hentries h
  | moment =>
      injection h with h
      exact h ▸ hs
  | array hitems => exact writable_setElements hs hitems h
  | tables _ _ helements => exact writable_setElements hs helements h
  | string | integer | float | boolean => exact absurd h (by simp [setPart])

theorem writable_ofEntries {entries : Entries} {s : Settings}
    (hformed : ∀ e ∈ entries, WellFormed e.2) (h : ofEntries entries = .ok s) : s.Writable := by
  refine foldlM_ok (P := Writable) ?_ ⟨by decide, by decide⟩ h
  intro e he t t' ht hstep
  dsimp only at hstep
  split at hstep
  · exact writable_setPart ht (hformed e he) hstep
  · injection hstep with hstep
    exact hstep ▸ ht

/-- What a text gives is what its document gives. -/
theorem parse_eq {text : String} {entries : Entries} (h : parse? text = some entries) :
    parse text = (ofEntries entries).mapError .misfit := by
  rw [parse, h]

theorem parse_eq_ok {text : String} {entries : Entries} (h : parse? text = some entries)
    {s : Settings} : parse text = .ok s ↔ ofEntries entries = .ok s := by
  rw [parse_eq h]
  cases ofEntries entries with
  | ok t =>
      change Except.ok t = Except.ok s ↔ _
      rw [Except.ok.injEq, Except.ok.injEq]
  | error m => exact ⟨fun he => by injection he, fun he => by injection he⟩

/-- Settings that were read are those of a document. -/
theorem exists_of_parse {text : String} {s : Settings} (h : parse text = .ok s) :
    ∃ entries, parse? text = some entries ∧ ofEntries entries = .ok s := by
  cases hparse : parse? text with
  | none =>
      rw [parse, hparse] at h
      injection h
  | some entries => exact ⟨entries, rfl, (parse_eq_ok hparse).mp h⟩

/-- **Settings that were read can be written.** -/
theorem writable_parse {text : String} {s : Settings} (h : parse text = .ok s) : s.Writable := by
  obtain ⟨entries, hparse, hfit⟩ := exists_of_parse h
  exact writable_ofEntries (wellFormed_parse? hparse).2 hfit

end Settings

end IdleWatch
