import Mathlib.Data.List.Nodup

/-!
# Tables with a primary key

A table is a list of rows in which no key occurs twice.  The operations are those of SQL on
one key: a lookup, an update of the row, an insertion that does nothing or updates on a
conflict, and a deletion of all rows whose keys meet a condition.

Besides the lookup after each operation, the file has the frame rules: an update of one key
commutes with every operation on other keys, and with deletions.
-/

namespace Tables

universe u v

/-- Rows whose keys are pairwise distinct. -/
structure Table {κ : Type u} {ρ : Type v} (key : ρ → κ) where
  rows : List ρ
  keys_nodup : (rows.map key).Nodup

namespace Table

variable {κ : Type u} {ρ : Type v} {key : ρ → κ}

/-- The table without rows. -/
def empty : Table key := ⟨[], List.nodup_nil⟩

/-- Tables are equal when their rows are. -/
theorem eq_of_rows {s t : Table key} (h : s.rows = t.rows) : s = t := by
  cases s
  cases t
  simpa using h

/-- Delete the rows whose keys meet a condition. -/
def eraseWhere (t : Table key) (p : κ → Bool) : Table key where
  rows := t.rows.filter fun r => !p (key r)
  keys_nodup := t.keys_nodup.sublist (List.filter_sublist.map key)

@[simp] theorem rows_eraseWhere (t : Table key) (p : κ → Bool) :
    (t.eraseWhere p).rows = t.rows.filter fun r => !p (key r) := rfl

variable [DecidableEq κ]

/-- The row of a key. -/
def find (t : Table key) (k : κ) : Option ρ := t.rows.find? fun r => key r = k

/-- A function on rows, applied to the row of one key. -/
def onKey (key : ρ → κ) (k : κ) (f : ρ → ρ) (r : ρ) : ρ := if key r = k then f r else r

/-- What the function leaves alone stays. -/
theorem apply_onKey {γ : Type*} {g : ρ → γ} {k : κ} {f : ρ → ρ} (hf : ∀ r, g (f r) = g r) (r : ρ) :
    g (onKey key k f r) = g r := by
  unfold onKey
  split
  · exact hf r
  · rfl

theorem key_onKey {k : κ} {f : ρ → ρ} (hf : ∀ r, key (f r) = key r) (r : ρ) :
    key (onKey key k f r) = key r := apply_onKey hf r

/-- Update the row of a key, if there is one. -/
def modify (t : Table key) (k : κ) (f : ρ → ρ) (hf : ∀ r, key (f r) = key r) : Table key where
  rows := t.rows.map (onKey key k f)
  keys_nodup := by
    have hkeys : (t.rows.map (onKey key k f)).map key = t.rows.map key := by
      rw [List.map_map]
      exact List.map_congr_left fun r _ => key_onKey hf r
    rw [hkeys]
    exact t.keys_nodup

@[simp] theorem rows_modify (t : Table key) (k : κ) (f : ρ → ρ) (hf : ∀ r, key (f r) = key r) :
    (t.modify k f hf).rows = t.rows.map (onKey key k f) := rfl

/-- A key that is not found is the key of no row. -/
theorem key_notMem_of_find {t : Table key} {k : κ} (h : (t.find k).isSome = false) :
    k ∉ t.rows.map key := by
  intro hk
  obtain ⟨r, hr, hrk⟩ := List.mem_map.mp hk
  rw [find, List.find?_isSome.mpr ⟨r, hr, decide_eq_true hrk⟩] at h
  cases h

/-- Insert a row unless its key is taken. -/
def insertNew (t : Table key) (r : ρ) : Table key :=
  if h : (t.find (key r)).isSome then t
  else
    { rows := t.rows ++ [r]
      keys_nodup := by
        rw [List.map_append, List.nodup_append]
        refine ⟨t.keys_nodup, List.nodup_singleton _, ?_⟩
        rintro k hk k' hk' rfl
        obtain rfl : k = key r := by simpa using hk'
        exact key_notMem_of_find (Bool.not_eq_true _ ▸ h) hk }

theorem rows_insertNew (t : Table key) (r : ρ) :
    (t.insertNew r).rows = if (t.find (key r)).isSome then t.rows else t.rows ++ [r] := by
  unfold insertNew
  split <;> rfl

/-- Insert a row, or update the one that has its key. -/
def upsert (t : Table key) (r : ρ) (f : ρ → ρ) (hf : ∀ r, key (f r) = key r) : Table key :=
  if (t.find (key r)).isSome then t.modify (key r) f hf else t.insertNew r

/-! ## Lookups -/

variable {t : Table key} {k k' : κ} {r : ρ} {f g : ρ → ρ}

/-- The row that is found has the key that was asked for. -/
theorem key_of_find (h : t.find k = some r) : key r = k := by
  have hp := List.find?_some h
  simpa using hp

/-- The row that is found is a row of the table with that key. -/
theorem find_eq_some_iff : t.find k = some r ↔ r ∈ t.rows ∧ key r = k := by
  constructor
  · intro h
    exact ⟨List.mem_of_find?_eq_some h, key_of_find h⟩
  · rintro ⟨hr, rfl⟩
    obtain ⟨r', hr'⟩ : ∃ r', t.find (key r) = some r' :=
      Option.isSome_iff_exists.mp (List.find?_isSome.mpr ⟨r, hr, decide_eq_true rfl⟩)
    have hmem := List.mem_of_find?_eq_some hr'
    rw [hr', List.inj_on_of_nodup_map t.keys_nodup hmem hr (key_of_find hr')]

/-- A key is found when a row has it. -/
theorem isSome_find_iff : (t.find k).isSome = true ↔ ∃ r ∈ t.rows, key r = k := by
  rw [Option.isSome_iff_exists]
  constructor
  · rintro ⟨r, hr⟩
    exact ⟨r, find_eq_some_iff.mp hr⟩
  · rintro ⟨r, hr⟩
    exact ⟨r, find_eq_some_iff.mpr hr⟩

/-- The row of the updated key is updated. -/
theorem find_modify_self (hf : ∀ r, key (f r) = key r) :
    (t.modify k f hf).find k = (t.find k).map f := by
  have hsame : (fun r => decide (key (onKey key k f r) = k)) = fun r => decide (key r = k) := by
    funext r
    rw [key_onKey hf]
  rw [find, rows_modify, List.find?_map]
  simp only [Function.comp_def, hsame]
  change (t.find k).map (onKey key k f) = _
  cases h : t.find k with
  | none => rfl
  | some r => simp [onKey, key_of_find h]

/-- The rows of other keys stay. -/
theorem find_modify_ne (hf : ∀ r, key (f r) = key r) (hk : k' ≠ k) :
    (t.modify k f hf).find k' = t.find k' := by
  have hsame : (fun r => decide (key (onKey key k f r) = k')) = fun r => decide (key r = k') := by
    funext r
    rw [key_onKey hf]
  rw [find, rows_modify, List.find?_map]
  simp only [Function.comp_def, hsame]
  change (t.find k').map (onKey key k f) = _
  cases h : t.find k' with
  | none => rfl
  | some r => simp [onKey, key_of_find h, hk]

/-- An update neither adds nor removes a key. -/
theorem isSome_find_modify (hf : ∀ r, key (f r) = key r) :
    ((t.modify k f hf).find k').isSome = (t.find k').isSome := by
  by_cases hk : k' = k
  · subst hk
    rw [find_modify_self, Option.isSome_map]
  · rw [find_modify_ne hf hk]

/-- An insertion keeps the row that has the key. -/
theorem find_insertNew_self : (t.insertNew r).find (key r) = some ((t.find (key r)).getD r) := by
  rw [find, rows_insertNew]
  cases h : t.find (key r) with
  | none =>
    have hnone : t.rows.find? (fun r' => key r' = key r) = none := h
    simp [List.find?_append, hnone]
  | some old => exact h

/-- An insertion keeps the rows of other keys. -/
theorem find_insertNew_ne (hk : key r ≠ k) : (t.insertNew r).find k = t.find k := by
  unfold insertNew
  split
  · rfl
  · simp [find, List.find?_append, hk]

/-- An insertion or update sets the row of its key. -/
theorem find_upsert_self (hf : ∀ r, key (f r) = key r) :
    (t.upsert r f hf).find (key r) = some (((t.find (key r)).map f).getD r) := by
  unfold upsert
  cases h : t.find (key r) with
  | none => simp [find_insertNew_self, h]
  | some old => simp [find_modify_self, h]

/-- An insertion or update keeps the rows of other keys. -/
theorem find_upsert_ne (hf : ∀ r, key (f r) = key r) (hk : key r ≠ k) :
    (t.upsert r f hf).find k = t.find k := by
  unfold upsert
  split
  · exact find_modify_ne hf (Ne.symm hk)
  · exact find_insertNew_ne hk

/-- The rows after an insertion or update: those before it, the new one, and the updated one. -/
theorem mem_rows_upsert {r' : ρ} (hf : ∀ r, key (f r) = key r) (h : r' ∈ (t.upsert r f hf).rows) :
    r' ∈ t.rows ∨ r' = r ∨ ∃ old ∈ t.rows, r' = f old := by
  unfold upsert at h
  split at h
  · rw [rows_modify] at h
    obtain ⟨old, hold, rfl⟩ := List.mem_map.mp h
    unfold onKey
    split
    · exact .inr (.inr ⟨old, hold, rfl⟩)
    · exact .inl hold
  · rename_i hnone
    rw [rows_insertNew, if_neg hnone] at h
    rcases List.mem_append.mp h with hold | hnew
    · exact .inl hold
    · exact .inr (.inl (List.mem_singleton.mp hnew))

/-- A deletion removes the rows whose keys it meets and keeps the others. -/
theorem find_eraseWhere {p : κ → Bool} :
    (t.eraseWhere p).find k = if p k then none else t.find k := by
  rw [find, rows_eraseWhere, List.find?_filter]
  split
  · rename_i hp
    rw [List.find?_eq_none]
    intro r _ hr
    obtain ⟨hnot, rfl⟩ : p (key r) = false ∧ key r = k := by simpa using hr
    rw [hp] at hnot
    cases hnot
  · rename_i hp
    congr 1
    funext r
    by_cases hkey : key r = k
    · simp [hkey, hp]
    · simp [hkey]

/-! ## Frame rules -/

/-- Two updates of one key are one. -/
theorem modify_modify (hf : ∀ r, key (f r) = key r) (hg : ∀ r, key (g r) = key r) :
    (t.modify k f hf).modify k g hg =
      t.modify k (fun r => g (f r)) (fun r => (hg _).trans (hf r)) := by
  apply eq_of_rows
  rw [rows_modify, rows_modify, rows_modify, List.map_map]
  refine List.map_congr_left fun r _ => ?_
  by_cases hk : key r = k
  · simp [onKey, hk, hf]
  · simp [onKey, hk]

/-- An update is what it does to the row of its key. -/
theorem modify_congr (hf : ∀ r, key (f r) = key r) (hg : ∀ r, key (g r) = key r)
    (hr : t.find k = some r) (hfg : f r = g r) : t.modify k f hf = t.modify k g hg := by
  apply eq_of_rows
  refine List.map_congr_left fun r' hr' => ?_
  by_cases hk : key r' = k
  · have hsame : t.find k = some r' := find_eq_some_iff.mpr ⟨hr', hk⟩
    obtain rfl : r = r' := Option.some.inj (hr.symm.trans hsame)
    simp [onKey, hfg]
  · simp [onKey, hk]

/-- The update that changes nothing. -/
theorem modify_id : t.modify k id (fun _ => rfl) = t := by
  apply eq_of_rows
  have hid : onKey key k id = id := by
    funext r
    simp [onKey]
  simp [modify, hid]

/-- Updates of two keys commute. -/
theorem modify_comm (hf : ∀ r, key (f r) = key r) (hg : ∀ r, key (g r) = key r) (hk : k' ≠ k) :
    (t.modify k f hf).modify k' g hg = (t.modify k' g hg).modify k f hf := by
  apply eq_of_rows
  rw [rows_modify, rows_modify, rows_modify, rows_modify, List.map_map, List.map_map]
  refine List.map_congr_left fun r _ => ?_
  by_cases h : key r = k
  · have h' : key r ≠ k' := fun heq => hk (heq.symm.trans h)
    simp [onKey, h, hf, Ne.symm hk]
  · by_cases h' : key r = k'
    · simp [onKey, h', hg, hk]
    · simp [onKey, h, h']

/-- An update commutes with the insertion of another key. -/
theorem modify_insertNew (hf : ∀ r, key (f r) = key r) (hk : key r ≠ k) :
    (t.modify k f hf).insertNew r = (t.insertNew r).modify k f hf := by
  apply eq_of_rows
  rw [rows_insertNew, rows_modify, rows_modify, rows_insertNew, isSome_find_modify]
  split
  · rfl
  · rw [List.map_append]
    simp [onKey, hk]

/-- An update commutes with the insertion or update of another key. -/
theorem modify_upsert (hf : ∀ r, key (f r) = key r) (hg : ∀ r, key (g r) = key r)
    (hk : key r ≠ k) :
    (t.modify k f hf).upsert r g hg = (t.upsert r g hg).modify k f hf := by
  unfold upsert
  rw [isSome_find_modify]
  split
  · exact modify_comm hf hg hk
  · exact modify_insertNew hf hk

/-- An update commutes with deletions. -/
theorem modify_eraseWhere (hf : ∀ r, key (f r) = key r) (p : κ → Bool) :
    (t.modify k f hf).eraseWhere p = (t.eraseWhere p).modify k f hf := by
  apply eq_of_rows
  rw [rows_eraseWhere, rows_modify, rows_modify, rows_eraseWhere, List.filter_map]
  congr 1
  refine List.filter_congr fun r _ => ?_
  simp [key_onKey hf]

end Table

end Tables
