import SmartSchoolCdn.Foundation.Table

/-!
# Transactions on a table with a unique column

A statement updates the row of one key, and fails when another row has the value of the unique
column that it sets.  A transaction executes statements one after the other and fails as soon as one
of them does.

What the statements make of a row is their effect on it.  A transaction succeeds exactly when the
column stays unique under the effect of each beginning of it (`transaction_eq_some_iff`).
-/

namespace Tables

variable {κ ρ μ : Type*} {key : ρ → κ} {col : ρ → μ}

/-- A table with a second column whose values are pairwise distinct. -/
structure UniqueTable (key : ρ → κ) (col : ρ → μ) extends Table key where
  unique : (rows.map col).Nodup

/-- Tables are equal when their rows are. -/
theorem UniqueTable.eq_of_rows {s t : UniqueTable key col} (h : s.rows = t.rows) : s = t := by
  cases s
  cases t
  simpa using Table.eq_of_rows h

/-- An update of the row of a key. -/
structure RowUpdate (key : ρ → κ) where
  target : κ
  apply : ρ → ρ
  keeps : ∀ r, key (apply r) = key r

variable [DecidableEq κ]

/-- What a statement makes of a row. -/
def RowUpdate.effect (s : RowUpdate key) : ρ → ρ := Table.onKey key s.target s.apply

/-- What statements make of a row, one after the other. -/
def effectOf (l : List (RowUpdate key)) (r : ρ) : ρ := l.foldl (fun r s => s.effect r) r

/-! ## Effects -/

variable {s : RowUpdate key} {l l' : List (RowUpdate key)} {r : ρ}

@[simp] theorem effectOf_nil (r : ρ) : effectOf ([] : List (RowUpdate key)) r = r := rfl

theorem effectOf_cons : effectOf (s :: l) r = effectOf l (s.effect r) := rfl

theorem effectOf_append : effectOf (l ++ l') r = effectOf l' (effectOf l r) := List.foldl_append

theorem effectOf_singleton (h : s.target = key r) : effectOf [s] r = s.apply r := if_pos h.symm

theorem key_effectOf : key (effectOf l r) = key r := by
  induction l generalizing r with
  | nil => rfl
  | cons s l ih => rw [effectOf_cons, ih, RowUpdate.effect, Table.key_onKey s.keeps]

/-- Statements on other rows leave a row alone. -/
theorem effectOf_of_ne (h : ∀ s ∈ l, s.target ≠ key r) : effectOf l r = r := by
  induction l with
  | nil => rfl
  | cons s l ih =>
    have hs : s.effect r = r := if_neg (h s List.mem_cons_self).symm
    rw [effectOf_cons, hs, ih fun s' hs' => h s' (List.mem_cons_of_mem s hs')]

/-- When the statements on a row are all those for one item of a list. -/
theorem effectOf_flatMap {α : Type*} {f : α → List (RowUpdate key)} {as : List α} {a : α} (has : as.Nodup)
    (ha : a ∈ as) (hother : ∀ b ∈ as, b ≠ a → ∀ s ∈ f b, s.target ≠ key r) :
    effectOf (as.flatMap f) r = effectOf (f a) r := by
  obtain ⟨pre, post, rfl⟩ := List.append_of_mem ha
  have hdistinct := List.nodup_append.mp has
  have hpre : effectOf (pre.flatMap f) r = r := by
    refine effectOf_of_ne fun s hs => ?_
    obtain ⟨b, hb, hs⟩ := List.mem_flatMap.mp hs
    exact hother b (List.mem_append_left _ hb) (hdistinct.2.2 b hb a List.mem_cons_self) s hs
  have hpost : effectOf (post.flatMap f) (effectOf (f a) r) = effectOf (f a) r := by
    refine effectOf_of_ne fun s hs => ?_
    obtain ⟨b, hb, hs⟩ := List.mem_flatMap.mp hs
    have hne : b ≠ a := fun heq => (List.nodup_cons.mp hdistinct.2.1).1 (heq ▸ hb)
    have hkey : key (effectOf (f a) r) = key r := key_effectOf
    rw [hkey]
    exact hother b (List.mem_append_right _ (List.mem_cons_of_mem a hb)) hne s hs
  rw [List.flatMap_append, List.flatMap_cons, effectOf_append, effectOf_append, hpre, hpost]

/-! ## Transactions -/

namespace UniqueTable

variable [DecidableEq μ] {t t' : UniqueTable key col}

/-- Execute a statement, which fails on a value that another row has. -/
def execute (t : UniqueTable key col) (s : RowUpdate key) : Option (UniqueTable key col) :=
  let updated := t.toTable.modify s.target s.apply s.keeps
  if h : (updated.rows.map col).Nodup then some ⟨updated, h⟩ else none

/-- Execute statements, all or none. -/
def transaction (t : UniqueTable key col) : List (RowUpdate key) → Option (UniqueTable key col)
  | [] => some t
  | s :: l => (t.execute s).bind fun t' => t'.transaction l

theorem execute_eq_some_iff : t.execute s = some t' ↔ t'.rows = t.rows.map s.effect := by
  rw [execute]
  constructor
  · intro h
    split at h
    · exact congrArg (fun t : UniqueTable key col => t.rows) (Option.some.inj h).symm
    · cases h
  · intro h
    have hunique : ((t.toTable.modify s.target s.apply s.keeps).rows.map col).Nodup := by
      rw [Table.rows_modify]
      exact h ▸ t'.unique
    rw [dif_pos hunique]
    exact congrArg some (eq_of_rows h.symm)

/-- A transaction succeeds when the column stays unique all along. -/
theorem transaction_eq_some_iff :
    t.transaction l = some t' ↔
      (∀ p, p <+: l → ((t.rows.map (effectOf p)).map col).Nodup) ∧ t'.rows = t.rows.map (effectOf l) := by
  induction l generalizing t with
  | nil =>
    have hid : t.rows.map (effectOf ([] : List (RowUpdate key))) = t.rows := List.map_id _
    rw [transaction, hid, Option.some_inj]
    constructor
    · rintro rfl
      refine ⟨fun p hp => ?_, rfl⟩
      rw [List.prefix_nil.mp hp, hid]
      exact t.unique
    · exact fun h => (eq_of_rows h.2).symm
  | cons s l ih =>
    have hcons : ∀ p, effectOf (s :: p) = effectOf p ∘ s.effect := fun _ => rfl
    rw [transaction, Option.bind_eq_some_iff]
    constructor
    · rintro ⟨t₁, hexecute, hrest⟩
      have hrows := execute_eq_some_iff.mp hexecute
      obtain ⟨hunique, hend⟩ := ih.mp hrest
      refine ⟨fun p hp => ?_, ?_⟩
      · cases p with
        | nil =>
          have hid : t.rows.map (effectOf ([] : List (RowUpdate key))) = t.rows := List.map_id _
          rw [hid]
          exact t.unique
        | cons s' p =>
          obtain ⟨rfl, hrest⟩ := List.cons_prefix_cons.mp hp
          rw [hcons, ← List.map_map (g := effectOf p), ← hrows]
          exact hunique p hrest
      · rw [hend, hrows, List.map_map, hcons]
    · rintro ⟨hunique, hend⟩
      have hfirst : ((t.rows.map s.effect).map col).Nodup :=
        hunique [s] (List.cons_prefix_cons.mpr ⟨rfl, List.nil_prefix⟩)
      let t₁ : UniqueTable key col := ⟨t.toTable.modify s.target s.apply s.keeps, hfirst⟩
      have hrows : t₁.rows = t.rows.map s.effect := rfl
      refine ⟨t₁, execute_eq_some_iff.mpr hrows, ih.mpr ⟨fun p hp => ?_, ?_⟩⟩
      · rw [hrows, List.map_map (g := effectOf p), ← hcons]
        exact hunique (s :: p) (List.cons_prefix_cons.mpr ⟨rfl, hp⟩)
      · rw [hend, hrows, List.map_map, hcons]

/-- A transaction all of whose beginnings keep the column unique succeeds. -/
theorem exists_transaction (h : ∀ p, p <+: l → ((t.rows.map (effectOf p)).map col).Nodup) :
    ∃ t', t.transaction l = some t' := by
  have hkeys : ((t.rows.map (effectOf l)).map key).Nodup := by
    have hsame : key ∘ effectOf l = key := funext fun _ => key_effectOf
    rw [List.map_map, hsame]
    exact t.keys_nodup
  exact ⟨⟨⟨t.rows.map (effectOf l), hkeys⟩, h l (List.prefix_refl l)⟩, transaction_eq_some_iff.mpr ⟨h, rfl⟩⟩

/-- A transaction that leaves the table as it is leaves every row as it is. -/
theorem effectOf_of_transaction (h : t.transaction l = some t) (hr : r ∈ t.rows) : effectOf l r = r := by
  have hrows := (transaction_eq_some_iff.mp h).2
  conv_lhs at hrows => rw [← List.map_id t.rows]
  exact (List.map_eq_map_iff.mp hrows r hr).symm

end UniqueTable

end Tables
