import SmartSchoolCdn.Foundation.Table
import Mathlib.Algebra.BigOperators.Group.List.Basic
import Mathlib.Algebra.GroupWithZero.Nat

/-!
# Totals over lists and tables

What the items of a list, or the rows of a table, add up to under a measure, and what each
operation does to it; a count is the total of a measure that is one or zero.  The laws add on
both sides instead of subtracting, so that they combine by linear arithmetic.

An upsert that accumulates adds the measure of its row (`total_upsert`): this is what makes a
table of partial sums keep the whole.
-/

namespace Tables

universe u v

variable {κ : Type u} {ρ : Type v} {g : ρ → ℕ} {l l' : List ρ} {x y : ρ} {i : ℕ}

/-- The sum of a measure over a list. -/
def total (g : ρ → ℕ) (l : List ρ) : ℕ := (l.map g).sum

@[simp] theorem total_nil : total g [] = 0 := rfl

@[simp] theorem total_cons : total g (x :: l) = g x + total g l := by simp [total]

@[simp] theorem total_append : total g (l ++ l') = total g l + total g l' := by simp [total]

/-- Nothing adds up to nothing. -/
theorem total_eq_zero (h : ∀ x ∈ l, g x = 0) : total g l = 0 := by
  induction l with
  | nil => rfl
  | cons x l ih =>
    rw [total_cons, h x List.mem_cons_self, ih fun y hy => h y (List.mem_cons_of_mem x hy)]

/-- A total looks at the measures of the items only. -/
theorem total_congr {g' : ρ → ℕ} (h : ∀ x ∈ l, g x = g' x) : total g l = total g' l :=
  congrArg List.sum (List.map_congr_left h)

/-- Measures add up item by item. -/
theorem total_add {g g' : ρ → ℕ} : total (fun x => g x + g' x) l = total g l + total g' l :=
  List.sum_map_add

/-- The items that meet a condition. -/
theorem total_filter (p : ρ → Prop) [DecidablePred p] :
    total g (l.filter p) = total (fun x => if p x then g x else 0) l := by
  induction l with
  | nil => rfl
  | cons x l ih =>
    rw [List.filter_cons, total_cons, ← ih]
    by_cases hx : p x
    · rw [if_pos (decide_eq_true hx), total_cons, if_pos hx]
    · rw [if_neg (by simpa using hx), if_neg hx, Nat.zero_add]

/-- A second condition splits them. -/
theorem total_filter_split (p q : ρ → Prop) [DecidablePred p] [DecidablePred q] :
    total g (l.filter p) = total g (l.filter fun x => p x ∧ q x) + total g (l.filter fun x => p x ∧ ¬q x) := by
  rw [total_filter, total_filter, total_filter, ← total_add]
  refine total_congr fun x _ => ?_
  by_cases hp : p x
  · by_cases hq : q x
    · simp [hp, hq]
    · simp [hp, hq]
  · simp [hp]

theorem total_perm (h : l.Perm l') : total g l = total g l' := (h.map g).sum_eq

/-- Each item counts once. -/
theorem total_one (l : List ρ) : total (fun _ => 1) l = l.length := by simp [total]

/-- An item is replaced. -/
theorem total_set (h : l[i]? = some x) : total g (l.set i y) + g x = total g l + g y := by
  induction l generalizing i with
  | nil => cases h
  | cons z l ih =>
    cases i with
    | zero =>
      obtain rfl : z = x := by simpa using h
      rw [List.set_cons_zero, total_cons, total_cons]
      omega
    | succ i =>
      have hrest := ih (by simpa using h)
      rw [List.set_cons_succ, total_cons, total_cons]
      omega

/-- An item is removed. -/
theorem total_eraseIdx (h : l[i]? = some x) : total g (l.eraseIdx i) + g x = total g l := by
  induction l generalizing i with
  | nil => cases h
  | cons z l ih =>
    cases i with
    | zero =>
      obtain rfl : z = x := by simpa using h
      rw [List.eraseIdx_cons_zero, total_cons]
      omega
    | succ i =>
      have hrest := ih (by simpa using h)
      rw [List.eraseIdx_cons_succ, total_cons, total_cons]
      omega

/-- A count is a total. -/
theorem countP_eq_total (p : ρ → Bool) : l.countP p = total (fun x => (p x).toNat) l := by
  induction l with
  | nil => rfl
  | cons x l ih =>
    rw [List.countP_cons, total_cons, ih, add_comm]
    cases p x with
    | true => rfl
    | false => rfl

/-- What is counted when an item is replaced. -/
theorem countP_set_add {p : ρ → Bool} (h : l[i]? = some x) :
    (l.set i y).countP p + (p x).toNat = l.countP p + (p y).toNat := by
  rw [countP_eq_total, countP_eq_total]
  exact total_set h

/-- The items before and after the one that is replaced. -/
theorem exists_split (h : l[i]? = some x) (y : ρ) :
    ∃ l₁ l₂, l = l₁ ++ x :: l₂ ∧ l.set i y = l₁ ++ y :: l₂ := by
  obtain ⟨hlt, rfl⟩ := List.getElem?_eq_some_iff.mp h
  refine ⟨l.take i, l.drop (i + 1), ?_, ?_⟩
  · rw [← List.drop_eq_getElem_cons hlt, List.take_append_drop]
  · rw [List.set_eq_take_append_cons_drop, if_pos hlt]

/-- A measure of one item among distinct ones. -/
theorem total_ite_eq [DecidableEq ρ] (hl : l.Nodup) (n : ℕ) :
    total (fun y => if y = x then n else 0) l = if x ∈ l then n else 0 := by
  induction l with
  | nil => rfl
  | cons z l ih =>
    rw [List.nodup_cons] at hl
    rw [total_cons, ih hl.2]
    by_cases hz : z = x
    · subst hz
      simp [hl.1]
    · simp [hz, Ne.symm hz]

variable [DecidableEq κ] {key : ρ → κ} {t : Table key} {r old : ρ} {f : ρ → ρ}

/-- An update changes the total by what it does to the row. -/
theorem total_modify (hf : ∀ r, key (f r) = key r) (h : t.find (key r) = some old) :
    total g (t.modify (key r) f hf).rows + g old = total g t.rows + g (f old) := by
  obtain ⟨rows, hrows⟩ := t
  obtain ⟨hmem, hkey⟩ := Table.find_eq_some_iff.mp h
  clear h
  change total g (rows.map (Table.onKey key (key r) f)) + g old = total g rows + g (f old)
  induction rows with
  | nil => cases hmem
  | cons z rows ih =>
    rw [List.map_cons, List.nodup_cons] at hrows
    rw [List.map_cons, total_cons, total_cons]
    rcases List.mem_cons.mp hmem with rfl | hmem'
    · -- the other rows have other keys
      have hothers : rows.map (Table.onKey key (key r) f) = rows := by
        refine (List.map_congr_left fun w hw => ?_).trans (List.map_id rows)
        have hne : key w ≠ key r := fun heq =>
          hrows.1 (List.mem_map.mpr ⟨w, hw, heq.trans hkey.symm⟩)
        rw [Table.onKey, if_neg hne, id]
      rw [hothers, Table.onKey, if_pos hkey]
      omega
    · have hne : key z ≠ key r := fun heq =>
        hrows.1 (List.mem_map.mpr ⟨old, hmem', hkey.trans heq.symm⟩)
      have hrest := ih hrows.2 hmem'
      rw [Table.onKey, if_neg hne]
      omega

/-- An insertion of a row that adds itself to the one with its key adds the measure of the
row. -/
theorem total_upsert (hf : ∀ r, key (f r) = key r)
    (hadd : ∀ old, key old = key r → g (f old) = g old + g r) :
    total g (t.upsert r f hf).rows = total g t.rows + g r := by
  unfold Table.upsert
  cases h : t.find (key r) with
  | none =>
    rw [if_neg (by simp), Table.rows_insertNew, h, if_neg (by simp), total_append, total_cons,
      total_nil, Nat.add_zero]
  | some old =>
    have hold := total_modify (g := g) hf h
    have hsum := hadd old (Table.key_of_find h)
    rw [if_pos (by simp)]
    omega

end Tables
