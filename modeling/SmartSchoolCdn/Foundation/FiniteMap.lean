import Mathlib.Algebra.GroupWithZero.Nat
import Mathlib.Algebra.Order.BigOperators.Group.Finset
import Mathlib.Data.List.AList

/-!
# Totals over finite maps

The sum of a measure over the entries of an association list without duplicate keys, and what
insertions and removals do to it.  A total is a sum over keys, so that it is monotone in the
measured lookups, whatever the order of the entries.

A map may also be a partial function that a loop has filled; its keys are those that the body
of the loop adds.
-/

namespace FiniteMaps

universe u v w

variable {κ : Type u} {ν : Type v} {μ : Type w}

/-- The sum of a measure over a list of entries. -/
def entryTotal (f : κ → ν → ℕ) (l : List (Sigma fun _ : κ => ν)) : ℕ := (l.map fun s => f s.1 s.2).sum

/-- The sum of a measure over the entries. -/
def total (f : κ → ν → ℕ) (m : AList fun _ : κ => ν) : ℕ := entryTotal f m.entries

@[simp] theorem total_empty (f : κ → ν → ℕ) : total f (∅ : AList fun _ : κ => ν) = 0 := rfl

/-- A map without keys is empty. -/
theorem eq_empty_of_keys {m : AList fun _ : κ => ν} (h : m.keys = []) : m = ∅ :=
  AList.ext (List.map_eq_nil_iff.mp h)

/-- The keys of a map that a loop fills. -/
theorem isSome_foldl {α : Type w} {insert : (κ → Option ν) → α → κ → Option ν} {adds : α → Prop}
    {k : κ} (h : ∀ map a, (insert map a k).isSome = true ↔ (map k).isSome = true ∨ adds a)
    (as : List α) (map : κ → Option ν) :
    (as.foldl insert map k).isSome = true ↔ (map k).isSome = true ∨ ∃ a ∈ as, adds a := by
  induction as generalizing map with
  | nil => simp
  | cons a as ih =>
    rw [List.foldl_cons, ih, h, or_assoc]
    simp

/-- What a loop leaves under a key: the last value that its body puts there. -/
theorem foldl_eq_getLast? {α : Type w} {insert : (κ → Option ν) → α → κ → Option ν}
    {given : α → Option ν} {k : κ} (h : ∀ map a, insert map a k = (given a).or (map k))
    (as : List α) (map : κ → Option ν) :
    as.foldl insert map k = (as.filterMap given).getLast?.or (map k) := by
  induction as generalizing map with
  | nil => simp
  | cons a as ih =>
    rw [List.foldl_cons, ih, h, List.filterMap_cons]
    cases given a with
    | none => simp
    | some v => cases hlast : (as.filterMap given).getLast? <;> simp [List.getLast?_cons, hlast]

variable [DecidableEq κ] {f : κ → ν → ℕ} {g : κ → μ → ℕ} {m : AList fun _ : κ => ν}
  {n : AList fun _ : κ => μ} {k : κ} {x y : ν}

/-- Nothing is found in an empty map. -/
theorem lookup_empty_ne_some : (∅ : AList fun _ : κ => ν).lookup k ≠ some x := by
  rw [AList.lookup_empty]
  exact nofun

/-- The measure of what a key holds, zero without an entry. -/
def measured (f : κ → ν → ℕ) (m : AList fun _ : κ => ν) (k : κ) : ℕ := ((m.lookup k).map (f k)).getD 0

theorem measured_of_some (h : m.lookup k = some x) : measured f m k = f k x := by
  rw [measured, h]
  rfl

theorem measured_of_none (h : m.lookup k = none) : measured f m k = 0 := by
  rw [measured, h]
  rfl

/-- Removing a key removes the measure of its value. -/
theorem total_erase (h : m.lookup k = some x) : total f (m.erase k) + f k x = total f m := by
  have hmem : k ∈ m.entries.keys := AList.mem_keys.mp (AList.lookup_isSome.mp (by rw [h]; rfl))
  obtain ⟨x', l₁, l₂, -, hsplit, herase⟩ := List.exists_of_kerase hmem
  have hx : x = x' := by
    have hentry : (⟨k, x'⟩ : Sigma fun _ : κ => ν) ∈ m.entries := by
      rw [hsplit]
      exact List.mem_append_right _ List.mem_cons_self
    have hlookup : m.lookup k = some x' := AList.mem_lookup_iff.mpr hentry
    exact Option.some.inj (h.symm.trans hlookup)
  subst hx
  have hleft : total f (m.erase k) = entryTotal f (l₁ ++ l₂) := congrArg (entryTotal f) herase
  rw [hleft, total, hsplit]
  simp only [entryTotal, List.map_append, List.map_cons, List.sum_append, List.sum_cons]
  omega

/-- Removing a key that is not there changes nothing. -/
theorem erase_eq_self (h : m.lookup k = none) : m.erase k = m := by
  have hnot : k ∉ m.entries.keys := fun hmem => AList.lookup_eq_none.mp h (AList.mem_keys.mpr hmem)
  exact AList.ext (List.kerase_of_notMem_keys hnot)

/-- Removing a key removes its measure. -/
theorem total_erase_measured (k : κ) : total f (m.erase k) + measured f m k = total f m := by
  cases h : m.lookup k with
  | none => rw [erase_eq_self h, measured_of_none h, Nat.add_zero]
  | some x => rw [measured_of_some h, total_erase h]

/-- An insertion replaces the measure of the old value. -/
theorem total_insert : total f (m.insert k x) = f k x + total f (m.erase k) := by
  rw [total, AList.entries_insert, entryTotal, List.map_cons, List.sum_cons]
  rfl

/-- An insertion over a value, and the value. -/
theorem total_insert_of_some (h : m.lookup k = some y) :
    total f (m.insert k x) + f k y = total f m + f k x := by
  have herase := total_erase (f := f) h
  rw [total_insert]
  omega

/-- The measure of a value is at most the total. -/
theorem le_total (h : m.lookup k = some x) : f k x ≤ total f m := by
  have herase := total_erase (f := f) h
  omega

/-- A total is a sum over the set of keys. -/
theorem total_eq_sum : total f m = ∑ k ∈ m.keys.toFinset, measured f m k := by
  have hsum : ∑ k ∈ m.keys.toFinset, measured f m k = (m.keys.map (measured f m)).sum :=
    List.sum_toFinset _ m.keys_nodup
  rw [hsum, total, entryTotal, AList.keys, List.keys, List.map_map]
  congr 1
  refine List.map_congr_left fun s hs => ?_
  have hlookup : m.lookup s.1 = some s.2 := AList.mem_lookup_iff.mpr hs
  exact (measured_of_some hlookup).symm

/-- A map that measures at most as much under every key has at most the total. -/
theorem total_le_total (h : ∀ k, measured f m k ≤ measured g n k) : total f m ≤ total g n := by
  have hm : total f m ≤ ∑ k ∈ m.keys.toFinset ∪ n.keys.toFinset, measured f m k := by
    rw [total_eq_sum]
    exact Finset.sum_le_sum_of_subset Finset.subset_union_left
  have hn : ∑ k ∈ m.keys.toFinset ∪ n.keys.toFinset, measured g n k = total g n := by
    rw [total_eq_sum]
    refine (Finset.sum_subset Finset.subset_union_right fun k _ hk => ?_).symm
    rw [List.mem_toFinset, ← AList.mem_keys] at hk
    exact measured_of_none (AList.lookup_eq_none.mpr hk)
  calc total f m ≤ ∑ k ∈ m.keys.toFinset ∪ n.keys.toFinset, measured f m k := hm
    _ ≤ ∑ k ∈ m.keys.toFinset ∪ n.keys.toFinset, measured g n k := Finset.sum_le_sum fun k _ => h k
    _ = total g n := hn

end FiniteMaps
