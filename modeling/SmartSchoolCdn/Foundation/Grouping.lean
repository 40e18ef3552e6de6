import SmartSchoolCdn.Foundation.Ranking
import SmartSchoolCdn.Foundation.Totals
import Mathlib.Data.List.AList
import Mathlib.Data.List.Dedup
import Mathlib.Logic.Function.Basic

/-!
# Grouped rows

The aggregates of a clause `GROUP BY`, one for every key that occurs, and the maps that a loop
fills with the rows of a query by pushing to a list for every key, or by adding to an entry.

Groups lose nothing: what the groups of some keys add up to is what their rows do
(`total_groups`).  The entry at an index of a descending list of keys is that of the key which so
many keys are above (`getD_descending`).
-/

namespace Grouping

open Tables

section Groups

variable {ρ κ γ : Type*} [DecidableEq κ] (key : ρ → κ)

/-- The rows of a key. -/
def rowsOf (k : κ) (rows : List ρ) : List ρ := rows.filter fun r => key r = k

/-- The keys that occur, each once. -/
def keys (rows : List ρ) : List κ := (rows.map key).dedup

/-- `GROUP BY`: an aggregate for every key that occurs. -/
def groupBy (agg : κ → List ρ → γ) (rows : List ρ) : List γ :=
  (keys key rows).map fun k => agg k (rowsOf key k rows)

variable {key} {rows : List ρ} {k : κ}

theorem mem_keys : k ∈ keys key rows ↔ ∃ r ∈ rows, key r = k := by
  rw [keys, List.mem_dedup, List.mem_map]

theorem nodup_keys : (keys key rows).Nodup := List.nodup_dedup _

theorem mem_groupBy {agg : κ → List ρ → γ} {g : γ} :
    g ∈ groupBy key agg rows ↔ ∃ k ∈ keys key rows, agg k (rowsOf key k rows) = g := List.mem_map

/-- A key that does not occur has no rows. -/
theorem rowsOf_eq_nil (hk : k ∉ keys key rows) : rowsOf key k rows = [] := by
  refine List.filter_eq_nil_iff.mpr fun r hr => ?_
  rw [decide_eq_true_iff]
  rintro rfl
  exact hk (mem_keys.mpr ⟨r, hr, rfl⟩)

/-- The groups are looked up by their keys. -/
theorem find_groupBy {agg : κ → List ρ → γ} {proj : γ → κ} (hproj : ∀ k l, proj (agg k l) = k) :
    (groupBy key agg rows).find? (fun g => proj g = k) =
      if k ∈ keys key rows then some (agg k (rowsOf key k rows)) else none := by
  rw [groupBy]
  induction keys key rows with
  | nil => rfl
  | cons k' ks ih =>
    rw [List.map_cons, List.find?_cons, hproj, ih]
    by_cases hk : k' = k
    · subst hk
      simp
    · simp [hk, Ne.symm hk]

/-- The order of the rows does not matter to an aggregate that their order does not matter to. -/
theorem groupBy_perm {agg : κ → List ρ → γ} (hagg : ∀ k l l', List.Perm l l' → agg k l = agg k l')
    {rows' : List ρ} (h : rows.Perm rows') : (groupBy key agg rows).Perm (groupBy key agg rows') := by
  have hkeys : (keys key rows).Perm (keys key rows') := by
    refine (List.perm_ext_iff_of_nodup nodup_keys nodup_keys).mpr fun k => ?_
    rw [mem_keys, mem_keys]
    exact exists_congr fun r => and_congr_left' h.mem_iff
  refine (hkeys.map _).trans (List.Perm.of_eq (List.map_congr_left fun k _ => ?_))
  exact hagg k _ _ (h.filter _)

/-- A condition on the key may be put to the rows or to the groups. -/
theorem groupBy_filter_key {agg : κ → List ρ → γ} {proj : γ → κ} (hproj : ∀ k l, proj (agg k l) = k)
    (p : κ → Bool) (rows : List ρ) :
    (groupBy key agg (rows.filter fun r => p (key r))).Perm
      ((groupBy key agg rows).filter fun g => p (proj g)) := by
  have hkeys : (keys key (rows.filter fun r => p (key r))).Perm ((keys key rows).filter p) := by
    refine (List.perm_ext_iff_of_nodup nodup_keys (nodup_keys.filter _)).mpr fun k => ?_
    simp only [mem_keys, List.mem_filter]
    constructor
    · rintro ⟨r, ⟨hr, hp⟩, rfl⟩
      exact ⟨⟨r, hr, rfl⟩, hp⟩
    · rintro ⟨⟨r, hr, rfl⟩, hp⟩
      exact ⟨r, ⟨hr, hp⟩, rfl⟩
  have hrows : ∀ k, p k = true → rowsOf key k (rows.filter fun r => p (key r)) = rowsOf key k rows := by
    intro k hk
    rw [rowsOf, rowsOf, List.filter_filter]
    refine List.filter_congr fun r _ => ?_
    by_cases hr : key r = k
    · rw [hr, hk, Bool.and_true]
    · rw [decide_eq_false hr, Bool.false_and]
  have hfilter : ((fun g => p (proj g)) ∘ fun k => agg k (rowsOf key k rows)) = p := by
    funext k
    exact congrArg p (hproj _ _)
  rw [groupBy, groupBy, List.filter_map, hfilter]
  refine (hkeys.map _).trans (List.Perm.of_eq (List.map_congr_left fun k hk => ?_))
  rw [hrows k (List.mem_filter.mp hk).2]

/-- By two keys, the groups with one value of the first are the groups of its rows by the second. -/
theorem groupBy_filter_perm {μ : Type*} [DecidableEq μ] {key₂ : ρ → μ} {agg : κ × μ → List ρ → γ}
    {proj : γ → κ} (hproj : ∀ k l, proj (agg k l) = k.1) (k : κ) (rows : List ρ) :
    ((groupBy (fun r => (key r, key₂ r)) agg rows).filter fun g => proj g = k).Perm
      (groupBy key₂ (fun m l => agg (k, m) l) (rowsOf key k rows)) := by
  have hfilter : ((fun g => decide (proj g = k)) ∘ fun k' : κ × μ =>
      agg k' (rowsOf (fun r => (key r, key₂ r)) k' rows)) = fun k' : κ × μ => decide (k'.1 = k) := by
    funext k'
    simp [hproj]
  have hrows : ∀ m, rowsOf (fun r => (key r, key₂ r)) (k, m) rows = rowsOf key₂ m (rowsOf key k rows) := by
    intro m
    simp only [rowsOf, List.filter_filter, Prod.mk.injEq, Bool.decide_and, Bool.and_comm]
  have hkeys : ((keys (fun r => (key r, key₂ r)) rows).filter fun k' => k'.1 = k).Perm
      ((keys key₂ (rowsOf key k rows)).map fun m => (k, m)) := by
    refine (List.perm_ext_iff_of_nodup (nodup_keys.filter _) (nodup_keys.map fun _ _ h => ?_)).mpr ?_
    · exact (Prod.mk.inj h).2
    · rintro ⟨k', m⟩
      simp only [List.mem_filter, mem_keys, List.mem_map, Prod.mk.injEq, decide_eq_true_iff, rowsOf]
      constructor
      · rintro ⟨⟨r, hr, rfl, rfl⟩, rfl⟩
        exact ⟨_, ⟨r, ⟨hr, rfl⟩, rfl⟩, rfl, rfl⟩
      · rintro ⟨m', ⟨r, ⟨hr, hk⟩, rfl⟩, rfl, rfl⟩
        exact ⟨⟨r, hr, hk, rfl⟩, rfl⟩
  rw [groupBy, List.filter_map, hfilter]
  refine (hkeys.map _).trans (List.Perm.of_eq ?_)
  rw [List.map_map, groupBy]
  exact List.map_congr_left fun m _ => congrArg (agg (k, m)) (hrows m)

/-- What the groups of some keys add up to is what their rows do. -/
theorem total_groups {g : ρ → ℕ} {ks : List κ} (hks : ks.Nodup) (rows : List ρ) :
    total (fun k => total g (rowsOf key k rows)) ks =
      total (fun r => if key r ∈ ks then g r else 0) rows := by
  induction rows with
  | nil => exact total_eq_zero fun _ _ => rfl
  | cons r rows ih =>
    rw [total_cons, ← ih]
    have hrow : ∀ k, total g (rowsOf key k (r :: rows)) =
        (if k = key r then g r else 0) + total g (rowsOf key k rows) := by
      intro k
      rw [rowsOf, List.filter_cons]
      by_cases hk : key r = k
      · rw [if_pos (decide_eq_true hk), total_cons, if_pos hk.symm]
        rfl
      · rw [if_neg (by simpa using hk), if_neg (Ne.symm hk), Nat.zero_add]
        rfl
    simp only [hrow]
    rw [total_add, total_ite_eq hks]

/-- The groups add up to the rows. -/
theorem total_groupBy {agg : κ → List ρ → γ} {m : γ → ℕ} {g : ρ → ℕ}
    (hm : ∀ k l, m (agg k l) = total g l) : total m (groupBy key agg rows) = total g rows := by
  have hgroups : total m (groupBy key agg rows) =
      total (fun k => total g (rowsOf key k rows)) (keys key rows) := by
    rw [total, groupBy, List.map_map, total]
    exact congrArg List.sum (List.map_congr_left fun k _ => hm k _)
  rw [hgroups, total_groups nodup_keys]
  exact total_congr fun r hr => if_pos (mem_keys.mpr ⟨r, hr, rfl⟩)

end Groups

/-! ## Lists in a map -/

section Push

variable {ρ κ γ : Type*} [DecidableEq κ] {key : ρ → κ} {value : ρ → γ}

/-- `map.get(key)!.push(value)`, with a new list for a new key. -/
def pushTo (key : ρ → κ) (value : ρ → γ) (map : κ → Option (List γ)) (r : ρ) : κ → Option (List γ) :=
  Function.update map (key r) (some ((map (key r)).getD [] ++ [value r]))

/-- The map that a loop fills has the values of each key in the order of the rows. -/
theorem getD_foldl_pushTo (rows : List ρ) (map : κ → Option (List γ)) (k : κ) :
    (rows.foldl (pushTo key value) map k).getD [] = (map k).getD [] ++ (rowsOf key k rows).map value := by
  induction rows generalizing map with
  | nil => simp [rowsOf]
  | cons r rows ih =>
    rw [List.foldl_cons, ih, pushTo, rowsOf, rowsOf, List.filter_cons]
    by_cases hk : key r = k
    · subst hk
      rw [Function.update_self, if_pos (decide_eq_true rfl)]
      simp
    · rw [Function.update_of_ne (Ne.symm hk), if_neg (by simpa using hk)]

end Push

/-! ## Entries of a map -/

section Entries

variable {ρ κ γ : Type*} [DecidableEq κ] (key : ρ → κ) (init : κ → γ) (add : γ → ρ → γ)

/-- `map.entry(key).or_insert(init)`, with a row added to it. -/
def addTo (map : AList fun _ : κ => γ) (r : ρ) : AList fun _ : κ => γ :=
  map.insert (key r) (add ((map.lookup (key r)).getD (init (key r))) r)

/-- What a loop leaves under a key: its rows, added one after the other. -/
theorem lookup_foldl_addTo (rows : List ρ) (map : AList fun _ : κ => γ) (k : κ) :
    (rows.foldl (addTo key init add) map).lookup k =
      if rowsOf key k rows = [] then map.lookup k
      else some ((rowsOf key k rows).foldl add ((map.lookup k).getD (init k))) := by
  induction rows generalizing map with
  | nil => rfl
  | cons r rows ih =>
    rw [List.foldl_cons, ih, addTo, rowsOf, rowsOf, List.filter_cons]
    by_cases hk : key r = k
    · subst hk
      rw [if_pos (decide_eq_true rfl), if_neg (List.cons_ne_nil _ _), AList.lookup_insert, Option.getD_some,
        List.foldl_cons]
      split
      · rename_i hnil
        rw [hnil, List.foldl_nil]
      · rfl
    · have hkey : ¬ decide (key r = k) = true := by simpa using hk
      rw [if_neg hkey, AList.lookup_insert_ne (Ne.symm hk)]

/-- The entries of a map that has one for each of some keys. -/
theorem entries_perm {map : AList fun _ : κ => γ} {ks : List κ} {f : κ → γ} (hks : ks.Nodup)
    (hlookup : ∀ k, map.lookup k = if k ∈ ks then some (f k) else none) :
    map.entries.Perm (ks.map fun k => ⟨k, f k⟩) := by
  refine (List.perm_ext_iff_of_nodup map.nodupKeys.nodup (hks.map fun _ _ h => congrArg Sigma.fst h)).mpr ?_
  rintro ⟨k, x⟩
  rw [← AList.mem_lookup_iff, Option.mem_def, hlookup, List.mem_map]
  constructor
  · intro h
    split at h
    · rename_i hk
      exact ⟨k, hk, by rw [Option.some.inj h]⟩
    · cases h
  · rintro ⟨k', hk', heq⟩
    obtain ⟨rfl, hx⟩ := Sigma.mk.inj heq
    rw [if_pos hk', eq_of_heq hx]

/-- The entries that a loop leaves are the keys with their groups. -/
theorem entries_foldl_addTo (rows : List ρ) :
    (rows.foldl (addTo key init add) ∅).entries.Perm
      ((keys key rows).map fun k => ⟨k, (rowsOf key k rows).foldl add (init k)⟩) := by
  refine entries_perm nodup_keys fun k => ?_
  rw [lookup_foldl_addTo, AList.lookup_empty]
  by_cases hk : k ∈ keys key rows
  · obtain ⟨r, hr, hkey⟩ := mem_keys.mp hk
    have hrows : rowsOf key k rows ≠ [] :=
      List.ne_nil_of_mem (List.mem_filter.mpr ⟨hr, decide_eq_true hkey⟩)
    rw [if_neg hrows, if_pos hk]
    rfl
  · rw [if_pos (rowsOf_eq_nil hk), if_neg hk]

/-- The values that a loop leaves are the groups. -/
theorem values_foldl_addTo (rows : List ρ) :
    ((rows.foldl (addTo key init add) ∅).entries.map Sigma.snd).Perm
      (groupBy key (fun k l => l.foldl add (init k)) rows) := by
  refine ((entries_foldl_addTo key init add rows).map _).trans (List.Perm.of_eq ?_)
  rw [List.map_map]
  rfl

end Entries

/-! ## Descending keys -/

/-- The entry at an index is that of the key which so many keys are above. -/
theorem getD_descending {β : Type*} [LinearOrder β] {l : List β} (hl : l.Pairwise (· > ·)) (f : β → ℕ)
    (k : ℕ) :
    (l.map f).getD k 0 = total (fun b => if (l.countP fun b' => b < b') = k then f b else 0) l := by
  induction l generalizing k with
  | nil => rfl
  | cons d l ih =>
    obtain ⟨hd, hl⟩ := List.pairwise_cons.mp hl
    have hfirst : ((d :: l).countP fun b' => d < b') = 0 := by
      refine List.countP_eq_zero.mpr fun b' hb' => ?_
      rcases List.mem_cons.mp hb' with rfl | hb'
      · simp
      · simpa using (hd b' hb').le
    have hrest : ∀ b ∈ l, ((d :: l).countP fun b' => b < b') = (l.countP fun b' => b < b') + 1 :=
      fun b hb => List.countP_cons_of_pos (decide_eq_true (hd b hb))
    rw [total_cons, hfirst]
    cases k with
    | zero =>
      have hzero : total (fun b => if ((d :: l).countP fun b' => b < b') = 0 then f b else 0) l = 0 :=
        total_eq_zero fun b hb => by rw [hrest b hb, if_neg (Nat.succ_ne_zero _)]
      rw [hzero, if_pos rfl, Nat.add_zero]
      rfl
    | succ k =>
      have hcongr : total (fun b => if ((d :: l).countP fun b' => b < b') = k + 1 then f b else 0) l =
          total (fun b => if (l.countP fun b' => b < b') = k then f b else 0) l :=
        total_congr fun b hb => by simp only [hrest b hb, Nat.add_right_cancel_iff]
      rw [hcongr, if_neg (Nat.succ_ne_zero k).symm, Nat.zero_add, ← ih hl]
      rfl

end Grouping
