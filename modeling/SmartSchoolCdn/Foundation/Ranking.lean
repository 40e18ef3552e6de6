import Mathlib.Data.List.NodupEquivFin
import Mathlib.Data.List.Sort
import Mathlib.Order.Lattice
import Mathlib.Order.WellFounded

/-!
# Rankings, their pages and their tops

A comparison is what a clause `ORDER BY` is made of: columns, reversed or not, one after the
other.  A ranking of some rows has each of them once and is sorted; where the comparison
tells any two of the rows apart, there is one ranking only (`IsRanking.unique`).

Pages of one size cut a list without loss (`flatMap_pages`).  The first rows of a ranking by a
stable sort are those that few rows are ahead of (`mem_take_sort`), and a condition may be put
to them instead of to all rows when they settle it (`Settles.filter_take`).
-/

namespace Ranking

/-! ## Pages -/

section Pages

variable {α : Type*}

/-- The page of a size from an offset on. -/
def page (size offset : ℕ) (rows : List α) : List α := (rows.drop offset).take size

/-- The first pages of a list are its beginning. -/
theorem flatMap_pages (size n : ℕ) (rows : List α) :
    ((List.range n).flatMap fun k => page size (k * size) rows) = rows.take (n * size) := by
  induction n with
  | zero => simp
  | succ n ih =>
    rw [List.range_succ, List.flatMap_append, ih, List.flatMap_singleton, page, Nat.succ_mul, List.take_add]

/-- A page is empty from the end of the list on. -/
theorem page_eq_nil_iff {size : ℕ} (hsize : 0 < size) (offset : ℕ) (rows : List α) :
    page size offset rows = [] ↔ rows.length ≤ offset := by
  rw [page, List.take_eq_nil_iff, List.drop_eq_nil_iff]
  exact or_iff_right hsize.ne'

/-- There is a first empty page, and the pages before it are the list. -/
theorem exists_first_empty_page {size : ℕ} (hsize : 0 < size) (rows : List α) :
    ∃ n, page size (n * size) rows = [] ∧ (∀ k < n, page size (k * size) rows ≠ []) ∧
      ((List.range n).flatMap fun k => page size (k * size) rows) = rows := by
  have hex : ∃ n, rows.length ≤ n * size := ⟨rows.length, Nat.le_mul_of_pos_right _ hsize⟩
  refine ⟨Nat.find hex, (page_eq_nil_iff hsize _ _).mpr (Nat.find_spec hex), fun k hk => ?_, ?_⟩
  · rw [ne_eq, page_eq_nil_iff hsize]
    exact Nat.find_min hex hk
  · rw [flatMap_pages]
    exact List.take_of_length_le (Nat.find_spec hex)

/-- An element of a list that grows, by insertions anywhere, does not slip between the pages that are
taken one after the other: when a page is empty, it has been on one before. -/
theorem exists_page_of_growing {size n : ℕ} (hsize : 0 < size) {lists : ℕ → List α}
    (hgrow : ∀ k < n, (lists k).Sublist (lists (k + 1))) (hend : page size (n * size) (lists n) = [])
    {x : α} (hx : x ∈ lists 0) : ∃ k < n, x ∈ page size (k * size) (lists k) := by
  by_contra! hnot
  -- not on the pages so far, the element is behind them
  have hbehind : ∀ k ≤ n, ∃ i, k * size ≤ i ∧ (lists k)[i]? = some x := by
    intro k hk
    induction k with
    | zero =>
      obtain ⟨i, hi⟩ := List.mem_iff_getElem?.mp hx
      exact ⟨i, by omega, hi⟩
    | succ k ih =>
      obtain ⟨i, hle, hi⟩ := ih (by omega)
      obtain ⟨f, hf⟩ := List.sublist_iff_exists_orderEmbedding_getElem?_eq.mp (hgrow k (by omega))
      have hpast : (k + 1) * size ≤ i := by
        by_contra! hlt
        refine hnot k (by omega) (List.mem_iff_getElem?.mpr ⟨i - k * size, ?_⟩)
        rw [Nat.succ_mul] at hlt
        rw [page, List.getElem?_take_of_lt (by omega), List.getElem?_drop, Nat.add_sub_cancel' hle, hi]
      exact ⟨f i, hpast.trans (f.strictMono.le_apply), by rw [← hf, hi]⟩
  obtain ⟨i, hle, hi⟩ := hbehind n le_rfl
  obtain ⟨hlt, -⟩ := List.getElem?_eq_some_iff.mp hi
  have := (page_eq_nil_iff hsize _ _).mp hend
  omega

end Pages

/-! ## Conditions on the top of a list -/

section Tops

variable {α : Type*} {l : List α} {p : α → Bool} {k : ℕ}

/-- The first `k` elements have all that meet the condition, or only such. -/
def Settles (p : α → Bool) (k : ℕ) (l : List α) : Prop :=
  (∀ x ∈ l.drop k, p x = false) ∨ ∀ x ∈ l.take k, p x = true

/-- Then the condition may be put to the top instead of to the list. -/
theorem Settles.filter_take (h : Settles p k l) : (l.take k).filter p = (l.filter p).take k := by
  have hsplit : l.filter p = (l.take k).filter p ++ (l.drop k).filter p := by
    rw [← List.filter_append, List.take_append_drop]
  have hlength : ((l.take k).filter p).length ≤ k :=
    (List.length_filter_le _ _).trans (List.length_take_le _ _)
  have hdrop : (l.drop k).filter p = [] → (l.take k).filter p = (l.filter p).take k := by
    intro hnil
    rw [hsplit, hnil, List.append_nil, List.take_of_length_le hlength]
  rcases h with h | h
  · exact hdrop (List.filter_eq_nil_iff.mpr fun x hx => by simp [h x hx])
  · by_cases hk : k ≤ l.length
    · rw [hsplit, List.filter_eq_self.mpr h]
      exact (List.take_left' (by rw [List.length_take, Nat.min_eq_left hk])).symm
    · refine hdrop ?_
      rw [List.drop_eq_nil_of_le (by omega), List.filter_nil]

/-- If the top has as many elements that meet the condition as it can have, it settles it. -/
theorem settles_of_countP (h : (l.take k).countP p = min k (l.countP p)) : Settles p k l := by
  by_cases hdrop : ∀ x ∈ l.drop k, p x = false
  · exact Or.inl hdrop
  · right
    have hpos : 0 < (l.drop k).countP p := by
      rw [List.countP_pos_iff]
      by_contra! hcon
      exact hdrop fun x hx => by simpa using hcon x hx
    have hcount : l.countP p = (l.take k).countP p + (l.drop k).countP p := by
      rw [← List.countP_append, List.take_append_drop]
    have hlength : (l.take k).length ≤ k := List.length_take_le _ _
    have hle : (l.take k).countP p ≤ (l.take k).length := List.countP_le_length
    exact List.countP_eq_length.mp (by omega)

end Tops

/-! ## Comparisons and rankings -/

/-- A comparison of rows; rows that come in either order are tied. -/
structure Comparison (α : Type*) where
  le : α → α → Bool
  trans : ∀ {a b c}, le a b = true → le b c = true → le a c = true
  total : ∀ a b, le a b = true ∨ le b a = true

namespace Comparison

variable {α β : Type*}

/-- By a column, the smallest value first. -/
def column [LinearOrder β] (f : α → β) : Comparison α where
  le a b := decide (f a ≤ f b)
  trans hab hbc := decide_eq_true (le_trans (of_decide_eq_true hab) (of_decide_eq_true hbc))
  total a b := (le_total (f a) (f b)).imp decide_eq_true decide_eq_true

/-- The other way round. -/
def descending (c : Comparison α) : Comparison α where
  le a b := c.le b a
  trans hab hbc := c.trans hbc hab
  total a b := c.total b a

/-- By a second comparison where the first has a tie. -/
def thenBy (c d : Comparison α) : Comparison α where
  le a b := c.le a b && (!c.le b a || d.le a b)
  trans {x y z} hab hbc := by
    simp only [Bool.and_eq_true, Bool.or_eq_true, Bool.not_eq_true'] at hab hbc ⊢
    refine ⟨c.trans hab.1 hbc.1, ?_⟩
    cases hca : c.le z x with
    | false => exact Or.inl rfl
    | true =>
      have hba : c.le y x = true := c.trans hbc.1 hca
      have hcb : c.le z y = true := c.trans hca hab.1
      rw [hba] at hab
      rw [hcb] at hbc
      exact Or.inr (d.trans (hab.2.resolve_left (by simp)) (hbc.2.resolve_left (by simp)))
  total a b := by
    simp only [Bool.and_eq_true, Bool.or_eq_true, Bool.not_eq_true']
    cases hab : c.le a b with
    | false => exact Or.inr ⟨(c.total a b).resolve_left (by simp [hab]), Or.inl rfl⟩
    | true =>
      cases hba : c.le b a with
      | false => exact Or.inl ⟨rfl, Or.inl rfl⟩
      | true => exact (d.total a b).imp (fun h => ⟨rfl, Or.inr h⟩) fun h => ⟨rfl, Or.inr h⟩

theorem tie_column [LinearOrder β] {f : α → β} {a b : α} (hab : (column f).le a b = true)
    (hba : (column f).le b a = true) : f a = f b :=
  le_antisymm (of_decide_eq_true hab) (of_decide_eq_true hba)

/-- A tie of two comparisons is one of the second. -/
theorem tie_thenBy {c d : Comparison α} {a b : α} (hab : (c.thenBy d).le a b = true)
    (hba : (c.thenBy d).le b a = true) : d.le a b = true ∧ d.le b a = true := by
  simp only [thenBy, Bool.and_eq_true, Bool.or_eq_true, Bool.not_eq_true'] at hab hba
  exact ⟨hab.2.resolve_left (by simp [hba.1]), hba.2.resolve_left (by simp [hab.1])⟩

/-- Sort rows; tied rows stay as they are. -/
def sort (c : Comparison α) (rows : List α) : List α := rows.insertionSort fun a b => c.le a b = true

/-- What a sort of the rows may answer, with ties in any order. -/
def IsRanking (c : Comparison α) (rows ranked : List α) : Prop :=
  ranked.Perm rows ∧ ranked.Pairwise fun a b => c.le a b = true

variable {c : Comparison α} {rows ranked ranked' top : List α} {k : ℕ}

theorem isRanking_sort : c.IsRanking rows (c.sort rows) := by
  have : Std.Total fun a b => c.le a b = true := ⟨c.total⟩
  have : IsTrans α fun a b => c.le a b = true := ⟨fun _ _ _ => c.trans⟩
  exact ⟨List.perm_insertionSort _ rows, List.pairwise_insertionSort _ rows⟩

/-- There is one ranking when no two rows are tied. -/
theorem IsRanking.unique (hties : ∀ a ∈ rows, ∀ b ∈ rows, c.le a b = true → c.le b a = true → a = b)
    (h : c.IsRanking rows ranked) (h' : c.IsRanking rows ranked') : ranked = ranked' :=
  List.Perm.eq_of_pairwise
    (fun a b ha hb => hties a (h.1.mem_iff.mp ha) b (h'.1.mem_iff.mp hb)) h.2 h'.2 (h.1.trans h'.1.symm)

/-- The rows of a ranking that meet a condition are a ranking of those rows. -/
theorem IsRanking.filter (h : c.IsRanking rows ranked) (p : α → Bool) :
    c.IsRanking (rows.filter p) (ranked.filter p) :=
  ⟨h.1.filter p, h.2.filter p⟩

/-- When no two rows are tied, the ranking of some of the rows is the ranking of all without the others. -/
theorem IsRanking.sublist (hties : ∀ a ∈ rows, ∀ b ∈ rows, c.le a b = true → c.le b a = true → a = b)
    (h : c.IsRanking rows ranked) {p : α → Bool} {part : List α} (h' : c.IsRanking (rows.filter p) part) :
    part.Sublist ranked := by
  have hpart : part = ranked.filter p := by
    refine h'.unique (fun a ha b hb => ?_) (h.filter p)
    exact hties a (List.mem_of_mem_filter ha) b (List.mem_of_mem_filter hb)
  rw [hpart]
  exact List.filter_sublist

/-- A function that keeps the order takes a ranking to one of the images. -/
theorem IsRanking.map {d : Comparison β} {f : α → β} (h : c.IsRanking rows ranked)
    (hf : ∀ a ∈ rows, ∀ b ∈ rows, c.le a b = true → d.le (f a) (f b) = true) :
    d.IsRanking (rows.map f) (ranked.map f) :=
  ⟨h.1.map f, List.pairwise_map.mpr (h.2.imp_of_mem fun ha hb =>
    hf _ (h.1.mem_iff.mp ha) _ (h.1.mem_iff.mp hb))⟩

/-- The first `k` rows of some ranking. -/
def IsTop (c : Comparison α) (k : ℕ) (rows top : List α) : Prop :=
  ∃ ranked, c.IsRanking rows ranked ∧ top = ranked.take k

theorem IsTop.length (h : c.IsTop k rows top) : top.length = min k rows.length := by
  obtain ⟨ranked, hranked, rfl⟩ := h
  rw [List.length_take, hranked.1.length_eq]

/-! ### The places in a stable sort -/

section Places

variable [DecidableEq α]

/-- In a list without repetition, one element stands in front of another when its index is
smaller. -/
lemma pair_sublist_iff {l : List α} (hl : l.Nodup) {a b : α} (hb : b ∈ l) :
    [a, b].Sublist l ↔ l.idxOf a < l.idxOf b := by
  induction l with
  | nil => cases hb
  | cons d l ih =>
    obtain ⟨hd, hl⟩ := List.nodup_cons.mp hl
    by_cases had : a = d
    · subst had
      by_cases hba : b = a
      · subst hba
        simp [hd]
      · have hbl : b ∈ l := (List.mem_cons.mp hb).resolve_left hba
        rw [List.cons_sublist_cons, List.singleton_sublist, List.idxOf_cons_self,
          List.idxOf_cons_ne _ (Ne.symm hba)]
        exact iff_of_true hbl (Nat.succ_pos _)
    · have hsub : [a, b].Sublist (d :: l) ↔ [a, b].Sublist l := by
        constructor
        · intro h
          cases h with
          | cons _ h => exact h
          | cons_cons _ h => exact absurd rfl had
        · exact fun h => h.cons d
      rw [hsub, List.idxOf_cons_ne _ (Ne.symm had)]
      by_cases hbd : b = d
      · subst hbd
        rw [List.idxOf_cons_self]
        refine iff_of_false (fun h => hd (h.subset (by simp))) (Nat.not_lt_zero _)
      · rw [List.idxOf_cons_ne _ (Ne.symm hbd), ih hl ((List.mem_cons.mp hb).resolve_left hbd)]
        exact Nat.succ_lt_succ_iff.symm

/-- In a list without repetition, as many elements have a smaller index as the index says. -/
lemma countP_idxOf_lt {l : List α} (hl : l.Nodup) {x : α} (hx : x ∈ l) :
    (l.countP fun y => l.idxOf y < l.idxOf x) = l.idxOf x := by
  obtain ⟨pre, post, rfl⟩ := List.append_of_mem hx
  have hnot : x ∉ pre := fun h => (List.nodup_append.mp hl).2.2 x h x (by simp) rfl
  have hidx : (pre ++ x :: post).idxOf x = pre.length := by
    rw [List.idxOf_append_of_notMem hnot, List.idxOf_cons_self, Nat.add_zero]
  rw [hidx, List.countP_append]
  have hpre : (pre.countP fun y => (pre ++ x :: post).idxOf y < pre.length) = pre.length := by
    refine List.countP_eq_length.mpr fun y hy => decide_eq_true ?_
    rw [List.idxOf_append_of_mem hy]
    exact List.idxOf_lt_length_of_mem hy
  have hpost : ((x :: post).countP fun y => (pre ++ x :: post).idxOf y < pre.length) = 0 := by
    refine List.countP_eq_zero.mpr fun y hy => ?_
    have hy' : y ∉ pre := fun h => (List.nodup_append.mp hl).2.2 y h y hy rfl
    rw [List.idxOf_append_of_notMem hy', decide_eq_true_iff]
    omega
  rw [hpre, hpost, Nat.add_zero]

/-- A row is ahead of another when it comes first in the order or, of tied rows, in the list. -/
def ahead (c : Comparison α) (rows : List α) (a b : α) : Bool :=
  c.le a b && (!c.le b a || rows.idxOf a < rows.idxOf b)

/-- The sort puts the rows that are ahead in front. -/
theorem idxOf_sort_lt_iff (hrows : rows.Nodup) {a b : α} (ha : a ∈ rows) (hb : b ∈ rows) :
    (c.sort rows).idxOf a < (c.sort rows).idxOf b ↔ c.ahead rows a b = true := by
  have hrank : c.IsRanking rows (c.sort rows) := isRanking_sort
  have hnodup : (c.sort rows).Nodup := hrank.1.nodup_iff.mpr hrows
  have ha' : a ∈ c.sort rows := hrank.1.mem_iff.mpr ha
  have hb' : b ∈ c.sort rows := hrank.1.mem_iff.mpr hb
  have hle : ∀ {x y}, [x, y].Sublist (c.sort rows) → c.le x y = true :=
    fun h => List.pairwise_iff_forall_sublist.mp hrank.2 h
  have hstable : ∀ {x y}, y ∈ rows → c.le x y = true → rows.idxOf x < rows.idxOf y →
      (c.sort rows).idxOf x < (c.sort rows).idxOf y := by
    intro x y hy hxy hlt
    refine (pair_sublist_iff hnodup (hrank.1.mem_iff.mpr hy)).mp ?_
    exact List.pair_sublist_insertionSort hxy ((pair_sublist_iff hrows hy).mpr hlt)
  simp only [ahead, Bool.and_eq_true, Bool.or_eq_true, Bool.not_eq_true', decide_eq_true_iff]
  constructor
  · intro hlt
    have hab := hle ((pair_sublist_iff hnodup hb').mpr hlt)
    refine ⟨hab, ?_⟩
    by_contra! hcon
    have hba : c.le b a = true := by simpa using hcon.1
    have hne : rows.idxOf a ≠ rows.idxOf b := by
      intro h
      rw [(List.idxOf_inj ha).mp h] at hlt
      exact lt_irrefl _ hlt
    have := hstable ha hba (lt_of_le_of_ne hcon.2 hne.symm)
    omega
  · rintro ⟨hab, hba | hlt⟩
    · by_contra! hcon
      have hne : (c.sort rows).idxOf b ≠ (c.sort rows).idxOf a := by
        intro h
        rw [(List.idxOf_inj hb').mp h] at hba
        rw [(List.idxOf_inj hb').mp h, hba] at hab
        cases hab
      have := hle ((pair_sublist_iff hnodup ha').mpr (lt_of_le_of_ne hcon hne))
      rw [this] at hba
      cases hba
    · exact hstable hb hab hlt

/-- The first `k` rows of the sort are those that fewer than `k` rows are ahead of. -/
theorem mem_take_sort (hrows : rows.Nodup) {x : α} (hx : x ∈ rows) :
    x ∈ (c.sort rows).take k ↔ (rows.countP fun y => c.ahead rows y x) < k := by
  have hrank : c.IsRanking rows (c.sort rows) := isRanking_sort
  have hx' : x ∈ c.sort rows := hrank.1.mem_iff.mpr hx
  have hcount : (rows.countP fun y => c.ahead rows y x) = (c.sort rows).idxOf x := by
    rw [← countP_idxOf_lt (hrank.1.nodup_iff.mpr hrows) hx', ← hrank.1.countP_eq]
    refine List.countP_congr fun y hy => ?_
    rw [decide_eq_true_iff, idxOf_sort_lt_iff hrows (hrank.1.mem_iff.mp hy) hx]
  rw [hcount, List.mem_take_iff_idxOf_lt hx']

/-- What it means for the rows that the top of their sort settles a condition: the rows that
meet it have few rows ahead of them, or only they have few. -/
theorem settles_sort_iff (hrows : rows.Nodup) {p : α → Bool} :
    Settles p k (c.sort rows) ↔
      (∀ x ∈ rows, p x = true → (rows.countP fun y => c.ahead rows y x) < k) ∨
        ∀ x ∈ rows, (rows.countP fun y => c.ahead rows y x) < k → p x = true := by
  have hrank : c.IsRanking rows (c.sort rows) := isRanking_sort
  have hnodup : (c.sort rows).Nodup := hrank.1.nodup_iff.mpr hrows
  have hsplit : (c.sort rows).take k ++ (c.sort rows).drop k = c.sort rows := List.take_append_drop _ _
  have hdisjoint : ∀ x ∈ (c.sort rows).drop k, x ∉ (c.sort rows).take k := by
    intro x hx hx'
    rw [← hsplit] at hnodup
    exact (List.nodup_append.mp hnodup).2.2 x hx' x hx rfl
  refine or_congr ⟨fun h x hx hp => ?_, fun h x hx => ?_⟩ ⟨fun h x hx hlt => ?_, fun h x hx => ?_⟩
  · rw [← mem_take_sort hrows hx]
    have hmem : x ∈ (c.sort rows).take k ++ (c.sort rows).drop k := by
      rw [hsplit]
      exact hrank.1.mem_iff.mpr hx
    refine (List.mem_append.mp hmem).resolve_right fun hd => ?_
    rw [h x hd] at hp
    cases hp
  · have hx' : x ∈ rows := hrank.1.mem_iff.mp (List.mem_of_mem_drop hx)
    by_contra hp
    exact hdisjoint x hx ((mem_take_sort hrows hx').mpr (h x hx' (by simpa using hp)))
  · exact h x ((mem_take_sort hrows hx).mpr hlt)
  · have hx' : x ∈ rows := hrank.1.mem_iff.mp (List.mem_of_mem_take hx)
    exact h x hx' ((mem_take_sort hrows hx').mp hx)

end Places

end Comparison

end Ranking
