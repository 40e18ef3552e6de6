import SmartSchoolCdn.Foundation.Totals
import Mathlib.Data.List.Infix

/-!
# Shortest prefixes

The shortest prefix of a list whose items add up to a bound, the whole list if they do not.
There is exactly one (`ShortestPrefix.unique`), and a loop that takes items from the front until
it has enough finds it (`shortestPrefix_takeReaching`).
-/

namespace Tables

universe u v

variable {ρ : Type u} {g : ρ → ℕ} {l p q : List ρ} {x : ρ} {n m : ℕ}

/-- `p` is the shortest prefix of `l` that adds up to at least `n`, or all of `l`. -/
structure ShortestPrefix (g : ρ → ℕ) (n : ℕ) (p l : List ρ) : Prop where
  isPrefix : p <+: l
  reaches : n ≤ total g p ∨ p = l
  shortest : ∀ q, q <+: p → q ≠ p → total g q < n

/-- A prefix adds up to at most as much. -/
theorem total_le_of_part (h : p <+: l) : total g p ≤ total g l := by
  obtain ⟨rest, rfl⟩ := h
  rw [total_append]
  exact Nat.le_add_right _ _

/-- Of two prefixes of one list neither can be a proper prefix of the other. -/
theorem ShortestPrefix.unique (hp : ShortestPrefix g n p l) (hq : ShortestPrefix g n q l) : p = q := by
  have hnot : ∀ {p q : List ρ}, ShortestPrefix g n p l → ShortestPrefix g n q l → p <+: q → p = q := by
    intro p q hp hq hpq
    by_contra hne
    have hless := hq.shortest p hpq hne
    rcases hp.reaches with henough | rfl
    · omega
    · exact hne (hpq.eq_of_length (le_antisymm hpq.length_le hq.isPrefix.length_le))
  rcases List.prefix_or_prefix_of_prefix hp.isPrefix hq.isPrefix with h | h
  · exact hnot hp hq h
  · exact (hnot hq hp h).symm

/-- Nothing is needed. -/
theorem shortestPrefix_nil : ShortestPrefix g 0 [] l where
  isPrefix := List.nil_prefix
  reaches := Or.inl (Nat.zero_le _)
  shortest := fun _ hq hne => absurd (List.prefix_nil.mp hq) hne

/-- The first item is taken when something is needed. -/
theorem ShortestPrefix.cons (h : ShortestPrefix g (m - g x) p l) (hm : 0 < m) :
    ShortestPrefix g m (x :: p) (x :: l) where
  isPrefix := List.cons_prefix_cons.mpr ⟨rfl, h.isPrefix⟩
  reaches := by
    rcases h.reaches with henough | rfl
    · left
      rw [total_cons]
      omega
    · exact Or.inr rfl
  shortest := by
    intro q hq hne
    cases q with
    | nil => exact hm
    | cons y q =>
      obtain ⟨rfl, hqp⟩ := List.cons_prefix_cons.mp hq
      have hless := h.shortest q hqp fun heq => hne (congrArg _ heq)
      rw [total_cons]
      omega

/-- The prefix of the images, which add up to the same. -/
theorem ShortestPrefix.map {σ : Type v} {g' : σ → ℕ} (h : ShortestPrefix g n p l) (f : ρ → σ)
    (hf : ∀ x ∈ l, g x = g' (f x)) : ShortestPrefix g' n (p.map f) (l.map f) := by
  have htotal : ∀ q, q <+: l → total g' (q.map f) = total g q := by
    intro q hq
    rw [total, total, List.map_map]
    exact congrArg List.sum (List.map_congr_left fun x hx => (hf x (hq.subset hx)).symm)
  refine ⟨h.isPrefix.map f, ?_, ?_⟩
  · rw [htotal p h.isPrefix]
    exact h.reaches.imp_right (congrArg (List.map f))
  · intro q hq hne
    obtain ⟨q', hq', rfl⟩ := List.prefix_map_iff.mp hq
    rw [htotal q' (hq'.trans h.isPrefix)]
    exact h.shortest q' hq' fun heq => hne (congrArg _ heq)

/-- The loop that takes items from the front until it has `n`; `got` is what it has so far. -/
def takeReaching (g : ρ → ℕ) (n : ℕ) : ℕ → List ρ → List ρ
  | _, [] => []
  | got, x :: l => if n ≤ got then [] else x :: takeReaching g n (got + g x) l

/-- The loop finds the shortest prefix that adds up to what is missing. -/
theorem shortestPrefix_takeReaching (g : ρ → ℕ) (n got : ℕ) (l : List ρ) :
    ShortestPrefix g (n - got) (takeReaching g n got l) l := by
  induction l generalizing got with
  | nil =>
    refine ⟨List.nil_prefix, Or.inr rfl, fun q hq hne => ?_⟩
    exact absurd (List.prefix_nil.mp hq) hne
  | cons x l ih =>
    rw [takeReaching]
    split
    · rename_i hdone
      rw [Nat.sub_eq_zero_of_le hdone]
      exact shortestPrefix_nil
    · have hrest := ih (got + g x)
      rw [← Nat.sub_sub] at hrest
      exact hrest.cons (by omega)

end Tables
