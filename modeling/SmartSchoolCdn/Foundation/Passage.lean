import Mathlib.Data.List.Basic
import Mathlib.Data.Nat.Notation
import Mathlib.Logic.Function.Basic
import Mathlib.Order.Basic

/-!
# Writers that pass through registers

Writers enter one after another and write a row of registers in its order, one at a time; a
later write to a register replaces an earlier one.  A register is a number, and so is a writer,
by its turn of entering.

When no writer overtakes another, each register holds the value of the last writer that has
passed it (`InLine`), and once every writer has passed a register it holds the value of the last
writer that entered (`InLine.holder_of_passed`).
-/

namespace Passage

/-- How many registers each writer has passed, and the writer that each register holds. -/
structure Line where
  progress : List ℕ
  holder : ℕ → Option ℕ

namespace Line

/-- Nobody has entered. -/
def empty : Line := ⟨[], fun _ => none⟩

/-- A writer enters, and passes the first register. -/
def enter (l : Line) : Line :=
  ⟨l.progress ++ [1], Function.update l.holder 0 (some l.progress.length)⟩

/-- A writer passes its next register. -/
def advance (l : Line) (i k : ℕ) : Line :=
  ⟨l.progress.set i (k + 1), Function.update l.holder k (some i)⟩

end Line

/-- Nobody has overtaken anybody, and each register holds the last writer that has passed it. -/
structure InLine (l : Line) : Prop where
  ordered : ∀ {i j a b : ℕ}, i < j → l.progress[i]? = some a → l.progress[j]? = some b → b ≤ a
  passed : ∀ {r i : ℕ}, l.holder r = some i → ∃ a : ℕ, l.progress[i]? = some a ∧ r < a
  last : ∀ {r i j b : ℕ}, l.holder r = some i → i < j → l.progress[j]? = some b → b ≤ r
  unheld : ∀ {r j b : ℕ}, l.holder r = none → l.progress[j]? = some b → b ≤ r

variable {l : Line} {i k r : ℕ}

/-- The start. -/
theorem inLine_empty : InLine Line.empty where
  ordered _ hi := absurd hi (by simp [Line.empty])
  passed h := absurd h (by simp [Line.empty])
  last h := absurd h (by simp [Line.empty])
  unheld _ hj := absurd hj (by simp [Line.empty])

/-- Every writer has passed the first register. -/
def Entered (l : Line) : Prop := ∀ a ∈ l.progress, 1 ≤ a

/-- The writers after one more has entered. -/
lemma getElem?_enter {j b : ℕ} (h : (l.enter).progress[j]? = some b) :
    l.progress[j]? = some b ∨ j = l.progress.length ∧ b = 1 := by
  rcases Nat.lt_or_ge j l.progress.length with hj | hj
  · left
    rwa [Line.enter, List.getElem?_append_left hj] at h
  · right
    rw [Line.enter, List.getElem?_append_right hj, List.getElem?_singleton] at h
    split at h
    · exact ⟨by omega, (Option.some.inj h).symm⟩
    · cases h

/-- Entering keeps the line. -/
theorem InLine.enter (h : InLine l) (hentered : Entered l) : InLine l.enter where
  ordered {i j a b} hij hi hj := by
    rcases getElem?_enter hi with hi | ⟨rfl, rfl⟩
    · rcases getElem?_enter hj with hj | ⟨rfl, rfl⟩
      · exact h.ordered hij hi hj
      · exact hentered a (List.mem_of_getElem? hi)
    · rcases getElem?_enter hj with hj | ⟨rfl, -⟩
      · have hlt := (List.getElem?_eq_some_iff.mp hj).1
        omega
      · omega
  passed {r i} hr := by
    simp only [Line.enter, Function.update_apply] at hr ⊢
    split at hr
    · obtain rfl := Option.some.inj hr
      rename_i hzero
      exact ⟨1, by simp, by omega⟩
    · obtain ⟨a, ha, hra⟩ := h.passed hr
      have hlt := (List.getElem?_eq_some_iff.mp ha).1
      exact ⟨a, by rwa [List.getElem?_append_left hlt], hra⟩
  last {r i j b} hr hij hj := by
    simp only [Line.enter, Function.update_apply] at hr
    rcases getElem?_enter hj with hj | ⟨rfl, rfl⟩
    · split at hr
      · obtain rfl := Option.some.inj hr
        have hlt := (List.getElem?_eq_some_iff.mp hj).1
        omega
      · exact h.last hr hij hj
    · split at hr
      · obtain rfl := Option.some.inj hr
        omega
      · omega
  unheld {r j b} hr hj := by
    simp only [Line.enter, Function.update_apply] at hr
    split at hr
    · cases hr
    · rcases getElem?_enter hj with hj | ⟨-, rfl⟩
      · exact h.unheld hr hj
      · omega

/-- The writers after one has passed a register. -/
lemma getElem?_advance {j b : ℕ} (h : (l.advance i k).progress[j]? = some b) :
    (j ≠ i ∧ l.progress[j]? = some b) ∨ (j = i ∧ b = k + 1) := by
  simp only [Line.advance, List.getElem?_set] at h
  split at h
  · rename_i hij
    split at h
    · exact Or.inr ⟨hij.symm, (Option.some.inj h).symm⟩
    · cases h
  · rename_i hij
    exact Or.inl ⟨fun heq => hij heq.symm, h⟩

/-- A writer that passes a register after all writers before it keeps the line. -/
theorem InLine.advance (h : InLine l) (hi : l.progress[i]? = some k)
    (hahead : ∀ j < i, ∀ a, l.progress[j]? = some a → k < a) : InLine (l.advance i k) where
  ordered {j j' a b} hjj hj hj' := by
    rcases getElem?_advance hj with ⟨-, hold⟩ | ⟨rfl, rfl⟩
    · rcases getElem?_advance hj' with ⟨-, hold'⟩ | ⟨rfl, rfl⟩
      · exact h.ordered hjj hold hold'
      · exact hahead j hjj a hold
    · rcases getElem?_advance hj' with ⟨-, hold'⟩ | ⟨rfl, -⟩
      · have hle := h.ordered hjj hi hold'
        omega
      · omega
  passed {r j} hr := by
    have hlt := (List.getElem?_eq_some_iff.mp hi).1
    simp only [Line.advance, Function.update_apply] at hr ⊢
    split at hr
    · rename_i hrk
      obtain rfl := Option.some.inj hr
      exact ⟨k + 1, by rw [List.getElem?_set_self hlt], by omega⟩
    · obtain ⟨a, ha, hra⟩ := h.passed hr
      by_cases hij : i = j
      · subst hij
        obtain rfl := Option.some.inj (hi.symm.trans ha)
        exact ⟨k + 1, by rw [List.getElem?_set_self hlt], by omega⟩
      · exact ⟨a, by rwa [List.getElem?_set_ne hij], hra⟩
  last {r j j' b} hr hjj hj' := by
    simp only [Line.advance, Function.update_apply] at hr
    split at hr
    · rename_i hrk
      obtain rfl := Option.some.inj hr
      rcases getElem?_advance hj' with ⟨-, hj'⟩ | ⟨rfl, -⟩
      · have hle := h.ordered hjj hi hj'
        omega
      · omega
    · rename_i hrk
      rcases getElem?_advance hj' with ⟨-, hj'⟩ | ⟨rfl, rfl⟩
      · exact h.last hr hjj hj'
      · have hle := h.last hr hjj hi
        omega
  unheld {r j b} hr hj := by
    simp only [Line.advance, Function.update_apply] at hr
    split at hr
    · cases hr
    · rename_i hrk
      rcases getElem?_advance hj with ⟨-, hj⟩ | ⟨rfl, rfl⟩
      · exact h.unheld hr hj
      · have hle := h.unheld hr hi
        omega

/-- A register that every writer has passed holds the last one. -/
theorem InLine.holder_of_passed (h : InLine l) (hpassed : ∀ a ∈ l.progress, r < a)
    (hne : l.progress ≠ []) : l.holder r = some (l.progress.length - 1) := by
  have hpos := List.length_pos_iff.mpr hne
  have hlast : l.progress[l.progress.length - 1]? = some (l.progress.getLast hne) := by
    rw [List.getLast_eq_getElem, List.getElem?_eq_getElem (by omega)]
  have hlt := hpassed _ (List.mem_of_getElem? hlast)
  cases hr : l.holder r with
  | none => exact absurd (h.unheld hr hlast) (by omega)
  | some i =>
    obtain ⟨a, ha, -⟩ := h.passed hr
    have hi := (List.getElem?_eq_some_iff.mp ha).1
    have hnot : ¬ i < l.progress.length - 1 := fun hij => by
      have hle := h.last hr hij hlast
      omega
    have heq : i = l.progress.length - 1 := by omega
    rw [heq]

end Passage
