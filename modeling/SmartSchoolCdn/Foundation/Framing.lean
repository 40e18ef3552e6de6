import Mathlib.Data.List.Infix

/-!
# Reading frames from a stream in chunks

A framing takes the next frame from the front of a buffer, if it is there as a whole.  Taking a
frame makes the buffer shorter, and what arrives behind a frame does not change it.  Then a
reader that takes all frames from its buffer each time a chunk arrives, and keeps the rest,
reads what one who has the whole stream reads (`Feeds.reads`).

On a stream of encoded frames, a reader that has seen some of it has read the first frames and
keeps a part of the next one (`Reads.of_prefix`).
-/

namespace Streams

/-- The next frame of a buffer and what is behind it. -/
structure Framing (α β : Type*) where
  next : List β → Option (α × List β)
  shrinks : ∀ {l a rest}, next l = some (a, rest) → rest.length < l.length
  stable : ∀ {l a rest} (m : List β), next l = some (a, rest) → next (l ++ m) = some (a, rest ++ m)

variable {α β γ : Type*} (f : Framing α β)

/-- All frames that a buffer has as a whole, and the rest. -/
inductive Reads : List β → List α → List β → Prop
  | stop {l : List β} (h : f.next l = none) : Reads l [] l
  | frame {l l' : List β} {a : α} {as : List α} {rest : List β} (h : f.next l = some (a, l'))
      (hr : Reads l' as rest) : Reads l (a :: as) rest

/-- A reader with a buffer, to which chunks arrive. -/
inductive Feeds : List β → List (List β) → List α → List β → Prop
  | nil {buf : List β} : Feeds buf [] [] buf
  | cons {buf chunk rest rest' : List β} {chunks : List (List β)} {as bs : List α}
      (h : Reads f (buf ++ chunk) as rest) (hr : Feeds rest chunks bs rest') :
      Feeds buf (chunk :: chunks) (as ++ bs) rest'

variable {f} {l m rest rest' : List β} {as bs : List α}

/-- There is no frame in an empty buffer. -/
theorem Framing.next_nil (f : Framing α β) : f.next [] = none := by
  cases h : f.next [] with
  | none => rfl
  | some r => exact absurd (f.shrinks h) (Nat.not_lt_zero _)

/-- What is left begins with no whole frame. -/
theorem Reads.stopped (h : Reads f l as rest) : f.next rest = none := by
  induction h with
  | stop h => exact h
  | frame _ _ ih => exact ih

/-- The frames and the rest are determined. -/
theorem Reads.unique (h : Reads f l as rest) (h' : Reads f l bs rest') : as = bs ∧ rest = rest' := by
  induction h generalizing bs with
  | stop h =>
    cases h' with
    | stop => exact ⟨rfl, rfl⟩
    | frame h' => simp [h] at h'
  | frame h _ ih =>
    cases h' with
    | stop h' => simp [h] at h'
    | frame h' hr' =>
      rw [h, Option.some.injEq, Prod.mk.injEq] at h'
      obtain ⟨rfl, rfl⟩ := h'
      obtain ⟨rfl, rfl⟩ := ih hr'
      exact ⟨rfl, rfl⟩

/-- What is left is not longer. -/
theorem Reads.length_le (h : Reads f l as rest) : rest.length ≤ l.length := by
  induction h with
  | stop _ => exact le_rfl
  | frame h _ ih => exact ih.trans (f.shrinks h).le

/-- Reading on with the rest reads what the whole has. -/
theorem Reads.append (h : Reads f l as rest) (h' : Reads f (rest ++ m) bs rest') :
    Reads f (l ++ m) (as ++ bs) rest' := by
  induction h with
  | stop _ => exact h'
  | frame h _ ih => exact .frame (f.stable m h) (ih h')

/-- The chunks do not matter. -/
theorem Feeds.reads {buf : List β} {chunks : List (List β)} (hbuf : f.next buf = none)
    (h : Feeds f buf chunks as rest) : Reads f (buf ++ chunks.flatten) as rest := by
  induction h with
  | nil =>
    rw [List.flatten_nil, List.append_nil]
    exact .stop hbuf
  | cons h _ ih =>
    rw [List.flatten_cons, ← List.append_assoc]
    exact h.append (ih h.stopped)

/-! ## Streams of encoded frames -/

section Encoded

variable {enc : γ → List β} {item : γ → α} (henc : ∀ g m, f.next (enc g ++ m) = some (item g, m))

include henc

/-- Encoded frames are read one after the other. -/
theorem reads_encoded (gs : List γ) {tail : List β} (htail : f.next tail = none) :
    Reads f (gs.flatMap enc ++ tail) (gs.map item) tail := by
  induction gs with
  | nil => exact .stop htail
  | cons g gs ih =>
    rw [List.flatMap_cons, List.append_assoc, List.map_cons]
    exact .frame (henc g _) ih

/-- Of the beginning of a stream of frames, the first ones are read, and what is left is a part
of the next one. -/
theorem Reads.of_prefix (hpart : ∀ g part, part <+: enc g → part.length < (enc g).length →
    f.next part = none) {gs : List γ} (hl : l <+: gs.flatMap enc) (h : Reads f l as rest) :
    ∃ n, as = (gs.take n).map item ∧ l = (gs.take n).flatMap enc ++ rest ∧
      ∀ g ∈ (gs.drop n).head?, rest <+: enc g ∧ rest.length < (enc g).length := by
  induction gs generalizing l as with
  | nil =>
    obtain rfl : l = [] := List.prefix_nil.mp hl
    obtain ⟨rfl, rfl⟩ := h.unique (.stop f.next_nil)
    exact ⟨0, rfl, rfl, by simp⟩
  | cons g gs ih =>
    rw [List.flatMap_cons] at hl
    by_cases hshort : l.length < (enc g).length
    · have hpre : l <+: enc g := List.prefix_of_prefix_length_le hl (List.prefix_append _ _) hshort.le
      obtain ⟨rfl, rfl⟩ := h.unique (.stop (hpart g l hpre hshort))
      refine ⟨0, rfl, rfl, fun g' hg' => ?_⟩
      obtain rfl : g = g' := by simpa using hg'
      exact ⟨hpre, hshort⟩
    · obtain ⟨l', rfl⟩ : enc g <+: l :=
        List.prefix_of_prefix_length_le (List.prefix_append _ _) hl (by omega)
      cases h with
      | stop h => simp [henc] at h
      | frame h hr =>
        rw [henc, Option.some.injEq, Prod.mk.injEq] at h
        obtain ⟨rfl, rfl⟩ := h
        obtain ⟨n, rfl, hl', hrest⟩ := ih ((List.prefix_append_right_inj _).mp hl) hr
        exact ⟨n + 1, rfl, by rw [hl', List.take_succ_cons, List.flatMap_cons, List.append_assoc], hrest⟩

end Encoded

end Streams
