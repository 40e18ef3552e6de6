import Mathlib.Data.List.Basic

/-!
# Journals of writes with undo

Several writers share one store.  A journal records, newest first, who executed which writes
and whose writes were undone, either by a rollback or by writing back what was there before;
the latter may leave a residue.

`standing` is what is meant to be left of a journal: the writes of every writer but those
that were undone, in the order in which they were executed.  `replay` executes them on the
store at the start.  An undo is isolated when the store after it is the replay of what stands.

A rollback to the store before the writer's own writes is isolated when no write of another
one is newer (`Own.replay_of_newest`).  A repair of the writer's own change is isolated when
that change commutes with every newer write (`Own.replay_eq`).
-/

namespace Journals

universe u v w

variable {ι : Type u} {ω : Type v} {δ : Type w}

/-- The writes one writer executed at one time. -/
structure Entry (ι : Type u) (ω : Type v) where
  writer : ι
  writes : List ω
  deriving DecidableEq, Repr

/-- What a journal records. -/
inductive Event (ι : Type u) (ω : Type v)
  | wrote (writer : ι) (writes : List ω)
  | rolledBack (writer : ι)
  | restored (writer : ι) (residue : List ω)
  deriving DecidableEq, Repr

/-! ## Replaying -/

section Replay

/-- Execute writes in order. -/
def execAll (exec : ω → δ → δ) (writes : List ω) (d : δ) : δ :=
  writes.foldl (fun d w => exec w d) d

/-- Execute the writes of the entries, the oldest first. -/
def replay (exec : ω → δ → δ) (d : δ) : List (Entry ι ω) → δ
  | [] => d
  | e :: es => execAll exec e.writes (replay exec d es)

variable {exec : ω → δ → δ} {f : δ → δ} {writes : List ω} {d : δ} {newer older : List (Entry ι ω)}

theorem replay_append :
    replay exec d (newer ++ older) = replay exec (replay exec d older) newer := by
  induction newer with
  | nil => rfl
  | cons e newer ih => rw [List.cons_append, replay, replay, ih]

/-- What commutes with every write commutes with all of them. -/
theorem execAll_comm (h : ∀ w ∈ writes, ∀ d, exec w (f d) = f (exec w d)) (d : δ) :
    execAll exec writes (f d) = f (execAll exec writes d) := by
  induction writes generalizing d with
  | nil => rfl
  | cons w writes ih =>
    have hhead := h w List.mem_cons_self d
    have htail := ih (fun w' hw' => h w' (List.mem_cons_of_mem _ hw')) (exec w d)
    simpa only [execAll, List.foldl_cons, hhead] using htail

/-- What commutes with every write of the entries commutes with their replay. -/
theorem replay_comm (h : ∀ e ∈ newer, ∀ w ∈ e.writes, ∀ d, exec w (f d) = f (exec w d)) :
    replay exec (f d) newer = f (replay exec d newer) := by
  induction newer with
  | nil => rfl
  | cons e newer ih =>
    rw [replay, replay, ih fun e' he' => h e' (List.mem_cons_of_mem _ he'),
      execAll_comm (h e List.mem_cons_self)]

variable {β : Type*} {g : δ → β}

/-- What every write keeps, all of them keep. -/
theorem execAll_keeps (h : ∀ w ∈ writes, ∀ d, g (exec w d) = g d) (d : δ) :
    g (execAll exec writes d) = g d := by
  induction writes generalizing d with
  | nil => rfl
  | cons w writes ih =>
    have htail := ih (fun w' hw' => h w' (List.mem_cons_of_mem _ hw')) (exec w d)
    exact htail.trans (h w List.mem_cons_self d)

/-- What every write of the entries keeps, their replay keeps. -/
theorem replay_keeps (h : ∀ e ∈ newer, ∀ w ∈ e.writes, ∀ d, g (exec w d) = g d) :
    g (replay exec d newer) = g d := by
  induction newer with
  | nil => rfl
  | cons e newer ih =>
    rw [replay, execAll_keeps (h e List.mem_cons_self)]
    exact ih fun e' he' => h e' (List.mem_cons_of_mem _ he')

end Replay

/-! ## The entry of one writer -/

/-- A writer has exactly one entry. -/
structure Own (i : ι) (writes : List ω) (newer older entries : List (Entry ι ω)) : Prop where
  split : entries = newer ++ ⟨i, writes⟩ :: older
  newer : ∀ e ∈ newer, e.writer ≠ i
  older : ∀ e ∈ older, e.writer ≠ i

section Own

variable {i j : ι} {writes : List ω} {entries newer older : List (Entry ι ω)} {e : Entry ι ω}

/-- A writer without entries has one after its first write. -/
theorem Own.first (h : ∀ e ∈ entries, e.writer ≠ i) :
    Own i writes [] entries (⟨i, writes⟩ :: entries) :=
  ⟨rfl, by simp, h⟩

/-- An entry of another writer is newer. -/
theorem Own.cons (h : Own i writes newer older entries) (he : e.writer ≠ i) :
    Own i writes (e :: newer) older (e :: entries) where
  split := by rw [h.split, List.cons_append]
  newer e' he' := by
    rcases List.mem_cons.mp he' with rfl | hmem
    · exact he
    · exact h.newer e' hmem
  older := h.older

/-- The entry of a writer that has one. -/
theorem Own.eq_of_mem (h : Own i writes newer older entries) (he : e ∈ entries)
    (hi : e.writer = i) : e = ⟨i, writes⟩ := by
  rw [h.split, List.mem_append, List.mem_cons] at he
  rcases he with hnew | rfl | hold
  · exact absurd hi (h.newer e hnew)
  · rfl
  · exact absurd hi (h.older e hold)

variable [DecidableEq ι]

/-- The entries of the other writers. -/
def without (i : ι) (entries : List (Entry ι ω)) : List (Entry ι ω) :=
  entries.filter fun e => e.writer ≠ i

/-- The entries that are newer than those of a writer. -/
def newerThan (i : ι) (entries : List (Entry ι ω)) : List (Entry ι ω) :=
  entries.takeWhile fun e => e.writer ≠ i

/-- The entries that are older than the newest one of a writer. -/
def olderThan (i : ι) (entries : List (Entry ι ω)) : List (Entry ι ω) :=
  (entries.dropWhile fun e => e.writer ≠ i).drop 1

/-- The entries that are meant to be left. -/
def standing : List (Event ι ω) → List (Entry ι ω)
  | [] => []
  | .wrote i writes :: events => ⟨i, writes⟩ :: standing events
  | .rolledBack i :: events => without i (standing events)
  | .restored i residue :: events => ⟨i, residue⟩ :: without i (standing events)

theorem mem_without : e ∈ without i entries ↔ e ∈ entries ∧ e.writer ≠ i := by
  simp [without]

/-- Without entries of the writer there is nothing to leave out. -/
theorem without_eq_self (h : ∀ e ∈ entries, e.writer ≠ i) : without i entries = entries :=
  List.filter_eq_self.mpr fun e he => decide_eq_true (h e he)

/-- Leaving out another writer keeps the own entry. -/
theorem Own.without (h : Own i writes newer older entries) (hij : i ≠ j) :
    Own i writes (without j newer) (without j older) (without j entries) where
  split := by
    rw [h.split]
    simp [Journals.without, hij]
  newer e he := h.newer e (mem_without.mp he).1
  older e he := h.older e (mem_without.mp he).1

/-- Leaving out a writer leaves the entries of the others. -/
theorem Own.without_self (h : Own i writes newer older entries) :
    Journals.without i entries = newer ++ older := by
  have hnewer := without_eq_self h.newer
  have holder := without_eq_self h.older
  rw [Journals.without] at hnewer holder
  rw [h.split, Journals.without, List.filter_append, List.filter_cons, hnewer, holder]
  simp

theorem Own.newerThan_eq (h : Own i writes newer older entries) : newerThan i entries = newer := by
  rw [h.split, newerThan, List.takeWhile_append_of_pos fun e he => decide_eq_true (h.newer e he)]
  simp

theorem Own.olderThan_eq (h : Own i writes newer older entries) : olderThan i entries = older := by
  rw [h.split, olderThan, List.dropWhile_append_of_pos fun e he => decide_eq_true (h.newer e he)]
  simp

/-! ## Isolated undo -/

variable {exec : ω → δ → δ} {f : δ → δ} {d : δ}

/-- When the own entry is the newest, leaving it out leads back to the store before it. -/
theorem Own.replay_of_newest (h : Own i writes newer older entries) (hnew : newer = []) :
    replay exec d (Journals.without i entries) = replay exec d older := by
  rw [h.without_self, hnew, List.nil_append]

/-- When the own writes change the store by a function that commutes with every newer write,
that function is what they have changed in the end. -/
theorem Own.replay_eq (h : Own i writes newer older entries)
    (hf : ∀ d, execAll exec writes d = f d)
    (hcomm : ∀ e ∈ newer, ∀ w ∈ e.writes, ∀ d, exec w (f d) = f (exec w d)) :
    replay exec d entries = f (replay exec d (Journals.without i entries)) := by
  rw [h.without_self, h.split, replay_append, replay, hf, replay_comm hcomm, ← replay_append]

end Own

end Journals
