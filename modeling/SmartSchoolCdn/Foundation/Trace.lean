import Mathlib.Data.Set.Basic

/-!
# Runs of a transition system

A system is a partial function `step : σ → α → Option σ`: the action says what happened,
so that all nondeterminism of the environment sits in the actions, and `none` means that
the action is not possible in the state.

`Trace step C s as t` says that the actions `as` lead from `s` to `t` and that every step
meets the side condition `C`.  Side conditions are what a statement about "every run in
which no step does this" quantifies over; a statement about all runs takes `Free`.

The rules at the end are the induction principles the rest of the development uses: an
invariant that each step keeps holds at the end of a run (`Trace.invariant`), a property that
each step hands on from the items carried before it to those carried after it holds of
everything carried at the end (`Trace.carried`), and a property of the end that each step hands
back held all along (`Trace.retrace`); a property that each step keeps exactly under a side condition
holds all along in the runs that meet it (`Trace.always_iff`).
-/

namespace Traces

universe u v w

variable {σ : Type u} {α : Type v} {ι : Type w}

/-- The side condition every step meets. -/
def Free : σ → α → Prop := fun _ _ => True

/-- Execute a list of actions, stopping as soon as one is not possible. -/
def run (step : σ → α → Option σ) : σ → List α → Option σ
  | s, [] => some s
  | s, a :: as => (step s a).bind fun s' => run step s' as

/-- The actions lead from one state to another, each step meeting the side condition. -/
inductive Trace (step : σ → α → Option σ) (C : σ → α → Prop) : σ → List α → σ → Prop
  | nil (s : σ) : Trace step C s [] s
  | cons {s s' t : σ} {a : α} {as : List α} :
      C s a → step s a = some s' → Trace step C s' as t → Trace step C s (a :: as) t

/-- A state some run leads to from `s`. -/
def Reaches (step : σ → α → Option σ) (s t : σ) : Prop :=
  ∃ as, Trace step Free s as t

variable {step : σ → α → Option σ} {C D : σ → α → Prop} {s t r : σ} {as bs : List α}

/-- A side condition may be weakened along a run. -/
theorem Trace.weaken (h : Trace step C s as t) (hCD : ∀ s a, C s a → D s a) :
    Trace step D s as t := by
  induction h with
  | nil s => exact Trace.nil s
  | cons hC hs _ ih => exact Trace.cons (hCD _ _ hC) hs ih

/-- A side condition may be replaced along a run by one that follows from it in the states that
can be reached. -/
theorem Trace.weaken_of_reaches (h : Trace step C s as t)
    (hCD : ∀ r a, Reaches step s r → C r a → D r a) : Trace step D s as t := by
  induction h with
  | nil s => exact Trace.nil s
  | cons hC hs _ ih =>
    refine Trace.cons (hCD _ _ ⟨[], Trace.nil _⟩ hC) hs (ih fun r a hr => hCD r a ?_)
    obtain ⟨bs, hbs⟩ := hr
    exact ⟨_ :: bs, Trace.cons trivial hs hbs⟩

/-- Every run is a run without side conditions. -/
theorem Trace.free (h : Trace step C s as t) : Trace step Free s as t :=
  h.weaken fun _ _ _ => trivial

/-- A run all of whose actions have a property is a run under that side condition. -/
theorem Trace.restrict {p : α → Prop} (h : Trace step C s as t) (hp : ∀ a ∈ as, p a) :
    Trace step (fun _ a => p a) s as t := by
  induction h with
  | nil s => exact Trace.nil s
  | cons _ hs _ ih =>
    exact Trace.cons (hp _ List.mem_cons_self) hs (ih fun a ha => hp a (List.mem_cons_of_mem _ ha))

/-- The end of a run can be reached. -/
theorem Trace.reaches (h : Trace step C s as t) : Reaches step s t :=
  ⟨as, h.free⟩

/-- Runs compose. -/
theorem Trace.append (h : Trace step C s as t) (h' : Trace step C t bs r) :
    Trace step C s (as ++ bs) r := by
  induction h with
  | nil _ => exact h'
  | cons hC hs _ ih => exact Trace.cons hC hs (ih h')

/-- A run of two lists of actions passes through a state between them. -/
theorem Trace.of_append (h : Trace step C s (as ++ bs) r) :
    ∃ t, Trace step C s as t ∧ Trace step C t bs r := by
  induction as generalizing s with
  | nil => exact ⟨s, Trace.nil s, h⟩
  | cons a as ih =>
    cases h with
    | cons hC hs hrest =>
      obtain ⟨t, h₁, h₂⟩ := ih hrest
      exact ⟨t, Trace.cons hC hs h₁, h₂⟩

/-- Reachability is transitive. -/
theorem Reaches.trans (h : Reaches step s t) (h' : Reaches step t r) : Reaches step s r := by
  obtain ⟨as, has⟩ := h
  obtain ⟨bs, hbs⟩ := h'
  exact ⟨as ++ bs, has.append hbs⟩

/-- A computed run is a run. -/
theorem trace_of_run (h : run step s as = some t) : Trace step Free s as t := by
  induction as generalizing s with
  | nil =>
    obtain rfl : s = t := by simpa [run] using h
    exact Trace.nil s
  | cons a as ih =>
    rw [run, Option.bind_eq_some_iff] at h
    obtain ⟨s', hs, hrest⟩ := h
    exact Trace.cons trivial hs (ih hrest)

/-- Two lists of actions are executed one after the other. -/
theorem run_append : run step s (as ++ bs) = (run step s as).bind fun t => run step t bs := by
  induction as generalizing s with
  | nil => rfl
  | cons a as ih =>
    rw [List.cons_append, run, run, Option.bind_assoc]
    congr 1
    funext s'
    exact ih

/-- The side condition of a run that is computed can be checked along it. -/
def checkedRun (step : σ → α → Option σ) (c : σ → α → Bool) : σ → List α → Option σ
  | s, [] => some s
  | s, a :: as => if c s a then (step s a).bind fun s' => checkedRun step c s' as else none

/-- A computed run whose checks pass is a run under the side condition, if the check is right
in the states with an invariant. -/
theorem trace_of_checkedRun {I : σ → Prop} {c : σ → α → Bool}
    (hI : ∀ s a s', I s → step s a = some s' → I s') (hc : ∀ s a, I s → c s a = true → C s a)
    (hs : I s) (h : checkedRun step c s as = some t) : Trace step C s as t := by
  induction as generalizing s with
  | nil =>
    obtain rfl : s = t := by simpa [checkedRun] using h
    exact Trace.nil s
  | cons a as ih =>
    rw [checkedRun] at h
    split at h
    · rename_i hca
      rw [Option.bind_eq_some_iff] at h
      obtain ⟨s', hst, hrest⟩ := h
      exact Trace.cons (hc s a hs hca) hst (ih (hI s a s' hs hst) hrest)
    · exact absurd h (by simp)

/-- A property that is computed at the end of a run holds at the end of that run. -/
theorem exists_trace_of_run {p : σ → Bool} (h : (run step s as).any p = true) :
    ∃ t, Trace step Free s as t ∧ p t = true := by
  rw [Option.any_eq_true] at h
  obtain ⟨t, ht, hp⟩ := h
  exact ⟨t, trace_of_run ht, hp⟩

/-- A property that is computed at the end of a checked run holds at the end of that run. -/
theorem exists_trace_of_checkedRun {I : σ → Prop} {c : σ → α → Bool} {p : σ → Bool}
    (hI : ∀ s a s', I s → step s a = some s' → I s') (hc : ∀ s a, I s → c s a = true → C s a)
    (hs : I s) (h : (checkedRun step c s as).any p = true) :
    ∃ t, Trace step C s as t ∧ p t = true := by
  rw [Option.any_eq_true] at h
  obtain ⟨t, ht, hp⟩ := h
  exact ⟨t, trace_of_checkedRun hI hc hs ht, hp⟩

/-! ## Induction rules -/

/-- An invariant that every step under the side condition keeps holds at the end of a run. -/
theorem Trace.invariant {I : σ → Prop} (h : Trace step C s as t)
    (hstep : ∀ s a s', I s → C s a → step s a = some s' → I s') (hs : I s) : I t := by
  induction h with
  | nil _ => exact hs
  | cons hC hst _ ih => exact ih (hstep _ _ _ hs hC hst)

/-- An invariant of every step holds in every state that can be reached. -/
theorem Reaches.invariant {I : σ → Prop} (h : Reaches step s t)
    (hstep : ∀ s a s', I s → step s a = some s' → I s') (hs : I s) : I t := by
  obtain ⟨as, has⟩ := h
  exact has.invariant (fun s a s' hI _ => hstep s a s' hI) hs

/-- When every item carried after a step has the property `P` because an item carried before
had it, or has it on its own account, then every item carried at the end of a run has it. -/
theorem Trace.carried {I : σ → Prop} {K : σ → Set ι} {P : σ → ι → Prop}
    (h : Trace step C s as t)
    (hI : ∀ s a s', I s → C s a → step s a = some s' → I s')
    (hcarried : ∀ s a s' i, I s → C s a → step s a = some s' → i ∈ K s' →
      (∃ j ∈ K s, P s j → P s' i) ∨ P s' i)
    (hIs : I s) (hs : ∀ i ∈ K s, P s i) : ∀ i ∈ K t, P t i := by
  have hboth : I t ∧ ∀ i ∈ K t, P t i := by
    refine h.invariant (I := fun s => I s ∧ ∀ i ∈ K s, P s i) ?_ ⟨hIs, hs⟩
    rintro s a s' ⟨hI', hP⟩ hC hst
    refine ⟨hI _ _ _ hI' hC hst, fun i hi => ?_⟩
    rcases hcarried s a s' i hI' hC hst hi with ⟨j, hj, hji⟩ | hP'
    · exact hji (hP j hj)
    · exact hP'
  exact hboth.2

/-- A property of the end that every step hands back to the state before it, with a side
condition, held all along a run that met the side condition. -/
theorem Trace.retrace {I P : σ → Prop} (h : Trace step D s as t)
    (hI : ∀ s a s', I s → step s a = some s' → I s')
    (hback : ∀ s a s', I s → step s a = some s' → P s' → P s ∧ C s a)
    (hs : I s) (ht : P t) : P s ∧ Trace step C s as t := by
  induction h with
  | nil s => exact ⟨ht, Trace.nil s⟩
  | cons _ hst _ ih =>
    obtain ⟨hP', hrest⟩ := ih (hI _ _ _ hs hst) ht
    obtain ⟨hP, hC⟩ := hback _ _ _ hs hst hP'
    exact ⟨hP, Trace.cons hC hst hrest⟩

/-- When a step keeps a property exactly under a side condition, the property holds in every state of a
run if and only if the run meets the side condition. -/
theorem Trace.always_iff {I P : σ → Prop} (hI : ∀ s a s', I s → step s a = some s' → I s')
    (hstep : ∀ s a s', I s → P s → step s a = some s' → (P s' ↔ C s a)) (hIs : I s) (hs : P s) :
    (Trace step (fun s _ => P s) s as t ∧ P t) ↔ Trace step C s as t := by
  constructor
  · rintro ⟨h, ht⟩
    induction h with
    | nil s => exact Trace.nil s
    | @cons s s' t a as _ hst hrest ih =>
      have hs' : P s' := by
        cases hrest with
        | nil _ => exact ht
        | cons hs' _ _ => exact hs'
      exact Trace.cons ((hstep _ _ _ hIs hs hst).mp hs') hst (ih (hI _ _ _ hIs hst) hs' ht)
  · intro h
    induction h with
    | nil s => exact ⟨Trace.nil s, hs⟩
    | cons hC hst _ ih =>
      obtain ⟨hrest, ht⟩ := ih (hI _ _ _ hIs hst) ((hstep _ _ _ hIs hs hst).mpr hC)
      exact ⟨Trace.cons hs hst hrest, ht⟩

/-- Two side conditions that say the same of every step in the states with an invariant, which the steps
under them keep, are met by the same runs. -/
theorem Trace.condition_iff {I : σ → Prop}
    (hCD : ∀ s a s', I s → step s a = some s' → (C s a ↔ D s a))
    (hstep : ∀ s a s', I s → C s a → step s a = some s' → I s') (hs : I s) :
    Trace step C s as t ↔ Trace step D s as t := by
  constructor
  · intro h
    induction h with
    | nil s => exact Trace.nil s
    | cons hC hst _ ih =>
      exact Trace.cons ((hCD _ _ _ hs hst).mp hC) hst (ih (hstep _ _ _ hs hC hst))
  · intro h
    induction h with
    | nil s => exact Trace.nil s
    | cons hD hst _ ih =>
      have hC := (hCD _ _ _ hs hst).mpr hD
      exact Trace.cons hC hst (ih (hstep _ _ _ hs hC hst))

end Traces
