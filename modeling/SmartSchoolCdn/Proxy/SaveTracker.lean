import SmartSchoolCdn.Proxy.Progress

/-!
# The save tracker

`save_tracker.rs` over whole runs.  The end of a body takes the key of a response in the tracker and
starts the background save, or starts none when the key is taken; the save gives the key back when it
has inserted the response.  The two sections of the tracker are steps of different tasks, with the whole
save between them, and saves of any keys interleave.
-/

namespace SmartSchoolCdn

open Traces

variable {cfg : Config} {s s' : State} {a : Action}

/-! ## The numbers of fetches and saves -/

/-- A fetch that runs after a step ran before, or has just got the next number. -/
lemma Step.fetch_cases (h : Step cfg s a s') {rid f : ℕ} {t' : Task} (ht' : s'.tasks rid = some t')
    (hf : t'.phase.fetch = some f) :
    (∃ t, s.tasks rid = some t ∧ t.phase.fetch = some f) ∨ (f = s.nextFetch ∧ a = .permit rid true) := by
  rcases h.tasks ht' with hold | ⟨req, raw, -, -, -, -, -, -, -, hnew⟩ | ⟨t, phase, ht, rfl, hmove⟩
  · exact Or.inl ⟨t', hold, hf⟩
  · rw [hnew] at hf
    split at hf <;> cases hf
  · rcases hmove.fetch_cases hf with hold | hnew
    · exact Or.inl ⟨t, ht, hold⟩
    · exact Or.inr hnew

/-- The request whose body starts a save is done with its fetch. -/
lemma StartsSave.fetch_done {x : Exchange} (hstart : StartsSave s a x) (h : Step cfg s a s') :
    ∃ rid t, s.tasks rid = some t ∧ t.phase.fetch = some x.id ∧
      ∀ t', s'.tasks rid = some t' → t'.phase.fetch = none := by
  obtain ⟨⟨rid, t, key, fetch, status, headers, body, rfl, ht, -, hphase, -, rfl⟩, -⟩ := hstart
  refine ⟨rid, t, ht, hphase ▸ rfl, ?_⟩
  cases h with
  | body hu hkey hreading =>
    intro t' ht'
    rw [tasks_originBody, tasks_setPhase_self] at ht'
    obtain rfl := Option.some.inj ht'
    rfl

/-- The running fetches have numbers of their own, which no save has, and the tracker holds the keys of
the saves, one save for each key. -/
structure Tracked (s : State) : Prop where
  numbered : Numbered s
  distinct : ∀ rid rid' t t' f, s.tasks rid = some t → s.tasks rid' = some t' →
    t.phase.fetch = some f → t'.phase.fetch = some f → rid = rid'
  unsaved : ∀ rid t f, s.tasks rid = some t → t.phase.fetch = some f → s.saves f = none
  held : ∀ id save, s.saves id = some save → s.saving save.exchange.key = true
  holds : ∀ key, s.saving key = true → ∃ id save, s.saves id = some save ∧ save.exchange.key = key
  single : ∀ id id' save save', s.saves id = some save → s.saves id' = some save' →
    save.exchange.key = save'.exchange.key → id = id'

/-- A new fetch gets a number that no other has. -/
lemma Tracked.distinct_step (hT : Tracked s) (h : Step cfg s a s') {rid rid' f : ℕ} {t t' : Task}
    (ht : s'.tasks rid = some t) (ht' : s'.tasks rid' = some t') (hf : t.phase.fetch = some f)
    (hf' : t'.phase.fetch = some f) : rid = rid' := by
  rcases h.fetch_cases ht hf with ⟨u, hu, hold⟩ | ⟨hnew, ha⟩ <;>
    rcases h.fetch_cases ht' hf' with ⟨u', hu', hold'⟩ | ⟨hnew', ha'⟩
  · exact hT.distinct rid rid' u u' f hu hu' hold hold'
  · exact absurd (hT.numbered.fetching rid u f hu hold) (by omega)
  · exact absurd (hT.numbered.fetching rid' u' f hu' hold') (by omega)
  · rw [ha] at ha'
    cases ha'
    rfl

/-- No save has the number of a running fetch. -/
lemma Tracked.unsaved_step (hT : Tracked s) (h : Step cfg s a s') {rid f : ℕ} {t : Task}
    (ht : s'.tasks rid = some t) (hf : t.phase.fetch = some f) : s'.saves f = none := by
  have hbefore : s.saves f = none := by
    rcases h.fetch_cases ht hf with ⟨u, hu, hold⟩ | ⟨rfl, -⟩
    · exact hT.unsaved rid u f hu hold
    · exact eq_none_of_le hT.numbered.saving le_rfl
  cases h.saveChange with
  | same _ _ hsaves => rw [hsaves, hbefore]
  | @starts x hstart hsaves =>
    rw [hsaves, Function.update_of_ne, hbefore]
    rintro rfl
    obtain ⟨r, u, hu, hufetch, hdone⟩ := hstart.fetch_done h
    rcases h.fetch_cases ht hf with ⟨v, hv, hvfetch⟩ | ⟨hnew, -⟩
    · obtain rfl := hT.distinct rid r v u x.id hv hu hvfetch hufetch
      exact absurd (hf.symm.trans (hdone t ht)) (by simp)
    · exact absurd (hT.numbered.fetching r u x.id hu hufetch) (by omega)
  | @moves id save phase _ hold _ hsaves =>
    rw [hsaves, Function.update_of_ne, hbefore]
    rintro rfl
    exact absurd (hbefore.symm.trans hold) (by simp)
  | @ends id save _ _ hsaves =>
    rw [hsaves, Function.update_apply]
    split
    · rfl
    · exact hbefore

/-! ## The tracker -/

/-- What the saves are after a step: those of other numbers are as they were. -/
lemma saves_update {saves : ℕ → Option Save} {id i : ℕ} {u : Option Save} {save : Save}
    (h : Function.update saves id u i = some save) :
    (i = id ∧ u = some save) ∨ (i ≠ id ∧ saves i = some save) := by
  rw [Function.update_apply] at h
  split at h
  · exact Or.inl ⟨‹_›, h⟩
  · exact Or.inr ⟨‹_›, h⟩

/-- The keys of the running saves are held after a step. -/
lemma Tracked.held_step (hT : Tracked s) (h : Step cfg s a s') {i : ℕ} {save : Save}
    (hsave : s'.saves i = some save) : s'.saving save.exchange.key = true := by
  cases h.saveChange with
  | same _ _ hsaves hsaving =>
    rw [hsaving]
    exact hT.held i save (hsaves ▸ hsave)
  | @starts x hstart hsaves hsaving =>
    rw [hsaving, Function.update_apply]
    rw [hsaves] at hsave
    split
    · rfl
    · rename_i hkey
      rcases saves_update hsave with ⟨-, hnew⟩ | ⟨-, hold⟩
      · exact absurd (by rw [← Option.some.inj hnew]) hkey
      · exact hT.held i save hold
  | @moves id old phase _ hold _ hsaves hsaving =>
    rw [hsaving]
    rcases saves_update (hsaves ▸ hsave) with ⟨-, hnew⟩ | ⟨-, hkept⟩
    · rw [← Option.some.inj hnew]
      exact hT.held id old hold
    · exact hT.held i save hkept
  | @ends id old _ hold hsaves hsaving =>
    rcases saves_update (hsaves ▸ hsave) with ⟨-, hnew⟩ | ⟨hne, hkept⟩
    · cases hnew
    · rw [hsaving, Function.update_of_ne]
      · exact hT.held i save hkept
      · exact fun hkey => hne (hT.single i id save old hkept hold hkey)

/-- The keys that are held after a step are those of running saves. -/
lemma Tracked.holds_step (hT : Tracked s) (h : Step cfg s a s') {key : String}
    (hkey : s'.saving key = true) : ∃ id save, s'.saves id = some save ∧ save.exchange.key = key := by
  cases h.saveChange with
  | same _ _ hsaves hsaving =>
    rw [hsaves]
    exact hT.holds key (hsaving ▸ hkey)
  | @starts x hstart hsaves hsaving =>
    rw [hsaving, Function.update_apply] at hkey
    rw [hsaves]
    split at hkey
    · rename_i hx
      exact ⟨x.id, _, Function.update_self x.id _ s.saves, hx.symm⟩
    · obtain ⟨id, save, hsave, hheld⟩ := hT.holds key hkey
      refine ⟨id, save, ?_, hheld⟩
      rw [Function.update_of_ne, hsave]
      rintro rfl
      obtain ⟨rid, t, ht, -, hf⟩ := hstart.fetch
      exact absurd ((hT.unsaved rid t x.id ht hf).symm.trans hsave) (by simp)
  | @moves id old phase _ hold _ hsaves hsaving =>
    obtain ⟨i, save, hsave, hheld⟩ := hT.holds key (hsaving ▸ hkey)
    rw [hsaves]
    by_cases hi : i = id
    · subst hi
      obtain rfl := Option.some.inj (hold.symm.trans hsave)
      exact ⟨i, _, Function.update_self i _ s.saves, hheld⟩
    · exact ⟨i, save, by rw [Function.update_of_ne hi, hsave], hheld⟩
  | @ends id old _ hold hsaves hsaving =>
    rw [hsaving, Function.update_apply] at hkey
    split at hkey
    · cases hkey
    · rename_i hne
      obtain ⟨i, save, hsave, hheld⟩ := hT.holds key hkey
      refine ⟨i, save, ?_, hheld⟩
      rw [hsaves, Function.update_of_ne, hsave]
      rintro rfl
      obtain rfl := Option.some.inj (hold.symm.trans hsave)
      exact hne hheld.symm

/-- Two saves do not run for one key after a step: a new one has found its key free. -/
lemma Tracked.single_step (hT : Tracked s) (h : Step cfg s a s') {i j : ℕ} {save save' : Save}
    (hi : s'.saves i = some save) (hj : s'.saves j = some save')
    (hkey : save.exchange.key = save'.exchange.key) : i = j := by
  cases h.saveChange with
  | same _ _ hsaves => exact hT.single i j save save' (hsaves ▸ hi) (hsaves ▸ hj) hkey
  | @starts x hstart hsaves =>
    have hfree : ∀ {k : ℕ} {old : Save}, s.saves k = some old → old.exchange.key ≠ x.key := by
      intro k old hold hsame
      have hheld := hT.held k old hold
      rw [hsame, hstart.2.2] at hheld
      cases hheld
    rcases saves_update (hsaves ▸ hi) with ⟨rfl, hnew⟩ | ⟨-, hold⟩ <;>
      rcases saves_update (hsaves ▸ hj) with ⟨rfl, hnew'⟩ | ⟨-, hold'⟩
    · rfl
    · rw [← Option.some.inj hnew] at hkey
      exact absurd hkey.symm (hfree hold')
    · rw [← Option.some.inj hnew'] at hkey
      exact absurd hkey (hfree hold)
    · exact hT.single i j save save' hold hold' hkey
  | @moves id old phase _ hold _ hsaves =>
    have hbefore : ∀ {k : ℕ} {new : Save}, s'.saves k = some new →
        ∃ u, s.saves k = some u ∧ u.exchange.key = new.exchange.key := by
      intro k new hk
      rcases saves_update (hsaves ▸ hk) with ⟨rfl, hnew⟩ | ⟨-, hkept⟩
      · exact ⟨old, hold, by rw [← Option.some.inj hnew]⟩
      · exact ⟨new, hkept, rfl⟩
    obtain ⟨u, hu, hukey⟩ := hbefore hi
    obtain ⟨v, hv, hvkey⟩ := hbefore hj
    exact hT.single i j u v hu hv (hukey.trans (hkey.trans hvkey.symm))
  | @ends id old _ hold hsaves =>
    rcases saves_update (hsaves ▸ hi) with ⟨-, hnew⟩ | ⟨-, hkept⟩
    · cases hnew
    rcases saves_update (hsaves ▸ hj) with ⟨-, hnew'⟩ | ⟨-, hkept'⟩
    · cases hnew'
    exact hT.single i j save save' hkept hkept' hkey

/-- A step keeps track of the saves. -/
lemma Tracked.step (hT : Tracked s) (hst : step cfg s a = some s') : Tracked s' where
  numbered := hT.numbered.step hst
  distinct := fun _ _ _ _ _ ht ht' hf hf' => hT.distinct_step (step_cases hst) ht ht' hf hf'
  unsaved := fun _ _ _ ht hf => hT.unsaved_step (step_cases hst) ht hf
  held := fun _ _ hsave => hT.held_step (step_cases hst) hsave
  holds := fun _ hkey => hT.holds_step (step_cases hst) hkey
  single := fun _ _ _ _ hi hj hkey => hT.single_step (step_cases hst) hi hj hkey

/-- The start. -/
lemma tracked_initial (maxSizeBytes : UInt64) : Tracked (State.initial maxSizeBytes) where
  numbered := numbered_initial maxSizeBytes
  distinct := fun _ _ _ _ _ h => absurd h (by simp [State.initial])
  unsaved := fun _ _ _ h => absurd h (by simp [State.initial])
  held := fun _ _ h => absurd h (by simp [State.initial])
  holds := fun _ h => absurd h (by simp [State.initial])
  single := fun _ _ _ _ h => absurd h (by simp [State.initial])

/-- In every reachable state a key is in the save tracker exactly when a background save of it is
running, and no two are running for one key: none is doubled, and no key stays taken when its save is
over. -/
theorem one_save_per_key (cfg : Config) (maxSizeBytes : UInt64) (s : State)
    (h : Reaches (step cfg) (State.initial maxSizeBytes) s) (key : String) :
    (s.saving key = true ↔ ∃ id save, s.saves id = some save ∧ save.exchange.key = key) ∧
      ∀ id id' save save', s.saves id = some save → s.saves id' = some save' →
        save.exchange.key = key → save'.exchange.key = key → id = id' := by
  have hT : Tracked s := h.invariant (fun _ _ _ hT hst => hT.step hst) (tracked_initial maxSizeBytes)
  refine ⟨⟨hT.holds key, ?_⟩, ?_⟩
  · rintro ⟨id, save, hsave, rfl⟩
    exact hT.held id save hsave
  · intro id id' save save' hsave hsave' hkey hkey'
    exact hT.single id id' save save' hsave hsave' (hkey.trans hkey'.symm)

/-- In the middle of the save of the sample run its key is taken. -/
theorem one_save_per_key_logo :
    ∃ s, Reaches (step sampleConfig) sampleStart s ∧ s.saving "GET:a.test/logo.png?" = true ∧
      ∃ id save, s.saves id = some save ∧ save.exchange.key = "GET:a.test/logo.png?" := by
  have hrun : ((run (step sampleConfig) sampleStart (logoActions.take 11)).any fun s =>
      s.saving "GET:a.test/logo.png?") = true := by
    decide +kernel
  obtain ⟨s, hs, hsaving⟩ := exists_trace_of_run hrun
  exact ⟨s, hs.reaches, hsaving, (one_save_per_key sampleConfig 1000000 s hs.reaches _).1.mp hsaving⟩

end SmartSchoolCdn
