import SmartSchoolCdn.Storage.Accounting

/-!
# Index entries and body files

A body file is named by its key and written and deleted outside the lock of the index, so that
an entry can get the body of another `put`, or lose its body to the rollback or to the deletion
of another operation.  In the runs without these orders of steps every entry of a quiet state
has the body of the `put` that registered it (`index_agrees_with_files`).
-/

namespace SmartSchoolCdn.Disk

open FiniteMaps Traces

variable {jsonSize : HeaderMap → ℕ} {s s' : State} {i : ℕ} {t : Task} {phase : Phase}

/-- The entry of a key comes from the `put` with these arguments, which has finished. -/
def State.RegisteredBy (s : State) (k : String) (e : CacheEntry) (args : PutArgs) : Prop :=
  args.key = k ∧ e.sizeBytes = blobSize args.bytes ∧
    s.tasks[s.owner k]? = some ⟨.put args, .done .finished⟩

/-- Every entry has a body file, and while no `put` is at work on it, the file is the body of
the `put` that registered the entry. -/
def Agrees (s : State) : Prop :=
  ∀ k e, s.layer.index.lookup k = some e → ∃ args, s.RegisteredBy k e args ∧
    (s.layer.files.lookup k).isSome = true ∧
    ((∀ u ∈ s.tasks, ¬ u.isWriting k) → s.layer.files.lookup k = some args.bytes)

/-- A finished operation stays where it is. -/
lemma registeredBy_setPhase {r : State} {k : String} {e e' : CacheEntry} {args : PutArgs}
    (ht : s.tasks[i]? = some t) (hmove : Move jsonSize s i t r phase) (howner : r.owner k = s.owner k)
    (hsame : CacheEntry.SameCopy e e') (h : s.RegisteredBy k e args) :
    (r.setPhase i phase).RegisteredBy k e' args := by
  obtain ⟨hkey, hsize, htask⟩ := h
  obtain ⟨hits, time, rfl⟩ := hsame
  refine ⟨hkey, hsize, ?_⟩
  have hne : s.owner k ≠ i := by
    rintro rfl
    obtain rfl := Option.some.inj (ht.symm.trans htask)
    exact hmove.not_done .finished rfl
  have howner' : (r.setPhase i phase).owner k = s.owner k := howner
  rw [howner', setPhase_ne hne, hmove.tasks]
  exact htask

/-- A step of an operation that keeps apart keeps the agreement. -/
lemma Agrees.move {r : State} (h : Agrees s) (ht : s.tasks[i]? = some t)
    (hmove : Move jsonSize s i t r phase) (hapart : s.KeepsApart i t) : Agrees (r.setPhase i phase) := by
  have hti : r.tasks[i]? = some t := by rw [hmove.tasks, ht]
  intro k e' he'
  rcases hmove.index k with ⟨howner, hkept⟩ | ⟨args, b, hop, hphase, hkey, hroom, rfl, rfl⟩
  · obtain ⟨e, he, hsame⟩ := hkept e' he'
    obtain ⟨args, hregistered, hfile, hbody⟩ := h k e he
    refine ⟨args, registeredBy_setPhase ht hmove howner hsame hregistered, ?_⟩
    -- who writes to the file afterwards wrote to it before, except for the moving operation
    have hothers : (∀ u ∈ (r.setPhase i phase).tasks, ¬ u.isWriting k) →
        ∀ u ∈ s.tasks, u.isWriting k → u = t := by
      intro hnone u hu hwriting
      obtain ⟨j, hj⟩ := List.mem_iff_getElem?.mp hu
      by_cases hji : j = i
      · subst hji
        exact Option.some.inj (hj.symm.trans ht)
      · have hmem : (r.setPhase i phase).tasks[j]? = some u := by rw [setPhase_ne hji, hmove.tasks, hj]
        exact absurd hwriting (hnone u (List.mem_of_getElem? hmem))
    have hself : (∀ u ∈ (r.setPhase i phase).tasks, ¬ u.isWriting k) →
        ¬ { t with phase := phase }.isWriting k :=
      fun hnone => hnone _ (List.mem_of_getElem? (setPhase_self hti))
    rcases hmove.files k with hsame | ⟨args', hop, -, hkey', hphase', hwritten⟩ |
        ⟨files, next, hphase, -, -, -⟩
    · have hfiles : (r.setPhase i phase).layer.files.lookup k = s.layer.files.lookup k := hsame
      rw [hfiles]
      refine ⟨hfile, fun hnone => hbody fun u hu hwriting => ?_⟩
      obtain rfl := hothers hnone u hu hwriting
      rcases hmove.stops_writing hwriting (hself hnone) with
        ⟨args', b, hop, hphase, hkey', rfl⟩ | ⟨files, next, hphase, -⟩
      · -- a registration would have changed the owner
        have hupdated : (s.insertEntry i args' b).owner k = i := by
          subst hkey'
          exact Function.update_self _ _ _
        have htask := hregistered.2.2
        rw [← howner, hupdated] at htask
        obtain rfl := Option.some.inj (ht.symm.trans htask)
        exact hmove.not_done .finished rfl
      · simp only [State.KeepsApart, hphase] at hapart
        rw [hapart.1] at he
        cases he
    · have hfiles : (r.setPhase i phase).layer.files.lookup k = some args'.bytes := hwritten
      refine ⟨by rw [hfiles]; rfl, fun hnone => absurd ?_ (hself hnone)⟩
      exact Task.isWriting_iff.mpr ⟨args', hop, .inl ⟨hkey', .inl hphase'⟩⟩
    · simp only [State.KeepsApart, hphase] at hapart
      rw [hapart.1] at he
      cases he
  · simp only [State.KeepsApart, hop, hphase] at hapart
    subst hkey
    have hinserted : (s.layer.index.insert args.key (State.entryOf s.now args b)).lookup args.key =
        some (State.entryOf s.now args b) := AList.lookup_insert _
    obtain rfl := Option.some.inj (hinserted.symm.trans he')
    have hregistered : ((s.insertEntry i args b).setPhase i (.done .finished)).RegisteredBy args.key
        (State.entryOf s.now args b) args := by
      refine ⟨rfl, rfl, ?_⟩
      have howner : ((s.insertEntry i args b).setPhase i (.done .finished)).owner args.key = i :=
        Function.update_self _ _ _
      obtain ⟨op, old⟩ := t
      obtain rfl : op = .put args := hop
      rw [howner]
      exact setPhase_self hti
    have hfiles : ((s.insertEntry i args b).setPhase i (.done .finished)).layer.files.lookup args.key =
        s.layer.files.lookup args.key := rfl
    rw [← hfiles] at hapart
    refine ⟨args, hregistered, ?_⟩
    rcases hapart hroom with hown | ⟨hfile, u, hu, hwriting⟩
    · exact ⟨by rw [hown]; rfl, fun _ => hown⟩
    · refine ⟨hfile, fun hnone => absurd hwriting (hnone u ?_)⟩
      obtain ⟨j, hji, hj⟩ := List.mem_eraseIdx_iff_getElem?.mp hu
      refine List.mem_of_getElem? (i := j) ?_
      rw [setPhase_ne hji, hmove.tasks, hj]

/-- Every action under which operations keep apart keeps the agreement. -/
lemma Agrees.step {a : Action} (h : Agrees s) (horderly : Orderly s a)
    (hs : step jsonSize s a = some s') : Agrees s' := by
  cases step_cases hs with
  | tick => exact h
  | @call op =>
    intro k e he
    obtain ⟨args, ⟨hkey, hsize, htask⟩, hfile, hbody⟩ := h k e he
    refine ⟨args, ⟨hkey, hsize, ?_⟩, hfile, fun hnone => hbody fun u hu => ?_⟩
    · exact List.getElem?_append_left (List.getElem?_eq_some_iff.mp htask).1 ▸ htask
    · exact hnone u (List.mem_append_left _ hu)
  | @moves _ i t _ _ ha ht hmove =>
    refine h.move ht hmove ?_
    rcases ha with rfl | ⟨order, rfl⟩
    · exact horderly t ht
    · exact horderly t ht
  | fails _ _ => exact horderly.elim
  | restart =>
    intro k e he
    exact absurd he lookup_empty_ne_some

/-- In every run in which operations keep apart the entries and the body files agree. -/
lemma agrees_of_trace {gib : UInt64} {as : List Action} {t : State}
    (h : Trace (step jsonSize) Orderly (State.initial gib) as t) : Agrees t := by
  refine h.invariant (fun s a s' hagrees horderly hs => hagrees.step horderly hs) ?_
  intro k e he
  exact absurd he lookup_empty_ne_some

/-- A quiet state has no `put` at work. -/
lemma State.Quiet.not_isWriting {k : String} (h : s.Quiet) : ∀ u ∈ s.tasks, ¬ u.isWriting k := by
  intro u hu hwriting
  obtain ⟨reply, hdone⟩ := h u hu
  obtain ⟨args, -, ⟨-, hphase | ⟨b, hphase⟩ | ⟨b, hphase⟩⟩ | ⟨files, reply', hphase⟩⟩ :=
    Task.isWriting_iff.mp hwriting
  all_goals
    rw [hdone] at hphase
    cases hphase

/-- The operation is about to delete a file, or to drop the entry of a missing file. -/
def Task.isRemoving (t : Task) : Prop := t.phase = .cleanup ∨ ∃ files next, t.phase = .delete files next

/-- Such an operation does not evict. -/
lemma Task.isRemoving.not_evicting (h : t.isRemoving) :
    ¬ (t.phase = .start ∨ ∃ needed, t.phase = .evict needed) := by
  rcases h with hphase | ⟨files, next, hphase⟩
  · simp [hphase]
  · simp [hphase]

/-- Deletions and cleanups that keep apart change no entry, and neither the body file of an entry
nor that of a `put` at work. -/
lemma Agrees.removing {r : State} (h : Agrees s) (hremoving : t.isRemoving)
    (hmove : Move jsonSize s i t r phase) (hapart : s.KeepsApart i t) :
    (∀ k e, s.layer.index.lookup k = some e → r.layer.index.lookup k = some e) ∧
      ∀ k, (s.layer.index.lookup k).isSome = true ∨ s.OtherWriting i k →
        r.layer.files.lookup k = s.layer.files.lookup k := by
  have hnot := hremoving.not_evicting
  rcases hremoving with hcleanup | ⟨files, next, hdelete⟩
  · cases hmove with
    | @cleanup key _ hop hphase =>
      simp only [State.KeepsApart, hop, hphase] at hapart
      refine ⟨fun k e he => ?_, fun k _ => congrArg (AList.lookup k) (dropAll_frame s [key]).1⟩
      obtain ⟨-, -, hfile, -⟩ := h k e he
      have hk : k ∉ [key] := by
        intro hmem
        obtain rfl := List.mem_singleton.mp hmem
        rcases hapart with hindex | hmissing
        · rw [hindex] at he
          cases he
        · rw [hmissing] at hfile
          cases hfile
      have hindex := index_dropAll s [key] k
      rw [if_neg hk, he] at hindex
      exact hindex
    | removes hphase _ _ => exact absurd hphase hnot
    | _ => simp_all only [reduceCtorEq]
  · cases hmove with
    | @deletes file files next hphase =>
      obtain ⟨kind, key⟩ := file
      cases kind with
      | body =>
        simp only [State.KeepsApart, hphase] at hapart
        refine ⟨fun k e he => he, fun k hk => AList.lookup_erase_ne ?_⟩
        rintro rfl
        rcases hk with hentry | hother
        · rw [hapart.1] at hentry
          cases hentry
        · exact hapart.2 hother
      | br => exact ⟨fun k e he => he, fun k _ => rfl⟩
      | headers => exact ⟨fun k e he => he, fun k _ => rfl⟩
    | removes hphase _ _ => exact absurd hphase hnot
    | _ => simp_all only [reduceCtorEq]

/-- Whether no operation is running. -/
def State.isQuiet (s : State) : Bool :=
  s.tasks.all fun t => match t.phase with
    | .done _ => true
    | _ => false

lemma quiet_of_isQuiet (h : s.isQuiet = true) : s.Quiet := by
  intro t ht
  have hphase := List.all_eq_true.mp h t ht
  split at hphase
  · rename_i reply hdone
    exact ⟨reply, hdone⟩
  · cases hphase

/-- Two overlapping `put`s, the second of which registers last and has its body overwritten. -/
def crossedPuts : List Action :=
  [.call (.put threeBytes), .call (.put twoBytes), .step 0, .step 1, .step 1, .step 0, .step 0,
    .step 0, .step 0, .step 1, .step 1, .step 1]

end SmartSchoolCdn.Disk
