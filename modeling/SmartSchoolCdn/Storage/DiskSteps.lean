import SmartSchoolCdn.Storage.Conditions

/-!
# The steps of the cache layer

What a step of an operation finds and leaves, one case for each kind of step, and the frame
facts that the invariants share: a step changes no operation but its own, and what each part
does to the index and to the files.
-/

namespace SmartSchoolCdn.Disk

open Traces

/-- An answer that is no copy. -/
def Reply.isCopy : Reply → Bool
  | .got (some _) => true
  | _ => false

/-- The end of a deletion gives no copy. -/
def Next.isCopy : Next → Bool
  | .write => false
  | .reply r => r.isCopy

/-- The steps of an operation without a failing file operation. -/
inductive Move (jsonSize : HeaderMap → ℕ) (s : State) (i : ℕ) (t : Task) : State → Phase → Prop
  | ends {reply : Reply} : t.phase = .start → reply.isCopy = false → Move jsonSize s i t s (.done reply)
  | hit {key : String} {allowStale : Bool} {e : CacheEntry} :
      t.op = .get key allowStale → t.phase = .start → s.layer.index.lookup key = some e →
      (e.isExpired s.now && !allowStale) = false →
      Move jsonSize s i t { s with layer := s.layer.touch s.now key e } (.read e (e.isExpired s.now))
  | missing {key : String} {allowStale isStale : Bool} {found : CacheEntry} :
      t.op = .get key allowStale → t.phase = .read found isStale → s.layer.files.lookup key = none →
      Move jsonSize s i t s .cleanup
  | plain {key : String} {allowStale isStale : Bool} {found : CacheEntry} {body : Bytes} :
      t.op = .get key allowStale → t.phase = .read found isStale →
      s.layer.files.lookup key = some body → found.hasBr = false →
      Move jsonSize s i t s (.done (State.answer found isStale body none))
  | body {key : String} {allowStale isStale : Bool} {found : CacheEntry} {body : Bytes} :
      t.op = .get key allowStale → t.phase = .read found isStale →
      s.layer.files.lookup key = some body → found.hasBr = true →
      Move jsonSize s i t s (.readBr found isStale body)
  | variant {key : String} {allowStale isStale : Bool} {found : CacheEntry} {body : Bytes} :
      t.op = .get key allowStale → t.phase = .readBr found isStale body →
      Move jsonSize s i t s (.done (State.answer found isStale body (s.layer.brFiles.lookup key)))
  | cleanup {key : String} {allowStale : Bool} :
      t.op = .get key allowStale → t.phase = .cleanup →
      Move jsonSize s i t (s.drop key) (.done (.got none))
  | evicting {args : PutArgs} {needed : UInt64} :
      t.op = .put args → t.phase = .start → Move jsonSize s i t s (.evict needed)
  | fitting {args : PutArgs} : t.op = .put args → t.phase = .start → Move jsonSize s i t s .write
  | writesBody {args : PutArgs} : t.op = .put args → t.phase = .write →
      Move jsonSize s i t (s.writeBody args.key args.bytes) .writeBr
  | noVariant {args : PutArgs} : t.op = .put args → t.phase = .writeBr →
      CacheLayer.hasVariant args.bodyBr = false → Move jsonSize s i t s (.writeHeaders false)
  | writesVariant {args : PutArgs} {br : Bytes} : t.op = .put args → t.phase = .writeBr →
      args.bodyBr = some br → br ≠ [] →
      Move jsonSize s i t (s.writeVariant args.key br) (.writeHeaders true)
  | writesSidecar {args : PutArgs} {hasBr : Bool} : t.op = .put args →
      t.phase = .writeHeaders hasBr → args.cachedHeaders ≠ [] →
      Move jsonSize s i t (s.writeSidecar args.key (jsonSize args.cachedHeaders)) (.register hasBr)
  | noSidecar {args : PutArgs} {hasBr : Bool} : t.op = .put args →
      t.phase = .writeHeaders hasBr → Move jsonSize s i t s (.register hasBr)
  | registers {args : PutArgs} {hasBr : Bool} : t.op = .put args → t.phase = .register hasBr →
      s.hasRoom args = true → Move jsonSize s i t (s.insertEntry i args hasBr) (.done .finished)
  | rollsBack {args : PutArgs} {hasBr : Bool} : t.op = .put args → t.phase = .register hasBr →
      s.hasRoom args = false →
      Move jsonSize s i t s (.delete [(.body, args.key), (.headers, args.key)] (.reply .finished))
  | removes {keys : List String} {next : Next} :
      t.phase = .start ∨ (∃ needed, t.phase = .evict needed) → next.isCopy = false →
      (next = .write ↔ ∃ args, t.op = .put args) →
      Move jsonSize s i t (s.dropAll keys) (deleting (keys.flatMap filesOf) next)
  | clears {reply : Reply} : t.op = .purgeAll → t.phase = .start → reply.isCopy = false →
      Move jsonSize s i t s.clear (deleting (s.layer.index.keys.flatMap filesOf) (.reply reply))
  | deletes {file : FileKind × String} {files : List (FileKind × String)} {next : Next} :
      t.phase = .delete (file :: files) next →
      Move jsonSize s i t (s.removeFile file) (deleting files next)

variable {jsonSize : HeaderMap → ℕ} {s s' : State} {i : ℕ} {t : Task} {r : State × Phase}

lemma move_begin (hphase : t.phase = .start) (h : s.begin t.op = some r) :
    Move jsonSize s i t r.1 r.2 := by
  cases hop : t.op with
  | get key allowStale =>
    simp only [hop, State.begin] at h
    split at h
    · obtain rfl := Option.some.inj h
      exact Move.ends hphase rfl
    · rename_i e hlookup
      split at h
      · obtain rfl := Option.some.inj h
        have hremoves : Move jsonSize s i t (s.dropAll [key])
            (deleting ([key].flatMap filesOf) (.reply (.got none))) :=
          Move.removes (.inl hphase) rfl (by simp [hop])
        exact hremoves
      · rename_i hkept
        obtain rfl := Option.some.inj h
        exact Move.hit hop hphase hlookup (by simpa only [Bool.not_eq_true] using hkept)
  | put args =>
    simp only [hop, State.begin] at h
    split at h
    · obtain rfl := Option.some.inj h
      exact Move.ends hphase rfl
    · split at h
      · obtain rfl := Option.some.inj h
        exact Move.evicting hop hphase
      · obtain rfl := Option.some.inj h
        exact Move.fitting hop hphase
  | purgeByKey key =>
    simp only [hop, State.begin] at h
    split at h
    · obtain rfl := Option.some.inj h
      exact Move.ends hphase rfl
    · obtain rfl := Option.some.inj h
      rename_i e _
      have hremoves : Move jsonSize s i t (s.dropAll [key])
          (deleting ([key].flatMap filesOf) (.reply (.purged 1 e.sizeBytes))) :=
        Move.removes (.inl hphase) rfl (by simp [hop])
      exact hremoves
  | purgeByUrl url =>
    simp only [hop, State.begin] at h
    obtain rfl := Option.some.inj h
    exact Move.removes (.inl hphase) rfl (by simp [hop])
  | purgeDomain domain =>
    simp only [hop, State.begin] at h
    obtain rfl := Option.some.inj h
    exact Move.removes (.inl hphase) rfl (by simp [hop])
  | purgeAll =>
    simp only [hop, State.begin] at h
    obtain rfl := Option.some.inj h
    exact Move.clears hop hphase rfl
  | evict needed =>
    simp only [hop, State.begin] at h
    cases h

lemma move_get {key : String} {allowStale : Bool} {phase : Phase} (hop : t.op = .get key allowStale)
    (hphase : t.phase = phase) (h : s.advanceGet key phase = some r) : Move jsonSize s i t r.1 r.2 := by
  cases phase with
  | read found isStale =>
    simp only [State.advanceGet] at h
    split at h
    · rename_i hfile
      obtain rfl := Option.some.inj h
      exact Move.missing hop hphase hfile
    · rename_i body hfile
      split at h
      · rename_i hbr
        obtain rfl := Option.some.inj h
        exact Move.body hop hphase hfile hbr
      · rename_i hbr
        obtain rfl := Option.some.inj h
        exact Move.plain hop hphase hfile (by simpa using hbr)
  | readBr found isStale body =>
    obtain rfl := Option.some.inj h
    exact Move.variant hop hphase
  | cleanup =>
    obtain rfl := Option.some.inj h
    exact Move.cleanup hop hphase
  | _ => cases h

lemma move_put {args : PutArgs} {phase : Phase} (hop : t.op = .put args) (hphase : t.phase = phase)
    (h : s.advancePut jsonSize i args phase = some r) : Move jsonSize s i t r.1 r.2 := by
  cases phase with
  | write =>
    obtain rfl := Option.some.inj h
    exact Move.writesBody hop hphase
  | writeBr =>
    simp only [State.advancePut] at h
    split at h
    · rename_i br hbr
      split at h
      · rename_i hempty
        obtain rfl := Option.some.inj h
        refine Move.noVariant hop hphase ?_
        rw [hbr, hempty]
        rfl
      · rename_i hnonempty
        obtain rfl := Option.some.inj h
        exact Move.writesVariant hop hphase hbr hnonempty
    · rename_i hnone
      obtain rfl := Option.some.inj h
      refine Move.noVariant hop hphase ?_
      rw [hnone]
      rfl
  | writeHeaders hasBr =>
    simp only [State.advancePut] at h
    split at h
    · rename_i hheaders
      obtain rfl := Option.some.inj h
      exact Move.writesSidecar hop hphase hheaders.1
    · obtain rfl := Option.some.inj h
      exact Move.noSidecar hop hphase
  | register hasBr =>
    simp only [State.advancePut] at h
    split at h
    · rename_i hroom
      obtain rfl := Option.some.inj h
      exact Move.registers hop hphase hroom
    · rename_i hroom
      obtain rfl := Option.some.inj h
      exact Move.rollsBack hop hphase (by simpa using hroom)
  | _ => cases h

/-- Every step of an operation is one of the moves. -/
lemma move_of_advance (h : s.advance jsonSize i t = some r) : Move jsonSize s i t r.1 r.2 := by
  unfold State.advance at h
  split at h
  · rename_i hphase
    exact move_begin hphase h
  · rename_i file files next hphase
    obtain rfl := Option.some.inj h
    exact Move.deletes hphase
  · split at h
    · rename_i key allowStale hop
      exact move_get hop rfl h
    · rename_i args hop
      exact move_put hop rfl h
    · cases h

/-- Every eviction is one of the moves. -/
lemma move_of_evict {order : List String} (h : s.evictStep order t = some r) :
    Move jsonSize s i t r.1 r.2 := by
  have hlru : ∀ {needed : UInt64} {next : Next},
      t.phase = .start ∨ (∃ needed, t.phase = .evict needed) → next.isCopy = false →
      (next = .write ↔ ∃ args, t.op = .put args) → s.evictLru needed order next = some r →
      Move jsonSize s i t r.1 r.2 := by
    intro needed next hphase hcopy hput h
    unfold State.evictLru at h
    split at h
    · obtain rfl := Option.some.inj h
      exact Move.removes hphase hcopy hput
    · cases h
  unfold State.evictStep at h
  split at h
  · rename_i needed hop hphase
    exact hlru (.inl hphase) rfl (by simp [hop]) h
  · rename_i args needed hop hphase
    exact hlru (.inr ⟨needed, hphase⟩) rfl (by simp [hop]) h
  · cases h

/-- The steps, with what each finds and leaves. -/
inductive Step (jsonSize : HeaderMap → ℕ) (s : State) : Action → State → Prop
  | tick {time : Time} : Step jsonSize s (.tick time) { s with now := s.now + time }
  | call {op : Op} :
      Step jsonSize s (.call op) { s with tasks := s.tasks ++ [{ op := op, phase := .start }] }
  | moves {a : Action} {i : ℕ} {t : Task} {r : State} {phase : Phase} :
      a = .step i ∨ (∃ order, a = .evict i order) → s.tasks[i]? = some t →
      Move jsonSize s i t r phase → Step jsonSize s a (r.setPhase i phase)
  | fails {i : ℕ} {written : Option ℕ} {t : Task} {r : State × Phase} :
      s.tasks[i]? = some t → s.failStep written t = some r →
      Step jsonSize s (.fail i written) (r.1.setPhase i r.2)
  | restart : Step jsonSize s .restart
      { s with
        layer := { s.layer with index := ∅, currentSize := 0 }
        registeredAt := fun _ => none
        tasks := [] }

/-- Every action that is possible is one of the steps. -/
lemma step_cases {a : Action} (h : step jsonSize s a = some s') : Step jsonSize s a s' := by
  cases a with
  | tick time => exact Option.some.inj h ▸ Step.tick
  | call op => exact Option.some.inj h ▸ Step.call
  | step i =>
    obtain ⟨t, ht, h⟩ := Option.bind_eq_some_iff.mp h
    obtain ⟨r, hr, rfl⟩ := Option.map_eq_some_iff.mp h
    exact Step.moves (.inl rfl) ht (move_of_advance hr)
  | evict i order =>
    obtain ⟨t, ht, h⟩ := Option.bind_eq_some_iff.mp h
    obtain ⟨r, hr, rfl⟩ := Option.map_eq_some_iff.mp h
    exact Step.moves (.inr ⟨order, rfl⟩) ht (move_of_evict hr)
  | fail i written =>
    obtain ⟨t, ht, h⟩ := Option.bind_eq_some_iff.mp h
    obtain ⟨r, hr, rfl⟩ := Option.map_eq_some_iff.mp h
    exact Step.fails ht hr
  | restart => exact Option.some.inj h ▸ Step.restart

/-! ## What the steps leave alone -/

/-- A file operation that fails leaves the index and the size counter alone. -/
lemma index_of_fail {written : Option ℕ} (h : s.failStep written t = some r) :
    r.1.layer.index = s.layer.index ∧ r.1.layer.currentSize = s.layer.currentSize ∧
      r.1.layer.maxSizeBytes = s.layer.maxSizeBytes ∧ r.1.underflow = s.underflow := by
  unfold State.failStep at h
  repeat' split at h
  all_goals cases h
  all_goals exact ⟨rfl, rfl, rfl, rfl⟩

/-- Dropping entries leaves the files, the capacity and the operations alone. -/
lemma dropAll_frame (s : State) (keys : List String) :
    (s.dropAll keys).layer.files = s.layer.files ∧ (s.dropAll keys).layer.brFiles = s.layer.brFiles ∧
      (s.dropAll keys).headerFiles = s.headerFiles ∧
      (s.dropAll keys).layer.maxSizeBytes = s.layer.maxSizeBytes ∧ (s.dropAll keys).now = s.now ∧
      (s.dropAll keys).owner = s.owner ∧ (s.dropAll keys).registeredAt = s.registeredAt ∧
      (s.dropAll keys).tasks = s.tasks := by
  induction keys generalizing s with
  | nil => exact ⟨rfl, rfl, rfl, rfl, rfl, rfl, rfl, rfl⟩
  | cons key keys ih =>
    obtain ⟨hfiles, hbr, hheaders, hmax, hnow, howner, hregistered, htasks⟩ := ih (s.drop key)
    obtain ⟨hfiles', hbr'⟩ := CacheLayer.files_dropEntry s.layer key
    have hmax' : (s.layer.dropEntry key).maxSizeBytes = s.layer.maxSizeBytes := by
      unfold CacheLayer.dropEntry
      split <;> rfl
    exact ⟨hfiles.trans hfiles', hbr.trans hbr', hheaders, hmax.trans hmax', hnow, howner, hregistered,
      htasks⟩

/-- Deleting a file leaves the capacity and the operations alone. -/
lemma removeFile_frame (s : State) (file : FileKind × String) :
    (s.removeFile file).layer.maxSizeBytes = s.layer.maxSizeBytes ∧
      (s.removeFile file).registeredAt = s.registeredAt ∧ (s.removeFile file).tasks = s.tasks := by
  obtain ⟨kind, key⟩ := file
  cases kind <;> exact ⟨rfl, rfl, rfl⟩

/-- Dropping entries removes exactly their keys from the index. -/
lemma index_dropAll (s : State) (keys : List String) (k : String) :
    (s.dropAll keys).layer.index.lookup k = if k ∈ keys then none else s.layer.index.lookup k := by
  induction keys generalizing s with
  | nil => rfl
  | cons key keys ih =>
    have hdrop : (s.drop key).layer.index.lookup k = if k = key then none else s.layer.index.lookup k :=
      CacheLayer.index_dropEntry s.layer key k
    have hcons : s.dropAll (key :: keys) = (s.drop key).dropAll keys := rfl
    rw [hcons, ih, hdrop]
    by_cases hkeys : k ∈ keys
    · simp [hkeys]
    · by_cases hk : k = key <;> simp [hkeys, hk]

lemma Move.maxSizeBytes {phase : Phase} (h : Move jsonSize s i t s' phase) :
    s'.layer.maxSizeBytes = s.layer.maxSizeBytes := by
  cases h with
  | hit _ _ _ _ =>
    change (s.layer.touch _ _ _).maxSizeBytes = _
    unfold CacheLayer.touch
    split <;> rfl
  | cleanup _ _ => exact (dropAll_frame s [_]).2.2.2.1
  | removes _ _ _ => exact (dropAll_frame s _).2.2.2.1
  | deletes _ => exact (removeFile_frame s _).1
  | _ => rfl

/-- The capacity is constant. -/
lemma maxSizeBytes_step {a : Action} (h : step jsonSize s a = some s') :
    s'.layer.maxSizeBytes = s.layer.maxSizeBytes := by
  cases step_cases h with
  | tick => rfl
  | call => rfl
  | moves _ _ hmove => exact hmove.maxSizeBytes
  | fails _ hfail => exact (index_of_fail hfail).2.2.1
  | restart => rfl

/-- An operation that moves has not finished. -/
lemma Move.not_done {phase : Phase} (h : Move jsonSize s i t s' phase) (reply : Reply) :
    t.phase ≠ .done reply := by
  intro hdone
  cases h with
  | removes hphase _ _ =>
    rcases hphase with hstart | ⟨needed, hevict⟩
    · rw [hstart] at hdone
      cases hdone
    · rw [hevict] at hdone
      cases hdone
  | _ =>
    simp only [hdone, reduceCtorEq] at *

/-- A step changes no other operation. -/
lemma Move.tasks {phase : Phase} (h : Move jsonSize s i t s' phase) : s'.tasks = s.tasks := by
  cases h with
  | removes _ _ _ => exact (dropAll_frame s _).2.2.2.2.2.2.2
  | deletes _ => exact (removeFile_frame s _).2.2
  | _ => rfl

/-- Moving an operation changes its phase. -/
lemma setPhase_self {phase : Phase} (h : s.tasks[i]? = some t) :
    (s.setPhase i phase).tasks[i]? = some { t with phase := phase } := by
  simp [State.setPhase, h]

/-- Moving an operation leaves the others alone. -/
lemma setPhase_ne {phase : Phase} {j : ℕ} (h : j ≠ i) : (s.setPhase i phase).tasks[j]? = s.tasks[j]? := by
  simp [State.setPhase, Ne.symm h]

/-- An operation is the given one or another one. -/
lemma mem_tasks_cases {u : Task} (h : s.tasks[i]? = some t) (hu : u ∈ s.tasks) :
    u = t ∨ ∃ j, j ≠ i ∧ s.tasks[j]? = some u := by
  obtain ⟨j, hj⟩ := List.mem_iff_getElem?.mp hu
  by_cases hji : j = i
  · subst hji
    exact .inl (Option.some.inj (hj.symm.trans h))
  · exact .inr ⟨j, hji, hj⟩

/-- The operations after a move: the one that moved, and the others. -/
lemma mem_setPhase {phase : Phase} {u : Task} (h : s.tasks[i]? = some t)
    (hu : u ∈ (s.setPhase i phase).tasks) :
    u = { t with phase := phase } ∨ ∃ j, j ≠ i ∧ s.tasks[j]? = some u := by
  rcases mem_tasks_cases (setPhase_self h) hu with rfl | ⟨j, hji, hj⟩
  · exact .inl rfl
  · rw [setPhase_ne hji] at hj
    exact .inr ⟨j, hji, hj⟩

/-! ## What a step does under one key -/

/-- The same copy, up to the statistics of its hits. -/
def CacheEntry.SameCopy (e e' : CacheEntry) : Prop :=
  ∃ hits time, e' = { e with hitCount := hits, accessedAt := time }

/-- A step keeps the entry of a key up to its statistics, or removes it, or registers it. -/
lemma Move.index {phase : Phase} (h : Move jsonSize s i t s' phase) (k : String) :
    (s'.owner k = s.owner k ∧ ∀ e', s'.layer.index.lookup k = some e' →
      ∃ e, s.layer.index.lookup k = some e ∧ CacheEntry.SameCopy e e') ∨
    ∃ args hasBr, t.op = .put args ∧ t.phase = .register hasBr ∧ args.key = k ∧
      s.hasRoom args = true ∧ s' = s.insertEntry i args hasBr ∧ phase = .done .finished := by
  have hsame : ∀ {r : State}, r.owner k = s.owner k →
      (r.layer.index.lookup k = none ∨ r.layer.index.lookup k = s.layer.index.lookup k) →
      r.owner k = s.owner k ∧ ∀ e', r.layer.index.lookup k = some e' →
        ∃ e, s.layer.index.lookup k = some e ∧ CacheEntry.SameCopy e e' := by
    intro r howner hindex
    refine ⟨howner, fun e' he' => ?_⟩
    rcases hindex with hnone | hkept
    · rw [hnone] at he'
      cases he'
    · exact ⟨e', hkept ▸ he', e'.hitCount, e'.accessedAt, rfl⟩
  cases h with
  | @hit key _ e _ _ hlookup _ =>
    left
    by_cases hexpired : e.isExpired s.now = true
    · refine hsame rfl (.inr ?_)
      rw [CacheLayer.touch, if_pos hexpired]
    · refine ⟨rfl, fun e' he' => ?_⟩
      rw [CacheLayer.touch, if_neg hexpired] at he'
      by_cases hk : k = key
      · subst hk
        rw [AList.lookup_insert, Option.some.injEq] at he'
        exact ⟨e, hlookup, e.hitCount + 1, s.now, he'.symm⟩
      · rw [AList.lookup_insert_ne hk] at he'
        exact ⟨e', he', e'.hitCount, e'.accessedAt, rfl⟩
  | @cleanup key _ _ _ =>
    left
    refine hsame rfl ?_
    have hdrop := index_dropAll s [key] k
    by_cases hk : k ∈ [key]
    · exact .inl (by rw [if_pos hk] at hdrop; exact hdrop)
    · exact .inr (by rw [if_neg hk] at hdrop; exact hdrop)
  | @removes keys _ _ _ _ =>
    left
    refine hsame (congrFun (dropAll_frame s keys).2.2.2.2.2.1 k) ?_
    have hdrop := index_dropAll s keys k
    by_cases hk : k ∈ keys
    · exact .inl (by rw [hdrop, if_pos hk])
    · exact .inr (by rw [hdrop, if_neg hk])
  | clears _ _ _ =>
    left
    exact hsame rfl (.inl (AList.lookup_empty k))
  | @registers args hasBr hop hphase hroom =>
    by_cases hk : args.key = k
    · exact .inr ⟨args, hasBr, hop, hphase, hk, hroom, rfl, rfl⟩
    · left
      refine hsame ?_ (.inr ?_)
      · exact Function.update_of_ne (Ne.symm hk) _ _
      · exact AList.lookup_insert_ne (Ne.symm hk)
  | @deletes file _ _ _ =>
    left
    obtain ⟨kind, key⟩ := file
    cases kind <;> exact hsame rfl (.inr rfl)
  | _ => exact .inl (hsame rfl (.inr rfl))

/-- A step keeps the body file of a key, or writes it, or deletes it. -/
lemma Move.files {phase : Phase} (h : Move jsonSize s i t s' phase) (k : String) :
    s'.layer.files.lookup k = s.layer.files.lookup k ∨
    (∃ args, t.op = .put args ∧ t.phase = .write ∧ args.key = k ∧ phase = .writeBr ∧
      s'.layer.files.lookup k = some args.bytes) ∨
    ∃ files next, t.phase = .delete ((.body, k) :: files) next ∧ phase = deleting files next ∧
      s' = s.removeFile (.body, k) ∧ s'.layer.files.lookup k = none := by
  cases h with
  | @hit key _ e _ _ _ _ => exact .inl (congrArg (AList.lookup k) (CacheLayer.files_touch s.layer s.now key e).1)
  | cleanup _ _ => exact .inl (congrArg (AList.lookup k) (dropAll_frame s [_]).1)
  | @removes keys _ _ _ _ => exact .inl (congrArg (AList.lookup k) (dropAll_frame s keys).1)
  | @writesBody args hop hphase =>
    by_cases hk : args.key = k
    · subst hk
      exact .inr (.inl ⟨args, hop, hphase, rfl, rfl, AList.lookup_insert _⟩)
    · exact .inl (AList.lookup_insert_ne (Ne.symm hk))
  | @deletes file files next hphase =>
    obtain ⟨kind, key⟩ := file
    cases kind with
    | body =>
      by_cases hk : k = key
      · subst hk
        exact .inr (.inr ⟨files, next, hphase, rfl, rfl, AList.lookup_erase k _⟩)
      · exact .inl (AList.lookup_erase_ne hk)
    | br => exact .inl rfl
    | headers => exact .inl rfl
  | _ => exact .inl rfl

/-- A step keeps the brotli file of a key, or writes it, or deletes it. -/
lemma Move.brFiles {phase : Phase} (h : Move jsonSize s i t s' phase) (k : String) :
    s'.layer.brFiles.lookup k = s.layer.brFiles.lookup k ∨
    (∃ args br, t.op = .put args ∧ t.phase = .writeBr ∧ args.key = k ∧ args.bodyBr = some br ∧ br ≠ [] ∧
      phase = .writeHeaders true ∧ s'.layer.brFiles.lookup k = some br) ∨
    ∃ files next, t.phase = .delete ((.br, k) :: files) next ∧ phase = deleting files next ∧
      s'.layer.brFiles.lookup k = none := by
  cases h with
  | @hit key _ e _ _ _ _ => exact .inl (congrArg (AList.lookup k) (CacheLayer.files_touch s.layer s.now key e).2)
  | cleanup _ _ => exact .inl (congrArg (AList.lookup k) (dropAll_frame s [_]).2.1)
  | @removes keys _ _ _ _ => exact .inl (congrArg (AList.lookup k) (dropAll_frame s keys).2.1)
  | @writesVariant args br hop hphase hbr hnonempty =>
    by_cases hk : args.key = k
    · subst hk
      exact .inr (.inl ⟨args, br, hop, hphase, rfl, hbr, hnonempty, rfl, AList.lookup_insert _⟩)
    · exact .inl (AList.lookup_insert_ne (Ne.symm hk))
  | @deletes file files next hphase =>
    obtain ⟨kind, key⟩ := file
    cases kind with
    | br =>
      by_cases hk : k = key
      · subst hk
        exact .inr (.inr ⟨files, next, hphase, rfl, AList.lookup_erase k _⟩)
      · exact .inl (AList.lookup_erase_ne hk)
    | body => exact .inl rfl
    | headers => exact .inl rfl
  | _ => exact .inl rfl

lemma Task.isWriting_iff {k : String} : t.isWriting k ↔ ∃ args, t.op = .put args ∧
    (args.key = k ∧ (t.phase = .writeBr ∨ (∃ b, t.phase = .writeHeaders b) ∨ ∃ b, t.phase = .register b) ∨
      ∃ files reply, t.phase = .delete ((.body, k) :: files) (.reply reply)) := by
  constructor
  · intro h
    unfold Task.isWriting at h
    split at h
    · rename_i args hop hphase
      exact ⟨args, hop, .inl ⟨h, .inl hphase⟩⟩
    · rename_i args b hop hphase
      exact ⟨args, hop, .inl ⟨h, .inr (.inl ⟨b, hphase⟩)⟩⟩
    · rename_i args b hop hphase
      exact ⟨args, hop, .inl ⟨h, .inr (.inr ⟨b, hphase⟩)⟩⟩
    · rename_i args k' files reply hop hphase
      subst h
      exact ⟨args, hop, .inr ⟨files, reply, hphase⟩⟩
    · exact h.elim
  · rintro ⟨args, hop, ⟨hkey, hphase | ⟨b, hphase⟩ | ⟨b, hphase⟩⟩ | ⟨files, reply, hphase⟩⟩
    all_goals simp only [Task.isWriting, hop, hphase]
    all_goals exact hkey

lemma Task.not_isWriting_get {key k : String} {allowStale : Bool} {phase : Phase} :
    ¬ (⟨.get key allowStale, phase⟩ : Task).isWriting k := by
  intro h
  obtain ⟨args, hop, -⟩ := Task.isWriting_iff.mp h
  cases hop

lemma Move.of_write {phase : Phase} (h : Move jsonSize s i t s' phase) (hphase : t.phase = .write) :
    phase = .writeBr := by
  cases h <;> simp_all

lemma Move.of_writeBr {phase : Phase} (h : Move jsonSize s i t s' phase) (hphase : t.phase = .writeBr) :
    ∃ b, phase = .writeHeaders b := by
  cases h <;> simp_all

lemma Move.of_writeHeaders {phase : Phase} {b : Bool} (h : Move jsonSize s i t s' phase)
    (hphase : t.phase = .writeHeaders b) : phase = .register b := by
  cases h <;> simp_all

lemma Move.put_of_register {phase : Phase} {b : Bool} (h : Move jsonSize s i t s' phase)
    (hphase : t.phase = .register b) : ∃ args, t.op = .put args := by
  cases h <;> simp_all

lemma Move.of_register {phase : Phase} {b : Bool} {args : PutArgs} (h : Move jsonSize s i t s' phase)
    (hop : t.op = .put args) (hphase : t.phase = .register b) :
    (s.hasRoom args = true ∧ s' = s.insertEntry i args b ∧ phase = .done .finished) ∨
      s.hasRoom args = false ∧ s' = s ∧
        phase = .delete [(.body, args.key), (.headers, args.key)] (.reply .finished) := by
  cases h <;> simp_all

lemma Move.of_delete {phase : Phase} {file : FileKind × String} {files : List (FileKind × String)}
    {next : Next} (h : Move jsonSize s i t s' phase) (hphase : t.phase = .delete (file :: files) next) :
    s' = s.removeFile file ∧ phase = deleting files next := by
  cases h with
  | deletes hdelete =>
    rw [hphase] at hdelete
    cases hdelete
    exact ⟨rfl, rfl⟩
  | removes hstart _ _ => simp_all
  | _ => simp_all only [reduceCtorEq]

/-- A `put` that has replaced a body file goes on to register its entry or to delete the file. -/
lemma Move.stops_writing {phase : Phase} {k : String} (h : Move jsonSize s i t s' phase)
    (hwriting : t.isWriting k) (hstops : ¬ { t with phase := phase }.isWriting k) :
    (∃ args hasBr, t.op = .put args ∧ t.phase = .register hasBr ∧ args.key = k ∧
      s' = s.insertEntry i args hasBr) ∨
    ∃ files next, t.phase = .delete ((.body, k) :: files) next ∧ s'.layer.files.lookup k = none := by
  obtain ⟨args, hop, hphase⟩ := Task.isWriting_iff.mp hwriting
  have hnot : ¬ (args.key = k ∧
      (phase = .writeBr ∨ (∃ b, phase = .writeHeaders b) ∨ ∃ b, phase = .register b) ∨
      ∃ files reply, phase = .delete ((.body, k) :: files) (.reply reply)) :=
    fun h => hstops (Task.isWriting_iff.mpr ⟨args, hop, h⟩)
  rcases hphase with ⟨hkey, hphase⟩ | ⟨files, reply, hphase⟩
  · left
    rcases hphase with hphase | ⟨b, hphase⟩ | ⟨b, hphase⟩
    · refine absurd (.inl ⟨hkey, .inr (.inl ?_)⟩) hnot
      exact h.of_writeBr hphase
    · refine absurd (.inl ⟨hkey, .inr (.inr ?_)⟩) hnot
      exact ⟨b, h.of_writeHeaders hphase⟩
    · rcases h.of_register hop hphase with ⟨-, hs', -⟩ | ⟨-, -, hrollback⟩
      · exact ⟨args, b, hop, hphase, hkey, hs'⟩
      · refine absurd (.inr ?_) hnot
        subst hkey
        exact ⟨_, _, hrollback⟩
  · obtain ⟨rfl, -⟩ := h.of_delete hphase
    exact .inr ⟨files, .reply reply, hphase, AList.lookup_erase k _⟩

lemma deleting_eq_delete {files files' : List (FileKind × String)} {next next' : Next}
    (h : deleting files next = .delete files' next') : files = files' ∧ next = next' := by
  cases files with
  | nil => cases next <;> cases h
  | cons file rest =>
    cases h
    exact ⟨rfl, rfl⟩

lemma Move.to_writing {phase : Phase} (h : Move jsonSize s i t s' phase) :
    (phase = .writeBr → t.phase = .write) ∧
    (∀ b, phase = .writeHeaders b → t.phase = .writeBr) ∧
    ∀ b, phase = .register b → ∃ b', t.phase = .writeHeaders b' := by
  have hdeleting : ∀ {files : List (FileKind × String)} {next : Next},
      deleting files next ≠ .writeBr ∧ (∀ b, deleting files next ≠ .writeHeaders b) ∧
        ∀ b, deleting files next ≠ .register b := by
    intro files next
    cases files with
    | nil => cases next <;> exact ⟨nofun, nofun, nofun⟩
    | cons file rest => exact ⟨nofun, nofun, nofun⟩
  cases h with
  | removes _ _ _ => exact ⟨fun h => absurd h hdeleting.1, fun b h => absurd h (hdeleting.2.1 b),
      fun b h => absurd h (hdeleting.2.2 b)⟩
  | clears _ _ _ => exact ⟨fun h => absurd h hdeleting.1, fun b h => absurd h (hdeleting.2.1 b),
      fun b h => absurd h (hdeleting.2.2 b)⟩
  | deletes _ => exact ⟨fun h => absurd h hdeleting.1, fun b h => absurd h (hdeleting.2.1 b),
      fun b h => absurd h (hdeleting.2.2 b)⟩
  | _ => simp_all

lemma Move.to_delete {phase : Phase} {args : PutArgs} {files : List (FileKind × String)} {reply : Reply}
    (h : Move jsonSize s i t s' phase) (hop : t.op = .put args) (hphase : phase = .delete files (.reply reply)) :
    (∃ b, t.phase = .register b ∧ files = [(.body, args.key), (.headers, args.key)]) ∨
      ∃ file, t.phase = .delete (file :: files) (.reply reply) := by
  cases h with
  | rollsBack hop' hregister _ =>
    rw [hop] at hop'
    cases hop'
    cases hphase
    exact .inl ⟨_, hregister, rfl⟩
  | removes _ _ hnext =>
    obtain ⟨-, rfl⟩ := deleting_eq_delete hphase
    have hwrite := hnext.mpr ⟨args, hop⟩
    cases hwrite
  | clears hop' _ _ =>
    rw [hop] at hop'
    cases hop'
  | deletes hdelete =>
    obtain ⟨rfl, rfl⟩ := deleting_eq_delete hphase
    exact .inr ⟨_, hdelete⟩
  | _ => cases hphase

/-- Work on a body file begins with the write of it. -/
lemma Move.starts_writing {phase : Phase} {k : String} (h : Move jsonSize s i t s' phase)
    (hnot : ¬ t.isWriting k) (hstarts : { t with phase := phase }.isWriting k) :
    (∃ args, t.op = .put args ∧ t.phase = .write ∧ args.key = k) ∨
      ∃ args file files reply, t.op = .put args ∧
        t.phase = .delete (file :: (.body, k) :: files) (.reply reply) := by
  obtain ⟨args, hop, ⟨hkey, hphase | ⟨b, hphase⟩ | ⟨b, hphase⟩⟩ | ⟨files, reply, hphase⟩⟩ :=
    Task.isWriting_iff.mp hstarts
  · exact .inl ⟨args, hop, h.to_writing.1 hphase, hkey⟩
  · have hwriting : t.isWriting k :=
      Task.isWriting_iff.mpr ⟨args, hop, .inl ⟨hkey, .inl (h.to_writing.2.1 b hphase)⟩⟩
    exact absurd hwriting hnot
  · have hwriting : t.isWriting k :=
      Task.isWriting_iff.mpr ⟨args, hop, .inl ⟨hkey, .inr (.inl (h.to_writing.2.2 b hphase))⟩⟩
    exact absurd hwriting hnot
  · rcases h.to_delete hop hphase with ⟨b, hregister, hfiles⟩ | ⟨file, hdelete⟩
    · cases hfiles
      have hwriting : t.isWriting args.key :=
        Task.isWriting_iff.mpr ⟨args, hop, .inl ⟨rfl, .inr (.inr ⟨b, hregister⟩)⟩⟩
      exact absurd hwriting hnot
    · exact .inr ⟨args, file, files, reply, hop, hdelete⟩

end SmartSchoolCdn.Disk
