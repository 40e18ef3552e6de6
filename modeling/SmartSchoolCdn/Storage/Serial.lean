import SmartSchoolCdn.Storage.Eviction
import SmartSchoolCdn.Storage.Seeding
import SmartSchoolCdn.Storage.Snapshot

/-!
# Operations one after the other

The cache layer at its locks and file operations against the sequential one.  In a serial run an
operation is called, and time passes, only while no other is running, and no file operation fails.  Then
the interleaved system does what the sequential methods do, each as a whole at the time of its call, and
everything that they can do (`serial_run_iff`).

Equally old entries may be evicted in any order on both sides.
-/

namespace SmartSchoolCdn.Disk

open CacheLayer Traces

/-! ## The sequential methods -/

/-- A method as a whole, with an order in which it may evict: the layer it leaves and its answer. -/
def Op.whole (order : List (String × CacheEntry)) (now : Time) (c : CacheLayer Bytes) :
    Op → CacheLayer Bytes × Reply
  | .get key allowStale =>
    let r := c.getWithStale now key allowStale
    (r.2, .got r.1)
  | .put args =>
    (c.putInOrder order true now args.key args.url args.domain args.contentType args.bytes args.ttl
      args.bodyBr args.cachedHeaders, .finished)
  | .purgeByKey key =>
    let r := c.purgeByKey key
    (r.2.2, .purged r.1 r.2.1)
  | .purgeByUrl url =>
    let r := c.purgeByUrl url
    (r.2.2, .purged r.1 r.2.1)
  | .purgeDomain domain =>
    let r := c.purgeDomain domain
    (r.2.2, .purged r.1 r.2.1)
  | .purgeAll =>
    let r := c.purgeAll
    (r.2.2, .purged r.1 r.2.1)
  | .evict needed => (c.removeKeys (evictVictims needed 0 order), .finished)

/-- What methods called at some times, one after the other, make of a layer, with their answers. -/
inductive Sequence (c : CacheLayer Bytes) : List (Time × Op) → CacheLayer Bytes → List Reply → Prop
  | nil : Sequence c [] c []
  | snoc {h : List (Time × Op)} {d : CacheLayer Bytes} {replies : List Reply}
      {order : List (String × CacheEntry)} (now : Time) (op : Op) :
      Sequence c h d replies → d.IsEvictOrder order →
      Sequence c (h ++ [(now, op)]) (op.whole order now d).1 (replies ++ [(op.whole order now d).2])

/-! ## The rest of an operation -/

/-- The deletion of a file. -/
def deleteFile (c : CacheLayer Bytes) : FileKind × String → CacheLayer Bytes
  | (.body, key) => { c with files := c.files.erase key }
  | (.br, key) => { c with brFiles := c.brFiles.erase key }
  | (.headers, _) => c

/-- What `put` does from its file writes on. -/
def save (now : Time) (args : PutArgs) (c : CacheLayer Bytes) : CacheLayer Bytes :=
  (c.writeFiles args.key args.bytes args.bodyBr).register args.key
    (State.entryOf now args (hasVariant args.bodyBr))

/-- The rest of a `get`. -/
def restOfGet (c : CacheLayer Bytes) (key : String) : Phase → CacheLayer Bytes × Reply
  | .read found isStale =>
    match c.files.lookup key with
    | some body =>
      (c, State.answer found isStale body (if found.hasBr then c.brFiles.lookup key else none))
    | none => (c.dropEntry key, .got none)
  | .readBr found isStale body => (c, State.answer found isStale body (c.brFiles.lookup key))
  | .cleanup => (c.dropEntry key, .got none)
  | _ => (c, .finished)

/-- The rest of a `put` after an eviction. -/
def restOfPut (now : Time) (c : CacheLayer Bytes) (args : PutArgs) : Phase → CacheLayer Bytes × Reply
  | .write => (save now args c, .finished)
  | .writeBr =>
    ((match args.bodyBr with
      | some br => if br = [] then c else { c with brFiles := c.brFiles.insert args.key br }
      | none => c).register args.key (State.entryOf now args (hasVariant args.bodyBr)), .finished)
  | .writeHeaders hasBr => (c.register args.key (State.entryOf now args hasBr), .finished)
  | .register hasBr => (c.register args.key (State.entryOf now args hasBr), .finished)
  | _ => (c, .finished)

/-- What follows the deletion of files. -/
def Next.rest (now : Time) (op : Op) (c : CacheLayer Bytes) : Next → CacheLayer Bytes × Reply
  | .reply r => (c, r)
  | .write =>
    match op with
    | .put args => (save now args c, .finished)
    | _ => (c, .finished)

/-- What an operation does from a phase on, if nothing else happens. -/
def rest (now : Time) (op : Op) (c : CacheLayer Bytes) : Phase → CacheLayer Bytes × Reply
  | .delete files next => next.rest now op (files.foldl deleteFile c)
  | .done reply => (c, reply)
  | phase =>
    match op with
    | .get key _ => restOfGet c key phase
    | .put args => restOfPut now c args phase
    | _ => (c, .finished)

variable {jsonSize : HeaderMap → ℕ} {s s' : State} {i : ℕ} {t : Task} {now : Time} {op : Op}
  {c : CacheLayer Bytes} {r : State × Phase} {order : List (String × CacheEntry)}

/-- A deletion does what it deletes and what follows. -/
lemma rest_deleting (files : List (FileKind × String)) (next : Next) :
    rest now op c (deleting files next) = next.rest now op (files.foldl deleteFile c) := by
  cases files with
  | nil =>
    cases next with
    | write => cases op <;> rfl
    | reply r => rfl
  | cons file files => rfl

lemma layer_removeFile (file : FileKind × String) :
    (s.removeFile file).layer = deleteFile s.layer file := by
  obtain ⟨kind, key⟩ := file
  cases kind <;> rfl

lemma layer_dropAll (keys : List String) (s : State) :
    (s.dropAll keys).layer = keys.foldl dropEntry s.layer := by
  induction keys generalizing s with
  | nil => rfl
  | cons key keys ih => exact ih (s.drop key)

/-- The files of keys are deleted key by key. -/
lemma foldl_filesOf (keys : List String) (c : CacheLayer Bytes) :
    (keys.flatMap filesOf).foldl deleteFile c = keys.foldl deleteFiles c := by
  induction keys generalizing c with
  | nil => rfl
  | cons key keys ih => exact ih (c.deleteFiles key)

/-- Dropping the entries of keys and deleting their files removes them. -/
lemma rest_removes (keys : List String) (next : Next) :
    rest now op (s.dropAll keys).layer (deleting (keys.flatMap filesOf) next) =
      next.rest now op (s.layer.removeKeys keys) := by
  rw [rest_deleting, foldl_filesOf, layer_dropAll, removeKeys]

/-! ## Steps -/

/-- Where an operation called in a layer stands that evicts in an order: at its start, before an eviction,
or at a phase from which on it does what is left of the whole. -/
inductive Doing (now : Time) (op : Op) (c : CacheLayer Bytes) (order : List (String × CacheEntry)) :
    CacheLayer Bytes → Phase → Prop
  | begun : Doing now op c order c .start
  | full {args : PutArgs} : op = .put args → ¬ blobSize args.bytes > c.maxSizeBytes →
      c.currentSize + blobSize args.bytes > c.maxSizeBytes →
      Doing now op c order c (.evict (c.currentSize + blobSize args.bytes - c.maxSizeBytes))
  | past {d : CacheLayer Bytes} {phase : Phase} : phase ≠ .start → (∀ needed, phase ≠ .evict needed) →
      rest now op d phase = op.whole order now c → Doing now op c order d phase

/-- Nothing has happened before an eviction. -/
lemma Doing.of_evict {d : CacheLayer Bytes} {needed : UInt64}
    (h : Doing now op c order d (.evict needed)) : d = c := by
  cases h with
  | full _ _ _ => rfl
  | past _ hevict _ => exact absurd rfl (hevict needed)

/-- A deletion is past the evictions. -/
lemma deleting_past (files : List (FileKind × String)) (next : Next) :
    deleting files next ≠ .start ∧ ∀ needed, deleting files next ≠ .evict needed := by
  cases files with
  | nil => cases next <;> simp [deleting, Next.phase]
  | cons file files => simp [deleting]

/-- A deletion after which the operation is the whole. -/
lemma Doing.deleting {d : CacheLayer Bytes} {files : List (FileKind × String)} {next : Next}
    (h : next.rest now op (files.foldl deleteFile d) = op.whole order now c) :
    Doing now op c order d (deleting files next) :=
  Doing.past (deleting_past files next).1 (deleting_past files next).2 (by rw [rest_deleting, h])

/-- The order of the sequential `evict_lru` is one of them. -/
lemma isEvictOrder_self (c : CacheLayer Bytes) : c.IsEvictOrder c.evictOrder :=
  ⟨c.evictOrder_perm, List.pairwise_insertionSort _ _⟩

/-- The entries of all keys. -/
lemma entriesOf_keys (s : State) :
    s.entriesOf s.layer.index.keys = s.layer.index.entries.map fun p => (p.1, p.2) := by
  have hkeys : s.layer.index.keys = s.layer.index.entries.map Sigma.fst := rfl
  rw [hkeys, State.entriesOf, List.filterMap_map, ← List.filterMap_eq_map]
  refine List.filterMap_congr fun p hp => ?_
  have hlookup : s.layer.index.lookup p.1 = some p.2 := AList.mem_lookup_iff.mpr hp
  rw [Function.comp_apply, hlookup]
  rfl

/-- An eviction order of the interleaved system is one of the sequential methods. -/
lemma isEvictOrder_entriesOf {keys : List String} (h : s.IsEvictOrder keys) :
    s.layer.IsEvictOrder (s.entriesOf keys) := by
  obtain ⟨hperm, hsorted⟩ := h
  constructor
  · rw [← entriesOf_keys]
    exact hperm.filterMap _
  · rw [State.entriesOf, List.pairwise_filterMap]
    refine hsorted.imp fun {a b} hab p hp q hq => ?_
    obtain ⟨e, he, rfl⟩ := Option.map_eq_some_iff.mp hp
    obtain ⟨e', he', rfl⟩ := Option.map_eq_some_iff.mp hq
    rwa [he, he'] at hab

/-- An eviction order of the sequential methods is one of the interleaved system. -/
lemma isEvictOrder_map_fst (h : s.layer.IsEvictOrder order) :
    s.IsEvictOrder (order.map Prod.fst) ∧ s.entriesOf (order.map Prod.fst) = order := by
  obtain ⟨hperm, hsorted⟩ := h
  have hlookup : ∀ p ∈ order, s.layer.index.lookup p.1 = some p.2 := by
    intro p hp
    obtain ⟨q, hq, rfl⟩ := List.mem_map.mp (hperm.mem_iff.mp hp)
    exact AList.mem_lookup_iff.mpr hq
  refine ⟨⟨?_, ?_⟩, ?_⟩
  · have hkeys := hperm.map Prod.fst
    rw [List.map_map] at hkeys
    exact hkeys
  · rw [List.pairwise_map]
    refine hsorted.imp_of_mem fun {p q} hp hq hle => ?_
    rw [hlookup p hp, hlookup q hq]
    exact hle
  · rw [State.entriesOf, List.filterMap_map]
    conv_rhs => rw [← List.filterMap_some (l := order)]
    refine List.filterMap_congr fun p hp => ?_
    rw [Function.comp_apply, hlookup p hp, Option.map_some]

/-- An operation that removes keys and has nothing else to do. -/
lemma doing_removes (keys : List String) {reply : Reply}
    (h : op.whole order now s.layer = (s.layer.removeKeys keys, reply)) :
    Doing now op s.layer order (s.dropAll keys).layer (deleting (keys.flatMap filesOf) (.reply reply)) := by
  refine Doing.deleting ?_
  rw [foldl_filesOf, layer_dropAll, h]
  rfl

/-- The first step of an operation. -/
lemma doing_begin (h : s.begin op = some r) (order : List (String × CacheEntry)) :
    Doing s.now op s.layer order r.1.layer r.2 := by
  cases op with
  | get key allowStale =>
    simp only [State.begin] at h
    split at h
    · rename_i hlookup
      obtain rfl := Option.some.inj h
      refine Doing.past (by simp) (by simp) ?_
      simp [rest, Op.whole, getWithStale, hlookup]
    · rename_i e hlookup
      split at h
      · rename_i hexpired
        obtain rfl := Option.some.inj h
        have hremoves : Doing s.now (.get key allowStale) s.layer order (s.dropAll [key]).layer
            (Disk.deleting ([key].flatMap filesOf) (.reply (.got none))) := by
          refine doing_removes [key] ?_
          simp only [Op.whole, getWithStale, hlookup, hexpired, if_true]
        exact hremoves
      · rename_i hkept
        obtain rfl := Option.some.inj h
        refine Doing.past (by simp) (by simp) ?_
        simp only [rest, restOfGet, Op.whole, getWithStale, hlookup, hkept, readFiles]
        cases (s.layer.touch s.now key e).files.lookup key with
        | none => rfl
        | some body => rfl
  | put args =>
    simp only [State.begin] at h
    split at h
    · rename_i hlarge
      obtain rfl := Option.some.inj h
      refine Doing.past (by simp) (by simp) ?_
      simp only [rest, Op.whole, putInOrder, if_pos hlarge]
    · rename_i hsmall
      split at h
      · rename_i hfull
        obtain rfl := Option.some.inj h
        exact Doing.full rfl hsmall hfull
      · rename_i hfits
        obtain rfl := Option.some.inj h
        refine Doing.past (by simp) (by simp) ?_
        simp only [rest, restOfPut, Op.whole, putInOrder, if_neg hsmall, victimsFor, if_neg hfits, if_true]
        rfl
  | purgeByKey key =>
    simp only [State.begin] at h
    split at h
    · rename_i hlookup
      obtain rfl := Option.some.inj h
      refine Doing.past (by simp) (by simp) ?_
      simp only [rest, Op.whole, purgeByKey, hlookup]
    · rename_i e hlookup
      obtain rfl := Option.some.inj h
      have hremoves : Doing s.now (.purgeByKey key) s.layer order (s.dropAll [key]).layer
          (Disk.deleting ([key].flatMap filesOf) (.reply (.purged 1 e.sizeBytes))) := by
        refine doing_removes [key] ?_
        simp only [Op.whole, purgeByKey, hlookup]
      exact hremoves
  | purgeByUrl url =>
    obtain rfl := Option.some.inj h
    exact doing_removes (s.layer.keysWhere fun e => e.url == url) rfl
  | purgeDomain domain =>
    obtain rfl := Option.some.inj h
    exact doing_removes (s.layer.keysWhere fun e => e.domain == domain) rfl
  | purgeAll =>
    obtain rfl := Option.some.inj h
    refine Doing.deleting ?_
    rw [foldl_filesOf]
    simp only [Next.rest, Op.whole, purgeAll, keysWhere, List.filter_true]
    rfl
  | evict needed => cases h

/-- The registration when there is room. -/
lemma register_of_hasRoom {args : PutArgs} {hasBr : Bool} (h : s.hasRoom args = true) :
    s.layer.register args.key (State.entryOf s.now args hasBr) = (s.insertEntry i args hasBr).layer := by
  have hroom : ¬ s.layer.currentSize + s.layer.netIncrease args.key (blobSize args.bytes) >
      s.layer.maxSizeBytes := by
    rw [State.hasRoom, decide_eq_true_iff] at h
    exact UInt64.not_lt.mpr h
  exact if_neg hroom

/-- The roll-back when there is none. -/
lemma register_of_not_hasRoom {args : PutArgs} {hasBr : Bool} (h : ¬ s.hasRoom args = true) :
    s.layer.register args.key (State.entryOf s.now args hasBr) =
      { s.layer with files := s.layer.files.erase args.key } := by
  have hroom : s.layer.currentSize + s.layer.netIncrease args.key (blobSize args.bytes) >
      s.layer.maxSizeBytes := by
    rw [State.hasRoom, decide_eq_true_iff] at h
    exact UInt64.not_le.mp h
  exact if_pos hroom

/-- A step past the evictions. -/
lemma rest_advance (h : s.advance jsonSize i t = some r) (hstart : t.phase ≠ .start) :
    rest s.now t.op r.1.layer r.2 = rest s.now t.op s.layer t.phase := by
  obtain ⟨op, phase⟩ := t
  unfold State.advance at h
  split at h
  · rename_i hphase
    exact absurd hphase hstart
  · rename_i file files next hphase
    obtain rfl := Option.some.inj h
    simp only at hphase
    rw [rest_deleting, layer_removeFile, hphase]
    rfl
  · split at h
    · rename_i key allowStale hop
      simp only at hop h ⊢
      subst hop
      cases phase with
      | read found isStale =>
        simp only [State.advanceGet] at h
        split at h
        · rename_i hfile
          obtain rfl := Option.some.inj h
          simp [rest, restOfGet, hfile]
        · rename_i body hfile
          split at h
          · rename_i hbr
            obtain rfl := Option.some.inj h
            simp [rest, restOfGet, hfile, hbr]
          · rename_i hbr
            obtain rfl := Option.some.inj h
            simp [rest, restOfGet, hfile, hbr]
      | readBr found isStale body =>
        obtain rfl := Option.some.inj h
        rfl
      | cleanup =>
        obtain rfl := Option.some.inj h
        rfl
      | _ => cases h
    · rename_i args hop
      simp only at hop h ⊢
      subst hop
      cases phase with
      | write =>
        obtain rfl := Option.some.inj h
        simp only [rest, restOfPut, save, writeFiles, State.writeBody]
        cases hbr : args.bodyBr with
        | none => rfl
        | some br => cases br <;> rfl
      | writeBr =>
        simp only [State.advancePut] at h
        split at h
        · rename_i br hbr
          split at h
          · rename_i hempty
            obtain rfl := Option.some.inj h
            simp [rest, restOfPut, hbr, hempty, hasVariant, Blob.size]
          · rename_i hnonempty
            obtain rfl := Option.some.inj h
            have hvariant : hasVariant args.bodyBr = true := hasVariant_of_ne_nil hbr hnonempty
            simp [rest, restOfPut, hbr ▸ hvariant, hbr, hnonempty, State.writeVariant]
        · rename_i hnone
          obtain rfl := Option.some.inj h
          simp [rest, restOfPut, hnone, hasVariant]
      | writeHeaders hasBr =>
        simp only [State.advancePut] at h
        split at h <;> obtain rfl := Option.some.inj h <;> rfl
      | register hasBr =>
        simp only [State.advancePut] at h
        split at h
        · rename_i hroom
          obtain rfl := Option.some.inj h
          exact congrArg (fun d => (d, Reply.finished)) (register_of_hasRoom hroom).symm
        · rename_i hroom
          obtain rfl := Option.some.inj h
          exact congrArg (fun d => (d, Reply.finished)) (register_of_not_hasRoom hroom).symm
      | _ => cases h
    · cases h

/-- An eviction is the one of a whole, which may evict in its order. -/
lemma doing_evictStep {keys : List String} (h : s.evictStep keys t = some r)
    (hdoing : Doing s.now t.op c order s.layer t.phase) :
    Doing s.now t.op c (s.entriesOf keys) r.1.layer r.2 ∧ c.IsEvictOrder (s.entriesOf keys) := by
  obtain ⟨op, phase⟩ := t
  have hlru : ∀ {needed : UInt64} {next : Next}, s.evictLru needed keys next = some r →
      (∀ pairs, next.rest s.now op (c.removeKeys (evictVictims needed 0 pairs)) = op.whole pairs s.now c) →
      s.layer = c → Doing s.now op c (s.entriesOf keys) r.1.layer r.2 ∧ c.IsEvictOrder (s.entriesOf keys) := by
    rintro needed next h hwhole rfl
    unfold State.evictLru at h
    split at h
    · rename_i horder
      obtain rfl := Option.some.inj h
      refine ⟨Doing.deleting ?_, isEvictOrder_entriesOf horder⟩
      rw [foldl_filesOf, layer_dropAll]
      exact hwhole _
    · cases h
  unfold State.evictStep at h
  split at h
  · rename_i needed hop hphase
    simp only at hop hphase hdoing ⊢
    subst hop hphase
    cases hdoing with
    | begun => exact hlru h (fun pairs => rfl) rfl
    | past hstart => exact absurd rfl hstart
  · rename_i args needed hop hphase
    simp only at hop hphase hdoing ⊢
    subst hop hphase
    cases hdoing with
    | @full args' hop hsmall hfull =>
      cases hop
      refine hlru h (fun pairs => ?_) rfl
      simp only [Next.rest, Op.whole, putInOrder, if_neg hsmall, victimsFor, if_pos hfull, if_true]
      rfl
    | past _ hevict => exact absurd rfl (hevict needed)
  · cases h

/-- After its first step an operation evicts at most by an eviction. -/
lemma advance_past (h : s.advance jsonSize i t = some r) (hstart : t.phase ≠ .start) :
    r.2 ≠ .start ∧ (∀ needed, r.2 ≠ .evict needed) ∧ ∀ needed, t.phase ≠ .evict needed := by
  have hmove := move_of_advance h
  have hevict : ∀ needed, t.phase ≠ .evict needed := by
    intro needed hphase
    unfold State.advance at h
    rw [hphase] at h
    cases hop : t.op <;> rw [hop] at h <;> cases h
  generalize r.1 = s' at hmove
  generalize r.2 = phase at hmove ⊢
  cases hmove with
  | ends hphase _ => exact absurd hphase hstart
  | hit _ hphase _ _ => exact absurd hphase hstart
  | evicting _ hphase => exact absurd hphase hstart
  | removes hphase _ _ =>
    rcases hphase with hphase | ⟨needed, hphase⟩
    · exact absurd hphase hstart
    · exact absurd hphase (hevict needed)
  | clears _ _ _ => exact ⟨(deleting_past _ _).1, (deleting_past _ _).2, hevict⟩
  | deletes _ => exact ⟨(deleting_past _ _).1, (deleting_past _ _).2, hevict⟩
  | _ => exact ⟨by simp, by simp, hevict⟩

/-- A step of an operation leads on to its whole. -/
lemma doing_advance (h : s.advance jsonSize i t = some r)
    (hdoing : Doing s.now t.op c order s.layer t.phase) : Doing s.now t.op c order r.1.layer r.2 := by
  by_cases hstart : t.phase = .start
  · rw [hstart] at hdoing
    have hbegin : s.begin t.op = some r := by
      unfold State.advance at h
      rwa [hstart] at h
    cases hdoing with
    | begun => exact doing_begin hbegin order
    | past hne => exact absurd rfl hne
  · obtain ⟨hpast, hpast', hevict⟩ := advance_past h hstart
    refine Doing.past hpast hpast' ?_
    rw [rest_advance h hstart]
    cases hphase : t.phase with
    | start => exact absurd hphase hstart
    | evict needed => exact absurd hphase (hevict needed)
    | _ =>
      rw [hphase] at hdoing
      cases hdoing with
      | past _ _ hrest => exact hrest

/-- A step takes no time. -/
lemma now_of_move {r : State} {phase : Phase} (h : Move jsonSize s i t r phase) : r.now = s.now := by
  cases h with
  | removes _ _ _ => exact (dropAll_frame s _).2.2.2.2.1
  | @deletes file _ _ _ =>
    obtain ⟨kind, key⟩ := file
    cases kind <;> rfl
  | _ => rfl

/-! ## Serial runs -/

/-- Time passes, and operations are called, while no operation is running; no file operation fails, and
the process is not restarted. -/
def Serially (s : State) : Action → Prop
  | .tick _ => s.Quiet
  | .call _ => s.Quiet
  | .step _ => True
  | .evict _ _ => True
  | .fail _ _ => False
  | .restart => False

/-- The calls of a run with their times. -/
def history : Time → List Action → List (Time × Op)
  | _, [] => []
  | now, .tick time :: as => history (now + time) as
  | now, .call op :: as => (now, op) :: history now as
  | now, _ :: as => history now as

/-- A state after some calls in a layer: the last one is on its way to the end of the sequence. -/
inductive Explained (c₀ : CacheLayer Bytes) (h : List (Time × Op)) (s : State) : Prop
  | idle : h = [] → s.tasks = [] → s.layer = c₀ → Explained c₀ h s
  | last {ts : List Task} {replies : List Reply} {h' : List (Time × Op)} {c : CacheLayer Bytes}
      {order : List (String × CacheEntry)} {now : Time} {op : Op} {phase : Phase} :
      h = h' ++ [(now, op)] → Sequence c₀ h' c replies → c.IsEvictOrder order →
      s.tasks = ts ++ [{ op := op, phase := phase }] → ts.map Task.phase = replies.map Phase.done →
      Doing now op c order s.layer phase → ((∀ reply, phase ≠ .done reply) → s.now = now) →
      Explained c₀ h s

variable {c₀ : CacheLayer Bytes} {h : List (Time × Op)} {a : Action}

/-- Without a running operation the sequence is complete. -/
lemma Explained.sequence (hs : Explained c₀ h s) (hquiet : s.Quiet) :
    ∃ replies, Sequence c₀ h s.layer replies ∧ s.tasks.map Task.phase = replies.map Phase.done := by
  cases hs with
  | idle hh htasks hlayer =>
    subst hh
    refine ⟨[], ?_, by rw [htasks]; rfl⟩
    rw [hlayer]
    exact Sequence.nil
  | @last ts replies h' c order now op phase hh hsequence horder htasks hdone hdoing _ =>
    obtain ⟨reply, hphase⟩ := hquiet { op := op, phase := phase } (by simp [htasks])
    simp only at hphase
    subst hphase hh
    cases hdoing with
    | past _ _ hrest =>
      have hwhole : (s.layer, reply) = op.whole order now c := hrest
      refine ⟨replies ++ [reply], ?_, by simp [htasks, hdone]⟩
      have hsnoc := hsequence.snoc now op horder
      rw [← hwhole] at hsnoc
      exact hsnoc

/-- Among the operations only the last one can move. -/
lemma eq_length_of_not_done {ts : List Task} {replies : List Reply} {u : Task}
    (hdone : ts.map Task.phase = replies.map Phase.done) (hi : (ts ++ [u])[i]? = some t)
    (hnot : ∀ reply, t.phase ≠ .done reply) : i = ts.length ∧ t = u := by
  rcases Nat.lt_trichotomy i ts.length with hlt | rfl | hgt
  · rw [List.getElem?_append_left hlt] at hi
    have hmem : t.phase ∈ ts.map Task.phase := List.mem_map_of_mem (List.mem_of_getElem? hi)
    rw [hdone] at hmem
    obtain ⟨reply, -, hreply⟩ := List.mem_map.mp hmem
    exact absurd hreply.symm (hnot reply)
  · rw [List.getElem?_concat_length] at hi
    exact ⟨rfl, (Option.some.inj hi).symm⟩
  · rw [List.getElem?_eq_none (by rw [List.length_append, List.length_singleton]; omega)] at hi
    cases hi

/-- Moving the last operation. -/
lemma setPhase_last {r : State} {ts : List Task} {phase phase' : Phase}
    (h : r.tasks = ts ++ [{ op := op, phase := phase }]) :
    (r.setPhase ts.length phase').tasks = ts ++ [{ op := op, phase := phase' }] := by
  have htasks : (r.setPhase ts.length phase').tasks =
      r.tasks.modify ts.length fun u => { u with phase := phase' } := rfl
  rw [htasks, h]
  clear htasks h
  induction ts with
  | nil => rfl
  | cons u ts ih => exact congrArg (List.cons u) ih

/-- A move of an operation with what it leads to. -/
lemma Explained.move {r : State} {phase' : Phase} (hs : Explained c₀ h s) (ht : s.tasks[i]? = some t)
    (hmove : Move jsonSize s i t r phase')
    (hdoing : ∀ c order, Doing s.now t.op c order s.layer t.phase → c.IsEvictOrder order →
      ∃ order, Doing s.now t.op c order r.layer phase' ∧ c.IsEvictOrder order) :
    Explained c₀ h (r.setPhase i phase') := by
  cases hs with
  | idle _ htasks _ =>
    rw [htasks] at ht
    cases ht
  | @last ts replies h' c order now op phase hh hsequence horder htasks hdone hd hnow =>
    rw [htasks] at ht
    obtain ⟨rfl, rfl⟩ := eq_length_of_not_done hdone ht hmove.not_done
    obtain rfl := hnow hmove.not_done
    obtain ⟨order', hd', horder'⟩ := hdoing c order hd horder
    have hnow' : r.now = s.now := now_of_move hmove
    refine Explained.last hh hsequence horder' ?_ hdone hd' fun _ => hnow'
    exact setPhase_last (hmove.tasks.trans htasks)

/-- A step of a serial run. -/
lemma Explained.step (hs : Explained c₀ h s) (hserial : Serially s a)
    (hst : step jsonSize s a = some s') : Explained c₀ (h ++ history s.now [a]) s' := by
  cases a with
  | tick time =>
    obtain rfl := Option.some.inj hst
    rw [history, history, List.append_nil]
    cases hs with
    | idle hh htasks hlayer => exact Explained.idle hh htasks hlayer
    | @last ts replies h' c order now op phase hh hsequence horder htasks hdone hdoing _ =>
      obtain ⟨reply, hphase⟩ := hserial { op := op, phase := phase } (by simp [htasks])
      exact Explained.last hh hsequence horder htasks hdone hdoing fun hnot => absurd hphase (hnot reply)
  | call op =>
    obtain ⟨replies, hsequence, hdone⟩ := hs.sequence hserial
    obtain rfl := Option.some.inj hst
    exact Explained.last rfl hsequence (isEvictOrder_self _) rfl hdone Doing.begun fun _ => rfl
  | step i =>
    obtain ⟨t, ht, hst⟩ := Option.bind_eq_some_iff.mp hst
    obtain ⟨r, hr, rfl⟩ := Option.map_eq_some_iff.mp hst
    simp only [history, List.append_nil]
    exact hs.move ht (move_of_advance hr) fun c order hd horder => ⟨order, doing_advance hr hd, horder⟩
  | evict i keys =>
    obtain ⟨t, ht, hst⟩ := Option.bind_eq_some_iff.mp hst
    obtain ⟨r, hr, rfl⟩ := Option.map_eq_some_iff.mp hst
    simp only [history, List.append_nil]
    exact hs.move ht (@move_of_evict jsonSize s i t r keys hr) fun c order hd _ => ⟨_, doing_evictStep hr hd⟩
  | fail i written => exact absurd hserial id
  | restart => exact absurd hserial id

/-- The calls of a run are those of its first step and those after it. -/
lemma history_cons {as : List Action} (hserial : Serially s a) (hst : step jsonSize s a = some s') :
    history s.now (a :: as) = history s.now [a] ++ history s'.now as := by
  cases step_cases hst with
  | tick => rfl
  | call => rfl
  | @moves _ i t r phase ha _ hmove =>
    have hnow : r.now = s.now := now_of_move hmove
    change _ = history s.now [a] ++ history r.now as
    rw [hnow]
    rcases ha with rfl | ⟨order, rfl⟩ <;> rfl
  | fails => exact absurd hserial id
  | restart => exact absurd hserial id

/-- A serial run is explained by the sequence of its calls. -/
lemma Explained.trace {as : List Action} {t : State} (hs : Explained c₀ h s)
    (htrace : Trace (Disk.step jsonSize) Serially s as t) : Explained c₀ (h ++ history s.now as) t := by
  induction htrace generalizing h with
  | nil s => rwa [history, List.append_nil]
  | @cons s s' t a as hserial hst _ ih =>
    rw [history_cons hserial hst, ← List.append_assoc]
    exact ih (hs.step hserial hst)

/-! ## Every sequence -/

/-- The last operation of a state ends with its whole on a layer. -/
def Carried (jsonSize : HeaderMap → ℕ) (s : State) (ts : List Task) (op : Op) (c : CacheLayer Bytes)
    (order : List (String × CacheEntry)) : Prop :=
  ∃ as t, Trace (step jsonSize) Serially s as t ∧ history s.now as = [] ∧ t.now = s.now ∧
    t.tasks = ts ++ [{ op := op, phase := .done (op.whole order s.now c).2 }] ∧
    t.layer = (op.whole order s.now c).1

/-- From a phase on, an operation ends with its whole. -/
def Ends (jsonSize : HeaderMap → ℕ) (ts : List Task) (op : Op) (phase : Phase) : Prop :=
  ∀ (s : State) (c : CacheLayer Bytes) (order : List (String × CacheEntry)),
    s.tasks = ts ++ [{ op := op, phase := phase }] → Doing s.now op c order s.layer phase →
    Carried jsonSize s ts op c order

variable {ts : List Task} {phase : Phase}

lemma ends_done (reply : Reply) : Ends jsonSize ts op (.done reply) := by
  intro s c order htasks hdoing
  cases hdoing with
  | past _ _ hrest =>
    have hwhole : (s.layer, reply) = op.whole order s.now c := hrest
    refine ⟨[], s, Trace.nil s, rfl, rfl, ?_, ?_⟩
    · rw [← hwhole]
      exact htasks
    · rw [← hwhole]

/-- A step of the last operation comes first. -/
lemma carried_of_step {phase' : Phase} {r : State}
    (ha : a = .step ts.length ∨ ∃ keys, a = .evict ts.length keys)
    (hmove : Move jsonSize s ts.length { op := op, phase := phase } r phase')
    (hst : step jsonSize s a = some (r.setPhase ts.length phase'))
    (h : Carried jsonSize (r.setPhase ts.length phase') ts op c order) :
    Carried jsonSize s ts op c order := by
  obtain ⟨as, t, htrace, hhistory, ht, htasks', hlayer⟩ := h
  have hnow : r.now = s.now := now_of_move hmove
  have hserial : Serially s a := by
    rcases ha with rfl | ⟨keys, rfl⟩ <;> exact trivial
  have hcons : history s.now (a :: as) = history s.now as := by
    rcases ha with rfl | ⟨keys, rfl⟩ <;> rfl
  change history r.now as = [] at hhistory
  change t.now = r.now at ht
  change t.tasks = ts ++ [{ op := op, phase := .done (op.whole order r.now c).2 }] at htasks'
  change t.layer = (op.whole order r.now c).1 at hlayer
  rw [hnow] at hhistory ht htasks' hlayer
  exact ⟨a :: as, t, Trace.cons hserial hst htrace, hcons.trans hhistory, ht, htasks', hlayer⟩

/-- The next step of the last operation comes first. -/
lemma carried_of_advance (htasks : s.tasks = ts ++ [{ op := op, phase := phase }])
    (hr : s.advance jsonSize ts.length { op := op, phase := phase } = some r)
    (h : Carried jsonSize (r.1.setPhase ts.length r.2) ts op c order) : Carried jsonSize s ts op c order := by
  refine carried_of_step (.inl rfl) (move_of_advance hr) ?_ h
  rw [step, htasks, List.getElem?_concat_length, Option.bind_some, hr]
  rfl

lemma ends_of_advance
    (h : ∀ s : State, ∃ r, s.advance jsonSize ts.length { op := op, phase := phase } = some r ∧
      Ends jsonSize ts op r.2) : Ends jsonSize ts op phase := by
  intro s c order htasks hdoing
  obtain ⟨r, hr, hends⟩ := h s
  have hmove := move_of_advance hr
  have hdoing' : Doing s.now op c order r.1.layer r.2 := doing_advance hr hdoing
  have hnow : r.1.now = s.now := now_of_move hmove
  rw [← hnow] at hdoing'
  exact carried_of_advance htasks hr (hends _ c order (setPhase_last (hmove.tasks.trans htasks)) hdoing')

lemma ends_deleting {next : Next} (h : Ends jsonSize ts op next.phase)
    (files : List (FileKind × String)) : Ends jsonSize ts op (deleting files next) := by
  induction files with
  | nil => exact h
  | cons file files ih => exact ends_of_advance fun s => ⟨_, rfl, ih⟩

lemma ends_replying (files : List (FileKind × String)) (reply : Reply) :
    Ends jsonSize ts op (deleting files (.reply reply)) := by
  have hdone : Ends jsonSize ts op (Next.reply reply).phase := ends_done reply
  exact ends_deleting hdone files

lemma ends_cleanup {key : String} {allowStale : Bool} :
    Ends jsonSize ts (.get key allowStale) .cleanup :=
  ends_of_advance fun _ => ⟨_, rfl, ends_done _⟩

lemma ends_readBr {key : String} {allowStale isStale : Bool} {found : CacheEntry} {body : Bytes} :
    Ends jsonSize ts (.get key allowStale) (.readBr found isStale body) :=
  ends_of_advance fun _ => ⟨_, rfl, ends_done _⟩

lemma ends_read {key : String} {allowStale isStale : Bool} {found : CacheEntry} :
    Ends jsonSize ts (.get key allowStale) (.read found isStale) := by
  refine ends_of_advance fun s => ?_
  simp only [State.advance, State.advanceGet]
  split
  · exact ⟨_, rfl, ends_cleanup⟩
  · split
    · exact ⟨_, rfl, ends_readBr⟩
    · exact ⟨_, rfl, ends_done _⟩

lemma ends_register {args : PutArgs} {hasBr : Bool} :
    Ends jsonSize ts (.put args) (.register hasBr) := by
  refine ends_of_advance fun s => ?_
  simp only [State.advance, State.advancePut]
  split
  · exact ⟨_, rfl, ends_done _⟩
  · exact ⟨_, rfl, ends_replying [(.body, args.key), (.headers, args.key)] .finished⟩

lemma ends_writeHeaders {args : PutArgs} {hasBr : Bool} :
    Ends jsonSize ts (.put args) (.writeHeaders hasBr) := by
  refine ends_of_advance fun s => ?_
  simp only [State.advance, State.advancePut]
  split
  · exact ⟨_, rfl, ends_register⟩
  · exact ⟨_, rfl, ends_register⟩

lemma ends_writeBr {args : PutArgs} : Ends jsonSize ts (.put args) .writeBr := by
  refine ends_of_advance fun s => ?_
  simp only [State.advance, State.advancePut]
  split
  · split
    · exact ⟨_, rfl, ends_writeHeaders⟩
    · exact ⟨_, rfl, ends_writeHeaders⟩
  · exact ⟨_, rfl, ends_writeHeaders⟩

lemma ends_write {args : PutArgs} : Ends jsonSize ts (.put args) .write :=
  ends_of_advance fun _ => ⟨_, rfl, ends_writeBr⟩

/-- The first step leads to an eviction, or to the end. -/
lemma ends_begin (h : s.begin op = some r) :
    (∃ args needed, op = .put args ∧ r.2 = .evict needed) ∨ Ends jsonSize ts op r.2 := by
  cases op with
  | get key allowStale =>
    right
    simp only [State.begin] at h
    split at h
    · obtain rfl := Option.some.inj h
      exact ends_done _
    · split at h
      · obtain rfl := Option.some.inj h
        exact ends_replying (filesOf key) (.got none)
      · obtain rfl := Option.some.inj h
        exact ends_read
  | put args =>
    simp only [State.begin] at h
    split at h
    · obtain rfl := Option.some.inj h
      exact .inr (ends_done _)
    · split at h
      · obtain rfl := Option.some.inj h
        exact .inl ⟨args, _, rfl, rfl⟩
      · obtain rfl := Option.some.inj h
        exact .inr ends_write
  | purgeByKey key =>
    right
    simp only [State.begin] at h
    split at h
    · obtain rfl := Option.some.inj h
      exact ends_done _
    · rename_i e _
      obtain rfl := Option.some.inj h
      exact ends_replying (filesOf key) (.purged 1 e.sizeBytes)
  | evict needed => cases h
  | _ =>
    right
    obtain rfl := Option.some.inj h
    exact ends_replying _ _

/-- An eviction in the order comes first. -/
lemma carried_of_evict {needed : UInt64} {next : Next}
    (htasks : s.tasks = ts ++ [{ op := op, phase := phase }])
    (hevict : ∀ keys, s.evictStep keys { op := op, phase := phase } = s.evictLru needed keys next)
    (hdoing : Doing s.now op c order s.layer phase) (horder : s.layer.IsEvictOrder order)
    (hends : Ends jsonSize ts op next.phase) : Carried jsonSize s ts op c order := by
  obtain ⟨hkeys, hentries⟩ := isEvictOrder_map_fst horder
  have hr : ∃ victims, s.evictStep (order.map Prod.fst) { op := op, phase := phase } =
      some (s.dropAll victims, deleting (victims.flatMap filesOf) next) := by
    rw [hevict, State.evictLru, if_pos hkeys]
    exact ⟨_, rfl⟩
  obtain ⟨victims, hr⟩ := hr
  have hmove := @move_of_evict jsonSize s ts.length _ _ _ hr
  have hdoing' := (doing_evictStep hr hdoing).1
  have hnow : (s.dropAll victims).now = s.now := now_of_move hmove
  rw [hentries, ← hnow] at hdoing'
  refine carried_of_step (.inr ⟨order.map Prod.fst, rfl⟩) hmove ?_
    (ends_deleting hends _ _ c order (setPhase_last (hmove.tasks.trans htasks)) hdoing')
  rw [step, htasks, List.getElem?_concat_length, Option.bind_some, hr]
  rfl

/-- The background task has no first step of its own. -/
lemma eq_evict_of_begin (h : s.begin op = none) : ∃ needed, op = .evict needed := by
  cases op with
  | get key allowStale =>
    simp only [State.begin] at h
    split at h
    · cases h
    · split at h <;> cases h
  | put args =>
    simp only [State.begin] at h
    split at h
    · cases h
    · split at h <;> cases h
  | purgeByKey key =>
    simp only [State.begin] at h
    split at h <;> cases h
  | evict needed => exact ⟨needed, rfl⟩
  | _ => cases h

/-- A call is carried out as a whole, with any order in which it may evict. -/
lemma carries_out (jsonSize : HeaderMap → ℕ) (op : Op) (horder : s.layer.IsEvictOrder order)
    (htasks : s.tasks = ts ++ [{ op := op, phase := .start }]) :
    Carried jsonSize s ts op s.layer order := by
  have hbegun : Doing s.now op s.layer order s.layer .start := Doing.begun
  have hadvance : s.advance jsonSize ts.length { op := op, phase := .start } = s.begin op := rfl
  cases hr : s.begin op with
  | none =>
    obtain ⟨needed, rfl⟩ := eq_evict_of_begin hr
    have hends : Ends jsonSize ts (.evict needed) (Next.reply .finished).phase := ends_done .finished
    exact carried_of_evict htasks (fun _ => rfl) hbegun horder hends
  | some r =>
    rw [hr] at hadvance
    have hmove := move_of_advance hadvance
    have hnow : r.1.now = s.now := now_of_move hmove
    have hdoing' : Doing s.now op s.layer order r.1.layer r.2 := doing_begin hr order
    have hdoing'' := hdoing'
    rw [← hnow] at hdoing'
    refine carried_of_advance htasks hadvance ?_
    rcases ends_begin hr with ⟨args, needed, rfl, hphase⟩ | hends
    · rw [hphase] at hdoing' hdoing'' ⊢
      have hlayer : r.1.layer = s.layer := hdoing''.of_evict
      have hends : Ends jsonSize ts (.put args) Next.write.phase := ends_write
      exact carried_of_evict (setPhase_last (hmove.tasks.trans htasks)) (fun _ => rfl) hdoing'
        (hlayer.symm ▸ horder) hends
    · exact hends _ _ order (setPhase_last (hmove.tasks.trans htasks)) hdoing'

/-! ## The two systems -/

/-- Operations that have all answered. -/
lemma quiet_of_phases {replies : List Reply} (h : s.tasks.map Task.phase = replies.map Phase.done) :
    s.Quiet := by
  intro u hu
  have hmem : u.phase ∈ s.tasks.map Task.phase := List.mem_map_of_mem hu
  rw [h] at hmem
  obtain ⟨reply, -, hreply⟩ := List.mem_map.mp hmem
  exact ⟨reply, hreply.symm⟩

/-- The calls of a run that goes on. -/
lemma history_append {as bs : List Action} {t : State} (h : Trace (step jsonSize) Serially s as t) :
    history s.now (as ++ bs) = history s.now as ++ history t.now bs := by
  induction h with
  | nil s => rfl
  | @cons s s' t a as hserial hst _ ih =>
    have hfirst : history s.now (a :: as) = history s.now [a] ++ history s'.now as :=
      history_cons hserial hst
    rw [List.cons_append, hfirst, List.append_assoc, ← ih]
    exact history_cons hserial hst

/-- The times of the calls of a run come one after the other. -/
lemma history_sorted (now : Time) (as : List Action) :
    ((history now as).map Prod.fst).Pairwise (· ≤ ·) ∧ ∀ p ∈ history now as, now ≤ p.1 := by
  induction as generalizing now with
  | nil => exact ⟨List.Pairwise.nil, fun p hp => absurd hp List.not_mem_nil⟩
  | cons a as ih =>
    cases a with
    | tick time =>
      obtain ⟨hsorted, hle⟩ := ih (now + time)
      exact ⟨hsorted, fun p hp => (Nat.le_add_right now time).trans (hle p hp)⟩
    | call op =>
      obtain ⟨hsorted, hle⟩ := ih now
      refine ⟨List.pairwise_cons.mpr ⟨?_, hsorted⟩, ?_⟩
      · intro time htime
        obtain ⟨p, hp, rfl⟩ := List.mem_map.mp htime
        exact hle p hp
      · intro p hp
        rcases List.mem_cons.mp hp with rfl | hp
        · exact le_rfl
        · exact hle p hp
    | _ => exact ih now

/-- Every sequence is that of a serial run, which takes no longer than its calls. -/
lemma exists_serial_run (jsonSize : HeaderMap → ℕ) (gib : UInt64) {replies : List Reply}
    (hsequence : Sequence (State.initial gib).layer h c replies)
    (hsorted : (h.map Prod.fst).Pairwise (· ≤ ·)) :
    ∃ as t, Trace (step jsonSize) Serially (State.initial gib) as t ∧ history 0 as = h ∧
      (∀ time, (∀ p ∈ h, p.1 ≤ time) → t.now ≤ time) ∧ t.layer = c ∧
      t.tasks.map Task.phase = replies.map Phase.done := by
  induction hsequence with
  | nil => exact ⟨[], State.initial gib, Trace.nil _, rfl, fun time _ => Nat.zero_le time, rfl, rfl⟩
  | @snoc h d replies order now op _ horder ih =>
    rw [List.map_append, List.pairwise_append] at hsorted
    obtain ⟨hsorted, -, hlast⟩ := hsorted
    obtain ⟨as, t, htrace, hhistory, hnow, rfl, hreplies⟩ := ih hsorted
    have hle : t.now ≤ now := by
      refine hnow now fun p hp => ?_
      exact hlast _ (List.mem_map_of_mem hp) _ (by simp)
    let waited : State := { t with now := now }
    let called : State := { waited with tasks := t.tasks ++ [{ op := op, phase := .start }] }
    have hwait : step jsonSize t (.tick (now - t.now)) = some waited := by
      rw [step, Nat.add_sub_cancel' hle]
    have hcall : step jsonSize waited (.call op) = some called := rfl
    have hquiet : t.Quiet := quiet_of_phases hreplies
    have hquiet' : waited.Quiet := hquiet
    have hcalled : called.tasks = t.tasks ++ [{ op := op, phase := .start }] := rfl
    obtain ⟨bs, t', htrace', hhistory', hnow', htasks', hlayer'⟩ :=
      @carries_out called order t.tasks jsonSize op horder hcalled
    have hrun : Trace (step jsonSize) Serially t (.tick (now - t.now) :: .call op :: bs) t' :=
      Trace.cons hquiet hwait (Trace.cons hquiet' hcall htrace')
    refine ⟨_, t', htrace.append hrun, ?_, ?_, hlayer', ?_⟩
    · have happend := @history_append _ _ _ (.tick (now - t.now) :: .call op :: bs) _ htrace
      have hfirst : history 0 as = h := hhistory
      have hrest : history t.now (.tick (now - t.now) :: .call op :: bs) = [(now, op)] := by
        rw [history, Nat.add_sub_cancel' hle, history]
        exact congrArg (List.cons (now, op)) hhistory'
      rw [hrest] at happend
      exact happend.trans (by rw [← hfirst]; rfl)
    · intro time htime
      rw [hnow']
      exact htime (now, op) (by simp)
    · rw [htasks', List.map_append, hreplies, List.map_append]
      rfl

/-- In the serial runs of the interleaved system from an empty directory, the calls `h` leave the layer
`c` with the answers `replies` exactly if the sequential methods do, called at these times. -/
theorem serial_run_iff (jsonSize : HeaderMap → ℕ) (gib : UInt64) (h : List (Time × Op))
    (c : CacheLayer Bytes) (replies : List Reply) :
    (∃ as t, Trace (step jsonSize) Serially (State.initial gib) as t ∧ t.Quiet ∧ history 0 as = h ∧
      t.layer = c ∧ t.tasks.map Task.phase = replies.map Phase.done) ↔
    Sequence (State.initial gib).layer h c replies ∧ (h.map Prod.fst).Pairwise (· ≤ ·) := by
  constructor
  · rintro ⟨as, t, htrace, hquiet, rfl, rfl, hreplies⟩
    refine ⟨?_, (history_sorted 0 as).1⟩
    have hidle : Explained (State.initial gib).layer [] (State.initial gib) := Explained.idle rfl rfl rfl
    obtain ⟨replies', hsequence, hreplies'⟩ := (hidle.trace htrace).sequence hquiet
    have heq : replies = replies' := by
      rw [hreplies] at hreplies'
      exact List.map_injective_iff.mpr (fun _ _ h => Phase.done.inj h) hreplies'
    rw [heq]
    exact hsequence
  · rintro ⟨hsequence, hsorted⟩
    obtain ⟨as, t, htrace, hhistory, -, hlayer, hreplies⟩ := exists_serial_run jsonSize gib hsequence hsorted
    exact ⟨as, t, htrace, quiet_of_phases hreplies, hhistory, hlayer, hreplies⟩

end SmartSchoolCdn.Disk
