import SmartSchoolCdn.Storage.Agreement

/-!
# A lookup as a snapshot

`get` copies the metadata under the lock of the index and reads the files after releasing it,
and `put` replaces the files before it takes the lock.  A lookup that overlaps with a `put` of
its key, or with the deletion of a brotli file, can therefore combine the metadata of one `put`
with a file of another.  In the runs in which the reading and the writing steps of one key stay
clear of each other every lookup returns the copy of one `put` (`get_is_snapshot`).
-/

namespace SmartSchoolCdn.Disk

open FiniteMaps Traces

variable {jsonSize : HeaderMap → ℕ} {s s' : State} {i j : ℕ} {t u : Task} {phase : Phase} {k : String}
  {e e' : CacheEntry} {args : PutArgs}

/-! ## What comes from a `put` -/

lemma CacheEntry.SameCopy.refl (e : CacheEntry) : CacheEntry.SameCopy e e :=
  ⟨e.hitCount, e.accessedAt, rfl⟩

lemma CacheEntry.SameCopy.trans {e₁ e₂ e₃ : CacheEntry} (h : CacheEntry.SameCopy e₁ e₂)
    (h' : CacheEntry.SameCopy e₂ e₃) : CacheEntry.SameCopy e₁ e₃ := by
  obtain ⟨hits, time, rfl⟩ := h
  obtain ⟨hits', time', rfl⟩ := h'
  exact ⟨hits', time', rfl⟩

/-- The operation `j` is the `put` with these arguments, has registered the entry of its key,
and the entry is a copy of what it has registered. -/
def State.Source (s : State) (j : ℕ) (k : String) (args : PutArgs) (e : CacheEntry) : Prop :=
  args.key = k ∧ s.tasks[j]? = some ⟨.put args, .done .finished⟩ ∧ ∃ time,
    s.registeredAt j = some time ∧
      CacheEntry.SameCopy (State.entryOf time args (CacheLayer.hasVariant args.bodyBr)) e

/-- The files of the key are those of a `put`, or there is no body file. -/
def State.Intact (s : State) (k : String) (args : PutArgs) : Prop :=
  s.layer.files.lookup k = none ∨ s.layer.files.lookup k = some args.bytes ∧
    (CacheLayer.hasVariant args.bodyBr = true → s.layer.brFiles.lookup k = args.bodyBr)

/-- The answer has the body, the brotli variant, the content type, the headers and the expiry of
one `put`, which has registered its entry. -/
def State.Gave (s : State) (k : String) (l : Lookup Bytes) : Prop :=
  ∃ j args time, args.key = k ∧ s.tasks[j]? = some ⟨.put args, .done .finished⟩ ∧
    s.registeredAt j = some time ∧ l.body = args.bytes ∧
    l.bodyBr = args.bodyBr.filter (fun br => br.length != 0) ∧ l.contentType = args.contentType ∧
    l.cachedHeaders = args.cachedHeaders ∧
    l.expiresAt = ((args.ttl.map fun secs => time + CacheLayer.chronoSecs secs * second).map timestamp).getD 0

/-- What each phase of an operation knows about the files of its key. -/
def State.Consistent (s : State) (t : Task) : Prop :=
  match t.op, t.phase with
  | .get k _, .read found _ =>
    (∀ u ∈ s.tasks, ¬ u.isWriting k) ∧ ∃ j args, s.Source j k args found ∧ s.Intact k args
  | .get k _, .readBr found _ body => ∃ j args, s.Source j k args found ∧ body = args.bytes ∧
      found.hasBr = true ∧ s.layer.brFiles.lookup k = args.bodyBr
  | .get k _, .done (.got (some l)) => s.Gave k l
  | .get _ _, .delete _ next => next.isCopy = false
  | .put args, .writeBr => s.layer.files.lookup args.key = none ∨
      s.layer.files.lookup args.key = some args.bytes
  | .put args, .writeHeaders hasBr => hasBr = CacheLayer.hasVariant args.bodyBr ∧ s.Intact args.key args
  | .put args, .register hasBr => hasBr = CacheLayer.hasVariant args.bodyBr ∧ s.Intact args.key args
  | .put args, .delete files (.reply _) =>
    files = [(.body, args.key), (.headers, args.key)] ∨ files = [(.headers, args.key)]
  | _, _ => True

/-- Every entry is a copy of what one `put` has registered, whose files are there while no other
`put` is at work on them; at most one `put` is at work on the files of a key; and the operations
know what they found. -/
structure Snapshots (s : State) : Prop where
  entry : ∀ k e, s.layer.index.lookup k = some e → ∃ args, s.Source (s.owner k) k args e ∧
    ((∀ u ∈ s.tasks, ¬ u.isWriting k) → s.Intact k args)
  alone : ∀ (k : String) (i j : ℕ) (t u : Task), s.tasks[i]? = some t → s.tasks[j]? = some u →
    t.isWriting k → u.isWriting k → i = j
  found : ∀ t ∈ s.tasks, s.Consistent t

/-! ## What a step keeps -/

/-- Who has registered keeps the time of it. -/
lemma Move.registeredAt (h : Move jsonSize s i t s' phase) (hj : j ≠ i) :
    s'.registeredAt j = s.registeredAt j := by
  cases h with
  | registers _ _ _ => exact Function.update_of_ne hj _ _
  | removes _ _ _ => exact congrFun (dropAll_frame s _).2.2.2.2.2.2.1 j
  | deletes _ => exact congrFun (removeFile_frame s _).2.1 j
  | _ => rfl

/-- A `put` that has registered an entry does not move. -/
lemma State.Source.ne {phase' : Phase} (h : s.Source j k args e) (ht : s.tasks[i]? = some t)
    (hmove : Move jsonSize s i t s' phase') : j ≠ i := by
  rintro rfl
  obtain ⟨-, htask, -⟩ := h
  obtain rfl := Option.some.inj (ht.symm.trans htask)
  exact hmove.not_done .finished rfl

/-- An entry has a variant when the `put` that registered it had one. -/
lemma State.Source.hasBr (h : s.Source j k args e) : e.hasBr = CacheLayer.hasVariant args.bodyBr := by
  obtain ⟨-, -, time, -, hits, accessed, rfl⟩ := h
  rfl

/-- The source of an entry stays its source. -/
lemma State.Source.move (h : s.Source j k args e) (hsame : CacheEntry.SameCopy e e')
    (ht : s.tasks[i]? = some t) (hmove : Move jsonSize s i t s' phase) :
    (s'.setPhase i phase).Source j k args e' := by
  have hne := h.ne ht hmove
  obtain ⟨hkey, htask, time, htime, hcopy⟩ := h
  refine ⟨hkey, ?_, time, ?_, hcopy.trans hsame⟩
  · rw [setPhase_ne hne, hmove.tasks, htask]
  · have hregistered : (s'.setPhase i phase).registeredAt j = s'.registeredAt j := rfl
    rw [hregistered, hmove.registeredAt hne, htime]

/-- An empty variant is none. -/
lemma filter_variant {bodyBr : Option Bytes} :
    (CacheLayer.hasVariant bodyBr = true → bodyBr.filter (fun br => br.length != 0) = bodyBr) ∧
      (CacheLayer.hasVariant bodyBr = false → bodyBr.filter (fun br => br.length != 0) = none) := by
  cases bodyBr with
  | none => exact ⟨fun _ => rfl, fun _ => rfl⟩
  | some br =>
    have hvariant : CacheLayer.hasVariant (some br) = (br.length != 0) := rfl
    constructor
    · intro h
      rw [hvariant] at h
      rw [Option.filter, if_pos h]
    · intro h
      rw [hvariant] at h
      rw [Option.filter, h, if_neg Bool.false_ne_true]

/-- A brotli body that is not empty is a variant. -/
lemma hasVariant_of_ne_nil {args : PutArgs} {br : Bytes} (hbr : args.bodyBr = some br)
    (hnonempty : br ≠ []) : CacheLayer.hasVariant args.bodyBr = true := by
  rw [hbr, CacheLayer.hasVariant, bne_iff_ne]
  exact fun hzero => hnonempty (List.length_eq_zero_iff.mp hzero)

/-- A body file that is there is that of the `put`. -/
lemma State.Intact.of_file {body : Bytes} (h : s.Intact k args)
    (hfile : s.layer.files.lookup k = some body) :
    body = args.bytes ∧
      (CacheLayer.hasVariant args.bodyBr = true → s.layer.brFiles.lookup k = args.bodyBr) := by
  rcases h with hmissing | ⟨hbytes, hbr⟩
  · rw [hmissing] at hfile
    cases hfile
  · exact ⟨Option.some.inj (hfile.symm.trans hbytes), hbr⟩

/-- A lookup with the files of the source of its metadata is an answer of that `put`. -/
lemma State.Source.gave {isStale : Bool} {body : Bytes} {bodyBr : Option Bytes} {l : Lookup Bytes}
    (h : s.Source j k args e) (hbody : body = args.bytes)
    (hbr : bodyBr = args.bodyBr.filter fun br => br.length != 0)
    (hl : State.answer e isStale body bodyBr = .got (some l)) : s.Gave k l := by
  obtain ⟨hkey, htask, time, htime, hits, accessed, rfl⟩ := h
  cases hl
  exact ⟨j, args, time, hkey, htask, htime, hbody, hbr, rfl, rfl, rfl⟩

/-- An answer stays one that a `put` gave. -/
lemma State.Gave.move {l : Lookup Bytes} (h : s.Gave k l) (ht : s.tasks[i]? = some t)
    (hmove : Move jsonSize s i t s' phase) : (s'.setPhase i phase).Gave k l := by
  obtain ⟨j, args, time, hkey, htask, htime, hrest⟩ := h
  have hsource : s.Source j k args (State.entryOf time args (CacheLayer.hasVariant args.bodyBr)) :=
    ⟨hkey, htask, time, htime, 0, time, rfl⟩
  have hne := hsource.ne ht hmove
  refine ⟨j, args, time, hkey, ?_, ?_, hrest⟩
  · rw [setPhase_ne hne, hmove.tasks, htask]
  · have hregistered : (s'.setPhase i phase).registeredAt j = s'.registeredAt j := rfl
    rw [hregistered, hmove.registeredAt hne, htime]

/-- Files stay those of a `put` when the step does not write files of the key, and the brotli file
is counted on where the `put` had one. -/
lemma State.Intact.move (h : s.Intact k args) (hclear : s.StaysClear i t)
    (hmove : Move jsonSize s i t s' phase)
    (hother : ∀ args', t.op = .put args' → args'.key = k → t.phase ≠ .write ∧ t.phase ≠ .writeBr)
    (hcounted : CacheLayer.hasVariant args.bodyBr = true →
      (∃ e ∈ s.layer.index.lookup k, e.hasBr = true) ∨ ∃ u ∈ s.tasks, u.countsOnBr k) :
    (s'.setPhase i phase).Intact k args := by
  rcases hmove.files k with hfiles | ⟨args', hop, hphase, hkey, -, -⟩ | ⟨-, -, -, -, -, hfiles⟩
  · rcases h with hnone | ⟨hbody, hbr⟩
    · exact .inl (hfiles.trans hnone)
    · refine .inr ⟨hfiles.trans hbody, fun hvariant => ?_⟩
      rcases hmove.brFiles k with hsame | ⟨args', -, hop, hphase, hkey, -⟩ | ⟨files, next, hphase, -, -⟩
      · exact hsame.trans (hbr hvariant)
      · exact absurd hphase (hother args' hop hkey).2
      · simp only [State.StaysClear, hphase] at hclear
        rcases hclear.2 with hnone | ⟨hentry, htasks⟩
        · rw [hnone] at hbody
          cases hbody
        · rcases hcounted hvariant with ⟨e, he, hhas⟩ | ⟨u, hu, hcounts⟩
          · rw [hentry e he] at hhas
            cases hhas
          · exact absurd hcounts (htasks u hu)
  · exact absurd hphase (hother args' hop hkey).1
  · exact .inl hfiles

/-- Another operation that is at work on the body file. -/
lemma otherWriting_of_ne (hji : j ≠ i) (hj : s.tasks[j]? = some u) (hwriting : u.isWriting k) :
    s.OtherWriting i k :=
  ⟨u, List.mem_eraseIdx_iff_getElem?.mpr ⟨j, hji, hj⟩, hwriting⟩

/-- Work on a body file begins with the write of it. -/
lemma Snapshots.starts_writing (h : Snapshots s) (ht : s.tasks[i]? = some t)
    (hmove : Move jsonSize s i t s' phase) (hnot : ¬ t.isWriting k)
    (hstarts : { t with phase := phase }.isWriting k) :
    ∃ args, t.op = .put args ∧ t.phase = .write ∧ args.key = k := by
  rcases hmove.starts_writing hnot hstarts with hwrite | ⟨args, file, files, reply, hop, hphase⟩
  · exact hwrite
  · have hshape := h.found t (List.mem_of_getElem? ht)
    simp only [State.Consistent, hop, hphase] at hshape
    simp at hshape

/-- What an operation knows about its files stays true when another operation moves. -/
lemma Snapshots.consistent_other (h : Snapshots s) (hji : j ≠ i) (hj : s.tasks[j]? = some u)
    (ht : s.tasks[i]? = some t) (hmove : Move jsonSize s i t s' phase) (hclear : s.StaysClear i t) :
    (s'.setPhase i phase).Consistent u := by
  have hmem := List.mem_of_getElem? hj
  have hu := h.found u hmem
  -- the moving operation does not write to files on which another `put` is at work
  have hputs : ∀ {args : PutArgs}, u.isWriting args.key →
      ∀ args', t.op = .put args' → args'.key = args.key → t.phase ≠ .write ∧ t.phase ≠ .writeBr := by
    intro args hwriting args' hop hkey
    constructor
    · intro hphase
      simp only [State.StaysClear, hop, hphase] at hclear
      exact hclear.1 (hkey ▸ otherWriting_of_ne hji hj hwriting)
    · intro hphase
      have hself : t.isWriting args.key := Task.isWriting_iff.mpr ⟨args', hop, .inl ⟨hkey, .inl hphase⟩⟩
      exact hji (h.alone _ _ _ _ _ hj ht hwriting hself)
  obtain ⟨op, uphase⟩ := u
  unfold State.Consistent at hu ⊢
  split at hu
  · rename_i key allowStale found isStale hop hphase
    obtain ⟨hnone, j', args, hsource, hintact⟩ := hu
    obtain rfl : op = .get key allowStale := hop
    obtain rfl : uphase = .read found isStale := hphase
    have hreading : Task.isReading key ⟨.get key allowStale, .read found isStale⟩ := rfl
    have hwrite : ∀ args', t.op = .put args' → args'.key = key → t.phase ≠ .write := by
      rintro args' hop' rfl hphase'
      simp only [State.StaysClear, hop', hphase'] at hclear
      exact hclear.2 _ hmem hreading
    refine ⟨fun u' hu' hwriting => ?_, j', args, hsource.move (.refl found) ht hmove, ?_⟩
    · rcases mem_setPhase (hmove.tasks ▸ ht) hu' with rfl | ⟨j', hj', hmem'⟩
      · obtain ⟨args', hop', hphase', hkey⟩ :=
          h.starts_writing ht hmove (hnone t (List.mem_of_getElem? ht)) hwriting
        exact hwrite args' hop' hkey hphase'
      · rw [hmove.tasks] at hmem'
        exact hnone u' (List.mem_of_getElem? hmem') hwriting
    · refine hintact.move hclear hmove (fun args' hop' hkey => ⟨hwrite args' hop' hkey, fun hphase' => ?_⟩)
        fun hvariant => .inr ⟨_, hmem, ?_⟩
      · exact hnone t (List.mem_of_getElem? ht)
          (Task.isWriting_iff.mpr ⟨args', hop', .inl ⟨hkey, .inl hphase'⟩⟩)
      · exact ⟨rfl, hsource.hasBr.trans hvariant⟩
  · rename_i key allowStale found isStale body hop hphase
    obtain ⟨j', args, hsource, hbody, hhas, hbr⟩ := hu
    obtain rfl : op = .get key allowStale := hop
    obtain rfl : uphase = .readBr found isStale body := hphase
    have hreading : Task.isReadingBr key ⟨.get key allowStale, .readBr found isStale body⟩ := rfl
    refine ⟨j', args, hsource.move (.refl found) ht hmove, hbody, hhas, ?_⟩
    rcases hmove.brFiles key with hsame | ⟨args', br, hop', hphase', hkey, hbr', hnonempty, -, -⟩ |
        ⟨files, next, hphase', -, -⟩
    · exact hsame.trans hbr
    · simp only [State.StaysClear, hop', hphase'] at hclear
      exact absurd (hkey ▸ hreading) (hclear (hasVariant_of_ne_nil hbr' hnonempty) _ hmem)
    · simp only [State.StaysClear, hphase'] at hclear
      exact absurd hreading (hclear.1 _ hmem)
  · exact hu.move ht hmove
  · exact hu
  · rename_i args hop hphase
    have hwriting : Task.isWriting args.key ⟨op, uphase⟩ :=
      Task.isWriting_iff.mpr ⟨args, hop, .inl ⟨rfl, .inl hphase⟩⟩
    rcases hmove.files args.key with hsame | ⟨args', hop', hphase', hkey, -, -⟩ | ⟨-, -, -, -, -, hnone⟩
    · exact hu.imp hsame.trans hsame.trans
    · exact absurd hphase' (hputs hwriting args' hop' hkey).1
    · exact .inl hnone
  · rename_i args hasBr hop hphase
    have hwriting : Task.isWriting args.key ⟨op, uphase⟩ :=
      Task.isWriting_iff.mpr ⟨args, hop, .inl ⟨rfl, .inr (.inl ⟨hasBr, hphase⟩)⟩⟩
    obtain rfl : op = .put args := hop
    obtain rfl : uphase = _ := hphase
    exact ⟨hu.1, hu.2.move hclear hmove (hputs hwriting)
      fun hvariant => .inr ⟨_, hmem, rfl, hu.1.trans hvariant⟩⟩
  · rename_i args hasBr hop hphase
    have hwriting : Task.isWriting args.key ⟨op, uphase⟩ :=
      Task.isWriting_iff.mpr ⟨args, hop, .inl ⟨rfl, .inr (.inr ⟨hasBr, hphase⟩)⟩⟩
    obtain rfl : op = .put args := hop
    obtain rfl : uphase = _ := hphase
    exact ⟨hu.1, hu.2.move hclear hmove (hputs hwriting)
      fun hvariant => .inr ⟨_, hmem, rfl, hu.1.trans hvariant⟩⟩
  · exact hu
  · trivial

/-- What remains to be deleted is no reason to write: a finished deletion gives no copy, and that
of a `put` before its first write goes on to that write. -/
lemma consistent_deleting {r : State} {op : Op} {files : List (FileKind × String)} {next : Next}
    (hcopy : next.isCopy = false)
    (hput : ∀ args, op = .put args → next = .write ∨ files = [(.headers, args.key)] ∨ files = []) :
    r.Consistent ⟨op, deleting files next⟩ := by
  cases op with
  | get key allowStale =>
    cases files with
    | nil =>
      cases next with
      | write => trivial
      | reply reply =>
        cases reply with
        | got result =>
          cases result with
          | none => trivial
          | some l => cases hcopy
        | _ => trivial
    | cons file rest => exact hcopy
  | put args =>
    rcases hput args rfl with rfl | rfl | rfl
    · cases files <;> trivial
    · cases next with
      | write => trivial
      | reply reply => exact .inr rfl
    · cases next <;> trivial
  | _ => trivial

/-- What the moving operation knows afterwards. -/
lemma Snapshots.consistent_self (h : Snapshots s) (ht : s.tasks[i]? = some t)
    (hmove : Move jsonSize s i t s' phase) (hclear : s.StaysClear i t) :
    (s'.setPhase i phase).Consistent { t with phase := phase } := by
  have hmem := List.mem_of_getElem? ht
  have hself := h.found t hmem
  have hmove' := hmove
  obtain ⟨op, old⟩ := t
  cases hmove with
  | @hit key allowStale e hop hphase hlookup hkept =>
    obtain rfl : op = .get key allowStale := hop
    obtain rfl : old = .start := hphase
    have hnone : ∀ u ∈ s.tasks, ¬ u.isWriting key := by
      intro u hu hwriting
      rcases mem_tasks_cases ht hu with rfl | ⟨j, hji, hj⟩
      · exact Task.not_isWriting_get hwriting
      · exact hclear e hlookup hkept (otherWriting_of_ne hji hj hwriting)
    obtain ⟨args, hsource, hintact⟩ := h.entry key e hlookup
    refine ⟨fun u hu hwriting => ?_, s.owner key, args, hsource.move (.refl e) ht hmove', ?_⟩
    · rcases mem_setPhase ht hu with rfl | ⟨j, -, hj⟩
      · exact Task.not_isWriting_get hwriting
      · exact hnone u (List.mem_of_getElem? hj) hwriting
    · exact (hintact hnone).move hclear hmove' (fun _ hop => by cases hop)
        fun hvariant => .inl ⟨e, hlookup, hsource.hasBr.trans hvariant⟩
  | @plain key allowStale isStale found body hop hphase hfile hhas =>
    obtain rfl : op = .get key allowStale := hop
    obtain rfl : old = .read found isStale := hphase
    obtain ⟨-, j, args, hsource, hintact⟩ := hself
    obtain ⟨hbody, -⟩ := hintact.of_file hfile
    have hvariant : CacheLayer.hasVariant args.bodyBr = false := hsource.hasBr.symm.trans hhas
    exact (hsource.move (.refl found) ht hmove').gave hbody (filter_variant.2 hvariant).symm rfl
  | @body key allowStale isStale found body hop hphase hfile hhas =>
    obtain rfl : op = .get key allowStale := hop
    obtain rfl : old = .read found isStale := hphase
    obtain ⟨-, j, args, hsource, hintact⟩ := hself
    obtain ⟨hbody, hbr⟩ := hintact.of_file hfile
    exact ⟨j, args, hsource.move (.refl found) ht hmove', hbody, hhas,
      hbr (hsource.hasBr.symm.trans hhas)⟩
  | @variant key allowStale isStale found body hop hphase =>
    obtain rfl : op = .get key allowStale := hop
    obtain rfl : old = .readBr found isStale body := hphase
    obtain ⟨j, args, hsource, hbody, hhas, hbr⟩ := hself
    have hvariant : CacheLayer.hasVariant args.bodyBr = true := hsource.hasBr.symm.trans hhas
    exact (hsource.move (.refl found) ht hmove').gave hbody (hbr.trans (filter_variant.1 hvariant).symm) rfl
  | @writesBody args hop hphase =>
    obtain rfl : op = .put args := hop
    exact .inr (AList.lookup_insert _)
  | @noVariant args hop hphase hvariant =>
    obtain rfl : op = .put args := hop
    obtain rfl : old = .writeBr := hphase
    refine ⟨hvariant.symm, hself.imp_right fun hbody => ⟨hbody, fun h => ?_⟩⟩
    rw [hvariant] at h
    cases h
  | @writesVariant args br hop hphase hbr hnonempty =>
    obtain rfl : op = .put args := hop
    obtain rfl : old = .writeBr := hphase
    have hvariant := hasVariant_of_ne_nil hbr hnonempty
    refine ⟨hvariant.symm, hself.imp_right fun hbody => ⟨hbody, fun _ => ?_⟩⟩
    rw [hbr]
    exact AList.lookup_insert _
  | @writesSidecar args hasBr hop hphase hheaders =>
    obtain rfl : op = .put args := hop
    obtain rfl : old = .writeHeaders hasBr := hphase
    exact hself
  | @noSidecar args hasBr hop hphase =>
    obtain rfl : op = .put args := hop
    obtain rfl : old = .writeHeaders hasBr := hphase
    exact hself
  | @rollsBack args hasBr hop hphase hroom =>
    obtain rfl : op = .put args := hop
    exact .inl rfl
  | @registers args hasBr hop hphase hroom =>
    obtain rfl : op = .put args := hop
    trivial
  | missing hop hphase hfile =>
    obtain rfl : op = .get _ _ := hop
    trivial
  | cleanup hop hphase =>
    obtain rfl : op = .get _ _ := hop
    trivial
  | evicting hop hphase =>
    obtain rfl : op = .put _ := hop
    trivial
  | fitting hop hphase =>
    obtain rfl : op = .put _ := hop
    trivial
  | @ends reply hphase hcopy =>
    have hnext : Next.isCopy (.reply reply) = false := hcopy
    exact consistent_deleting hnext fun args hop => .inr (.inr rfl)
  | removes hphase hcopy hnext =>
    exact consistent_deleting hcopy fun args hop => .inl (hnext.mpr ⟨args, hop⟩)
  | clears hop hphase hcopy =>
    obtain rfl : op = .purgeAll := hop
    trivial
  | @deletes file files next hphase =>
    obtain rfl : old = .delete (file :: files) next := hphase
    cases op with
    | get key allowStale => exact consistent_deleting hself fun _ hop => by cases hop
    | put args =>
      cases next with
      | write => exact consistent_deleting rfl fun _ _ => .inl rfl
      | reply reply =>
        have hshape : file :: files = [(.body, args.key), (.headers, args.key)] ∨
            file :: files = [(.headers, args.key)] := hself
        rcases hshape with hboth | hheaders
        · cases hboth
          exact .inr rfl
        · cases hheaders
          trivial
    | _ => trivial

/-! ## Steps and runs -/

/-- A step that stays clear keeps the entries snapshots. -/
lemma Snapshots.entry_move (h : Snapshots s) (ht : s.tasks[i]? = some t)
    (hmove : Move jsonSize s i t s' phase) (hclear : s.StaysClear i t) (k : String) (e' : CacheEntry)
    (he' : (s'.setPhase i phase).layer.index.lookup k = some e') :
    ∃ args, (s'.setPhase i phase).Source ((s'.setPhase i phase).owner k) k args e' ∧
      ((∀ u ∈ (s'.setPhase i phase).tasks, ¬ u.isWriting k) → (s'.setPhase i phase).Intact k args) := by
  have hti : s'.tasks[i]? = some t := by rw [hmove.tasks, ht]
  rcases hmove.index k with ⟨howner, hkept⟩ | ⟨args, b, hop, hphase, rfl, hroom, rfl, rfl⟩
  · obtain ⟨e, he, hsame⟩ := hkept e' he'
    obtain ⟨args, hsource, hintact⟩ := h.entry k e he
    have howner' : (s'.setPhase i phase).owner k = s.owner k := howner
    rw [howner']
    refine ⟨args, hsource.move hsame ht hmove, fun hnone => ?_⟩
    have hself : ¬ { t with phase := phase }.isWriting k := hnone _ (List.mem_of_getElem? (setPhase_self hti))
    by_cases hwriting : t.isWriting k
    · -- the moving `put` is finished with the file without a registration
      rcases hmove.stops_writing hwriting hself with ⟨args', b, -, -, rfl, rfl⟩ | ⟨-, -, -, hdeleted⟩
      · have hupdated : (s.insertEntry i args' b).owner args'.key = i := Function.update_self _ _ _
        exact absurd (howner.symm.trans hupdated) (hsource.ne ht hmove)
      · exact .inl hdeleted
    · have hbefore : ∀ u ∈ s.tasks, ¬ u.isWriting k := by
        intro u hu hwriting'
        rcases mem_tasks_cases ht hu with rfl | ⟨j, hji, hj⟩
        · exact hwriting hwriting'
        · have hj' : (s'.setPhase i phase).tasks[j]? = some u := by rw [setPhase_ne hji, hmove.tasks, hj]
          exact hnone u (List.mem_of_getElem? hj') hwriting'
      refine (hintact hbefore).move hclear hmove (fun args' hop hkey => ⟨fun hphase => ?_, fun hphase => ?_⟩)
        fun hvariant => .inl ⟨e, he, hsource.hasBr.trans hvariant⟩
      · exact hself (Task.isWriting_iff.mpr ⟨args', hop, .inl ⟨hkey, .inl (hmove.of_write hphase)⟩⟩)
      · exact hwriting (Task.isWriting_iff.mpr ⟨args', hop, .inl ⟨hkey, .inl hphase⟩⟩)
  · have hself := h.found t (List.mem_of_getElem? ht)
    obtain ⟨op, old⟩ := t
    obtain rfl : op = .put args := hop
    obtain rfl : old = .register b := hphase
    obtain ⟨hvariant, hintact⟩ := hself
    have hinserted : (s.layer.index.insert args.key (State.entryOf s.now args b)).lookup args.key =
        some (State.entryOf s.now args b) := AList.lookup_insert _
    obtain rfl := Option.some.inj (hinserted.symm.trans he')
    have howner : ((s.insertEntry i args b).setPhase i (.done .finished)).owner args.key = i :=
      Function.update_self _ _ _
    rw [howner]
    refine ⟨args, ⟨rfl, setPhase_self hti, s.now, Function.update_self _ _ _, ?_⟩, fun _ => hintact⟩
    rw [hvariant]
    exact .refl _

/-- A step that stays clear leaves at most one `put` at work on the files of a key. -/
lemma Snapshots.alone_move (h : Snapshots s) (ht : s.tasks[i]? = some t)
    (hmove : Move jsonSize s i t s' phase) (hclear : s.StaysClear i t) {i₁ i₂ : ℕ} {t₁ t₂ : Task}
    (ht₁ : (s'.setPhase i phase).tasks[i₁]? = some t₁) (ht₂ : (s'.setPhase i phase).tasks[i₂]? = some t₂)
    (hwriting₁ : t₁.isWriting k) (hwriting₂ : t₂.isWriting k) : i₁ = i₂ := by
  have hti : s'.tasks[i]? = some t := by rw [hmove.tasks, ht]
  -- the operation that moves is not at work next to another one
  have hmoved : ∀ {j : ℕ} {u : Task}, j ≠ i → (s'.setPhase i phase).tasks[j]? = some u → u.isWriting k →
      ¬ { t with phase := phase }.isWriting k := by
    intro j u hji hj hu hself
    rw [setPhase_ne hji, hmove.tasks] at hj
    by_cases hwriting : t.isWriting k
    · exact hji (h.alone k j i u t hj ht hu hwriting)
    · obtain ⟨args, hop, hphase, rfl⟩ := h.starts_writing ht hmove hwriting hself
      simp only [State.StaysClear, hop, hphase] at hclear
      exact hclear.1 (otherWriting_of_ne hji hj hu)
  by_cases h₁ : i₁ = i
  · by_cases h₂ : i₂ = i
    · rw [h₁, h₂]
    · rw [h₁, setPhase_self hti] at ht₁
      cases ht₁
      exact absurd hwriting₁ (hmoved h₂ ht₂ hwriting₂)
  · by_cases h₂ : i₂ = i
    · rw [h₂, setPhase_self hti] at ht₂
      cases ht₂
      exact absurd hwriting₂ (hmoved h₁ ht₁ hwriting₁)
    · rw [setPhase_ne h₁, hmove.tasks] at ht₁
      rw [setPhase_ne h₂, hmove.tasks] at ht₂
      exact h.alone k i₁ i₂ t₁ t₂ ht₁ ht₂ hwriting₁ hwriting₂

/-- A call adds an operation that is at work on nothing. -/
lemma Snapshots.call (h : Snapshots s) (op : Op) :
    Snapshots { s with tasks := s.tasks ++ [⟨op, .start⟩] } := by
  have hold : ∀ {j : ℕ} {u : Task}, s.tasks[j]? = some u → (s.tasks ++ [⟨op, .start⟩])[j]? = some u := by
    intro j u hj
    rw [List.getElem?_append_left (List.getElem?_eq_some_iff.mp hj).1, hj]
  have hstart : ∀ {k : String}, ¬ (⟨op, .start⟩ : Task).isWriting k := by
    intro k hwriting
    obtain ⟨args, -, ⟨-, hphase | ⟨b, hphase⟩ | ⟨b, hphase⟩⟩ | ⟨files, reply, hphase⟩⟩ :=
      Task.isWriting_iff.mp hwriting
    all_goals cases hphase
  have hwriting : ∀ {j : ℕ} {u : Task} {k : String}, (s.tasks ++ [⟨op, .start⟩])[j]? = some u →
      u.isWriting k → s.tasks[j]? = some u := by
    intro j u k hj hu
    rw [List.getElem?_append] at hj
    split at hj
    · exact hj
    · obtain rfl := List.mem_singleton.mp (List.mem_of_getElem? hj)
      exact absurd hu hstart
  have hsource : ∀ {j : ℕ} {k : String} {args : PutArgs} {e : CacheEntry}, s.Source j k args e →
      State.Source { s with tasks := s.tasks ++ [⟨op, .start⟩] } j k args e :=
    fun ⟨hkey, htask, hrest⟩ => ⟨hkey, hold htask, hrest⟩
  refine ⟨fun k e he => ?_, fun k i j t u hi hj ht hu => ?_, fun t ht => ?_⟩
  · obtain ⟨args, hs, hintact⟩ := h.entry k e he
    exact ⟨args, hsource hs, fun hnone => hintact fun u hu => hnone u (List.mem_append_left _ hu)⟩
  · exact h.alone k i j t u (hwriting hi ht) (hwriting hj hu) ht hu
  · rcases List.mem_append.mp ht with hmem | hnew
    · have hfound := h.found t hmem
      obtain ⟨op', phase⟩ := t
      unfold State.Consistent at hfound ⊢
      split at hfound
      · obtain ⟨hnone, j, args, hs, hintact⟩ := hfound
        refine ⟨fun u hu hu' => ?_, j, args, hsource hs, hintact⟩
        obtain ⟨n, hn⟩ := List.mem_iff_getElem?.mp hu
        exact hnone u (List.mem_of_getElem? (hwriting hn hu')) hu'
      · obtain ⟨j, args, hs, hrest⟩ := hfound
        exact ⟨j, args, hsource hs, hrest⟩
      · obtain ⟨j, args, time, hkey, htask, hrest⟩ := hfound
        exact ⟨j, args, time, hkey, hold htask, hrest⟩
      all_goals exact hfound
    · obtain rfl := List.mem_singleton.mp hnew
      cases op <;> trivial

/-- Every action that stays clear keeps the entries and answers snapshots. -/
lemma Snapshots.step {a : Action} (h : Snapshots s) (hclear : Clear s a)
    (hs : step jsonSize s a = some s') : Snapshots s' := by
  cases step_cases hs with
  | tick => exact ⟨h.entry, h.alone, h.found⟩
  | call => exact h.call _
  | @moves _ i t r phase ha ht hmove =>
    have hapart : s.StaysClear i t := by
      rcases ha with rfl | ⟨order, rfl⟩
      · exact hclear t ht
      · exact hclear t ht
    refine ⟨h.entry_move ht hmove hapart, fun k i₁ i₂ t₁ t₂ => h.alone_move ht hmove hapart, fun u hu => ?_⟩
    rcases mem_setPhase (hmove.tasks ▸ ht) hu with rfl | ⟨j, hji, hj⟩
    · exact h.consistent_self ht hmove hapart
    · rw [hmove.tasks] at hj
      exact h.consistent_other hji hj ht hmove hapart
  | fails _ _ => exact hclear.elim
  | restart =>
    refine ⟨fun k e he => ?_, fun k i j t u hi => ?_, fun t ht => ?_⟩
    · exact absurd he lookup_empty_ne_some
    · cases hi
    · cases ht

lemma snapshots_initial (gib : UInt64) : Snapshots (State.initial gib) := by
  refine ⟨fun k e he => ?_, fun k i j t u hi => ?_, fun t ht => ?_⟩
  · exact absurd he lookup_empty_ne_some
  · cases hi
  · cases ht

/-- The answer of a `get` of the key. -/
def Task.answer? (key : String) (t : Task) : Option (Lookup Bytes) :=
  match t.op, t.phase with
  | .get k _, .done (.got l) => if k = key then l else none
  | _, _ => none

/-- The arguments of a `put`. -/
def Task.args? (t : Task) : Option PutArgs :=
  match t.op with
  | .put args => some args
  | _ => none

lemma Task.answer?_eq_some {l : Lookup Bytes} (h : t.answer? k = some l) :
    ∃ allowStale, t = ⟨.get k allowStale, .done (.got (some l))⟩ := by
  obtain ⟨op, old⟩ := t
  unfold Task.answer? at h
  split at h
  · rename_i key allowStale result hop hphase
    obtain rfl : op = .get key allowStale := hop
    obtain rfl : old = .done (.got result) := hphase
    split at h
    · rename_i hkey
      rw [h, hkey]
      exact ⟨allowStale, rfl⟩
    · cases h
  · cases h

/-- Two texts for one key, the first of which comes with a brotli variant. -/
def plainText : PutArgs :=
  { threeBytes with contentType := some "text/plain", bodyBr := some [9], ttl := some 60,
                    cachedHeaders := [("etag", "1")] }

def htmlText : PutArgs := { twoBytes with contentType := some "text/html" }

/-- The plain text is saved, and a lookup is called. -/
def savedText : List Action :=
  [.call (.put plainText), .step 0, .step 0, .step 0, .step 0, .step 0, .call (.get "k" false)]

end SmartSchoolCdn.Disk
