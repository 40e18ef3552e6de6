import SmartSchoolCdn.Storage.Agreement

/-!
# The disk budget

The size counter counts bodies only, and the index forgets its entries at a restart, so that the
files of the directory can exceed the capacity, and can be left behind without an entry.  They
do neither in the runs in which the process restarts on an empty directory, the capacity check
of a `put` would also have passed with the other files counted, and no operation leaves a file
without an entry (`disk_within_budget`).
-/

namespace SmartSchoolCdn.Disk

open FiniteMaps Traces

variable {jsonSize : HeaderMap → ℕ} {s s' : State} {i j : ℕ} {t u : Task} {phase : Phase} {k : String}
  {file : FileKind × String}

@[simp] lemma Task.owns_delete {op : Op} {files : List (FileKind × String)} {next : Next} :
    (⟨op, .delete files next⟩ : Task).owns file ↔ file ∈ files := by
  cases op <;> rfl

@[simp] lemma Task.owns_done {op : Op} {reply : Reply} : ¬ (⟨op, .done reply⟩ : Task).owns file := by
  cases op <;> exact id

/-- A deletion owns the files that it has not deleted. -/
@[simp] lemma Task.owns_deleting {op : Op} {files : List (FileKind × String)} {next : Next} :
    (⟨op, deleting files next⟩ : Task).owns file ↔ file ∈ files := by
  cases files with
  | nil =>
    cases next with
    | write => cases op <;> simp [deleting, Next.phase, Task.owns]
    | reply reply => simp [deleting, Next.phase]
  | cons first rest => exact Task.owns_delete

/-- A step keeps a file, or owns it afterwards, or the file is gone. -/
lemma Move.fileLength (h : Move jsonSize s i t s' phase) :
    s'.fileLength file = s.fileLength file ∨ { t with phase := phase }.owns file ∨
      s'.fileLength file = none := by
  obtain ⟨kind, k⟩ := file
  cases kind with
  | body =>
    rcases h.files k with hsame | ⟨args, hop, -, hkey, hphase, -⟩ | ⟨-, -, -, -, -, hnone⟩
    · exact .inl (congrArg (Option.map List.length) hsame)
    · right; left
      subst hkey hphase
      simp only [Task.owns, hop]
    · exact .inr (.inr (congrArg (Option.map List.length) hnone))
  | br =>
    rcases h.brFiles k with hsame | ⟨args, br, hop, -, hkey, -, -, hphase, -⟩ | ⟨-, -, -, -, hnone⟩
    · exact .inl (congrArg (Option.map List.length) hsame)
    · right; left
      subst hkey hphase
      simp [Task.owns, hop]
    · exact .inr (.inr (congrArg (Option.map List.length) hnone))
  | headers =>
    cases h with
    | cleanup _ _ => exact .inl (congrArg (AList.lookup k) (dropAll_frame s [_]).2.2.1)
    | removes _ _ _ => exact .inl (congrArg (AList.lookup k) (dropAll_frame s _).2.2.1)
    | @writesSidecar args hasBr hop hphase _ =>
      by_cases hk : args.key = k
      · right; left
        subst hk
        simp [Task.owns, hop]
      · exact .inl (AList.lookup_insert_ne (Ne.symm hk))
    | @deletes file files next hphase =>
      obtain ⟨kind, key⟩ := file
      cases kind with
      | headers =>
        by_cases hk : k = key
        · subst hk
          exact .inr (.inr (AList.lookup_erase k _))
        · exact .inl (AList.lookup_erase_ne hk)
      | body => exact .inl rfl
      | br => exact .inl rfl
    | _ => exact .inl rfl

lemma fileLength_removeFile : (s.removeFile file).fileLength file = none := by
  obtain ⟨kind, k⟩ := file
  cases kind with
  | body => exact congrArg (Option.map List.length) (AList.lookup_erase k s.layer.files)
  | br => exact congrArg (Option.map List.length) (AList.lookup_erase k s.layer.brFiles)
  | headers => exact AList.lookup_erase k s.headerFiles

/-- An operation gives up a file by registering an entry, by deleting the file, or, when a `put`
is rolled back, by leaving its brotli file behind. -/
lemma Move.stops_owning (h : Move jsonSize s i t s' phase) (howns : t.owns file)
    (hstops : ¬ { t with phase := phase }.owns file) :
    (∃ args hasBr, t.op = .put args ∧ t.phase = .register hasBr ∧ s.hasRoom args = true ∧
      args.key = file.2 ∧ s' = s.insertEntry i args hasBr) ∨
    (∃ args, t.op = .put args ∧ t.phase = .register true ∧ s.hasRoom args = false ∧
      file = (.br, args.key) ∧ s' = s) ∨
    s'.fileLength file = none := by
  obtain ⟨op, old⟩ := t
  unfold Task.owns at howns
  split at howns
  · rename_i args hop hphase
    obtain ⟨b, rfl⟩ := h.of_writeBr hphase
    obtain rfl : op = .put args := hop
    exact absurd (Or.inl howns) hstops
  · rename_i args b hop hphase
    obtain rfl := h.of_writeHeaders hphase
    obtain rfl : op = .put args := hop
    exact absurd (howns.imp_right .inl) hstops
  · rename_i args b hop hphase
    rcases h.of_register hop hphase with ⟨hroom, hs', -⟩ | ⟨hroom, hs', rfl⟩
    · left
      refine ⟨args, b, hop, hphase, hroom, ?_, hs'⟩
      rcases howns with rfl | ⟨-, rfl⟩ | rfl <;> rfl
    · right; left
      rw [Task.owns_delete] at hstops
      rcases howns with rfl | ⟨rfl, hbr⟩ | rfl
      · simp at hstops
      · exact ⟨args, hop, hphase, hroom, hbr, hs'⟩
      · simp at hstops
  · rename_i files next hphase
    cases files with
    | nil => cases howns
    | cons first rest =>
      obtain ⟨rfl, rfl⟩ := h.of_delete hphase
      rcases List.mem_cons.mp howns with rfl | hrest
      · exact .inr (.inr fileLength_removeFile)
      · exact absurd (Task.owns_deleting.mpr hrest) hstops
  · exact howns.elim

/-! ## The bytes that no operation owns -/

/-- The length of a file that no operation owns. -/
def State.rest (s : State) (file : FileKind × String) : ℕ :=
  if s.Owned file then 0 else (s.fileLength file).getD 0

/-- The number of bytes of the brotli and header files that no operation owns. -/
def State.unownedBytes (s : State) : ℕ :=
  total (fun k b => if s.Owned (.br, k) then 0 else b.length) s.layer.brFiles +
    total (fun k n => if s.Owned (.headers, k) then 0 else n) s.headerFiles

lemma measured_br : measured (fun k b => if s.Owned (.br, k) then 0 else b.length) s.layer.brFiles k =
    s.rest (.br, k) := by
  cases h : s.layer.brFiles.lookup k with
  | none =>
    rw [measured_of_none h]
    simp [State.rest, State.fileLength, h]
  | some b =>
    rw [measured_of_some h]
    simp [State.rest, State.fileLength, h]

lemma measured_headers : measured (fun k n => if s.Owned (.headers, k) then 0 else n) s.headerFiles k =
    s.rest (.headers, k) := by
  cases h : s.headerFiles.lookup k with
  | none =>
    rw [measured_of_none h]
    simp [State.rest, State.fileLength, h]
  | some n =>
    rw [measured_of_some h]
    simp [State.rest, State.fileLength, h]

lemma measured_length_br :
    measured (fun _ b => b.length) s.layer.brFiles k = (s.fileLength (.br, k)).getD 0 := rfl

lemma measured_length_headers :
    measured (fun _ n => n) s.headerFiles k = (s.fileLength (.headers, k)).getD 0 := by
  cases h : s.headerFiles.lookup k with
  | none =>
    rw [measured_of_none h]
    simp [State.fileLength, h]
  | some n =>
    rw [measured_of_some h]
    simp [State.fileLength, h]

/-- An owned file counts nothing. -/
lemma rest_le : s.rest file ≤ (s.fileLength file).getD 0 := by
  unfold State.rest
  split
  · exact Nat.zero_le _
  · exact le_rfl

/-- The unowned bytes do not grow when no unowned file does. -/
lemma unownedBytes_le (h : ∀ file, s'.rest file ≤ s.rest file) : s'.unownedBytes ≤ s.unownedBytes := by
  refine Nat.add_le_add (total_le_total fun k => ?_) (total_le_total fun k => ?_)
  · rw [measured_br, measured_br]
    exact h _
  · rw [measured_headers, measured_headers]
    exact h _

lemma unownedBytes_le_sidecarBytes : s.unownedBytes ≤ s.sidecarBytes := by
  refine Nat.add_le_add (total_le_total fun k => ?_) (total_le_total fun k => ?_)
  · rw [measured_br, measured_length_br]
    exact rest_le
  · rw [measured_headers, measured_length_headers]
    exact rest_le

/-- When no operation owns a file all bytes are unowned. -/
lemma sidecarBytes_le_unownedBytes (h : ∀ file, ¬ s.Owned file) : s.sidecarBytes ≤ s.unownedBytes := by
  refine Nat.add_le_add (total_le_total fun k => ?_) (total_le_total fun k => ?_)
  · rw [measured_br, measured_length_br, State.rest, if_neg (h _)]
  · rw [measured_headers, measured_length_headers, State.rest, if_neg (h _)]

/-! ## The invariant -/

/-- Every file belongs to an entry or is owned by an operation, no body file is longer than
recorded unless an operation owns it, and the counted bytes and the unowned bytes are within the
capacity. -/
structure Tidy (s : State) : Prop where
  kept : ∀ file, s.fileLength file ≠ none → (s.layer.index.lookup file.2).isSome = true ∨ s.Owned file
  sized : ∀ k e b, s.layer.index.lookup k = some e → s.layer.files.lookup k = some b →
    b.length ≤ e.sizeBytes.toNat ∨ s.Owned (.body, k)
  fits : s.layer.currentSize.toNat + s.unownedBytes ≤ s.layer.maxSizeBytes.toNat

/-- An owner is the operation `i` or another one. -/
lemma State.Owned.cases (h : s.Owned file) (ht : s.tasks[i]? = some t) : s.OtherOwns i file ∨ t.owns file := by
  obtain ⟨u, hu, howns⟩ := h
  rcases mem_tasks_cases ht hu with rfl | ⟨j, hji, hj⟩
  · exact .inr howns
  · exact .inl ⟨u, List.mem_eraseIdx_iff_getElem?.mpr ⟨j, hji, hj⟩, howns⟩

/-- The other operations keep what they own. -/
lemma State.OtherOwns.setPhase {r : State} (h : s.OtherOwns i file) (htasks : r.tasks = s.tasks) :
    (r.setPhase i phase).Owned file := by
  obtain ⟨u, hu, howns⟩ := h
  obtain ⟨j, hji, hj⟩ := List.mem_eraseIdx_iff_getElem?.mp hu
  refine ⟨u, List.mem_of_getElem? (i := j) ?_, howns⟩
  rw [setPhase_ne hji, htasks, hj]

/-- The moving operation owns what its new phase owns. -/
lemma owned_setPhase {r : State} (h : { t with phase := phase }.owns file) (ht : s.tasks[i]? = some t)
    (htasks : r.tasks = s.tasks) : (r.setPhase i phase).Owned file :=
  ⟨_, List.mem_of_getElem? (setPhase_self (htasks ▸ ht)), h⟩

/-- A change of the operations that keeps the owned files owned. -/
lemma Tidy.of_owned {r : State} (h : Tidy s) (hlayer : r.layer = s.layer)
    (hheaders : r.headerFiles = s.headerFiles) (howned : ∀ file, s.Owned file → r.Owned file) : Tidy r := by
  have hlength : ∀ file, r.fileLength file = s.fileLength file := by
    rintro ⟨kind, k⟩
    cases kind <;> simp only [State.fileLength, hlayer, hheaders]
  refine ⟨fun file hfile => ?_, fun k e b he hb => ?_, ?_⟩
  · rw [hlength] at hfile
    rw [hlayer]
    exact (h.kept file hfile).imp_right (howned file)
  · rw [hlayer] at he hb
    exact (h.sized k e b he hb).imp_right (howned _)
  · have hle : r.unownedBytes ≤ s.unownedBytes := by
      refine unownedBytes_le fun file => ?_
      unfold State.rest
      rw [hlength]
      by_cases hs : s.Owned file
      · rw [if_pos hs, if_pos (howned file hs)]
      · rw [if_neg hs]
        split
        · exact Nat.zero_le _
        · exact le_rfl
    have hfits := h.fits
    rw [hlayer]
    omega

/-- An entry that is gone leaves its files to the operation that has removed it, except in a
cleanup. -/
lemma Move.index_isSome (h : Move jsonSize s i t s' phase)
    (hentry : (s.layer.index.lookup k).isSome = true) :
    (s'.layer.index.lookup k).isSome = true ∨ (∀ kind, { t with phase := phase }.owns (kind, k)) ∨
      ∃ allowStale, t.op = .get k allowStale ∧ t.phase = .cleanup := by
  have hfiles : ∀ {keys : List String} {op : Op} {next : Next}, k ∈ keys →
      ∀ kind, (⟨op, deleting (keys.flatMap filesOf) next⟩ : Task).owns (kind, k) := by
    intro keys op next hk kind
    rw [Task.owns_deleting]
    refine List.mem_flatMap.mpr ⟨k, hk, ?_⟩
    cases kind <;> simp [filesOf]
  cases h with
  | @hit key _ e _ _ hlookup _ =>
    left
    unfold CacheLayer.touch
    split
    · exact hentry
    · by_cases hk : k = key
      · subst hk
        exact Option.isSome_iff_exists.mpr ⟨_, AList.lookup_insert _⟩
      · exact (congrArg Option.isSome (AList.lookup_insert_ne hk)).trans hentry
  | @cleanup key allowStale hop hphase =>
    by_cases hk : k ∈ [key]
    · obtain rfl := List.mem_singleton.mp hk
      exact .inr (.inr ⟨allowStale, hop, hphase⟩)
    · left
      have hdrop := index_dropAll s [key] k
      rw [if_neg hk] at hdrop
      exact (congrArg Option.isSome hdrop).trans hentry
  | @removes keys next _ _ _ =>
    by_cases hk : k ∈ keys
    · exact .inr (.inl (hfiles hk))
    · left
      rw [index_dropAll, if_neg hk]
      exact hentry
  | clears _ _ _ =>
    exact .inr (.inl (hfiles (AList.mem_keys.mp (AList.lookup_isSome.mp hentry))))
  | @registers args hasBr _ _ _ =>
    left
    by_cases hk : k = args.key
    · subst hk
      exact Option.isSome_iff_exists.mpr ⟨_, AList.lookup_insert _⟩
    · exact (congrArg Option.isSome (AList.lookup_insert_ne hk)).trans hentry
  | @deletes file _ _ _ =>
    obtain ⟨kind, key⟩ := file
    cases kind <;> exact .inl hentry
  | _ => exact .inl hentry

/-- The counter grows in registrations only. -/
lemma Accounted.currentSize_le (h : Accounted s) (hcapacity : Capacity s)
    (hmove : Move jsonSize s i t s' phase) (hnot : ∀ hasBr, t.phase ≠ .register hasBr) :
    s'.layer.currentSize.toNat ≤ s.layer.currentSize.toNat := by
  rw [(h.move hcapacity hmove).sum, h.sum]
  refine total_le_total fun k => ?_
  rcases hmove.index k with ⟨-, hkept⟩ | ⟨args, hasBr, -, hphase, -⟩
  · cases he' : s'.layer.index.lookup k with
    | none =>
      rw [measured_of_none he']
      exact Nat.zero_le _
    | some e' =>
      obtain ⟨e, he, hits, time, rfl⟩ := hkept e' he'
      rw [measured_of_some he', measured_of_some he]
      exact le_rfl
  · exact absurd hphase (hnot hasBr)

/-- An unowned file does not grow, except in the last step of a `put`. -/
lemma rest_setPhase_le (ht : s.tasks[i]? = some t) (hmove : Move jsonSize s i t s' phase)
    (hnot : ∀ args, t.op = .put args → t.phase = .register true → file ≠ (.br, args.key))
    (hentry : ∀ args hasBr, t.op = .put args → t.phase = .register hasBr → s.hasRoom args = false) :
    (s'.setPhase i phase).rest file ≤ s.rest file := by
  unfold State.rest
  split
  · exact Nat.zero_le _
  · rename_i hunowned
    have hlength : (s'.setPhase i phase).fileLength file = s'.fileLength file := by
      obtain ⟨kind, k⟩ := file
      cases kind <;> rfl
    have hgone : s'.fileLength file = none → ((s'.setPhase i phase).fileLength file).getD 0 = 0 := by
      intro hnone
      rw [hlength, hnone]
      rfl
    have hcases : s'.fileLength file = s.fileLength file ∨ { t with phase := phase }.owns file ∨
        s'.fileLength file = none := hmove.fileLength
    rcases hcases with hsame | howns | hnone
    · split
      · rename_i howned
        rcases howned.cases ht with hother | howns
        · exact absurd (hother.setPhase hmove.tasks) hunowned
        · by_cases hstill : { t with phase := phase }.owns file
          · exact absurd (owned_setPhase hstill ht hmove.tasks) hunowned
          · rcases hmove.stops_owning howns hstill with
              ⟨args, hasBr, hop, hphase, hroom, -, -⟩ | ⟨args, hop, hphase, -, hfile, -⟩ | hnone
            · rw [hentry args hasBr hop hphase] at hroom
              cases hroom
            · exact absurd hfile (hnot args hop hphase)
            · exact (hgone hnone).le
      · rw [hlength, hsame]
    · exact absurd (owned_setPhase howns ht hmove.tasks) hunowned
    · rw [hgone hnone]
      exact Nat.zero_le _

/-- A step that keeps the budget leaves no file behind. -/
lemma Tidy.kept_move (h : Tidy s) (ht : s.tasks[i]? = some t) (hmove : Move jsonSize s i t s' phase)
    (hbudget : s.KeepsBudget i t) (hfile : (s'.setPhase i phase).fileLength file ≠ none) :
    ((s'.setPhase i phase).layer.index.lookup file.2).isSome = true ∨ (s'.setPhase i phase).Owned file := by
  have hlength : (s'.setPhase i phase).fileLength file = s'.fileLength file := by
    obtain ⟨kind, k⟩ := file
    cases kind <;> rfl
  rw [hlength] at hfile
  have hcases : s'.fileLength file = s.fileLength file ∨ { t with phase := phase }.owns file ∨
      s'.fileLength file = none := hmove.fileLength
  rcases hcases with hsame | howns | hnone
  · rw [hsame] at hfile
    rcases h.kept file hfile with hentry | howned
    · rcases hmove.index_isSome hentry with hkept | howns | ⟨allowStale, hop, hphase⟩
      · exact .inl hkept
      · exact .inr (owned_setPhase (howns file.1) ht hmove.tasks)
      · simp only [State.KeepsBudget, hop, hphase] at hbudget
        rcases hbudget with hnone | hfiles
        · rw [hnone] at hentry
          cases hentry
        · have hmem : file ∈ filesOf file.2 := by
            obtain ⟨kind, k⟩ := file
            cases kind <;> simp [filesOf]
          rcases hfiles file hmem with hnone | hother
          · exact absurd hnone hfile
          · exact .inr (hother.setPhase hmove.tasks)
    · rcases howned.cases ht with hother | howns
      · exact .inr (hother.setPhase hmove.tasks)
      · by_cases hstill : { t with phase := phase }.owns file
        · exact .inr (owned_setPhase hstill ht hmove.tasks)
        · rcases hmove.stops_owning howns hstill with
            ⟨args, hasBr, -, -, -, hkey, rfl⟩ | ⟨args, hop, hphase, hroom, rfl, rfl⟩ | hnone
          · left
            rw [← hkey]
            exact Option.isSome_iff_exists.mpr ⟨_, AList.lookup_insert _⟩
          · simp only [State.KeepsBudget, hop, hphase, hroom, Bool.false_eq_true, if_false] at hbudget
            rcases hbudget trivial with hnone | hother | ⟨hentry, -⟩
            · exact absurd (congrArg (Option.map List.length) hnone) hfile
            · exact .inr (hother.setPhase hmove.tasks)
            · exact .inl hentry
          · rw [hsame] at hnone
            exact absurd hnone hfile
  · exact .inr (owned_setPhase howns ht hmove.tasks)
  · exact absurd hnone hfile

/-- A step that keeps the budget leaves no body file longer than recorded. -/
lemma Tidy.sized_move (h : Tidy s) (ht : s.tasks[i]? = some t) (hmove : Move jsonSize s i t s' phase)
    (hbudget : s.KeepsBudget i t) {e' : CacheEntry} {b : Bytes}
    (he' : (s'.setPhase i phase).layer.index.lookup k = some e')
    (hb : (s'.setPhase i phase).layer.files.lookup k = some b) :
    b.length ≤ e'.sizeBytes.toNat ∨ (s'.setPhase i phase).Owned (.body, k) := by
  by_cases hregister : ∃ args hasBr, t.op = .put args ∧ t.phase = .register hasBr ∧
      s.hasRoom args = true ∧ args.key = k ∧ s' = s.insertEntry i args hasBr
  · obtain ⟨args, hasBr, hop, hphase, hroom, rfl, rfl⟩ := hregister
    have hinserted : (s.layer.index.insert args.key (State.entryOf s.now args hasBr)).lookup args.key =
        some (State.entryOf s.now args hasBr) := AList.lookup_insert _
    obtain rfl := Option.some.inj (hinserted.symm.trans he')
    simp only [State.KeepsBudget, hop, hphase, hroom, if_true] at hbudget
    rcases hbudget.2 with hshort | hother
    · left
      have hsize : (State.entryOf s.now args hasBr).sizeBytes.toNat = args.bytes.length := toNat_blobSize args
      rw [hsize]
      exact hshort b hb
    · exact .inr (hother.setPhase hmove.tasks)
  · have hkept : ∃ e, s.layer.index.lookup k = some e ∧ CacheEntry.SameCopy e e' := by
      rcases hmove.index k with ⟨-, hkept⟩ | ⟨args, hasBr, hop, hphase, hkey, hroom, hs', -⟩
      · exact hkept e' he'
      · exact absurd ⟨args, hasBr, hop, hphase, hroom, hkey, hs'⟩ hregister
    obtain ⟨e, he, hits, time, rfl⟩ := hkept
    rcases hmove.files k with hsame | ⟨args, hop, -, hkey, hphase, -⟩ | ⟨-, -, -, -, -, hnone⟩
    · rcases h.sized k e b he (hsame ▸ hb) with hshort | howned
      · exact .inl hshort
      · right
        rcases howned.cases ht with hother | howns
        · exact hother.setPhase hmove.tasks
        · by_cases hstill : { t with phase := phase }.owns (.body, k)
          · exact owned_setPhase hstill ht hmove.tasks
          · rcases hmove.stops_owning howns hstill with
              ⟨args, hasBr, hop, hphase, hroom, hkey, hs'⟩ | ⟨args, -, -, -, hfile, -⟩ | hnone
            · exact absurd ⟨args, hasBr, hop, hphase, hroom, hkey, hs'⟩ hregister
            · cases hfile
            · have hsome : (s'.fileLength (.body, k)) = some b.length := congrArg (Option.map List.length) hb
              rw [hnone] at hsome
              cases hsome
    · right
      refine owned_setPhase ?_ ht hmove.tasks
      subst hkey hphase
      simp only [Task.owns, hop]
    · have hb' : s'.layer.files.lookup k = some b := hb
      rw [hnone] at hb'
      cases hb'

/-- A step that keeps the budget leaves the counted and the unowned bytes within the capacity. -/
lemma Tidy.fits_move (h : Tidy s) (haccounted : Accounted s) (hcapacity : Capacity s)
    (ht : s.tasks[i]? = some t) (hmove : Move jsonSize s i t s' phase) (hbudget : s.KeepsBudget i t) :
    (s'.setPhase i phase).layer.currentSize.toNat + (s'.setPhase i phase).unownedBytes ≤
      (s'.setPhase i phase).layer.maxSizeBytes.toNat := by
  have hmax : (s'.setPhase i phase).layer.maxSizeBytes = s.layer.maxSizeBytes := hmove.maxSizeBytes
  have hsize : (s'.setPhase i phase).layer.currentSize = s'.layer.currentSize := rfl
  have hfits := h.fits
  rw [hmax, hsize]
  by_cases hregister : ∃ hasBr, t.phase = .register hasBr
  · obtain ⟨hasBr, hphase⟩ := hregister
    obtain ⟨args, hop⟩ := hmove.put_of_register hphase
    rcases hmove.of_register hop hphase with ⟨hroom, rfl, rfl⟩ | ⟨hroom, rfl, hphase'⟩
    · simp only [State.KeepsBudget, hop, hphase, hroom, if_true] at hbudget
      obtain ⟨hadd, -⟩ := haccounted.toNat_insertEntry hcapacity hroom i hasBr
      have hle := unownedBytes_le_sidecarBytes (s := (s.insertEntry i args hasBr).setPhase i (.done .finished))
      have hsidecars : ((s.insertEntry i args hasBr).setPhase i (.done .finished)).sidecarBytes =
          s.sidecarBytes := rfl
      omega
    · simp only [State.KeepsBudget, hop, hphase, hroom, Bool.false_eq_true, if_false] at hbudget
      have hother : ∀ file, (hasBr = true → file ≠ (.br, args.key)) →
          (s'.setPhase i phase).rest file ≤ s'.rest file := by
        intro file hfile
        refine rest_setPhase_le ht hmove (fun args' hop' hphase' => ?_) fun args' hasBr' hop' _ => ?_
        · rw [hop] at hop'
          rw [hphase] at hphase'
          cases hop'
          cases hphase'
          exact hfile rfl
        · rw [hop] at hop'
          cases hop'
          exact hroom
      -- a brotli file that is gone or that another operation owns adds nothing
      have hfree : (s'.setPhase i phase).rest (.br, args.key) = 0 →
          (s'.setPhase i phase).unownedBytes ≤ s'.unownedBytes := by
        intro hzero
        refine unownedBytes_le fun file => ?_
        by_cases hfile : file = (.br, args.key)
        · rw [hfile, hzero]
          exact Nat.zero_le _
        · exact hother file fun _ => hfile
      by_cases hbr : hasBr = true
      · rcases hbudget hbr with hnone | howned | ⟨-, hroomy⟩
        · have hlength : (s'.setPhase i phase).fileLength (.br, args.key) = none :=
            congrArg (Option.map List.length) hnone
          have hle : (s'.setPhase i phase).rest (.br, args.key) ≤ 0 := by
            refine rest_le.trans ?_
            rw [hlength]
            exact Nat.le_refl 0
          have hrest := hfree (Nat.le_zero.mp hle)
          omega
        · have hrest := hfree (if_pos (howned.setPhase hmove.tasks))
          omega
        · have hle := unownedBytes_le_sidecarBytes (s := s'.setPhase i phase)
          have hsidecars : (s'.setPhase i phase).sidecarBytes = s'.sidecarBytes := rfl
          omega
      · have hrest : (s'.setPhase i phase).unownedBytes ≤ s'.unownedBytes :=
          unownedBytes_le fun file => hother file fun h => absurd h hbr
        omega
  · have hnot : ∀ hasBr, t.phase ≠ .register hasBr := fun hasBr hphase => hregister ⟨hasBr, hphase⟩
    have hcounter := haccounted.currentSize_le hcapacity hmove hnot
    have hrest : (s'.setPhase i phase).unownedBytes ≤ s.unownedBytes :=
      unownedBytes_le fun file => rest_setPhase_le ht hmove (fun args _ hphase => absurd hphase (hnot true))
        fun args hasBr _ hphase => absurd hphase (hnot hasBr)
    omega

/-- A failure that leaves no part of a file changes nothing but the phase, and the operation keeps
what it owns. -/
lemma owns_of_fail {r : State × Phase} (h : s.failStep none t = some r) (hnot : t.isDeleting = false) :
    r.1 = s ∧ ∀ file, t.owns file → (⟨t.op, r.2⟩ : Task).owns file := by
  obtain ⟨op, old⟩ := t
  unfold State.failStep at h
  split at h
  · rename_i hphase
    obtain rfl : old = _ := hphase
    cases hnot
  · rename_i hop hphase
    obtain rfl : op = _ := hop
    obtain rfl : old = _ := hphase
    cases h
    exact ⟨rfl, fun file howns => howns.elim⟩
  · rename_i hop hphase
    obtain rfl : op = _ := hop
    obtain rfl : old = _ := hphase
    cases h
    exact ⟨rfl, fun file howns => howns.elim⟩
  · rename_i hop hphase
    obtain rfl : op = _ := hop
    obtain rfl : old = _ := hphase
    cases h
    exact ⟨rfl, fun file howns => howns.elim⟩
  · rename_i args hop hphase
    obtain rfl : op = .put args := hop
    obtain rfl : old = .writeBr := hphase
    split at h
    · rename_i hwritten _
      cases hwritten
    · cases h
      exact ⟨rfl, fun file howns => Or.inl howns⟩
  · rename_i args hasBr hop hphase
    obtain rfl : op = .put args := hop
    obtain rfl : old = .writeHeaders hasBr := hphase
    cases h
    exact ⟨rfl, fun file howns => Or.imp_right Or.inl howns⟩
  · cases h

/-- Every action that keeps the budget leaves the directory tidy. -/
lemma Tidy.step {a : Action} (h : Tidy s) (haccounted : Accounted s) (hcapacity : Capacity s)
    (hbudgeted : Budgeted s a) (hs : step jsonSize s a = some s') : Tidy s' := by
  cases step_cases hs with
  | tick => exact ⟨h.kept, h.sized, h.fits⟩
  | call =>
    refine h.of_owned rfl rfl fun file howned => ?_
    obtain ⟨u, hu, howns⟩ := howned
    exact ⟨u, List.mem_append_left _ hu, howns⟩
  | @moves _ i t r phase ha ht hmove =>
    have hkeeps : s.KeepsBudget i t := by
      rcases ha with rfl | ⟨order, rfl⟩
      · exact hbudgeted t ht
      · exact hbudgeted t ht
    exact ⟨fun file => h.kept_move ht hmove hkeeps, fun k e b => h.sized_move ht hmove hkeeps,
      h.fits_move haccounted hcapacity ht hmove hkeeps⟩
  | @fails i written t r ht hfail =>
    obtain ⟨rfl, hnot⟩ := hbudgeted
    obtain ⟨hsame, howns⟩ := owns_of_fail hfail (hnot t ht)
    rw [hsame]
    refine h.of_owned rfl rfl fun file howned => ?_
    rcases howned.cases ht with hother | hself
    · exact hother.setPhase rfl
    · exact owned_setPhase (howns file hself) ht rfl
  | restart =>
    obtain ⟨hfiles, hbr, hheaders⟩ := hbudgeted
    have hfiles := eq_empty_of_keys hfiles
    have hbr := eq_empty_of_keys hbr
    have hheaders := eq_empty_of_keys hheaders
    refine ⟨fun file hfile => absurd ?_ hfile, fun k e b he => ?_, ?_⟩
    · obtain ⟨kind, k⟩ := file
      cases kind <;> simp [State.fileLength, hfiles, hbr, hheaders]
    · exact absurd he lookup_empty_ne_some
    · simp [State.unownedBytes, hbr, hheaders]

lemma tidy_initial (gib : UInt64) : Tidy (State.initial gib) := by
  refine ⟨fun file hfile => absurd ?_ hfile, fun k e b he => ?_, ?_⟩
  · obtain ⟨kind, k⟩ := file
    cases kind <;> rfl
  · exact absurd he lookup_empty_ne_some
  · exact Nat.zero_le _

/-- A quiet state has no owned files. -/
lemma State.Quiet.not_owned (h : s.Quiet) (file : FileKind × String) : ¬ s.Owned file := by
  rintro ⟨⟨op, old⟩, hu, howns⟩
  obtain ⟨reply, hdone⟩ := h _ hu
  obtain rfl : old = .done reply := hdone
  exact Task.owns_done howns

/-- The directory is tidy in every run whose steps keep the budget. -/
lemma tidy_of_trace {gib : UInt64} {as : List Action}
    (h : Trace (step jsonSize) Budgeted (State.initial gib) as s) : Tidy s ∧ Accounted s := by
  have hempty : Reaches (step jsonSize) (State.initial gib) (State.initial gib) := ⟨[], Trace.nil _⟩
  have hall : Tidy s ∧ Accounted s ∧ Capacity s := by
    refine h.invariant (I := fun s => Tidy s ∧ Accounted s ∧ Capacity s) ?_
      ⟨tidy_initial gib, accounted_of_reaches hempty⟩
    rintro s a s' ⟨htidy, haccounted, hcapacity⟩ hbudgeted hs
    refine ⟨htidy.step haccounted hcapacity hbudgeted hs, haccounted.step hcapacity hs, ?_⟩
    rw [Capacity, maxSizeBytes_step hs]
    exact hcapacity
  exact ⟨hall.1, hall.2.1⟩

/-- A text with a brotli variant and a header file. -/
def textWithSidecars : PutArgs :=
  { threeBytes with bodyBr := some [9], cachedHeaders := [("etag", "1")] }

/-- The text is saved with all its files. -/
def savedWithSidecars : List Action :=
  [.call (.put textWithSidecars), .step 0, .step 0, .step 0, .step 0, .step 0]

end SmartSchoolCdn.Disk
