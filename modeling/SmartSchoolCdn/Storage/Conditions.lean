import SmartSchoolCdn.Foundation.FiniteMap
import SmartSchoolCdn.Storage.Disk

/-!
# Side conditions on the steps of the cache layer

Which operations are at work on the files of a key, and the conditions on a step under which the
operations stay out of each other's way: that none removes or takes over what another has written
(`Orderly`), that the files stay within the budget (`Budgeted`), and that no file is read while it
is replaced (`Clear`).
-/

namespace SmartSchoolCdn.Disk

open FiniteMaps

/-! ## Written files -/

/-- A `put` of the key has replaced the body file, and has neither registered its entry nor
deleted the file again. -/
def Task.isWriting (key : String) (t : Task) : Prop :=
  match t.op, t.phase with
  | .put args, .writeBr => args.key = key
  | .put args, .writeHeaders _ => args.key = key
  | .put args, .register _ => args.key = key
  | .put _, .delete ((.body, k) :: _) (.reply _) => k = key
  | _, _ => False

instance (key : String) (t : Task) : Decidable (t.isWriting key) := by
  unfold Task.isWriting
  split <;> infer_instance

/-- Another operation has replaced the body file of the key and is not finished with it. -/
def State.OtherWriting (s : State) (i : ℕ) (key : String) : Prop :=
  ∃ u ∈ s.tasks.eraseIdx i, u.isWriting key

instance (s : State) (i : ℕ) (key : String) : Decidable (s.OtherWriting i key) :=
  inferInstanceAs (Decidable (∃ u ∈ _, _))

/-- The operation takes no step that removes or takes over the file or the entry of another one:
a `put` registers while the body file is what it wrote, or what another `put` wrote that has yet
to register; a body file is deleted while the key has no entry and no other `put` is at work on
the file; and an entry whose file was missing is dropped while that file is missing. -/
def State.KeepsApart (s : State) (i : ℕ) (t : Task) : Prop :=
  match t.op, t.phase with
  | .put args, .register _ => s.hasRoom args = true →
      s.layer.files.lookup args.key = some args.bytes ∨
        (s.layer.files.lookup args.key).isSome = true ∧ s.OtherWriting i args.key
  | .get key _, .cleanup => s.layer.index.lookup key = none ∨ s.layer.files.lookup key = none
  | _, .delete ((.body, key) :: _) _ => s.layer.index.lookup key = none ∧ ¬ s.OtherWriting i key
  | _, _ => True

instance (s : State) (i : ℕ) (t : Task) : Decidable (s.KeepsApart i t) := by
  unfold State.KeepsApart
  split <;> infer_instance

/-- No file operation fails, and the operation that moves keeps apart from the others. -/
def Orderly (s : State) : Action → Prop
  | .step i => ∀ t ∈ s.tasks[i]?, s.KeepsApart i t
  | .evict i _ => ∀ t ∈ s.tasks[i]?, s.KeepsApart i t
  | .fail _ _ => False
  | _ => True

instance (s : State) (a : Action) : Decidable (Orderly s a) := by
  unfold Orderly
  split <;> infer_instance

/-! ## Files and their owners -/

/-- The length of a file, if it exists. -/
def State.fileLength (s : State) : FileKind × String → Option ℕ
  | (.body, key) => (s.layer.files.lookup key).map List.length
  | (.br, key) => (s.layer.brFiles.lookup key).map List.length
  | (.headers, key) => s.headerFiles.lookup key

/-- The number of bytes of the brotli and header files. -/
def State.sidecarBytes (s : State) : ℕ :=
  total (fun _ b => b.length) s.layer.brFiles + total (fun _ n => n) s.headerFiles

/-- The number of bytes of all files. -/
def State.diskBytes (s : State) : ℕ := total (fun _ b => b.length) s.layer.files + s.sidecarBytes

/-- The operation owns the file: it has written it and not registered an entry for it, or it is
about to delete it. -/
def Task.owns (file : FileKind × String) (t : Task) : Prop :=
  match t.op, t.phase with
  | .put args, .writeBr => file = (.body, args.key)
  | .put args, .writeHeaders hasBr => file = (.body, args.key) ∨ hasBr = true ∧ file = (.br, args.key)
  | .put args, .register hasBr =>
    file = (.body, args.key) ∨ hasBr = true ∧ file = (.br, args.key) ∨ file = (.headers, args.key)
  | _, .delete files _ => file ∈ files
  | _, _ => False

instance (file : FileKind × String) (t : Task) : Decidable (t.owns file) := by
  unfold Task.owns
  split <;> infer_instance

/-- Some operation owns the file. -/
def State.Owned (s : State) (file : FileKind × String) : Prop := ∃ u ∈ s.tasks, u.owns file

/-- An operation other than `i` owns the file. -/
def State.OtherOwns (s : State) (i : ℕ) (file : FileKind × String) : Prop :=
  ∃ u ∈ s.tasks.eraseIdx i, u.owns file

instance (s : State) (file : FileKind × String) : Decidable (s.Owned file) :=
  inferInstanceAs (Decidable (∃ u ∈ _, _))

instance (s : State) (i : ℕ) (file : FileKind × String) : Decidable (s.OtherOwns i file) :=
  inferInstanceAs (Decidable (∃ u ∈ _, _))

/-- The next step of the operation keeps the budget: a registration leaves room for the brotli
and header files, and the body file is not longer than what is registered, or is still to be
replaced or deleted; a rollback leaves no brotli file behind, unless it belongs to an entry and
there is room for it; and a cleanup drops no entry whose files remain. -/
def State.KeepsBudget (s : State) (i : ℕ) (t : Task) : Prop :=
  match t.op, t.phase with
  | .put args, .register hasBr =>
    if s.hasRoom args = true then
      s.layer.currentSize.toNat - (s.layer.recordedSize args.key).toNat + args.bytes.length +
          s.sidecarBytes ≤ s.layer.maxSizeBytes.toNat ∧
        ((∀ b ∈ s.layer.files.lookup args.key, b.length ≤ args.bytes.length) ∨
          s.OtherOwns i (.body, args.key))
    else hasBr = true → s.layer.brFiles.lookup args.key = none ∨ s.OtherOwns i (.br, args.key) ∨
      (s.layer.index.lookup args.key).isSome = true ∧
        s.layer.currentSize.toNat + s.sidecarBytes ≤ s.layer.maxSizeBytes.toNat
  | .get key _, .cleanup => s.layer.index.lookup key = none ∨
      ∀ file ∈ filesOf key, s.fileLength file = none ∨ s.OtherOwns i file
  | _, _ => True

instance (s : State) (i : ℕ) (t : Task) : Decidable (s.KeepsBudget i t) := by
  unfold State.KeepsBudget
  split <;> infer_instance

/-- The operation is deleting files. -/
def Task.isDeleting (t : Task) : Bool :=
  match t.phase with
  | .delete _ _ => true
  | _ => false

/-- No deletion fails and no failed write leaves a part of a file, the process restarts on an
empty directory, and the operation that moves keeps the budget. -/
def Budgeted (s : State) : Action → Prop
  | .step i => ∀ t ∈ s.tasks[i]?, s.KeepsBudget i t
  | .evict i _ => ∀ t ∈ s.tasks[i]?, s.KeepsBudget i t
  | .fail i written => written = none ∧ ∀ t ∈ s.tasks[i]?, t.isDeleting = false
  | .restart => s.layer.files.keys = [] ∧ s.layer.brFiles.keys = [] ∧ s.headerFiles.keys = []
  | _ => True

instance (s : State) (a : Action) : Decidable (Budgeted s a) := by
  unfold Budgeted
  split <;> infer_instance

/-! ## Files that are read -/

/-- A `get` of the key has copied the metadata and not read the body. -/
def Task.isReading (key : String) (t : Task) : Prop :=
  match t.op, t.phase with
  | .get k _, .read _ _ => k = key
  | _, _ => False

/-- A `get` of the key has read the body and not the brotli file. -/
def Task.isReadingBr (key : String) (t : Task) : Prop :=
  match t.op, t.phase with
  | .get k _, .readBr _ _ _ => k = key
  | _, _ => False

/-- The operation has the brotli file of the key in its metadata: a `get` that is to read the
body, or a `put` that has written the file and not registered. -/
def Task.countsOnBr (key : String) (t : Task) : Prop :=
  match t.op, t.phase with
  | .get k _, .read found _ => k = key ∧ found.hasBr = true
  | .put args, .writeHeaders hasBr => args.key = key ∧ hasBr = true
  | .put args, .register hasBr => args.key = key ∧ hasBr = true
  | _, _ => False

instance (key : String) (t : Task) : Decidable (t.isReading key) := by
  unfold Task.isReading
  split <;> infer_instance

instance (key : String) (t : Task) : Decidable (t.isReadingBr key) := by
  unfold Task.isReadingBr
  split <;> infer_instance

instance (key : String) (t : Task) : Decidable (t.countsOnBr key) := by
  unfold Task.countsOnBr
  split <;> infer_instance

/-- The next step of the operation stays clear of the others: a `get` copies the metadata while
no `put` is at work on the body file; a body file is written while no other `put` is at work on
it and no `get` is about to read it; a brotli file is written while no `get` is about to read
it; and it is deleted while no `get` is about to read it and either the body file is missing or
no metadata has it. -/
def State.StaysClear (s : State) (i : ℕ) (t : Task) : Prop :=
  match t.op, t.phase with
  | .get key allowStale, .start => ∀ e ∈ s.layer.index.lookup key,
      (e.isExpired s.now && !allowStale) = false → ¬ s.OtherWriting i key
  | .put args, .write => ¬ s.OtherWriting i args.key ∧ ∀ u ∈ s.tasks, ¬ u.isReading args.key
  | .put args, .writeBr => CacheLayer.hasVariant args.bodyBr = true →
      ∀ u ∈ s.tasks, ¬ u.isReadingBr args.key
  | _, .delete ((.br, key) :: _) _ => (∀ u ∈ s.tasks, ¬ u.isReadingBr key) ∧
      (s.layer.files.lookup key = none ∨
        (∀ e ∈ s.layer.index.lookup key, e.hasBr = false) ∧ ∀ u ∈ s.tasks, ¬ u.countsOnBr key)
  | _, _ => True

instance (s : State) (i : ℕ) (t : Task) : Decidable (s.StaysClear i t) := by
  unfold State.StaysClear
  split <;> infer_instance

/-- No file operation fails, and the operation that moves stays clear of the others. -/
def Clear (s : State) : Action → Prop
  | .step i => ∀ t ∈ s.tasks[i]?, s.StaysClear i t
  | .evict i _ => ∀ t ∈ s.tasks[i]?, s.StaysClear i t
  | .fail _ _ => False
  | _ => True

instance (s : State) (a : Action) : Decidable (Clear s a) := by
  unfold Clear
  split <;> infer_instance

end SmartSchoolCdn.Disk
