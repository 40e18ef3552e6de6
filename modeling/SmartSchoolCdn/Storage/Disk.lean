import SmartSchoolCdn.Storage.CacheLayer
import SmartSchoolCdn.Foundation.Trace

/-!
# The cache layer at its locks and file operations

`CacheLayer` again, as a transition system in which operations interleave.  An operation takes
one step for each part that it executes under the lock of the index, and one step for each file
operation, and all others may take steps in between.

Which entries `evict_lru` meets first among equally old ones is open, and so is the number of
bytes that the background task wants to free, which it computes with floating-point numbers.
A file operation may fail.  A restart keeps the files and nothing else.

The state also records, for the statements about it, whether a subtraction from the size
counter has gone below zero, and which `put` has registered an entry and when.
-/

namespace SmartSchoolCdn.Disk

/-! ## Operations -/

/-- The limit of the service on an incoming message: 64 MiB. -/
def maxMessageBytes : ℕ := 64 * 1024 * 1024

/-- The arguments of `put`; the body came in a message. -/
structure PutArgs where
  key : String
  url : String := ""
  domain : String := ""
  contentType : Option String := none
  bytes : Bytes
  ttl : Option ℕ := none
  bodyBr : Option Bytes := none
  cachedHeaders : HeaderMap := []
  fits : bytes.length ≤ maxMessageBytes := by decide
  deriving DecidableEq

/-- The operations of the service; `evict` is the background task. -/
inductive Op
  | get (key : String) (allowStale : Bool)
  | put (args : PutArgs)
  | purgeByKey (key : String)
  | purgeByUrl (url : String)
  | purgeDomain (domain : String)
  | purgeAll
  | evict (needed : UInt64)
  deriving DecidableEq

/-- The files of a key: `{key}`, `{key}.br` and `{key}.headers.json`. -/
inductive FileKind
  | body
  | br
  | headers
  deriving DecidableEq, Repr

/-- The result of an operation. -/
inductive Reply
  | got (result : Option (Lookup Bytes))
  | finished
  | purged (count : ℕ) (freed : UInt64)

/-- What follows the deletion of files. -/
inductive Next
  | write
  | reply (reply : Reply)

/-- Where an operation is: before its first step; in `get`, about to read the body, to read the
brotli variant, or to drop the entry of a missing file; in `put`, about to evict, to write one
of the three files, or to register the entry; deleting files; or finished. -/
inductive Phase
  | start
  | read (found : CacheEntry) (isStale : Bool)
  | readBr (found : CacheEntry) (isStale : Bool) (body : Bytes)
  | cleanup
  | evict (needed : UInt64)
  | write
  | writeBr
  | writeHeaders (hasBr : Bool)
  | register (hasBr : Bool)
  | delete (files : List (FileKind × String)) (next : Next)
  | done (reply : Reply)

/-- The phase after the deletion of files. -/
def Next.phase : Next → Phase
  | .write => .write
  | .reply r => .done r

/-- The deletion of files, which is over when there are none. -/
def deleting (files : List (FileKind × String)) (next : Next) : Phase :=
  match files with
  | [] => next.phase
  | _ => .delete files next

/-- An operation with its progress. -/
structure Task where
  op : Op
  phase : Phase

/-- The files of a key, in the order in which they are deleted. -/
def filesOf (key : String) : List (FileKind × String) := [(.body, key), (.br, key), (.headers, key)]

/-! ## States -/

/-- The service: the cache layer, the lengths of the header files, which nothing reads, and the
operations.  `underflow` is whether a subtraction from the size counter has gone below zero,
`owner` is the operation that has registered the entry of a key, and `registeredAt` when an
operation has done so. -/
structure State where
  now : Time
  layer : CacheLayer Bytes
  headerFiles : AList fun _ : String => ℕ
  underflow : Bool
  owner : String → ℕ
  registeredAt : ℕ → Option Time
  tasks : List Task

/-- The service on an empty directory, with a capacity of whole GiB as `main` computes it. -/
def State.initial (gib : UInt64) : State where
  now := 0
  layer := CacheLayer.new (gib * 1024 * 1024 * 1024)
  headerFiles := ∅
  underflow := false
  owner _ := 0
  registeredAt _ := none
  tasks := []

namespace State

variable (s : State)

/-- Remove an entry from the index and its size from the counter. -/
def drop (key : String) : State :=
  { s with
    layer := s.layer.dropEntry key
    underflow := s.underflow || s.layer.currentSize < s.layer.recordedSize key }

/-- Remove entries one by one. -/
def dropAll (keys : List String) : State := keys.foldl drop s

/-- `index.clear()` and `current_size.store(0)`. -/
def clear : State := { s with layer := { s.layer with index := ∅, currentSize := 0 } }

/-- Delete a file. -/
def removeFile : FileKind × String → State
  | (.body, key) => { s with layer := { s.layer with files := s.layer.files.erase key } }
  | (.br, key) => { s with layer := { s.layer with brFiles := s.layer.brFiles.erase key } }
  | (.headers, key) => { s with headerFiles := s.headerFiles.erase key }

/-- Write a body file. -/
def writeBody (key : String) (bytes : Bytes) : State :=
  { s with layer := { s.layer with files := s.layer.files.insert key bytes } }

/-- Write a brotli file. -/
def writeVariant (key : String) (bytes : Bytes) : State :=
  { s with layer := { s.layer with brFiles := s.layer.brFiles.insert key bytes } }

/-- Write a header file. -/
def writeSidecar (key : String) (length : ℕ) : State :=
  { s with headerFiles := s.headerFiles.insert key length }

/-- The removal that the purges by a condition share. -/
def purgeWhere (p : CacheEntry → Bool) : State × Phase :=
  let keys := s.layer.keysWhere p
  (s.dropAll keys,
    deleting (keys.flatMap filesOf) (.reply (.purged keys.length (s.layer.sizeOfKeys keys))))

/-- The entry that `put` registers; the variant counts when its file was written. -/
def entryOf (now : Time) (args : PutArgs) (hasBr : Bool) : CacheEntry :=
  { CacheLayer.newEntry now args.url args.domain args.contentType args.bytes args.ttl args.bodyBr
      args.cachedHeaders with hasBr := hasBr }

/-- The second capacity check of `put`. -/
def hasRoom (args : PutArgs) : Bool :=
  s.layer.currentSize + s.layer.netIncrease args.key (blobSize args.bytes) ≤ s.layer.maxSizeBytes

/-- The registration by the operation `i`, with the size of the entry that it replaces taken
from the counter. -/
def insertEntry (i : ℕ) (args : PutArgs) (hasBr : Bool) : State :=
  { s with
    layer :=
      { s.layer with
        index := s.layer.index.insert args.key (entryOf s.now args hasBr)
        currentSize := s.layer.currentSize - s.layer.recordedSize args.key + blobSize args.bytes }
    underflow := s.underflow || s.layer.currentSize < s.layer.recordedSize args.key
    owner := Function.update s.owner args.key i
    registeredAt := Function.update s.registeredAt i (some s.now) }

/-- The first step of an operation. -/
def begin : Op → Option (State × Phase)
  | .get key allowStale =>
    match s.layer.index.lookup key with
    | none => some (s, .done (.got none))
    | some e =>
      if e.isExpired s.now && !allowStale then
        some (s.drop key, deleting (filesOf key) (.reply (.got none)))
      else some ({ s with layer := s.layer.touch s.now key e }, .read e (e.isExpired s.now))
  | .put args =>
    if blobSize args.bytes > s.layer.maxSizeBytes then some (s, .done .finished)
    else if s.layer.currentSize + blobSize args.bytes > s.layer.maxSizeBytes then
      some (s, .evict (s.layer.currentSize + blobSize args.bytes - s.layer.maxSizeBytes))
    else some (s, .write)
  | .purgeByKey key =>
    match s.layer.index.lookup key with
    | none => some (s, .done (.purged 0 0))
    | some e => some (s.drop key, deleting (filesOf key) (.reply (.purged 1 e.sizeBytes)))
  | .purgeByUrl url => some (s.purgeWhere fun e => e.url == url)
  | .purgeDomain domain => some (s.purgeWhere fun e => e.domain == domain)
  | .purgeAll =>
    let keys := s.layer.index.keys
    some (s.clear,
      deleting (keys.flatMap filesOf) (.reply (.purged keys.length (s.layer.sizeOfKeys keys))))
  | .evict _ => none

/-- The answer of `get_with_stale`. -/
def answer (found : CacheEntry) (isStale : Bool) (body : Bytes) (bodyBr : Option Bytes) : Reply :=
  .got <| some
    { body := body
      contentType := found.contentType
      bodyBr := bodyBr
      cachedHeaders := found.cachedHeaders
      isStale := isStale
      expiresAt := (found.expiresAt.map timestamp).getD 0 }

/-- The next step of the `get` of a key. -/
def advanceGet (key : String) : Phase → Option (State × Phase)
  | .read found isStale =>
    match s.layer.files.lookup key with
    | none => some (s, .cleanup)
    | some body =>
      if found.hasBr then some (s, .readBr found isStale body)
      else some (s, .done (answer found isStale body none))
  | .readBr found isStale body =>
    some (s, .done (answer found isStale body (s.layer.brFiles.lookup key)))
  | .cleanup => some (s.drop key, .done (.got none))
  | _ => none

/-- The next step of the `put` with number `i`; `jsonSize` is the length of the header list as
JSON, of which 8 KiB are allowed. -/
def advancePut (jsonSize : HeaderMap → ℕ) (i : ℕ) (args : PutArgs) : Phase → Option (State × Phase)
  | .write => some (s.writeBody args.key args.bytes, .writeBr)
  | .writeBr =>
    match args.bodyBr with
    | some br =>
      if br = [] then some (s, .writeHeaders false)
      else some (s.writeVariant args.key br, .writeHeaders true)
    | none => some (s, .writeHeaders false)
  | .writeHeaders hasBr =>
    if args.cachedHeaders ≠ [] ∧ jsonSize args.cachedHeaders ≤ 8 * 1024 then
      some (s.writeSidecar args.key (jsonSize args.cachedHeaders), .register hasBr)
    else some (s, .register hasBr)
  | .register hasBr =>
    if s.hasRoom args then some (s.insertEntry i args hasBr, .done .finished)
    else some (s, deleting [(.body, args.key), (.headers, args.key)] (.reply .finished))
  | _ => none

/-- The next step of an operation, other than an eviction. -/
def advance (jsonSize : HeaderMap → ℕ) (i : ℕ) (t : Task) : Option (State × Phase) :=
  match t.phase with
  | .start => s.begin t.op
  | .delete (file :: files) next => some (s.removeFile file, deleting files next)
  | phase =>
    match t.op with
    | .get key _ => s.advanceGet key phase
    | .put args => s.advancePut jsonSize i args phase
    | _ => none

/-- The keys of the index, the least recently used first. -/
def IsEvictOrder (order : List String) : Prop :=
  order.Perm s.layer.index.keys ∧
    order.Pairwise fun a b =>
      ((s.layer.index.lookup a).map CacheEntry.accessedAt).getD 0 ≤
        ((s.layer.index.lookup b).map CacheEntry.accessedAt).getD 0

instance (order : List String) : Decidable (s.IsEvictOrder order) :=
  inferInstanceAs (Decidable (_ ∧ _))

/-- The entries of some keys. -/
def entriesOf (order : List String) : List (String × CacheEntry) :=
  order.filterMap fun key => (s.layer.index.lookup key).map fun e => (key, e)

/-- The locked part of `evict_lru`. -/
def evictLru (needed : UInt64) (order : List String) (next : Next) : Option (State × Phase) :=
  if s.IsEvictOrder order then
    let victims := CacheLayer.evictVictims needed 0 (s.entriesOf order)
    some (s.dropAll victims, deleting (victims.flatMap filesOf) next)
  else none

/-- The eviction that an operation has to make. -/
def evictStep (order : List String) (t : Task) : Option (State × Phase) :=
  match t.op, t.phase with
  | .evict needed, .start => s.evictLru needed order (.reply .finished)
  | .put _, .evict needed => s.evictLru needed order .write
  | _, _ => none

/-- A file operation that fails.  A write that fails has changed nothing, or has left a part of
what it was to write. -/
def failStep (written : Option ℕ) (t : Task) : Option (State × Phase) :=
  match t.op, t.phase with
  | _, .delete (_ :: files) next => some (s, deleting files next)
  | .get _ _, .read _ _ => some (s, .cleanup)
  | .get _ _, .readBr found isStale body => some (s, .done (answer found isStale body none))
  | .put args, .write =>
    match written with
    | none => some (s, .done .finished)
    | some n => some (s.writeBody args.key (args.bytes.take n), .done .finished)
  | .put args, .writeBr =>
    match written, args.bodyBr with
    | some n, some br => some (s.writeVariant args.key (br.take n), .writeHeaders false)
    | _, _ => some (s, .writeHeaders false)
  | .put args, .writeHeaders hasBr =>
    match written with
    | none => some (s, .register hasBr)
    | some n => some (s.writeSidecar args.key n, .register hasBr)
  | _, _ => none

/-- Move an operation to another phase. -/
def setPhase (i : ℕ) (phase : Phase) : State :=
  { s with tasks := s.tasks.modify i fun t => { t with phase := phase } }

end State

/-! ## The transition system -/

/-- What happens next: time passes, an operation is called, an operation takes its next step,
evicts entries in an order, or has a file operation fail, or the process is restarted. -/
inductive Action
  | tick (time : Time)
  | call (op : Op)
  | step (i : ℕ)
  | evict (i : ℕ) (order : List String)
  | fail (i : ℕ) (written : Option ℕ)
  | restart
  deriving DecidableEq

/-- Execute an action. -/
def step (jsonSize : HeaderMap → ℕ) (s : State) : Action → Option State
  | .tick time => some { s with now := s.now + time }
  | .call op => some { s with tasks := s.tasks ++ [{ op := op, phase := .start }] }
  | .step i =>
    (s.tasks[i]?).bind fun t => (s.advance jsonSize i t).map fun r => r.1.setPhase i r.2
  | .evict i order =>
    (s.tasks[i]?).bind fun t => (s.evictStep order t).map fun r => r.1.setPhase i r.2
  | .fail i written =>
    (s.tasks[i]?).bind fun t => (s.failStep written t).map fun r => r.1.setPhase i r.2
  | .restart =>
    some { s with
      layer := { s.layer with index := ∅, currentSize := 0 }
      registeredAt := fun _ => none
      tasks := [] }

/-- No operation is running. -/
def State.Quiet (s : State) : Prop := ∀ t ∈ s.tasks, ∃ reply, t.phase = .done reply

end SmartSchoolCdn.Disk
