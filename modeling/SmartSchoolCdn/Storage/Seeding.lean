import SmartSchoolCdn.Storage.Overwrite

/-!
# Seeding the index

`dev_seed_popular` puts five entries of 1024 bytes into the index and leaves the size counter
alone; whatever removes one of them subtracts its size from the counter.

What seeding adds to the recorded sizes is a debt of the counter.  An operation is sound when its
subtractions and additions stay within 64 bits and a body that fits next to the entries is stored
without an eviction.
-/

namespace SmartSchoolCdn

open FiniteMaps Traces

/-! ## The operations -/

namespace CacheLayer

variable {β : Type}

/-- The samples of `dev_seed_popular`: their URLs, domains and hits. -/
def samples : List (String × String × ℕ) :=
  [("https://textbook.com/chapter1.pdf", "textbook.com", 1247),
    ("https://cdn.school.kr/video/intro.mp4", "cdn.school.kr", 892),
    ("https://cdn.school.kr/images/logo.png", "cdn.school.kr", 654),
    ("https://textbook.com/exercise/q1.pdf", "textbook.com", 521),
    ("https://api.school.kr/manifest.json", "api.school.kr", 387)]

/-- The entry of a sample. -/
def sampleEntry (now : Time) (sample : String × String × ℕ) : CacheEntry where
  url := sample.1
  domain := sample.2.1
  contentType := some "application/octet-stream"
  sizeBytes := 1024
  hasBr := false
  hitCount := sample.2.2
  createdAt := now
  accessedAt := now
  expiresAt := none
  cachedHeaders := []

/-- `dev_seed_popular`: no file is written, and the size counter stays as it is. -/
def devSeedPopular (c : CacheLayer β) (now : Time) : ℕ × CacheLayer β :=
  (samples.length,
    { c with
      index := samples.foldl (fun index sample =>
        index.insert ("dev-seed-" ++ sample.1) (sampleEntry now sample)) c.index })

/-- `purge_by_key`. -/
def purgeByKey (c : CacheLayer β) (key : String) : ℕ × UInt64 × CacheLayer β :=
  match c.index.lookup key with
  | some e => (1, e.sizeBytes, c.removeKeys [key])
  | none => (0, 0, c)

/-- An order in which `evict_lru` may take the entries: equally old ones come as the map has
them. -/
def IsEvictOrder (c : CacheLayer β) (order : List (String × CacheEntry)) : Prop :=
  order.Perm (c.index.entries.map fun s => (s.1, s.2)) ∧
    order.Pairwise fun a b => a.2.accessedAt ≤ b.2.accessedAt

instance (c : CacheLayer β) (order : List (String × CacheEntry)) : Decidable (c.IsEvictOrder order) :=
  inferInstanceAs (Decidable (_ ∧ _))

/-- What the capacity check of `put` makes `evict_lru` remove. -/
def victimsFor (c : CacheLayer β) (order : List (String × CacheEntry)) (size : UInt64) : List String :=
  if c.currentSize + size > c.maxSizeBytes then
    evictVictims (c.currentSize + size - c.maxSizeBytes) 0 order
  else []

/-- `put` with an order of eviction; without `written`, the write of the body fails. -/
def putInOrder [Blob β] (c : CacheLayer β) (order : List (String × CacheEntry)) (written : Bool) (now : Time)
    (key url domain : String) (contentType : Option String) (bytes : β) (ttl : Option ℕ)
    (bodyBr : Option β) (cachedHeaders : HeaderMap) : CacheLayer β :=
  if blobSize bytes > c.maxSizeBytes then c
  else
    let c := c.removeKeys (c.victimsFor order (blobSize bytes))
    if written then
      (c.writeFiles key bytes bodyBr).register key
        (newEntry now url domain contentType bytes ttl bodyBr cachedHeaders)
    else c

/-- What `evict_to_ratio` asks `evict_lru` for; the comparison with the hard ratio and the target
come from floating-point numbers. -/
def excess (c : CacheLayer β) (belowHard : Bool) (targetBytes : UInt64) : Option UInt64 :=
  if c.maxSizeBytes = 0 then none
  else if belowHard then none
  else if c.currentSize ≤ targetBytes then none
  else some (c.currentSize - targetBytes)

/-- The `put` of the sequential model is the one in its order. -/
lemma put_eq_putInOrder [Blob β] (c : CacheLayer β) (now : Time) (key url domain : String)
    (contentType : Option String) (bytes : β) (ttl : Option ℕ) (bodyBr : Option β)
    (cachedHeaders : HeaderMap) :
    c.IsEvictOrder c.evictOrder ∧
      c.put now key url domain contentType bytes ttl bodyBr cachedHeaders =
        c.putInOrder c.evictOrder true now key url domain contentType bytes ttl bodyBr cachedHeaders := by
  refine ⟨⟨c.evictOrder_perm, List.pairwise_insertionSort _ _⟩, ?_⟩
  have hreserve : c.reserve (blobSize bytes) = c.removeKeys (c.victimsFor c.evictOrder (blobSize bytes)) := by
    rw [reserve, victimsFor]
    split <;> rfl
  rw [put, putInOrder, hreserve]
  rfl

end CacheLayer

namespace Seeding

open CacheLayer Disk

/-! ## Runs -/

/-- The operations of a sequential run. -/
inductive Action
  | put (now : Time) (args : PutArgs) (order : List (String × CacheEntry)) (written : Bool)
  | get (now : Time) (key : String) (allowStale : Bool)
  | purgeByKey (key : String)
  | purgeByUrl (url : String)
  | purgeDomain (domain : String)
  | purgeAll
  | evictLru (needed : UInt64) (order : List (String × CacheEntry))
  | evictToRatio (belowHard : Bool) (targetBytes : UInt64) (order : List (String × CacheEntry))
  | devSeedPopular (now : Time)

/-- The keys whose entries an operation takes out of the index with a subtraction. -/
def removed (c : CacheLayer Bytes) : Action → List String
  | .put _ args order written =>
    if blobSize args.bytes > c.maxSizeBytes then []
    else c.victimsFor order (blobSize args.bytes) ++ if written then [args.key] else []
  | .get now key allowStale =>
    match c.index.lookup key with
    | none => []
    | some e => if (e.isExpired now && !allowStale) || (c.files.lookup key).isNone then [key] else []
  | .purgeByKey key => [key]
  | .purgeByUrl url => c.keysWhere fun e => e.url == url
  | .purgeDomain domain => c.keysWhere fun e => e.domain == domain
  | .purgeAll => []
  | .evictLru needed order => evictVictims needed 0 order
  | .evictToRatio belowHard targetBytes order =>
    match c.excess belowHard targetBytes with
    | none => []
    | some needed => evictVictims needed 0 order
  | .devSeedPopular _ => []

/-- The layer after an operation. -/
def exec (c : CacheLayer Bytes) : Action → CacheLayer Bytes
  | .put now args order written =>
    c.putInOrder order written now args.key args.url args.domain args.contentType args.bytes args.ttl
      args.bodyBr args.cachedHeaders
  | .get now key allowStale => (c.getWithStale now key allowStale).2
  | .purgeByKey key => (c.purgeByKey key).2.2
  | .purgeByUrl url => (c.purgeByUrl url).2.2
  | .purgeDomain domain => (c.purgeDomain domain).2.2
  | .purgeAll => c.purgeAll.2.2
  | .evictLru needed order => c.removeKeys (evictVictims needed 0 order)
  | .evictToRatio belowHard targetBytes order =>
    match c.excess belowHard targetBytes with
    | none => c
    | some needed => c.removeKeys (evictVictims needed 0 order)
  | .devSeedPopular now => (c.devSeedPopular now).2

/-- An operation that evicts does so in one of the orders of the entries. -/
def Possible (c : CacheLayer Bytes) : Action → Prop
  | .put _ _ order _ | .evictLru _ order | .evictToRatio _ _ order => c.IsEvictOrder order
  | _ => True

instance (c : CacheLayer Bytes) (a : Action) : Decidable (Possible c a) := by
  cases a <;> unfold Possible <;> infer_instance

/-- The layer, and the debt: what seeding has added to the recorded sizes since the counter was
last set to zero with them. -/
structure State where
  layer : CacheLayer Bytes
  debt : ℤ

/-- The service on an empty directory, with a capacity of whole GiB. -/
def State.initial (gib : UInt64) : State := ⟨CacheLayer.new (gib * 1024 * 1024 * 1024), 0⟩

/-- The debt after an operation. -/
def debtAfter (s : State) : Action → ℤ
  | .devSeedPopular now =>
    s.debt + (total entrySize (s.layer.devSeedPopular now).2.index - total entrySize s.layer.index : ℤ)
  | .purgeAll => 0
  | _ => s.debt

/-- An operation of a run. -/
def step (s : State) (a : Action) : Option State :=
  if Possible s.layer a then some ⟨exec s.layer a, debtAfter s a⟩ else none

/-! ## Soundness -/

/-- None of the subtractions goes below zero when entries are removed one by one. -/
def Subtracts (c : CacheLayer Bytes) : List String → Prop
  | [] => True
  | key :: keys => c.recordedSize key ≤ c.currentSize ∧ Subtracts (c.dropEntry key) keys

/-- A sum of 64 bits is that of its terms. -/
def Adds (n size : UInt64) : Prop := n.toNat + size.toNat < 2 ^ 64

/-- A body fits next to the entries that are there. -/
def Fits (c : CacheLayer Bytes) (size : UInt64) : Prop :=
  total entrySize c.index + size.toNat ≤ c.maxSizeBytes.toNat

/-- A `put` is sound: the sum of the first capacity check does not overflow, nor do the
subtractions of the eviction, the sum of the second check, and the replacement of the old size by
the new one; and a body that fits is stored with nothing evicted. -/
def PutSound (c : CacheLayer Bytes) (now : Time) (args : PutArgs) (order : List (String × CacheEntry))
    (written : Bool) : Prop :=
  let size := blobSize args.bytes
  let r := c.removeKeys (c.victimsFor order size)
  ¬ size > c.maxSizeBytes →
    Adds c.currentSize size ∧ Subtracts c (c.victimsFor order size) ∧
    (written = true →
      Adds r.currentSize (r.netIncrease args.key size) ∧
      (¬ r.currentSize + r.netIncrease args.key size > r.maxSizeBytes →
        r.recordedSize args.key ≤ r.currentSize ∧ Adds (r.currentSize - r.recordedSize args.key) size) ∧
      (Fits c size → c.victimsFor order size = [] ∧
        (exec c (.put now args order written)).stored args.key =
          some (newStored now args.url args.domain args.contentType args.bytes args.ttl args.bodyBr
            args.cachedHeaders)))

/-- An operation is sound. -/
def Sound (c : CacheLayer Bytes) : Action → Prop
  | .put now args order written => PutSound c now args order written
  | a => Subtracts c (removed c a)

/-! ## The condition -/

/-- The entries that stay when keys are taken out. -/
def kept (c : CacheLayer Bytes) (keys : List String) : AList fun _ : String => CacheEntry :=
  keys.foldl (fun index key => index.erase key) c.index

/-- A body that fits next to all entries does so with a negative debt, too. -/
def Admits (s : State) : Action → Prop
  | .put _ args _ written => written = true → Fits s.layer (blobSize args.bytes) →
    (total entrySize s.layer.index + (blobSize args.bytes).toNat : ℤ) ≤ s.layer.maxSizeBytes.toNat + s.debt
  | _ => True

/-- The entries that an operation leaves in place cover the debt, and it admits what fits. -/
def Covered (s : State) (a : Action) : Prop :=
  s.debt ≤ total entrySize (kept s.layer (removed s.layer a)) ∧ Admits s a

/-! ## Removals -/

variable {c : CacheLayer Bytes} {keys : List String} {key : String} {size : UInt64}

/-- By how much the recorded sizes exceed the counter. -/
def gap (c : CacheLayer Bytes) : ℤ := total entrySize c.index - c.currentSize.toNat

lemma toNat_recordedSize (c : CacheLayer Bytes) (key : String) :
    (c.recordedSize key).toNat = measured entrySize c.index key := by
  cases hlookup : c.index.lookup key with
  | none => rw [recordedSize_of_none hlookup, measured_of_none hlookup, UInt64.toNat_zero]
  | some e => rw [recordedSize_of_some hlookup, measured_of_some hlookup, entrySize]

lemma dropEntry_eq (c : CacheLayer Bytes) (key : String) :
    c.dropEntry key =
      { c with index := c.index.erase key, currentSize := c.currentSize - c.recordedSize key } := by
  rw [dropEntry]
  cases hlookup : c.index.lookup key with
  | none => simp only [recordedSize_of_none hlookup, erase_eq_self hlookup, UInt64.sub_zero]
  | some e => simp only [recordedSize_of_some hlookup]

/-- A subtraction that does not wrap around takes the size of the entry from the counter. -/
lemma toNat_dropEntry (h : c.recordedSize key ≤ c.currentSize) :
    (c.dropEntry key).currentSize.toNat + measured entrySize c.index key = c.currentSize.toNat := by
  rw [dropEntry_eq, UInt64.toNat_sub_of_le _ _ h, ← toNat_recordedSize]
  exact Nat.sub_add_cancel (UInt64.le_iff_toNat_le.mp h)

lemma kept_cons : kept c (key :: keys) = kept (c.dropEntry key) keys := by
  rw [kept, kept, dropEntry_eq]
  rfl

lemma total_kept_le (c : CacheLayer Bytes) (keys : List String) :
    total entrySize (kept c keys) ≤ total entrySize c.index := by
  induction keys generalizing c with
  | nil => exact le_rfl
  | cons key keys ih =>
    have herase := total_erase_measured (f := entrySize) (m := c.index) key
    have hrest := ih (c.dropEntry key)
    have hindex : (c.dropEntry key).index = c.index.erase key := by rw [dropEntry_eq]
    rw [hindex] at hrest
    rw [kept_cons]
    omega

/-- The subtractions of a removal stay above zero exactly when the counter covers what is removed. -/
lemma subtracts_iff :
    Subtracts c keys ↔ total entrySize c.index ≤ c.currentSize.toNat + total entrySize (kept c keys) := by
  induction keys generalizing c with
  | nil => exact iff_of_true trivial (Nat.le_add_left _ _)
  | cons key keys ih =>
    have herase := total_erase_measured (f := entrySize) (m := c.index) key
    have hindex : (c.dropEntry key).index = c.index.erase key := by rw [dropEntry_eq]
    have hkept := total_kept_le (c.dropEntry key) keys
    rw [hindex] at hkept
    rw [Subtracts, ih, kept_cons, hindex]
    constructor
    · rintro ⟨hle, hrest⟩
      have hcounter := toNat_dropEntry hle
      omega
    · intro h
      have hle : c.recordedSize key ≤ c.currentSize := by
        rw [UInt64.le_iff_toNat_le, toNat_recordedSize]
        omega
      have hcounter := toNat_dropEntry hle
      exact ⟨hle, by omega⟩

lemma subtracts_append {keys' : List String} :
    Subtracts c (keys ++ keys') ↔ Subtracts c keys ∧ Subtracts (keys.foldl dropEntry c) keys' := by
  induction keys generalizing c with
  | nil => exact ⟨fun h => ⟨trivial, h⟩, And.right⟩
  | cons key keys ih => rw [List.cons_append, Subtracts, Subtracts, ih, and_assoc]; rfl

/-- A removal without wrapping keeps the gap, and the counter does not grow. -/
lemma gap_foldl_dropEntry (h : Subtracts c keys) :
    gap (keys.foldl dropEntry c) = gap c ∧
      (keys.foldl dropEntry c).currentSize.toNat ≤ c.currentSize.toNat := by
  induction keys generalizing c with
  | nil => exact ⟨rfl, le_rfl⟩
  | cons key keys ih =>
    obtain ⟨hgap, hle⟩ := ih h.2
    have hcounter := toNat_dropEntry h.1
    have herase := total_erase_measured (f := entrySize) (m := c.index) key
    have hfirst : gap (c.dropEntry key) = gap c := by
      have hindex : (c.dropEntry key).index = c.index.erase key := by rw [dropEntry_eq]
      rw [gap, gap, hindex]
      omega
    rw [List.foldl_cons]
    exact ⟨hgap.trans hfirst, hle.trans (by omega)⟩

/-- The files have no part in the account. -/
lemma deleteFiles_frame (c : CacheLayer Bytes) (keys : List String) :
    (keys.foldl deleteFiles c).index = c.index ∧ (keys.foldl deleteFiles c).currentSize = c.currentSize ∧
      (keys.foldl deleteFiles c).maxSizeBytes = c.maxSizeBytes := by
  induction keys generalizing c with
  | nil => exact ⟨rfl, rfl, rfl⟩
  | cons key keys ih => exact ih (c.deleteFiles key)

lemma maxSizeBytes_foldl_dropEntry (c : CacheLayer Bytes) (keys : List String) :
    (keys.foldl dropEntry c).maxSizeBytes = c.maxSizeBytes := by
  induction keys generalizing c with
  | nil => rfl
  | cons key keys ih => rw [List.foldl_cons, ih, dropEntry_eq]

lemma index_foldl_dropEntry (c : CacheLayer Bytes) (keys : List String) :
    (keys.foldl dropEntry c).index = kept c keys := by
  induction keys generalizing c with
  | nil => rfl
  | cons key keys ih => rw [List.foldl_cons, ih, kept_cons]

/-- A sound operation keeps the gap, and the counter within the capacity. -/
structure Keeps (c r : CacheLayer Bytes) : Prop where
  gap_eq : gap r = gap c
  within : c.currentSize.toNat ≤ c.maxSizeBytes.toNat → r.currentSize.toNat ≤ r.maxSizeBytes.toNat
  capacity : r.maxSizeBytes = c.maxSizeBytes

lemma Keeps.refl (c : CacheLayer Bytes) : Keeps c c := ⟨rfl, id, rfl⟩

lemma Keeps.trans {r q : CacheLayer Bytes} (h : Keeps c r) (h' : Keeps r q) : Keeps c q :=
  ⟨h'.gap_eq.trans h.gap_eq, fun hc => h'.within (h.within hc), h'.capacity.trans h.capacity⟩

/-- The removal of keys, as far as the account goes. -/
lemma removeKeys_frame (c : CacheLayer Bytes) (keys : List String) :
    (c.removeKeys keys).index = kept c keys ∧
      (c.removeKeys keys).currentSize = (keys.foldl dropEntry c).currentSize ∧
      (c.removeKeys keys).maxSizeBytes = c.maxSizeBytes := by
  obtain ⟨hindex, hcounter, hmax⟩ := deleteFiles_frame (keys.foldl dropEntry c) keys
  exact ⟨hindex.trans (index_foldl_dropEntry c keys), hcounter,
    hmax.trans (maxSizeBytes_foldl_dropEntry c keys)⟩

lemma Keeps.removeKeys (h : Subtracts c keys) : Keeps c (c.removeKeys keys) := by
  obtain ⟨hindex, hcounter, hmax⟩ := removeKeys_frame c keys
  obtain ⟨hgap, hle⟩ := gap_foldl_dropEntry h
  refine ⟨?_, fun hc => ?_, hmax⟩
  · rw [← hgap, gap, gap, hindex, hcounter, index_foldl_dropEntry]
  · rw [hcounter, hmax]
    exact hle.trans hc

end Seeding

end SmartSchoolCdn
