import SmartSchoolCdn.Http
import Mathlib.Data.List.AList
import Mathlib.Data.List.Sort
import Mathlib.Data.UInt
import Mathlib.Order.Basic

/-!
# The disk cache of the storage service

`CacheLayer` of `services/storage-service/src/cache.rs`: an index from cache keys to entry
metadata, the body and brotli files of the cache directory, and the size counter.  Every
operation is the sequential behaviour of the method of the same name; the clock reading it
makes is its argument `now`.  The header sidecar is written and never read, so it is left
out, and cache keys stand for the file names derived from them.

The layer never looks into a body: bodies are an arbitrary type with a length (`Blob`).

At the end, `CacheLayer.stored` is the abstract content of the layer, a partial function
from keys to what a lookup would find, and each operation is described on it.
-/

namespace SmartSchoolCdn

/-- A body that the storage keeps: all it needs is the length in bytes. -/
class Blob (β : Type) where
  /-- `bytes.len()`. -/
  size : β → ℕ

instance : Blob Bytes := ⟨List.length⟩

/-- The length as the code stores it, `bytes.len() as u64`. -/
def blobSize {β : Type} [Blob β] (b : β) : UInt64 := UInt64.ofNat (Blob.size b)

/-- `CacheEntry`: the metadata of a cached body. -/
structure CacheEntry where
  url : String
  domain : String
  contentType : Option String
  sizeBytes : UInt64
  hitCount : ℕ
  createdAt : Time
  accessedAt : Time
  expiresAt : Option Time
  hasBr : Bool
  cachedHeaders : HeaderMap
  deriving DecidableEq

/-- `CacheEntry::is_expired` at the time `now`. -/
def CacheEntry.isExpired (e : CacheEntry) (now : Time) : Bool :=
  match e.expiresAt with
  | some exp => exp < now
  | none => false

/-- `CacheLayer`. -/
structure CacheLayer (β : Type) where
  index : AList fun _ : String => CacheEntry
  files : AList fun _ : String => β
  brFiles : AList fun _ : String => β
  maxSizeBytes : UInt64
  currentSize : UInt64

/-- The result of `get_with_stale`. -/
structure Lookup (β : Type) where
  body : β
  contentType : Option String
  bodyBr : Option β
  cachedHeaders : HeaderMap
  isStale : Bool
  expiresAt : ℕ

namespace CacheLayer

variable {β : Type}

/-- `CacheLayer::new` on an empty directory. -/
def new (maxSizeBytes : UInt64) : CacheLayer β :=
  { index := ∅, files := ∅, brFiles := ∅, maxSizeBytes := maxSizeBytes, currentSize := 0 }

/-- Remove one entry from the index and its size from the counter. -/
def dropEntry (c : CacheLayer β) (key : String) : CacheLayer β :=
  match c.index.lookup key with
  | some e => { c with index := c.index.erase key, currentSize := c.currentSize - e.sizeBytes }
  | none => c

/-- Remove the files of one key. -/
def deleteFiles (c : CacheLayer β) (key : String) : CacheLayer β :=
  { c with files := c.files.erase key, brFiles := c.brFiles.erase key }

/-- The two phases all removals share: index entries under the lock, then their files. -/
def removeKeys (c : CacheLayer β) (keys : List String) : CacheLayer β :=
  keys.foldl deleteFiles (keys.foldl dropEntry c)

/-- The statistics update of a hit; a stale answer leaves the popularity statistics alone. -/
def touch (c : CacheLayer β) (now : Time) (key : String) (e : CacheEntry) : CacheLayer β :=
  if e.isExpired now then c
  else { c with index := c.index.insert key { e with hitCount := e.hitCount + 1, accessedAt := now } }

/-- The file reads of a lookup; an entry whose body file is missing is dropped. -/
def readFiles (c : CacheLayer β) (now : Time) (key : String) (e : CacheEntry) :
    Option (Lookup β) × CacheLayer β :=
  match c.files.lookup key with
  | some data =>
    (some
      { body := data
        contentType := e.contentType
        bodyBr := if e.hasBr then c.brFiles.lookup key else none
        cachedHeaders := e.cachedHeaders
        isStale := e.isExpired now
        expiresAt := (e.expiresAt.map timestamp).getD 0 }, c)
  | none => (none, c.dropEntry key)

/-- `get_with_stale`. -/
def getWithStale (c : CacheLayer β) (now : Time) (key : String) (allowStale : Bool) :
    Option (Lookup β) × CacheLayer β :=
  match c.index.lookup key with
  | none => (none, c)
  | some e =>
    if e.isExpired now && !allowStale then (none, c.removeKeys [key])
    else (c.touch now key e).readFiles now key e

/-- The entries in the order `evict_lru` removes them. -/
def evictOrder (c : CacheLayer β) : List (String × CacheEntry) :=
  (c.index.entries.map fun s => (s.1, s.2)).insertionSort fun a b => a.2.accessedAt ≤ b.2.accessedAt

/-- The keys `evict_lru` removes: entries are taken until enough bytes are freed. -/
def evictVictims (needed : UInt64) : UInt64 → List (String × CacheEntry) → List String
  | _, [] => []
  | freed, (key, e) :: rest =>
    if freed ≥ needed then [] else key :: evictVictims needed (freed + e.sizeBytes) rest

/-- `evict_lru`. -/
def evictLru (c : CacheLayer β) (needed : UInt64) : CacheLayer β :=
  c.removeKeys (evictVictims needed 0 c.evictOrder)

/-- The size recorded for a key, zero without an entry. -/
def recordedSize (c : CacheLayer β) (key : String) : UInt64 :=
  ((c.index.lookup key).map CacheEntry.sizeBytes).getD 0

/-- `size.saturating_sub(old_size)`: by how much a new body grows the cache. -/
def netIncrease (c : CacheLayer β) (key : String) (size : UInt64) : UInt64 :=
  if size ≥ c.recordedSize key then size - c.recordedSize key else 0

/-- The index registration at the end of `put`, with the second capacity check and its
rollback of the body file. -/
def register (c : CacheLayer β) (key : String) (entry : CacheEntry) : CacheLayer β :=
  if c.currentSize + c.netIncrease key entry.sizeBytes > c.maxSizeBytes then
    { c with files := c.files.erase key }
  else
    { c with
      index := c.index.insert key entry
      currentSize := c.currentSize - c.recordedSize key + entry.sizeBytes }

/-- The capacity check at the start of `put`. -/
def reserve (c : CacheLayer β) (size : UInt64) : CacheLayer β :=
  if c.currentSize + size > c.maxSizeBytes then
    c.evictLru (c.currentSize + size - c.maxSizeBytes)
  else c

/-- The file writes of `put`; an empty brotli variant is not written. -/
def writeFiles [Blob β] (c : CacheLayer β) (key : String) (bytes : β) (bodyBr : Option β) :
    CacheLayer β :=
  { c with
    files := c.files.insert key bytes
    brFiles :=
      match bodyBr with
      | some br => if Blob.size br = 0 then c.brFiles else c.brFiles.insert key br
      | none => c.brFiles }

/-- Whether `put` records a brotli variant. -/
def hasVariant [Blob β] (bodyBr : Option β) : Bool :=
  match bodyBr with
  | some br => Blob.size br != 0
  | none => false

/-- `chrono::Duration::from_std(d).unwrap_or_default()` for whole seconds: a span that is too
long for the type becomes zero. -/
def chronoSecs (secs : ℕ) : ℕ := if secs ≤ 9223372036854775 then secs else 0

/-- The conversion never lengthens a span. -/
lemma chronoSecs_le (secs : ℕ) : chronoSecs secs ≤ secs := by
  unfold chronoSecs
  split
  · exact le_rfl
  · exact Nat.zero_le secs

/-- The entry `put` registers. -/
def newEntry [Blob β] (now : Time) (url domain : String) (contentType : Option String)
    (bytes : β) (ttl : Option ℕ) (bodyBr : Option β) (cachedHeaders : HeaderMap) : CacheEntry :=
  { url := url
    domain := domain
    contentType := contentType
    sizeBytes := blobSize bytes
    hitCount := 0
    createdAt := now
    accessedAt := now
    expiresAt := ttl.map fun secs => now + chronoSecs secs * second
    hasBr := hasVariant bodyBr
    cachedHeaders := cachedHeaders }

/-- `put`; the time to live is in seconds. -/
def put [Blob β] (c : CacheLayer β) (now : Time) (key url domain : String)
    (contentType : Option String) (bytes : β) (ttl : Option ℕ) (bodyBr : Option β)
    (cachedHeaders : HeaderMap) : CacheLayer β :=
  if blobSize bytes > c.maxSizeBytes then c
  else
    ((c.reserve (blobSize bytes)).writeFiles key bytes bodyBr).register key
      (newEntry now url domain contentType bytes ttl bodyBr cachedHeaders)

/-- The keys of the entries satisfying `p`. -/
def keysWhere (c : CacheLayer β) (p : CacheEntry → Bool) : List String :=
  (c.index.entries.filter fun s => p s.2).map (·.1)

/-- The sum of the recorded sizes of some keys. -/
def sizeOfKeys (c : CacheLayer β) (keys : List String) : UInt64 :=
  (keys.filterMap fun k => (c.index.lookup k).map CacheEntry.sizeBytes).sum

/-- The removal that the purges share: number of entries, freed bytes, and the layer left. -/
def purgeWhere (c : CacheLayer β) (p : CacheEntry → Bool) : ℕ × UInt64 × CacheLayer β :=
  ((c.keysWhere p).length, c.sizeOfKeys (c.keysWhere p), c.removeKeys (c.keysWhere p))

/-- `purge_by_url`: the recorded URL has to be the same string. -/
def purgeByUrl (c : CacheLayer β) (url : String) : ℕ × UInt64 × CacheLayer β :=
  c.purgeWhere fun e => e.url == url

/-- `purge_domain`: the recorded domain has to be the same string. -/
def purgeDomain (c : CacheLayer β) (domain : String) : ℕ × UInt64 × CacheLayer β :=
  c.purgeWhere fun e => e.domain == domain

/-- `purge_all`: the counter is set to zero, whatever it was. -/
def purgeAll (c : CacheLayer β) : ℕ × UInt64 × CacheLayer β :=
  let keys := c.keysWhere fun _ => true
  (keys.length, c.sizeOfKeys keys,
    keys.foldl deleteFiles { c with index := ∅, currentSize := 0 })

end CacheLayer

/-! ## The abstract content -/

/-- What the layer holds for a key, as a lookup reports it. -/
structure Stored (β : Type) where
  body : β
  contentType : Option String
  bodyBr : Option β
  cachedHeaders : HeaderMap
  createdAt : Time
  expiresAt : Option Time
  url : String
  domain : String
  deriving DecidableEq

namespace Stored

variable {β : Type}

/-- Expiry of a stored copy. -/
def isExpired (x : Stored β) (now : Time) : Bool :=
  match x.expiresAt with
  | some exp => exp < now
  | none => false

/-- The answer of a lookup that finds the copy. -/
def toLookup (x : Stored β) (now : Time) : Lookup β :=
  { body := x.body
    contentType := x.contentType
    bodyBr := x.bodyBr
    cachedHeaders := x.cachedHeaders
    isStale := x.isExpired now
    expiresAt := (x.expiresAt.map timestamp).getD 0 }

end Stored

namespace CacheLayer

variable {β : Type}

/-- The content of an index entry together with its body file. -/
def combine (e : CacheEntry) (body : β) (brFile : Option β) : Stored β :=
  { body := body
    contentType := e.contentType
    bodyBr := if e.hasBr then brFile else none
    cachedHeaders := e.cachedHeaders
    createdAt := e.createdAt
    expiresAt := e.expiresAt
    url := e.url
    domain := e.domain }

/-- The content of the layer under a key: there has to be an index entry and a body file. -/
def stored (c : CacheLayer β) (key : String) : Option (Stored β) :=
  (c.index.lookup key).bind fun e =>
    (c.files.lookup key).map fun body => combine e body (c.brFiles.lookup key)

/-- The content under a key is determined by the three lookups. -/
lemma stored_congr {c d : CacheLayer β} {key : String}
    (hi : c.index.lookup key = d.index.lookup key) (hf : c.files.lookup key = d.files.lookup key)
    (hb : c.brFiles.lookup key = d.brFiles.lookup key) : c.stored key = d.stored key := by
  unfold stored
  rw [hi, hf, hb]

/-- Without an index entry there is no content. -/
lemma stored_eq_none_of_index {c : CacheLayer β} {key : String}
    (h : c.index.lookup key = none) : c.stored key = none := by
  unfold stored
  rw [h, Option.bind_none]

/-- A new layer is empty. -/
@[simp] lemma stored_new (m : UInt64) (key : String) : (new m : CacheLayer β).stored key = none :=
  stored_eq_none_of_index (AList.lookup_empty key)

/-! ### Removal -/

/-- Dropping an entry removes its key from the index and no other. -/
lemma index_dropEntry (c : CacheLayer β) (key k : String) :
    (c.dropEntry key).index.lookup k = if k = key then none else c.index.lookup k := by
  unfold dropEntry
  by_cases hk : k = key
  · subst hk
    rw [if_pos rfl]
    cases h : c.index.lookup k with
    | some e => exact AList.lookup_erase k c.index
    | none => exact h
  · rw [if_neg hk]
    cases h : c.index.lookup key with
    | some e => exact AList.lookup_erase_ne hk
    | none => rfl

/-- Dropping an entry leaves the files alone. -/
lemma files_dropEntry (c : CacheLayer β) (key : String) :
    (c.dropEntry key).files = c.files ∧ (c.dropEntry key).brFiles = c.brFiles := by
  unfold dropEntry
  split <;> exact ⟨rfl, rfl⟩

/-- Dropping entries removes exactly their keys from the index and leaves the files alone. -/
lemma dropEntries_spec (keys : List String) (c : CacheLayer β) :
    (∀ k, (keys.foldl dropEntry c).index.lookup k =
      if k ∈ keys then none else c.index.lookup k) ∧
    (keys.foldl dropEntry c).files = c.files ∧ (keys.foldl dropEntry c).brFiles = c.brFiles := by
  induction keys generalizing c with
  | nil => simp
  | cons key keys ih =>
    obtain ⟨hindex, hfiles, hbr⟩ := ih (c.dropEntry key)
    rw [List.foldl_cons]
    refine ⟨fun k => ?_, hfiles.trans (files_dropEntry c key).1, hbr.trans (files_dropEntry c key).2⟩
    rw [hindex, index_dropEntry]
    by_cases hk : k ∈ keys
    · simp [hk]
    · by_cases hkey : k = key <;> simp [hk, hkey]

/-- Deleting files removes exactly the files of the keys and leaves the index alone. -/
lemma deleteFiles_spec (keys : List String) (c : CacheLayer β) :
    (keys.foldl deleteFiles c).index = c.index ∧
    (∀ k, k ∉ keys → (keys.foldl deleteFiles c).files.lookup k = c.files.lookup k ∧
      (keys.foldl deleteFiles c).brFiles.lookup k = c.brFiles.lookup k) := by
  induction keys generalizing c with
  | nil => simp
  | cons key keys ih =>
    obtain ⟨hindex, hfiles⟩ := ih (c.deleteFiles key)
    rw [List.foldl_cons]
    refine ⟨hindex, fun k hk => ?_⟩
    rw [List.mem_cons, not_or] at hk
    obtain ⟨hf, hb⟩ := hfiles k hk.2
    exact ⟨hf.trans (AList.lookup_erase_ne hk.1), hb.trans (AList.lookup_erase_ne hk.1)⟩

/-- Removing keys removes exactly their content. -/
theorem stored_removeKeys (c : CacheLayer β) (keys : List String) (k : String) :
    (c.removeKeys keys).stored k = if k ∈ keys then none else c.stored k := by
  obtain ⟨hindex, hfiles, hbr⟩ := dropEntries_spec keys c
  obtain ⟨hindex', hfiles'⟩ := deleteFiles_spec keys (keys.foldl dropEntry c)
  unfold removeKeys
  by_cases hk : k ∈ keys
  · rw [if_pos hk]
    refine stored_eq_none_of_index ?_
    rw [hindex', hindex k, if_pos hk]
  · rw [if_neg hk]
    refine stored_congr ?_ ((hfiles' k hk).1.trans ?_) ((hfiles' k hk).2.trans ?_)
    · rw [hindex', hindex k, if_neg hk]
    · rw [hfiles]
    · rw [hbr]

/-- The keys of the entries satisfying `p` are those whose entry satisfies it. -/
lemma mem_keysWhere {c : CacheLayer β} {p : CacheEntry → Bool} {k : String} :
    k ∈ c.keysWhere p ↔ ∃ e, c.index.lookup k = some e ∧ p e = true := by
  unfold keysWhere
  simp only [List.mem_map, List.mem_filter]
  constructor
  · rintro ⟨⟨k', e⟩, ⟨hmem, hp⟩, rfl⟩
    exact ⟨e, AList.mem_lookup_iff.mpr hmem, hp⟩
  · rintro ⟨e, hlook, hp⟩
    exact ⟨⟨k, e⟩, ⟨AList.mem_lookup_iff.mp hlook, hp⟩, rfl⟩

/-- A purge by a condition on the recorded URL and domain removes exactly the content that
satisfies it. -/
theorem stored_purgeWhere (c : CacheLayer β) (p : CacheEntry → Bool) (q : Stored β → Bool)
    (hpq : ∀ e body br, q (combine e body br) = p e) (k : String) :
    (c.purgeWhere p).2.2.stored k = (c.stored k).filter fun x => !q x := by
  change (c.removeKeys (c.keysWhere p)).stored k = _
  rw [stored_removeKeys]
  cases hi : c.index.lookup k with
  | none => simp [stored_eq_none_of_index hi]
  | some e =>
    by_cases hp : p e = true
    · rw [if_pos (mem_keysWhere.mpr ⟨e, hi, hp⟩)]
      cases hf : c.files.lookup k with
      | none => simp [stored, hi, hf]
      | some body => simp [stored, hi, hf, Option.filter, hpq, hp]
    · rw [if_neg fun hmem => ?_]
      · cases hf : c.files.lookup k with
        | none => simp [stored, hi, hf]
        | some body => simp [stored, hi, hf, Option.filter, hpq, hp]
      · obtain ⟨e', he', hp'⟩ := mem_keysWhere.mp hmem
        obtain rfl : e = e' := by simpa [hi] using he'
        exact hp hp'

/-- `purge_by_url` removes exactly the content recorded under the URL. -/
theorem stored_purgeByUrl (c : CacheLayer β) (url k : String) :
    (c.purgeByUrl url).2.2.stored k = (c.stored k).filter fun x => !(x.url == url) :=
  stored_purgeWhere c _ (fun x => x.url == url) (fun _ _ _ => rfl) k

/-- `purge_domain` removes exactly the content recorded under the domain. -/
theorem stored_purgeDomain (c : CacheLayer β) (domain k : String) :
    (c.purgeDomain domain).2.2.stored k = (c.stored k).filter fun x => !(x.domain == domain) :=
  stored_purgeWhere c _ (fun x => x.domain == domain) (fun _ _ _ => rfl) k

/-- `purge_all` removes everything. -/
theorem stored_purgeAll (c : CacheLayer β) (k : String) : c.purgeAll.2.2.stored k = none := by
  refine stored_eq_none_of_index ?_
  unfold purgeAll
  rw [(deleteFiles_spec _ _).1]
  exact AList.lookup_empty k

/-- Eviction only removes content. -/
theorem stored_evictLru (c : CacheLayer β) (needed : UInt64) (k : String) :
    (c.evictLru needed).stored k = none ∨ (c.evictLru needed).stored k = c.stored k := by
  unfold evictLru
  rw [stored_removeKeys]
  split
  · exact Or.inl rfl
  · exact Or.inr rfl

/-! ### Lookup -/

/-- The statistics update leaves the files alone. -/
lemma files_touch (c : CacheLayer β) (now : Time) (key : String) (e : CacheEntry) :
    (c.touch now key e).files = c.files ∧ (c.touch now key e).brFiles = c.brFiles := by
  unfold touch
  split <;> exact ⟨rfl, rfl⟩

/-- The statistics update leaves the content alone. -/
lemma stored_touch {c : CacheLayer β} {key : String} {e : CacheEntry}
    (he : c.index.lookup key = some e) (now : Time) (k : String) :
    (c.touch now key e).stored k = c.stored k := by
  unfold touch
  split
  · rfl
  by_cases hk : k = key
  · subst hk
    have hlook : (c.index.insert k { e with hitCount := e.hitCount + 1, accessedAt := now }).lookup k =
        some { e with hitCount := e.hitCount + 1, accessedAt := now } := AList.lookup_insert _
    simp only [stored, hlook, he]
    rfl
  · exact stored_congr (AList.lookup_insert_ne hk) rfl rfl

/-- Dropping an index entry without a body file changes no content. -/
lemma stored_dropEntry_of_missing {c : CacheLayer β} {key : String}
    (hf : c.files.lookup key = none) (k : String) : (c.dropEntry key).stored k = c.stored k := by
  obtain ⟨hfiles, hbr⟩ := files_dropEntry c key
  by_cases hk : k = key
  · subst hk
    have hnone : c.stored k = none := by simp [stored, hf]
    rw [hnone]
    exact stored_eq_none_of_index (by rw [index_dropEntry, if_pos rfl])
  · exact stored_congr (by rw [index_dropEntry, if_neg hk]) (by rw [hfiles]) (by rw [hbr])

/-- Reading the files changes no content. -/
lemma stored_readFiles (c : CacheLayer β) (now : Time) (key : String) (e : CacheEntry) (k : String) :
    (c.readFiles now key e).2.stored k = c.stored k := by
  unfold readFiles
  cases hf : c.files.lookup key with
  | some body => rfl
  | none => exact stored_dropEntry_of_missing hf k

/-- The content under a key with an entry is that entry with its files. -/
lemma stored_of_index {c : CacheLayer β} {key : String} {e : CacheEntry}
    (he : c.index.lookup key = some e) :
    c.stored key = (c.files.lookup key).map fun body => combine e body (c.brFiles.lookup key) := by
  rw [stored, he, Option.bind_some]

/-- A lookup answers from the content: nothing for a missing key, nothing for an expired copy
unless stale copies are allowed. -/
theorem getWithStale_fst (c : CacheLayer β) (now : Time) (key : String) (allowStale : Bool) :
    (c.getWithStale now key allowStale).1 =
      ((c.stored key).filter fun x => !(x.isExpired now && !allowStale)).map
        fun x => x.toLookup now := by
  unfold getWithStale
  cases hi : c.index.lookup key with
  | none => simp [stored_eq_none_of_index hi]
  | some e =>
    rw [stored_of_index hi]
    have hexp : ∀ (body : β) br, (combine e body br).isExpired now = e.isExpired now :=
      fun _ _ => rfl
    simp only
    split
    · rename_i hstale
      cases hf : c.files.lookup key <;> simp [hexp, hstale, Option.filter]
    · rename_i hstale
      unfold readFiles
      rw [(files_touch c now key e).1, (files_touch c now key e).2]
      cases hf : c.files.lookup key with
      | none => rfl
      | some body =>
        have hkeep : (e.isExpired now && !allowStale) = false := by simpa only [Bool.not_eq_true] using hstale
        simp only [Option.map_some, Option.filter, hexp, hkeep, Bool.not_false, if_true]
        rfl

/-- A lookup leaves the content alone, except that an ordinary lookup of an expired copy
removes that copy. -/
theorem stored_getWithStale (c : CacheLayer β) (now : Time) (key : String) (allowStale : Bool)
    (k : String) :
    (c.getWithStale now key allowStale).2.stored k =
      (c.stored k).filter fun x => !(k == key && x.isExpired now && !allowStale) := by
  have hother : k ≠ key →
      (c.stored k).filter (fun x => !(k == key && x.isExpired now && !allowStale)) = c.stored k := by
    intro hk
    cases c.stored k <;> simp [Option.filter, hk]
  unfold getWithStale
  cases hi : c.index.lookup key with
  | none =>
    by_cases hk : k = key
    · subst hk
      simp [stored_eq_none_of_index hi]
    · exact (hother hk).symm
  | some e =>
    have hexp : ∀ (body : β) br, (combine e body br).isExpired now = e.isExpired now :=
      fun _ _ => rfl
    simp only
    split
    · rename_i hstale
      rw [stored_removeKeys]
      by_cases hk : k = key
      · subst hk
        rw [stored_of_index hi, if_pos List.mem_cons_self]
        cases hf : c.files.lookup k with
        | none => rfl
        | some body => simp [hexp, hstale, Option.filter]
      · rw [hother hk, if_neg (by simpa using hk)]
    · rename_i hstale
      rw [stored_readFiles, stored_touch hi]
      by_cases hk : k = key
      · subst hk
        rw [stored_of_index hi]
        cases hf : c.files.lookup k with
        | none => rfl
        | some body => simp [hexp, hstale, Option.filter]
      · exact (hother hk).symm

/-! ### Saving -/

/-- The content that a `put` saves. -/
def newStored [Blob β] (now : Time) (url domain : String) (contentType : Option String)
    (bytes : β) (ttl : Option ℕ) (bodyBr : Option β) (cachedHeaders : HeaderMap) : Stored β :=
  { body := bytes
    contentType := contentType
    bodyBr := bodyBr.filter fun br => Blob.size br != 0
    cachedHeaders := cachedHeaders
    createdAt := now
    expiresAt := ttl.map fun secs => now + chronoSecs secs * second
    url := url
    domain := domain }

/-- Making room only removes content. -/
lemma stored_reserve (c : CacheLayer β) (size : UInt64) (k : String) :
    (c.reserve size).stored k = none ∨ (c.reserve size).stored k = c.stored k := by
  unfold reserve
  split
  · exact stored_evictLru _ _ k
  · exact Or.inr rfl

/-- A registration within the capacity makes the files just written the content of the key. -/
lemma stored_register [Blob β] (c : CacheLayer β) (now : Time) (key url domain : String)
    (contentType : Option String) (bytes : β) (ttl : Option ℕ) (bodyBr : Option β)
    (cachedHeaders : HeaderMap)
    (hfits : ¬ c.currentSize + c.netIncrease key (blobSize bytes) > c.maxSizeBytes) :
    ((c.writeFiles key bytes bodyBr).register key
        (newEntry now url domain contentType bytes ttl bodyBr cachedHeaders)).stored key =
      some (newStored now url domain contentType bytes ttl bodyBr cachedHeaders) := by
  set e := newEntry now url domain contentType bytes ttl bodyBr cachedHeaders with he
  have hregister : (c.writeFiles key bytes bodyBr).register key e =
      { c.writeFiles key bytes bodyBr with
        index := c.index.insert key e
        currentSize := c.currentSize - c.recordedSize key + e.sizeBytes } := if_neg hfits
  have hi : (c.index.insert key e).lookup key = some e := AList.lookup_insert _
  have hf : (c.writeFiles key bytes bodyBr).files.lookup key = some bytes := AList.lookup_insert _
  have hb : (if e.hasBr then (c.writeFiles key bytes bodyBr).brFiles.lookup key else none) =
      bodyBr.filter fun br => Blob.size br != 0 := by
    cases bodyBr with
    | none => simp [he, newEntry, hasVariant]
    | some br =>
      by_cases hz : Blob.size br = 0
      · simp [he, newEntry, hasVariant, hz, Option.filter]
      · simp [he, newEntry, hasVariant, hz, Option.filter, writeFiles]
  rw [hregister]
  simp only [stored, hi, hf, Option.bind_some, Option.map_some, combine, hb]
  rfl

/-- Writing the files and registering the entry of a key leaves every other key alone. -/
lemma register_writeFiles_of_ne [Blob β] (c : CacheLayer β) {key k : String} (entry : CacheEntry)
    (bytes : β) (bodyBr : Option β) (hk : k ≠ key) :
    ((c.writeFiles key bytes bodyBr).register key entry).index.lookup k = c.index.lookup k ∧
      ((c.writeFiles key bytes bodyBr).register key entry).stored k = c.stored k := by
  have hwrite : (c.writeFiles key bytes bodyBr).files.lookup k = c.files.lookup k :=
    AList.lookup_insert_ne hk
  have hwriteBr : (c.writeFiles key bytes bodyBr).brFiles.lookup k = c.brFiles.lookup k := by
    unfold writeFiles
    cases bodyBr with
    | none => rfl
    | some br =>
      simp only
      split
      · rfl
      · exact AList.lookup_insert_ne hk
  have hindex : ((c.writeFiles key bytes bodyBr).index.insert key entry).lookup k = c.index.lookup k :=
    AList.lookup_insert_ne hk
  unfold register
  split
  · exact ⟨rfl, stored_congr rfl ((AList.lookup_erase_ne hk).trans hwrite) hwriteBr⟩
  · exact ⟨hindex, stored_congr hindex hwrite hwriteBr⟩

/-- After a `put` a key holds nothing, or what it held before, or is the saved key and holds
exactly what was saved. -/
theorem stored_put [Blob β] (c : CacheLayer β) (now : Time) (key url domain : String)
    (contentType : Option String) (bytes : β) (ttl : Option ℕ) (bodyBr : Option β)
    (cachedHeaders : HeaderMap) (k : String) :
    let c' := c.put now key url domain contentType bytes ttl bodyBr cachedHeaders
    c'.stored k = none ∨ c'.stored k = c.stored k ∨
      (k = key ∧ c'.stored k =
        some (newStored now url domain contentType bytes ttl bodyBr cachedHeaders)) := by
  intro c'
  have hc' : c' = c.put now key url domain contentType bytes ttl bodyBr cachedHeaders := rfl
  unfold put at hc'
  split at hc'
  · exact Or.inr (Or.inl (by rw [hc']))
  · set r := c.reserve (blobSize bytes) with hr
    set e := newEntry now url domain contentType bytes ttl bodyBr cachedHeaders with he
    by_cases hk : k = key
    · subst hk
      unfold register at hc'
      split at hc'
      · -- rolled back: the body file is gone
        refine Or.inl ?_
        rw [hc']
        have hf : ((r.writeFiles k bytes bodyBr).files.erase k).lookup k = none :=
          AList.lookup_erase k _
        simp [stored, hf]
      · rename_i hfits
        refine Or.inr (Or.inr ⟨rfl, ?_⟩)
        have hstored := stored_register r now k url domain contentType bytes ttl bodyBr
          cachedHeaders hfits
        rw [register, if_neg hfits] at hstored
        rw [hc']
        exact hstored
    · have hregister : c'.stored k = r.stored k := by
        rw [hc']
        exact (register_writeFiles_of_ne r e bytes bodyBr hk).2
      rw [hregister]
      rcases stored_reserve c (blobSize bytes) k with h | h
      · exact Or.inl h
      · exact Or.inr (Or.inl h)

/-- A `put` for which the capacity is free stores what it is given. -/
theorem stored_put_of_free [Blob β] (c : CacheLayer β) (now : Time) (key url domain : String)
    (contentType : Option String) (bytes : β) (ttl : Option ℕ) (bodyBr : Option β)
    (cachedHeaders : HeaderMap)
    (hfree : c.currentSize.toNat + Blob.size bytes ≤ c.maxSizeBytes.toNat) :
    (c.put now key url domain contentType bytes ttl bodyBr cachedHeaders).stored key =
      some (newStored now url domain contentType bytes ttl bodyBr cachedHeaders) := by
  have hmax := c.maxSizeBytes.toNat_lt
  have hsize : (blobSize bytes).toNat = Blob.size bytes := by
    rw [blobSize, UInt64.toNat_ofNat']
    omega
  have hsmall : ¬ blobSize bytes > c.maxSizeBytes := by
    rw [gt_iff_lt, UInt64.lt_iff_toNat_lt]
    omega
  have hroom : ¬ c.currentSize + blobSize bytes > c.maxSizeBytes := by
    rw [gt_iff_lt, UInt64.lt_iff_toNat_lt, UInt64.toNat_add]
    omega
  have hnet : (c.netIncrease key (blobSize bytes)).toNat ≤ Blob.size bytes := by
    unfold netIncrease
    split
    · rename_i hge
      rw [UInt64.toNat_sub_of_le _ _ hge]
      omega
    · exact Nat.zero_le _
  have hfits : ¬ c.currentSize + c.netIncrease key (blobSize bytes) > c.maxSizeBytes := by
    rw [gt_iff_lt, UInt64.lt_iff_toNat_lt, UInt64.toNat_add]
    omega
  rw [put, if_neg hsmall, reserve, if_neg hroom]
  exact stored_register c now key url domain contentType bytes ttl bodyBr cachedHeaders hfits

end CacheLayer

end SmartSchoolCdn
