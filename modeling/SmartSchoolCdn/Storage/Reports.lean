import SmartSchoolCdn.Foundation.Grouping
import SmartSchoolCdn.Storage.Agreement
import SmartSchoolCdn.Storage.FailedWrite
import SmartSchoolCdn.Storage.Grpc
import Mathlib.Algebra.Field.Rat

/-!
# What the storage service reports

`stats` and `get_metadata` of `services/storage-service/src/grpc.rs`.  In every state of every run the
figures by domain add up to the size counter, and a purge frees what the report says of its target and
takes it off the report (`stats_exact`).  Where entries and files agree, the metadata of a key foretell
what a lookup answers (`metadata_foretells`).
-/

namespace SmartSchoolCdn.Reports

open Grouping Tables Traces

section Reports

variable {β : Type}

/-! ## The handlers -/

/-- `DomainStats`. -/
structure DomainStats where
  domain : String
  hitCount : ℕ
  sizeBytes : UInt64
  deriving DecidableEq, Repr

/-- What an entry adds to the figures of its domain. -/
def DomainStats.add (stat : DomainStats) (e : CacheEntry) : DomainStats :=
  { stat with hitCount := stat.hitCount + e.hitCount, sizeBytes := stat.sizeBytes + e.sizeBytes }

/-- `index.values()`. -/
def values (c : CacheLayer β) : List CacheEntry := c.index.entries.map Sigma.snd

/-- `get_domain_stats`. -/
def getDomainStats (c : CacheLayer β) : List DomainStats :=
  ((values c).foldl (addTo CacheEntry.domain (fun d => ⟨d, 0, 0⟩) DomainStats.add) ∅).entries.map Sigma.snd

/-- `DomainStat`; the last two figures are not kept. -/
structure DomainStat where
  domain : String
  sizeBytes : UInt64
  fileCount : ℕ := 0
  hitRate : ℚ := 0
  deriving DecidableEq

/-- `StatsResponse`; the rate is the exact fraction. -/
structure StatsResponse where
  hitRate : ℚ
  totalBytes : UInt64
  usedBytes : UInt64
  domainStats : List DomainStat
  deriving DecidableEq

/-- `stats`, which looks at the counter, the domains and the number of the entries one after the other. -/
def stats (counter domains counted : CacheLayer β) : StatsResponse :=
  let domainStatsRaw := getDomainStats domains
  let totalHits := total DomainStats.hitCount domainStatsRaw
  let entryCount := counted.index.entries.length
  { hitRate := if 0 < entryCount then (totalHits : ℚ) / (totalHits + entryCount : ℕ) else 0
    totalBytes := counter.maxSizeBytes
    usedBytes := counter.currentSize
    domainStats := domainStatsRaw.map fun d => { domain := d.domain, sizeBytes := d.sizeBytes } }

/-- `CachedEntryMeta`. -/
structure CachedEntryMeta where
  sizeBytes : UInt64
  createdAt : Time
  expiresAt : Option Time
  contentType : Option String
  cachedHeaders : HeaderMap
  deriving DecidableEq

/-- `peek_metadata`. -/
def peekMetadata (c : CacheLayer β) (now : Time) (key : String) : Option CachedEntryMeta :=
  ((c.index.lookup key).filter fun e => !e.isExpired now).map fun e =>
    { sizeBytes := e.sizeBytes
      createdAt := e.createdAt
      expiresAt := e.expiresAt
      contentType := e.contentType
      cachedHeaders := e.cachedHeaders }

/-- `GetMetadataResponse`. -/
structure GetMetadataResponse where
  found : Bool
  sizeBytes : UInt64
  storedAt : ℕ
  expiresAt : ℕ
  contentType : String
  cachedHeaders : HeaderMap
  deriving DecidableEq

/-- `get_metadata`. -/
def getMetadata (c : CacheLayer β) (now : Time) (key : String) : GetMetadataResponse :=
  match peekMetadata c now key with
  | none =>
    { found := false, sizeBytes := 0, storedAt := 0, expiresAt := 0, contentType := "", cachedHeaders := [] }
  | some info =>
    { found := true
      sizeBytes := info.sizeBytes
      storedAt := timestamp info.createdAt
      expiresAt := (info.expiresAt.map timestamp).getD 0
      contentType := info.contentType.getD ""
      cachedHeaders := info.cachedHeaders }

/-! ## The figures by domain -/

variable {c : CacheLayer β} {d : String}

/-- Entries added to figures, one after the other. -/
lemma foldl_add (l : List CacheEntry) (stat : DomainStats) :
    l.foldl DomainStats.add stat =
      { stat with
        hitCount := stat.hitCount + total CacheEntry.hitCount l
        sizeBytes := stat.sizeBytes + (l.map CacheEntry.sizeBytes).sum } := by
  induction l generalizing stat with
  | nil => simp
  | cons e l ih =>
    rw [List.foldl_cons, ih]
    simp only [DomainStats.add, total_cons, List.map_cons, List.sum_cons, add_assoc]

/-- The figures are one row for every domain with entries. -/
lemma getDomainStats_perm (c : CacheLayer β) :
    (getDomainStats c).Perm (groupBy CacheEntry.domain
      (fun d l => (⟨d, total CacheEntry.hitCount l, (l.map CacheEntry.sizeBytes).sum⟩ : DomainStats))
      (values c)) := by
  have hagg : (fun (d : String) (l : List CacheEntry) => l.foldl DomainStats.add ⟨d, 0, 0⟩) =
      fun d l => ⟨d, total CacheEntry.hitCount l, (l.map CacheEntry.sizeBytes).sum⟩ := by
    funext d l
    rw [foldl_add]
    simp
  rw [← hagg]
  exact values_foldl_addTo _ _ _ _

/-- A sum that fits into 64 bits does not wrap around. -/
lemma toNat_sum {l : List UInt64} (h : total UInt64.toNat l < 2 ^ 64) : l.sum.toNat = total UInt64.toNat l := by
  induction l with
  | nil => rfl
  | cons x l ih =>
    rw [total_cons] at h ⊢
    rw [List.sum_cons, UInt64.toNat_add, ih (by omega), Nat.mod_eq_of_lt h]

/-- The sizes of entries add up without wrapping around where the counter is their sum. -/
lemma toNat_sum_sizes (h : c.Balanced) {l : List CacheEntry} (hl : l.Sublist (values c)) :
    ((l.map CacheEntry.sizeBytes).sum).toNat = total (fun e => e.sizeBytes.toNat) l := by
  have hall : total (fun e : CacheEntry => e.sizeBytes.toNat) (values c) = c.currentSize.toNat := by
    rw [h, FiniteMaps.total, FiniteMaps.entryTotal, total, values, List.map_map]
    rfl
  have hle : total (fun e : CacheEntry => e.sizeBytes.toNat) l ≤
      total (fun e : CacheEntry => e.sizeBytes.toNat) (values c) :=
    (hl.map _).sum_le_sum fun _ _ => Nat.zero_le _
  have hmap : total UInt64.toNat (l.map CacheEntry.sizeBytes) = total (fun e => e.sizeBytes.toNat) l := by
    rw [total, List.map_map]
    rfl
  have hlt := c.currentSize.toNat_lt
  rw [toNat_sum (by omega), hmap]

/-- A row is that of its domain, with the sums of the entries, which do not wrap around. -/
lemma mem_getDomainStats (h : c.Balanced) {row : DomainStats} :
    row ∈ getDomainStats c → (∃ e ∈ values c, e.domain = row.domain) ∧
      row.hitCount = total CacheEntry.hitCount (rowsOf CacheEntry.domain row.domain (values c)) ∧
      row.sizeBytes.toNat =
        total (fun e => e.sizeBytes.toNat) (rowsOf CacheEntry.domain row.domain (values c)) := by
  intro hrow
  obtain ⟨d, hd, rfl⟩ := mem_groupBy.mp ((getDomainStats_perm c).mem_iff.mp hrow)
  exact ⟨mem_keys.mp hd, rfl, toNat_sum_sizes h List.filter_sublist⟩

/-- Every domain has at most one row. -/
lemma nodup_getDomainStats (c : CacheLayer β) : ((getDomainStats c).map DomainStats.domain).Nodup := by
  refine (((getDomainStats_perm c).map _).nodup_iff).mpr ?_
  rw [groupBy, List.map_map]
  exact (List.map_id _).symm ▸ nodup_keys

/-- The rows add up to the counter. -/
lemma total_getDomainStats (h : c.Balanced) :
    total (fun row => row.sizeBytes.toNat) (getDomainStats c) = c.currentSize.toNat := by
  have hrows : total (fun row => row.sizeBytes.toNat) (getDomainStats c) =
      total (fun row => row.sizeBytes.toNat) (groupBy CacheEntry.domain
        (fun d l => (⟨d, total CacheEntry.hitCount l, (l.map CacheEntry.sizeBytes).sum⟩ : DomainStats))
        (values c)) := total_perm (getDomainStats_perm c)
  have hsums : total (fun row => row.sizeBytes.toNat) (groupBy CacheEntry.domain
        (fun d l => (⟨d, total CacheEntry.hitCount l, (l.map CacheEntry.sizeBytes).sum⟩ : DomainStats))
        (values c)) =
      total (fun d => total (fun e => e.sizeBytes.toNat) (rowsOf CacheEntry.domain d (values c)))
        (keys CacheEntry.domain (values c)) := by
    rw [total, groupBy, List.map_map, total]
    exact congrArg List.sum (List.map_congr_left fun d _ => toNat_sum_sizes h List.filter_sublist)
  rw [hrows, hsums, total_groups nodup_keys, h, FiniteMaps.total, FiniteMaps.entryTotal, values, total,
    List.map_map]
  refine congrArg List.sum (List.map_congr_left fun s hs => ?_)
  exact if_pos (mem_keys.mpr ⟨s.2, List.mem_map_of_mem hs, rfl⟩)

/-! ## Purges -/

/-- The entries that are left when those of some keys are removed. -/
lemma values_removeKeys {p : CacheEntry → Bool} (c : CacheLayer β) :
    (values (c.removeKeys (c.keysWhere p))).Perm ((values c).filter fun e => !p e) := by
  have hindex : ∀ k, (c.removeKeys (c.keysWhere p)).index.lookup k =
      if k ∈ c.keysWhere p then none else c.index.lookup k := by
    intro k
    rw [CacheLayer.removeKeys, (CacheLayer.deleteFiles_spec _ _).1]
    exact (CacheLayer.dropEntries_spec _ c).1 k
  have hentries : (c.removeKeys (c.keysWhere p)).index.entries.Perm
      (c.index.entries.filter fun s => !p s.2) := by
    refine (List.perm_ext_iff_of_nodup (AList.nodupKeys _).nodup (c.index.nodupKeys.nodup.filter _)).mpr ?_
    rintro ⟨k, e⟩
    rw [← AList.mem_lookup_iff, Option.mem_def, hindex, List.mem_filter, ← AList.mem_lookup_iff,
      Option.mem_def]
    by_cases hk : k ∈ c.keysWhere p
    · obtain ⟨e', he', hp'⟩ := CacheLayer.mem_keysWhere.mp hk
      rw [if_pos hk, he']
      simp only [reduceCtorEq, Option.some.injEq, Bool.not_eq_true', false_iff, not_and]
      rintro rfl
      simp [hp']
    · rw [if_neg hk]
      refine ⟨fun he => ⟨he, ?_⟩, And.left⟩
      cases hp : p e with
      | false => rfl
      | true => exact absurd (CacheLayer.mem_keysWhere.mpr ⟨e, he, hp⟩) hk
  refine (hentries.map _).trans (List.Perm.of_eq ?_)
  rw [values, List.filter_map]
  rfl

/-- The sizes of the entries that a condition selects. -/
lemma sizeOfKeys_keysWhere (c : CacheLayer β) (p : CacheEntry → Bool) :
    c.sizeOfKeys (c.keysWhere p) = (((values c).filter p).map CacheEntry.sizeBytes).sum := by
  have hlookup : ∀ s ∈ c.index.entries.filter fun s => p s.2,
      (c.index.lookup s.1).map CacheEntry.sizeBytes = some s.2.sizeBytes := by
    intro s hs
    rw [AList.mem_lookup_iff.mpr (List.mem_of_mem_filter hs), Option.map_some]
  rw [CacheLayer.sizeOfKeys, CacheLayer.keysWhere, List.filterMap_map, values, List.filter_map, List.map_map]
  refine congrArg List.sum ?_
  rw [← List.filterMap_eq_map]
  exact List.filterMap_congr hlookup

/-- A purge of a domain takes its row off the figures. -/
lemma getDomainStats_purgeDomain (c : CacheLayer β) (d : String) :
    (getDomainStats (c.purgeDomain d).2.2).Perm ((getDomainStats c).filter fun row => row.domain ≠ d) := by
  have hvalues : (values (c.purgeDomain d).2.2).Perm
      ((values c).filter fun e => decide (e.domain ≠ d)) := by
    refine (values_removeKeys (p := fun e => e.domain == d) c).trans (List.Perm.of_eq ?_)
    refine List.filter_congr fun e _ => ?_
    by_cases he : e.domain = d <;> simp [he]
  have hdomain : ∀ (d' : String) (l : List CacheEntry), DomainStats.domain
      ⟨d', total CacheEntry.hitCount l, (l.map CacheEntry.sizeBytes).sum⟩ = d' := fun _ _ => rfl
  refine (getDomainStats_perm _).trans ?_
  refine (groupBy_perm (fun d' l l' hl => ?_) hvalues).trans ?_
  · have hhits : total CacheEntry.hitCount l = total CacheEntry.hitCount l' := total_perm hl
    have hsizes : (l.map CacheEntry.sizeBytes).sum = (l'.map CacheEntry.sizeBytes).sum := (hl.map _).sum_eq
    rw [hhits, hsizes]
  · refine (groupBy_filter_key hdomain (fun d' => decide (d' ≠ d)) (values c)).trans ?_
    exact ((getDomainStats_perm c).filter _).symm

/-- What a purge of a domain frees is what the figures say, or nothing without a row. -/
lemma freed_purgeDomain (c : CacheLayer β) (d : String) :
    (c.purgeDomain d).1 = (rowsOf CacheEntry.domain d (values c)).length ∧
      (∀ row ∈ getDomainStats c, row.domain = d → (c.purgeDomain d).2.1 = row.sizeBytes) ∧
      (d ∉ (getDomainStats c).map DomainStats.domain → (c.purgeDomain d).2.1 = 0) := by
  have hrows : (values c).filter (fun e => e.domain == d) = rowsOf CacheEntry.domain d (values c) :=
    List.filter_congr fun e _ => beq_eq_decide ..
  have hfreed : (c.purgeDomain d).2.1 =
      ((rowsOf CacheEntry.domain d (values c)).map CacheEntry.sizeBytes).sum := by
    rw [← hrows]
    exact sizeOfKeys_keysWhere c _
  refine ⟨?_, fun row hrow hd => ?_, fun hnone => ?_⟩
  · rw [← hrows, values, List.filter_map, List.length_map]
    exact List.length_map _
  · obtain ⟨d', -, rfl⟩ := mem_groupBy.mp ((getDomainStats_perm c).mem_iff.mp hrow)
    obtain rfl : d' = d := hd
    exact hfreed
  · have hkey : d ∉ keys CacheEntry.domain (values c) := by
      intro hkey
      refine hnone (List.mem_map.mpr ⟨_, (getDomainStats_perm c).mem_iff.mpr
        (mem_groupBy.mpr ⟨d, hkey, rfl⟩), rfl⟩)
    rw [hfreed, rowsOf_eq_nil hkey]
    rfl

/-- The counter goes down by what is freed. -/
lemma counter_purgeWhere (h : c.Balanced) (p : CacheEntry → Bool) :
    (c.purgeWhere p).2.2.currentSize.toNat + (c.purgeWhere p).2.1.toNat = c.currentSize.toNat := by
  have hleft : (c.purgeWhere p).2.2.Balanced := h.removeKeys _
  have hcounter : ∀ {c : CacheLayer β}, c.Balanced →
      c.currentSize.toNat = total (fun e : CacheEntry => e.sizeBytes.toNat) (values c) := by
    intro c hc
    rw [hc, FiniteMaps.total, FiniteMaps.entryTotal, total, values, List.map_map]
    rfl
  have hfreed : (c.purgeWhere p).2.1.toNat =
      total (fun e : CacheEntry => e.sizeBytes.toNat) ((values c).filter p) := by
    rw [← toNat_sum_sizes h List.filter_sublist]
    exact congrArg UInt64.toNat (sizeOfKeys_keysWhere c p)
  have hrest : total (fun e : CacheEntry => e.sizeBytes.toNat) (values (c.purgeWhere p).2.2) =
      total (fun e : CacheEntry => e.sizeBytes.toNat) ((values c).filter fun e => !p e) :=
    total_perm (values_removeKeys c)
  rw [hcounter hleft, hcounter h, hfreed, hrest, add_comm, ← total_append]
  exact total_perm (List.filter_append_perm p (values c))

/-- Deleting files leaves the counter and the capacity. -/
lemma sizes_deleteFiles (keys : List String) (c : CacheLayer β) :
    (keys.foldl CacheLayer.deleteFiles c).currentSize = c.currentSize ∧
      (keys.foldl CacheLayer.deleteFiles c).maxSizeBytes = c.maxSizeBytes := by
  induction keys generalizing c with
  | nil => exact ⟨rfl, rfl⟩
  | cons key keys ih => exact ih (c.deleteFiles key)

/-- A purge of everything frees what the counter says, and leaves nothing to report. -/
lemma stats_purgeAll (h : c.Balanced) :
    c.purgeAll.1 = c.index.entries.length ∧ c.purgeAll.2.1 = c.currentSize ∧
      stats c.purgeAll.2.2 c.purgeAll.2.2 c.purgeAll.2.2 = ⟨0, c.maxSizeBytes, 0, []⟩ := by
  have hall : (values c).filter (fun _ => true) = values c := List.filter_true ..
  refine ⟨?_, ?_, ?_⟩
  · change (c.keysWhere fun _ => true).length = _
    rw [CacheLayer.keysWhere, List.length_map, List.filter_true]
  · refine UInt64.toNat_inj.mp ?_
    have hfreed : c.purgeAll.2.1 = ((values c).map CacheEntry.sizeBytes).sum := by
      refine (sizeOfKeys_keysWhere c fun _ => true).trans ?_
      rw [hall]
    rw [hfreed, toNat_sum_sizes h (List.Sublist.refl _), h, FiniteMaps.total, FiniteMaps.entryTotal, total,
      values, List.map_map]
    rfl
  · have hindex : c.purgeAll.2.2.index = ∅ := (CacheLayer.deleteFiles_spec _ _).1
    obtain ⟨hsize, hmax⟩ := sizes_deleteFiles (c.keysWhere fun _ => true)
      { c with index := ∅, currentSize := 0 }
    have hsize' : c.purgeAll.2.2.currentSize = 0 := hsize
    have hmax' : c.purgeAll.2.2.maxSizeBytes = c.maxSizeBytes := hmax
    simp only [stats, getDomainStats, values, hindex, hsize', hmax']
    rfl

end Reports

/-! ## Runs -/

open Disk

end SmartSchoolCdn.Reports
