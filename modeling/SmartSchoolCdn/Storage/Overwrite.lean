import SmartSchoolCdn.Storage.Eviction

/-!
# Overwriting an entry

`put` replaces the entry of its key.  When it registers the new entry it counts the bytes of the
old one as free, but when it makes room before that it does not: it frees as many bytes as the new
body needs next to the old one, and the least recently used entries go first.

So a new body that fits in place of the old one costs no other entry exactly if it also fits next
to the old one, or if the old one is the entry that the eviction meets first (`overwrite_iff`).
-/

namespace SmartSchoolCdn

open FiniteMaps Traces

namespace CacheLayer

variable {β : Type} {c r : CacheLayer β} {key : String} {e : CacheEntry} {x : Stored β} {size : UInt64}

/-! ## The property -/

/-- The key holds the new content, and every other entry is still there with its content. -/
structure Overwrites (c r : CacheLayer β) (key : String) (x : Stored β) : Prop where
  saved : r.stored key = some x
  others : ∀ k, k ≠ key → r.index.lookup k = c.index.lookup k ∧ r.stored k = c.stored k

/-- The size counter is the sum of the recorded sizes, and at most the capacity. -/
structure InOrder (c : CacheLayer β) : Prop where
  sum : c.Balanced
  within : c.currentSize ≤ c.maxSizeBytes

/-- A body of some size fits in place of an entry. -/
def FitsInPlaceOf (c : CacheLayer β) (e : CacheEntry) (size : UInt64) : Prop :=
  c.currentSize.toNat - e.sizeBytes.toNat + size.toNat ≤ c.maxSizeBytes.toNat

/-- The entry that an eviction meets first is that of the key. -/
def MeetsFirst (c : CacheLayer β) (key : String) : Prop :=
  c.evictOrder.head?.map Prod.fst = some key

/-! ## Making room -/

/-- A body that fits in place of an entry is no larger than the capacity. -/
lemma FitsInPlaceOf.size_le (h : c.FitsInPlaceOf e size) : ¬ size > c.maxSizeBytes := by
  unfold FitsInPlaceOf at h
  rw [gt_iff_lt, UInt64.lt_iff_toNat_lt]
  omega

/-- What the eviction is asked for is at most the size of the old entry, without overflow. -/
lemma FitsInPlaceOf.needed_le (h : c.FitsInPlaceOf e size) (hc : c.InOrder)
    (hold : c.index.lookup key = some e) (hfull : c.currentSize + size > c.maxSizeBytes) :
    0 < c.currentSize + size - c.maxSizeBytes ∧
      c.currentSize + size - c.maxSizeBytes ≤ e.sizeBytes := by
  have hsmall := h.size_le
  have hrecorded := hc.sum.recordedSize_le key
  have hwithin := hc.within
  have hmax := c.maxSizeBytes.toNat_lt
  have hneeded := UInt64.toNat_sub_of_le _ _ (UInt64.le_of_lt hfull)
  unfold FitsInPlaceOf at h
  rw [recordedSize_of_some hold] at hrecorded
  rw [gt_iff_lt, UInt64.lt_iff_toNat_lt] at hsmall hfull
  rw [UInt64.le_iff_toNat_le] at hrecorded hwithin
  rw [UInt64.toNat_add] at hfull hneeded
  rw [UInt64.lt_iff_toNat_lt, UInt64.le_iff_toNat_le, hneeded, UInt64.toNat_zero]
  omega

/-- The first entry of the order is evicted when something is needed. -/
lemma mem_evictVictims_head {needed : UInt64} (hneeded : 0 < needed) (p : String × CacheEntry)
    (rest : List (String × CacheEntry)) : p.1 ∈ evictVictims needed 0 (p :: rest) := by
  rw [evictVictims, if_neg (UInt64.not_le.mpr hneeded)]
  exact List.mem_cons_self

/-- It is the only one when it is large enough. -/
lemma evictVictims_head {needed : UInt64} (hneeded : 0 < needed) {p : String × CacheEntry}
    (henough : needed ≤ p.2.sizeBytes) (rest : List (String × CacheEntry)) :
    evictVictims needed 0 (p :: rest) = [p.1] := by
  rw [evictVictims, if_neg (UInt64.not_le.mpr hneeded), UInt64.zero_add]
  cases rest with
  | nil => rfl
  | cons q rest => rw [evictVictims, if_pos henough]

/-- Removing keys removes exactly their entries. -/
lemma index_removeKeys (c : CacheLayer β) (keys : List String) (k : String) :
    (c.removeKeys keys).index.lookup k = if k ∈ keys then none else c.index.lookup k := by
  rw [removeKeys, (deleteFiles_spec keys _).1]
  exact (dropEntries_spec keys c).1 k

/-- An eviction of the entry that it meets first removes this entry only, if it is large enough. -/
lemma evictLru_of_meetsFirst {needed : UInt64} (hfirst : c.MeetsFirst key)
    (hold : c.index.lookup key = some e) (hneeded : 0 < needed) (henough : needed ≤ e.sizeBytes) :
    c.evictLru needed = c.removeKeys [key] := by
  obtain ⟨p, hhead, rfl⟩ := Option.map_eq_some_iff.mp hfirst
  obtain ⟨rest, horder⟩ := List.head?_eq_some_iff.mp hhead
  have hp : p.2 = e := by
    have hmem : p ∈ c.evictOrder := List.mem_of_head? hhead
    exact Option.some.inj ((lookup_of_mem_evictOrder hmem).symm.trans hold)
  rw [evictLru, horder, evictVictims_head hneeded (hp ▸ henough)]

/-- Otherwise it removes another entry. -/
lemma exists_evicted_of_not_meetsFirst {needed : UInt64} (hfirst : ¬ c.MeetsFirst key)
    (hold : c.index.lookup key = some e) (hneeded : 0 < needed) :
    ∃ k, k ≠ key ∧ (c.index.lookup k).isSome = true ∧ (c.evictLru needed).index.lookup k = none := by
  cases horder : c.evictOrder with
  | nil =>
    -- the order has the old entry at least
    have hmem : (⟨key, e⟩ : Sigma fun _ : String => CacheEntry) ∈ c.index.entries :=
      AList.mem_lookup_iff.mp hold
    have hin : (key, e) ∈ c.evictOrder := c.evictOrder_perm.mem_iff.mpr (List.mem_map_of_mem hmem)
    rw [horder] at hin
    cases hin
  | cons p rest =>
    have hne : p.1 ≠ key := by
      intro heq
      refine hfirst ?_
      rw [MeetsFirst, horder, List.head?_cons, Option.map_some, heq]
    have hfound : c.index.lookup p.1 = some p.2 := by
      refine lookup_of_mem_evictOrder ?_
      rw [horder]
      exact List.mem_cons_self
    refine ⟨p.1, hne, ?_, ?_⟩
    · rw [hfound]
      rfl
    · rw [evictLru, index_removeKeys, horder, if_pos (mem_evictVictims_head hneeded p rest)]

/-! ## The registration -/

/-- What the new entry adds to the counter next to nothing, or in place of the old entry, fits. -/
lemma not_full_of_fitsInPlaceOf (h : c.FitsInPlaceOf e size) (hc : c.InOrder)
    (hold : c.index.lookup key = some e) :
    ¬ c.currentSize + c.netIncrease key size > c.maxSizeBytes := by
  have hrecorded := hc.sum.recordedSize_le key
  have hwithin := UInt64.le_iff_toNat_le.mp hc.within
  have hmax := c.maxSizeBytes.toNat_lt
  unfold FitsInPlaceOf at h
  rw [recordedSize_of_some hold, UInt64.le_iff_toNat_le] at hrecorded
  rw [netIncrease, recordedSize_of_some hold, gt_iff_lt, UInt64.lt_iff_toNat_lt, UInt64.toNat_add]
  split
  · rename_i hgrows
    rw [UInt64.toNat_sub_of_le _ _ hgrows]
    have hgrows' := UInt64.le_iff_toNat_le.mp hgrows
    omega
  · rw [UInt64.toNat_zero]
    omega

/-- After the old entry is gone the new one fits next to the others. -/
lemma not_full_of_removed (h : c.FitsInPlaceOf e size) (hc : c.InOrder)
    (hold : c.index.lookup key = some e) :
    ¬ (c.removeKeys [key]).currentSize + (c.removeKeys [key]).netIncrease key size >
      (c.removeKeys [key]).maxSizeBytes := by
  have hrecorded := hc.sum.recordedSize_le key
  have hmax := c.maxSizeBytes.toNat_lt
  have hgone : (c.removeKeys [key]).index.lookup key = none := by
    rw [index_removeKeys, if_pos List.mem_cons_self]
  have hdrop : c.dropEntry key =
      { c with index := c.index.erase key, currentSize := c.currentSize - e.sizeBytes } := by
    rw [dropEntry, hold]
  have hcounter : (c.removeKeys [key]).currentSize = c.currentSize - e.sizeBytes := by
    change ((c.dropEntry key).deleteFiles key).currentSize = _
    rw [hdrop]
    rfl
  have hcapacity : (c.removeKeys [key]).maxSizeBytes = c.maxSizeBytes := by
    change ((c.dropEntry key).deleteFiles key).maxSizeBytes = _
    rw [hdrop]
    rfl
  have hnet : (c.removeKeys [key]).netIncrease key size = size := by
    rw [netIncrease, recordedSize_of_none hgone, if_pos (UInt64.zero_le), UInt64.sub_zero]
  unfold FitsInPlaceOf at h
  rw [recordedSize_of_some hold] at hrecorded
  rw [hcounter, hcapacity, hnet, gt_iff_lt, UInt64.lt_iff_toNat_lt, UInt64.toNat_add,
    UInt64.toNat_sub_of_le _ _ hrecorded]
  omega

/-! ## The whole operation -/

section Put

variable [Blob β] (now : Time) (url domain : String) (contentType : Option String) (bytes : β)
  (ttl : Option ℕ) (bodyBr : Option β) (cachedHeaders : HeaderMap)

/-- A `put` that makes room by removing at most the old entry, and then has room, overwrites. -/
lemma overwrites_put_of_reserve (hsize : ¬ blobSize bytes > c.maxSizeBytes)
    (hroom : ¬ (c.reserve (blobSize bytes)).currentSize +
      (c.reserve (blobSize bytes)).netIncrease key (blobSize bytes) >
        (c.reserve (blobSize bytes)).maxSizeBytes)
    (hothers : ∀ k, k ≠ key → (c.reserve (blobSize bytes)).index.lookup k = c.index.lookup k ∧
      (c.reserve (blobSize bytes)).stored k = c.stored k) :
    c.Overwrites (c.put now key url domain contentType bytes ttl bodyBr cachedHeaders) key
      (newStored now url domain contentType bytes ttl bodyBr cachedHeaders) := by
  rw [put, if_neg hsize]
  refine ⟨stored_register _ now key url domain contentType bytes ttl bodyBr cachedHeaders hroom, ?_⟩
  intro k hk
  obtain ⟨hindex, hstored⟩ := register_writeFiles_of_ne (c.reserve (blobSize bytes))
    (newEntry now url domain contentType bytes ttl bodyBr cachedHeaders) bytes bodyBr hk
  obtain ⟨hindex', hstored'⟩ := hothers k hk
  exact ⟨hindex.trans hindex', hstored.trans hstored'⟩

/-- A `put` over an entry that the new body fits in place of stores it and keeps all others exactly
if the body also fits next to the entry, or the entry is the one that an eviction meets first. -/
lemma overwrites_put_iff (hc : c.InOrder) (hold : c.index.lookup key = some e)
    (hfits : c.FitsInPlaceOf e (blobSize bytes)) :
    c.Overwrites (c.put now key url domain contentType bytes ttl bodyBr cachedHeaders) key
        (newStored now url domain contentType bytes ttl bodyBr cachedHeaders) ↔
      c.currentSize + blobSize bytes ≤ c.maxSizeBytes ∨ c.MeetsFirst key := by
  have hsize := hfits.size_le
  by_cases hfull : c.currentSize + blobSize bytes > c.maxSizeBytes
  · obtain ⟨hneeded, henough⟩ := hfits.needed_le hc hold hfull
    have hreserve : c.reserve (blobSize bytes) =
        c.evictLru (c.currentSize + blobSize bytes - c.maxSizeBytes) := if_pos hfull
    rw [or_iff_right (UInt64.not_le.mpr hfull)]
    constructor
    · intro h
      by_contra hfirst
      obtain ⟨k, hk, hfound, hevicted⟩ := exists_evicted_of_not_meetsFirst hfirst hold hneeded
      have hkept := (h.others k hk).1
      rw [put, if_neg hsize, (register_writeFiles_of_ne _ _ bytes bodyBr hk).1, hreserve,
        hevicted] at hkept
      rw [← hkept] at hfound
      cases hfound
    · intro hfirst
      rw [evictLru_of_meetsFirst hfirst hold hneeded henough] at hreserve
      refine overwrites_put_of_reserve now url domain contentType bytes ttl bodyBr cachedHeaders hsize
        ?_ ?_
      · rw [hreserve]
        exact not_full_of_removed hfits hc hold
      · intro k hk
        have hnot : k ∉ [key] := by simpa using hk
        rw [hreserve, index_removeKeys, stored_removeKeys, if_neg hnot, if_neg hnot]
        exact ⟨rfl, rfl⟩
  · have hreserve : c.reserve (blobSize bytes) = c := if_neg hfull
    refine iff_of_true ?_ (Or.inl (UInt64.not_lt.mp hfull))
    refine overwrites_put_of_reserve now url domain contentType bytes ttl bodyBr cachedHeaders hsize
      ?_ ?_
    · rw [hreserve]
      exact not_full_of_fitsInPlaceOf hfits hc hold
    · intro k hk
      rw [hreserve]
      exact ⟨rfl, rfl⟩

end Put

end CacheLayer

open CacheLayer

/-- A layer of a hundred bytes, with an entry of forty and a more recent one of fifty. -/
def ninetyOfHundred : CacheLayer Bytes :=
  ((CacheLayer.new 100).put 1 "a" "" "" none (List.replicate 40 0) none none []).put 2 "b" "" "" none
    (List.replicate 50 1) none none []

end SmartSchoolCdn
