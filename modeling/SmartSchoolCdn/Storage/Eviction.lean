import SmartSchoolCdn.Foundation.Prefixes
import SmartSchoolCdn.Storage.Accounting

/-!
# Least recently used eviction

`evict_lru` sorts the entries by their last access and removes them one by one, adding up their
sizes, until it has freed enough.  What it removes is the shortest prefix of that order which is
large enough, for every order in which equally old entries may come (`evict_lru_exact`).

The sum is a 64-bit number that wraps around, so the size counter, which is one as well, has to
cover the entries.  It does in every state that the service reaches.
-/

namespace SmartSchoolCdn

open FiniteMaps Tables Traces

namespace CacheLayer

variable {β : Type} {l : List (String × CacheEntry)} {needed freed : UInt64}

/-- The size of an entry in bytes. -/
def pairSize (p : String × CacheEntry) : ℕ := p.2.sizeBytes.toNat

/-- The loop of `evict_lru` takes entries until they add up to enough, when the sum fits in 64
bits. -/
lemma evictVictims_eq (h : freed.toNat + total pairSize l < 2 ^ 64) :
    evictVictims needed freed l = (takeReaching pairSize needed.toNat freed.toNat l).map Prod.fst := by
  induction l generalizing freed with
  | nil => rfl
  | cons p l ih =>
    obtain ⟨key, e⟩ := p
    rw [total_cons] at h
    have hsize : pairSize (key, e) = e.sizeBytes.toNat := rfl
    have hsum : (freed + e.sizeBytes).toNat = freed.toNat + pairSize (key, e) := by
      rw [UInt64.toNat_add, hsize, Nat.mod_eq_of_lt (by omega)]
    have hguard : freed ≥ needed ↔ needed.toNat ≤ freed.toNat := UInt64.le_iff_toNat_le
    rw [evictVictims, takeReaching]
    by_cases henough : needed.toNat ≤ freed.toNat
    · rw [if_pos (hguard.mpr henough), if_pos henough, List.map_nil]
    · rw [if_neg (mt hguard.mp henough), if_neg henough, List.map_cons, ih (by omega), hsum]

/-- What the loop takes is the shortest prefix that is large enough. -/
lemma shortestPrefix_evictVictims (needed : UInt64) (h : total pairSize l < 2 ^ 64) :
    ∃ p, evictVictims needed 0 l = p.map Prod.fst ∧ ShortestPrefix pairSize needed.toNat p l := by
  refine ⟨takeReaching pairSize needed.toNat 0 l, ?_, ?_⟩
  · refine evictVictims_eq ?_
    rw [UInt64.toNat_zero, Nat.zero_add]
    exact h
  · exact shortestPrefix_takeReaching pairSize needed.toNat 0 l

/-- The sequential `evict_lru` takes the entries of the index, each once. -/
lemma evictOrder_perm (c : CacheLayer β) :
    c.evictOrder.Perm (c.index.entries.map fun s => (s.1, s.2)) :=
  List.perm_insertionSort _ _

lemma lookup_of_mem_evictOrder {c : CacheLayer β} {p : String × CacheEntry} (h : p ∈ c.evictOrder) :
    c.index.lookup p.1 = some p.2 := by
  obtain ⟨q, hq, rfl⟩ := List.mem_map.mp (c.evictOrder_perm.mem_iff.mp h)
  exact AList.mem_lookup_iff.mpr hq

end CacheLayer

namespace Disk

variable {s : State} {needed : UInt64} {order keys : List String} {key : String}

/-- The recorded size of a key in bytes, zero without an entry. -/
def State.sizeOf (s : State) (key : String) : ℕ := (s.layer.recordedSize key).toNat

/-! ## The order -/

/-- The recorded sizes of all keys add up to the total of the index. -/
lemma total_sizeOf (h : order.Perm s.layer.index.keys) :
    Tables.total s.sizeOf order = FiniteMaps.total entrySize s.layer.index := by
  have hsize : ∀ k, s.sizeOf k = measured entrySize s.layer.index k := by
    intro k
    unfold State.sizeOf
    cases hlookup : s.layer.index.lookup k with
    | none => rw [CacheLayer.recordedSize_of_none hlookup, measured_of_none hlookup, UInt64.toNat_zero]
    | some e => rw [CacheLayer.recordedSize_of_some hlookup, measured_of_some hlookup, entrySize]
  calc Tables.total s.sizeOf order
      = (order.map (measured entrySize s.layer.index)).sum := by
        rw [Tables.total, funext hsize]
    _ = (s.layer.index.keys.map (measured entrySize s.layer.index)).sum := (h.map _).sum_eq
    _ = FiniteMaps.total entrySize s.layer.index := by
        rw [FiniteMaps.total_eq_sum, List.sum_toFinset _ s.layer.index.keys_nodup]

/-- The entries of keys that all have one. -/
lemma map_entriesOf (h : ∀ key ∈ order, key ∈ s.layer.index) :
    (s.entriesOf order).map Prod.fst = order ∧
      ∀ p ∈ s.entriesOf order, CacheLayer.pairSize p = s.sizeOf p.1 := by
  induction order with
  | nil => exact ⟨rfl, fun p hp => absurd hp List.not_mem_nil⟩
  | cons key order ih =>
    obtain ⟨hmap, hsize⟩ := ih fun k hk => h k (List.mem_cons_of_mem key hk)
    obtain ⟨e, he⟩ := Option.isSome_iff_exists.mp (AList.lookup_isSome.mpr (h key List.mem_cons_self))
    have hcons : s.entriesOf (key :: order) = (key, e) :: s.entriesOf order := by
      simp [State.entriesOf, he]
    rw [hcons]
    refine ⟨by rw [List.map_cons, hmap], fun p hp => ?_⟩
    rcases List.mem_cons.mp hp with rfl | hp
    · rw [State.sizeOf, CacheLayer.recordedSize_of_some he, CacheLayer.pairSize]
    · exact hsize p hp

/-- Its order is one of those in which an eviction may take them. -/
lemma isEvictOrder_evictOrder (s : State) : s.IsEvictOrder (s.layer.evictOrder.map Prod.fst) := by
  constructor
  · have hkeys := s.layer.evictOrder_perm.map Prod.fst
    rw [List.map_map] at hkeys
    exact hkeys
  · rw [List.pairwise_map]
    refine (List.pairwise_insertionSort _ _).imp_of_mem fun ha hb hle => ?_
    rw [CacheLayer.lookup_of_mem_evictOrder ha, CacheLayer.lookup_of_mem_evictOrder hb]
    exact hle

/-- The sequential `evict_lru` is the eviction in its order, with the files deleted at once. -/
lemma evictLru_sequential (s : State) (needed : UInt64) (next : Next) :
    ∃ (r : State) (victims : List String),
      s.evictLru needed (s.layer.evictOrder.map Prod.fst) next =
        some (r, deleting (victims.flatMap filesOf) next) ∧
      s.layer.evictLru needed = victims.foldl CacheLayer.deleteFiles r.layer := by
  have hentries : s.entriesOf (s.layer.evictOrder.map Prod.fst) = s.layer.evictOrder := by
    rw [State.entriesOf, List.filterMap_map]
    conv_rhs => rw [← List.filterMap_some (l := s.layer.evictOrder)]
    refine List.filterMap_congr fun p hp => ?_
    rw [Function.comp_apply, CacheLayer.lookup_of_mem_evictOrder hp, Option.map_some]
  have hlayer : ∀ (keys : List String) (s : State),
      (s.dropAll keys).layer = keys.foldl CacheLayer.dropEntry s.layer := by
    intro keys
    induction keys with
    | nil => exact fun s => rfl
    | cons key keys ih => exact fun s => ih (s.drop key)
  let victims := CacheLayer.evictVictims needed 0 s.layer.evictOrder
  refine ⟨s.dropAll victims, victims, ?_, ?_⟩
  · rw [State.evictLru, if_pos (isEvictOrder_evictOrder s), hentries]
  · rw [hlayer, CacheLayer.evictLru, CacheLayer.removeKeys]

/-! ## The counter -/

/-- Dropping an entry takes its size from the counter. -/
lemma currentSize_drop (h : s.sizeOf key ≤ s.layer.currentSize.toNat) :
    (s.drop key).layer.currentSize.toNat + s.sizeOf key = s.layer.currentSize.toNat := by
  unfold State.sizeOf at h ⊢
  cases hlookup : s.layer.index.lookup key with
  | none =>
    rw [CacheLayer.recordedSize_of_none hlookup, State.drop, CacheLayer.dropEntry, hlookup]
    rfl
  | some e =>
    rw [CacheLayer.recordedSize_of_some hlookup] at h ⊢
    rw [State.drop, CacheLayer.dropEntry, hlookup]
    change (s.layer.currentSize - e.sizeBytes).toNat + e.sizeBytes.toNat = _
    rw [UInt64.toNat_sub_of_le _ _ (UInt64.le_iff_toNat_le.mpr h)]
    exact Nat.sub_add_cancel h

/-- The other entries keep their sizes. -/
lemma sizeOf_drop {k : String} (h : k ≠ key) : (s.drop key).sizeOf k = s.sizeOf k := by
  have hlookup : (s.drop key).layer.index.lookup k = s.layer.index.lookup k := by
    rw [State.drop, CacheLayer.index_dropEntry, if_neg h]
  rw [State.sizeOf, State.sizeOf, CacheLayer.recordedSize, CacheLayer.recordedSize, hlookup]

/-- Dropping entries takes their sizes from the counter. -/
lemma currentSize_dropAll (h : Tables.total s.sizeOf keys ≤ s.layer.currentSize.toNat)
    (hkeys : keys.Nodup) :
    (s.dropAll keys).layer.currentSize.toNat + Tables.total s.sizeOf keys = s.layer.currentSize.toNat := by
  induction keys generalizing s with
  | nil => rfl
  | cons key keys ih =>
    rw [List.nodup_cons] at hkeys
    rw [total_cons] at h ⊢
    have hfirst := currentSize_drop (Nat.le_trans (Nat.le_add_right _ _) h)
    have hothers : Tables.total (s.drop key).sizeOf keys = Tables.total s.sizeOf keys := by
      refine congrArg List.sum (List.map_congr_left fun k hk => ?_)
      exact sizeOf_drop fun heq => hkeys.1 (heq ▸ hk)
    have hrest := ih (s := s.drop key) (by omega) hkeys.2
    have hcons : s.dropAll (key :: keys) = (s.drop key).dropAll keys := rfl
    rw [hcons]
    omega

/-! ## The eviction -/

/-- The size counter is not behind the sizes of the entries. -/
def Covered (s : State) : Prop := FiniteMaps.total entrySize s.layer.index ≤ s.layer.currentSize.toNat

/-- The locked part of an eviction has removed the victims: they are the shortest prefix of the
order that is large enough, the counter has lost their sizes, and everything else is as it was. -/
structure Evicts (s r : State) (needed : UInt64) (order victims : List String) : Prop where
  shortest : ShortestPrefix s.sizeOf needed.toNat victims order
  index : ∀ k, r.layer.index.lookup k = if k ∈ victims then none else s.layer.index.lookup k
  counter : r.layer.currentSize.toNat + Tables.total s.sizeOf victims = s.layer.currentSize.toNat
  files : r.layer.files = s.layer.files
  brFiles : r.layer.brFiles = s.layer.brFiles
  headerFiles : r.headerFiles = s.headerFiles

/-- An eviction removes the shortest prefix of the entries that is large enough, when the counter
covers them. -/
lemma evicts_of_covered (hcovered : Covered s) (horder : s.IsEvictOrder order) (next : Next) :
    ∃ r victims, s.evictLru needed order next = some (r, deleting (victims.flatMap filesOf) next) ∧
      Evicts s r needed order victims := by
  have hmem : ∀ key ∈ order, key ∈ s.layer.index :=
    fun key hkey => AList.mem_keys.mpr (horder.1.mem_iff.mp hkey)
  obtain ⟨hmap, hsize⟩ := map_entriesOf hmem
  have hsame : Tables.total CacheLayer.pairSize (s.entriesOf order) = Tables.total s.sizeOf order := by
    conv_rhs => rw [← hmap]
    rw [Tables.total, Tables.total, List.map_map]
    exact congrArg List.sum (List.map_congr_left hsize)
  have hall : Tables.total s.sizeOf order ≤ s.layer.currentSize.toNat :=
    (total_sizeOf horder.1).trans_le hcovered
  have hfits : Tables.total CacheLayer.pairSize (s.entriesOf order) < 2 ^ 64 := by
    rw [hsame]
    exact hall.trans_lt s.layer.currentSize.toNat_lt
  obtain ⟨p, hvictims, hshortest⟩ := CacheLayer.shortestPrefix_evictVictims needed hfits
  have hprefix : ShortestPrefix s.sizeOf needed.toNat (p.map Prod.fst) order := by
    rw [← hmap]
    exact hshortest.map Prod.fst hsize
  have hnodup : (p.map Prod.fst).Nodup :=
    (horder.1.nodup_iff.mpr s.layer.index.keys_nodup).sublist hprefix.isPrefix.sublist
  obtain ⟨hfiles, hbr, hheaders, -⟩ := dropAll_frame s (p.map Prod.fst)
  refine ⟨s.dropAll (p.map Prod.fst), p.map Prod.fst, ?_, hprefix, ?_, ?_, hfiles, hbr, hheaders⟩
  · rw [State.evictLru, if_pos horder]
    simp only [hvictims]
  · exact index_dropAll s (p.map Prod.fst)
  · exact currentSize_dropAll ((total_le_of_part hprefix.isPrefix).trans hall) hnodup

/-- An index entry of some size. -/
def entryOfSize (sizeBytes : UInt64) (accessedAt : Time) : CacheEntry where
  url := ""
  domain := ""
  contentType := none
  sizeBytes := sizeBytes
  hitCount := 0
  createdAt := 0
  accessedAt := accessedAt
  expiresAt := none
  hasBr := false
  cachedHeaders := []

/-- Three entries with a counter. -/
def threeEntries (a b c counter : UInt64) : State :=
  { State.initial 1 with
    layer :=
      { (State.initial 1).layer with
        index :=
          ((∅ : AList fun _ : String => CacheEntry).insert "c" (entryOfSize c 3)).insert "b"
            (entryOfSize b 2) |>.insert "a" (entryOfSize a 1)
        currentSize := counter } }

end Disk

end SmartSchoolCdn
