import SmartSchoolCdn.Storage.Seeding

/-!
# The debt of the seeding

The gap between the recorded sizes and the counter is what seeding has left open, as long as no
subtraction wraps around: every other operation changes both alike.  So an operation is sound exactly
when what it leaves in the index is worth the gap, and a run is sound when all of its operations are
(`seeding_sound_iff`).
-/

namespace SmartSchoolCdn.Seeding

open CacheLayer Disk FiniteMaps Traces

variable {c : CacheLayer Bytes} {keys : List String} {key : String} {size : UInt64}

/-! ## Lookups -/

/-- The statistics of a hit leave the account alone. -/
lemma touch_frame {e : CacheEntry} (now : Time) (hlookup : c.index.lookup key = some e) :
    Keeps c (c.touch now key e) ∧ (c.touch now key e).recordedSize key = c.recordedSize key ∧
      (c.touch now key e).currentSize = c.currentSize := by
  unfold touch
  split
  · exact ⟨Keeps.refl c, rfl, rfl⟩
  · let hit : CacheEntry := { e with hitCount := e.hitCount + 1, accessedAt := now }
    have hinsert := total_insert_of_some (f := entrySize) (x := hit) hlookup
    have hsize : entrySize key hit = entrySize key e := rfl
    refine ⟨⟨?_, id, rfl⟩, ?_, rfl⟩
    · have hgap : (total entrySize (c.index.insert key hit) : ℤ) - c.currentSize.toNat = gap c := by
        rw [gap]
        omega
      exact hgap
    · change (((c.index.insert key hit).lookup key).map CacheEntry.sizeBytes).getD 0 = _
      rw [AList.lookup_insert, recordedSize_of_some hlookup]
      rfl

/-- A lookup without wrapping keeps the account. -/
lemma Keeps.get {now : Time} {allowStale : Bool} (h : Subtracts c (removed c (.get now key allowStale))) :
    Keeps c (c.getWithStale now key allowStale).2 := by
  rw [removed] at h
  unfold getWithStale
  cases hlookup : c.index.lookup key with
  | none => exact Keeps.refl c
  | some e =>
    simp only [hlookup] at h ⊢
    by_cases hexpired : (e.isExpired now && !allowStale) = true
    · rw [hexpired, Bool.true_or, if_pos rfl] at h
      rw [if_pos hexpired]
      exact Keeps.removeKeys h
    · obtain ⟨hkeeps, hrecorded, hcounter⟩ := touch_frame now hlookup
      rw [if_neg hexpired, readFiles, (files_touch c now key e).1]
      cases hfile : c.files.lookup key with
      | some data => exact hkeeps
      | none =>
        rw [hfile, Option.isNone_none, Bool.or_true, if_pos rfl] at h
        have hsubtracts : Subtracts (c.touch now key e) [key] := by
          refine ⟨?_, trivial⟩
          rw [hrecorded, hcounter]
          exact h.1
        have hdrop := Keeps.removeKeys hsubtracts
        exact hkeeps.trans ⟨hdrop.gap_eq, hdrop.within, hdrop.capacity⟩

/-! ## Making room -/

/-- The eviction takes all entries, or the counter falls by what is needed. -/
lemma evictVictims_reach {needed freed : UInt64} {l : List (String × CacheEntry)}
    (hl : ∀ p ∈ l, c.index.lookup p.1 = some p.2) (hkeys : (l.map Prod.fst).Nodup)
    (h : Subtracts c (evictVictims needed freed l)) :
    evictVictims needed freed l = l.map Prod.fst ∨
      needed.toNat + ((evictVictims needed freed l).foldl dropEntry c).currentSize.toNat ≤
        freed.toNat + c.currentSize.toNat := by
  induction l generalizing c freed with
  | nil => exact Or.inl rfl
  | cons p l ih =>
    obtain ⟨key, e⟩ := p
    rw [List.map_cons, List.nodup_cons] at hkeys
    rw [evictVictims] at h ⊢
    by_cases henough : freed ≥ needed
    · rw [if_pos henough]
      exact Or.inr (Nat.add_le_add_right (UInt64.le_iff_toNat_le.mp henough) _)
    · rw [if_neg henough] at h ⊢
      have hlookup : c.index.lookup key = some e := hl _ List.mem_cons_self
      have hcounter := toNat_dropEntry h.1
      rw [measured_of_some hlookup] at hcounter
      have hrest : ∀ p ∈ l, (c.dropEntry key).index.lookup p.1 = some p.2 := by
        intro p hp
        have hne : p.1 ≠ key := fun heq => hkeys.1 (List.mem_map.mpr ⟨p, hp, heq⟩)
        rw [index_dropEntry, if_neg hne]
        exact hl p (List.mem_cons_of_mem _ hp)
      rcases ih hrest hkeys.2 h.2 with hall | hreached
      · exact Or.inl (by rw [hall, List.map_cons])
      · right
        have hsum : (freed + e.sizeBytes).toNat ≤ freed.toNat + e.sizeBytes.toNat := by
          rw [UInt64.toNat_add]
          exact Nat.mod_le _ _
        have hsize : entrySize key e = e.sizeBytes.toNat := rfl
        rw [List.foldl_cons]
        omega

/-- The order of an eviction has every entry, with its key, once. -/
lemma IsEvictOrder.spec {order : List (String × CacheEntry)} (h : c.IsEvictOrder order) :
    (∀ p ∈ order, c.index.lookup p.1 = some p.2) ∧ (order.map Prod.fst).Nodup ∧
      ∀ k, k ∉ order.map Prod.fst → c.index.lookup k = none := by
  have hkeys : (order.map Prod.fst).Perm c.index.keys := by
    have hmap := h.1.map Prod.fst
    rw [List.map_map] at hmap
    exact hmap
  refine ⟨fun p hp => ?_, hkeys.nodup_iff.mpr c.index.keys_nodup, fun k hk => ?_⟩
  · obtain ⟨q, hq, rfl⟩ := List.mem_map.mp (h.1.mem_iff.mp hp)
    exact AList.mem_lookup_iff.mpr hq
  · rw [AList.lookup_eq_none, AList.mem_keys, ← hkeys.mem_iff]
    exact hk

/-- The counter is within the capacity, which leaves room for one message below `2 ^ 64`. -/
structure Bounded (c : CacheLayer Bytes) : Prop where
  within : c.currentSize.toNat ≤ c.maxSizeBytes.toNat
  room : c.maxSizeBytes.toNat + maxMessageBytes < 2 ^ 64

variable {order : List (String × CacheEntry)} {args : PutArgs} {now : Time}

lemma toNat_size_le (args : PutArgs) : (blobSize args.bytes).toNat ≤ maxMessageBytes := by
  rw [toNat_blobSize]
  exact args.fits

/-- Within the capacity the sum of the capacity check does not overflow. -/
lemma Bounded.adds (h : Bounded c) (hsize : size.toNat ≤ maxMessageBytes) : Adds c.currentSize size := by
  have hwithin := h.within
  have hroom := h.room
  unfold Adds
  omega

lemma toNat_netIncrease_le (c : CacheLayer Bytes) (key : String) (size : UInt64) :
    (c.netIncrease key size).toNat ≤ size.toNat ∧
      size.toNat ≤ (c.netIncrease key size).toNat + (c.recordedSize key).toNat := by
  unfold netIncrease
  split
  · next hge =>
    have hge' := UInt64.le_iff_toNat_le.mp hge
    rw [UInt64.toNat_sub_of_le _ _ hge]
    omega
  · next hlt =>
    have hlt' := UInt64.lt_iff_toNat_lt.mp (UInt64.not_le.mp hlt)
    rw [UInt64.toNat_zero]
    omega

/-- Within the capacity the check compares the numbers. -/
lemma Bounded.full_iff (h : Bounded c) (hsize : size.toNat ≤ maxMessageBytes) :
    c.currentSize + size > c.maxSizeBytes ↔ c.maxSizeBytes.toNat < c.currentSize.toNat + size.toNat := by
  rw [gt_iff_lt, UInt64.lt_iff_toNat_lt, UInt64.toNat_add, Nat.mod_eq_of_lt (h.adds hsize)]

/-- Making room keeps the bounds. -/
lemma Bounded.keeps {r : CacheLayer Bytes} (h : Bounded c) (hkeeps : Keeps c r) : Bounded r :=
  ⟨hkeeps.within h.within, by rw [hkeeps.capacity]; exact h.room⟩

/-- After making room the body fits, or the index is empty. -/
lemma fits_or_empty (h : Bounded c) (hsize : size.toNat ≤ maxMessageBytes) (horder : c.IsEvictOrder order)
    (hsubtracts : Subtracts c (c.victimsFor order size)) :
    (c.removeKeys (c.victimsFor order size)).currentSize.toNat + size.toNat ≤ c.maxSizeBytes.toNat ∨
      ∀ k, (c.removeKeys (c.victimsFor order size)).index.lookup k = none := by
  obtain ⟨hindex, hcounter, -⟩ := removeKeys_frame c (c.victimsFor order size)
  by_cases hfull : c.currentSize + size > c.maxSizeBytes
  · have hvictims : c.victimsFor order size =
        evictVictims (c.currentSize + size - c.maxSizeBytes) 0 order := if_pos hfull
    have hover := (h.full_iff hsize).mp hfull
    have hneeded : (c.currentSize + size - c.maxSizeBytes).toNat =
        c.currentSize.toNat + size.toNat - c.maxSizeBytes.toNat := by
      rw [UInt64.toNat_sub_of_le _ _ (UInt64.le_of_lt hfull), UInt64.toNat_add,
        Nat.mod_eq_of_lt (h.adds hsize)]
    obtain ⟨hlookup, hnodup, hothers⟩ := IsEvictOrder.spec horder
    rw [hvictims] at hsubtracts hcounter ⊢
    rcases evictVictims_reach hlookup hnodup hsubtracts with hall | hreached
    · right
      intro k
      rw [index_removeKeys, hall]
      split
      · rfl
      · next hk => exact hothers k hk
    · left
      rw [UInt64.toNat_zero, hneeded] at hreached
      rw [hcounter]
      omega
  · have hvictims : c.victimsFor order size = [] := if_neg hfull
    left
    rw [hvictims]
    exact Nat.not_lt.mp (mt (h.full_iff hsize).mpr hfull)

/-- The counter covers what a registration replaces: without room for it the index is empty. -/
lemma recordedSize_le {r : CacheLayer Bytes} (hr : Bounded r) (hsize : size.toNat ≤ maxMessageBytes)
    (hfits : r.currentSize.toNat + size.toNat ≤ r.maxSizeBytes.toNat ∨ ∀ k, r.index.lookup k = none)
    (hreplace : ¬ r.currentSize + r.netIncrease key size > r.maxSizeBytes →
      r.recordedSize key ≤ r.currentSize) : r.recordedSize key ≤ r.currentSize := by
  obtain ⟨hnet, -⟩ := toNat_netIncrease_le r key size
  rcases hfits with hfits | hempty
  · refine hreplace fun hfull => ?_
    rw [hr.full_iff (hnet.trans hsize)] at hfull
    omega
  · rw [recordedSize_of_none (hempty key)]
    exact UInt64.zero_le

/-- A registration without wrapping keeps the account. -/
lemma Keeps.register {r : CacheLayer Bytes} {entry : CacheEntry} (hr : Bounded r)
    (hsize : entry.sizeBytes.toNat ≤ maxMessageBytes)
    (hrecorded : ¬ r.currentSize + r.netIncrease key entry.sizeBytes > r.maxSizeBytes →
      r.recordedSize key ≤ r.currentSize) : Keeps r (r.register key entry) := by
  unfold CacheLayer.register
  obtain ⟨hnet, hnet'⟩ := toNat_netIncrease_le r key entry.sizeBytes
  split
  · exact ⟨rfl, id, rfl⟩
  · next hroom =>
    have hle := hrecorded hroom
    have hle' := UInt64.le_iff_toNat_le.mp hle
    have hwithin := hr.within
    have hbelow := hr.room
    rw [hr.full_iff (hnet.trans hsize), Nat.not_lt] at hroom
    have hcounter : (r.currentSize - r.recordedSize key + entry.sizeBytes).toNat =
        r.currentSize.toNat - (r.recordedSize key).toNat + entry.sizeBytes.toNat := by
      rw [UInt64.toNat_add, UInt64.toNat_sub_of_le _ _ hle]
      exact Nat.mod_eq_of_lt (by omega)
    have hinsert : total entrySize (r.index.insert key entry) =
        entrySize key entry + total entrySize (r.index.erase key) := total_insert
    have herase := total_erase_measured (f := entrySize) (m := r.index) key
    have hentry : entrySize key entry = entry.sizeBytes.toNat := rfl
    rw [← toNat_recordedSize] at herase
    refine ⟨?_, fun _ => ?_, rfl⟩
    · change (total entrySize (r.index.insert key entry) : ℤ) -
        (r.currentSize - r.recordedSize key + entry.sizeBytes).toNat = gap r
      rw [hcounter, gap]
      omega
    · change (r.currentSize - r.recordedSize key + entry.sizeBytes).toNat ≤ r.maxSizeBytes.toNat
      rw [hcounter]
      omega

/-! ## Saving -/

/-- A key is taken out after others. -/
lemma subtracts_concat :
    Subtracts c (keys ++ [key]) ↔
      Subtracts c keys ∧ (c.removeKeys keys).recordedSize key ≤ (c.removeKeys keys).currentSize := by
  obtain ⟨hindex, hcounter, -⟩ := removeKeys_frame c keys
  have hrecorded : (c.removeKeys keys).recordedSize key = (keys.foldl dropEntry c).recordedSize key := by
    rw [recordedSize, recordedSize, hindex, index_foldl_dropEntry]
  rw [subtracts_append, hrecorded, hcounter]
  exact and_congr_right fun _ => ⟨And.left, fun h => ⟨h, trivial⟩⟩

/-- A body that fits by the counter is stored with nothing evicted. -/
lemma stored_of_fits (hfits : c.currentSize.toNat + (blobSize args.bytes).toNat ≤ c.maxSizeBytes.toNat) :
    c.victimsFor order (blobSize args.bytes) = [] ∧
      (exec c (.put now args order true)).stored args.key =
        some (newStored now args.url args.domain args.contentType args.bytes args.ttl args.bodyBr
          args.cachedHeaders) := by
  have hmax := c.maxSizeBytes.toNat_lt
  have hroom : ¬ c.currentSize + blobSize args.bytes > c.maxSizeBytes := by
    rw [gt_iff_lt, UInt64.lt_iff_toNat_lt, UInt64.toNat_add]
    omega
  have hvictims : c.victimsFor order (blobSize args.bytes) = [] := if_neg hroom
  have hreserve : c.reserve (blobSize args.bytes) = c := if_neg hroom
  have hexec : exec c (.put now args order true) = c.put now args.key args.url args.domain
      args.contentType args.bytes args.ttl args.bodyBr args.cachedHeaders := by
    rw [exec, putInOrder, hvictims, put, hreserve]
    rfl
  refine ⟨hvictims, ?_⟩
  rw [hexec]
  refine stored_put_of_free c now args.key args.url args.domain args.contentType args.bytes args.ttl
    args.bodyBr args.cachedHeaders ?_
  rw [toNat_blobSize] at hfits
  exact hfits

/-- A body that the counter shuts out makes the eviction remove an entry, or is not stored. -/
lemma fits_of_stored (h : Bounded c) (horder : c.IsEvictOrder order)
    (hsize : ¬ blobSize args.bytes > c.maxSizeBytes)
    (hvictims : c.victimsFor order (blobSize args.bytes) = [])
    (hstored : ((exec c (.put now args order true)).stored args.key).isSome = true) :
    c.currentSize.toNat + (blobSize args.bytes).toNat ≤ c.maxSizeBytes.toNat := by
  have hmessage := toNat_size_le args
  by_contra hover
  have hfull : c.currentSize + blobSize args.bytes > c.maxSizeBytes :=
    (h.full_iff hmessage).mpr (Nat.not_le.mp hover)
  obtain ⟨-, -, hothers⟩ := IsEvictOrder.spec horder
  cases order with
  | nil =>
    -- nothing can be evicted, and the registration is rolled back
    have hnone : c.recordedSize args.key = 0 := recordedSize_of_none (hothers _ List.not_mem_nil)
    have hnet : c.netIncrease args.key (blobSize args.bytes) = blobSize args.bytes := by
      rw [netIncrease, hnone, if_pos UInt64.zero_le, UInt64.sub_zero]
    have hrollback : exec c (.put now args [] true) =
        { c.writeFiles args.key args.bytes args.bodyBr with
          files := (c.writeFiles args.key args.bytes args.bodyBr).files.erase args.key } := by
      rw [exec, putInOrder, if_neg hsize, hvictims, if_pos rfl]
      refine if_pos ?_
      change c.currentSize + c.netIncrease args.key (blobSize args.bytes) > c.maxSizeBytes
      rw [hnet]
      exact hfull
    have hmissing : (exec c (.put now args [] true)).stored args.key = none := by
      rw [hrollback]
      exact stored_eq_none_of_index (hothers _ List.not_mem_nil)
    rw [hmissing] at hstored
    cases hstored
  | cons p order =>
    have hneeded : 0 < c.currentSize + blobSize args.bytes - c.maxSizeBytes := by
      rw [UInt64.lt_iff_toNat_lt, UInt64.toNat_sub_of_le _ _ (UInt64.le_of_lt hfull), UInt64.toNat_zero]
      exact Nat.sub_pos_of_lt (UInt64.lt_iff_toNat_lt.mp hfull)
    have hfirst := mem_evictVictims_head hneeded p order
    rw [victimsFor, if_pos hfull] at hvictims
    rw [hvictims] at hfirst
    cases hfirst

/-- When a `put` is sound. -/
lemma putSound_iff (h : Bounded c) (horder : c.IsEvictOrder order) (written : Bool) :
    PutSound c now args order written ↔
      Subtracts c (removed c (.put now args order written)) ∧
        (written = true → Fits c (blobSize args.bytes) →
          c.currentSize.toNat + (blobSize args.bytes).toNat ≤ c.maxSizeBytes.toNat) := by
  have hmessage := toNat_size_le args
  rw [PutSound, removed]
  by_cases hlarge : blobSize args.bytes > c.maxSizeBytes
  · rw [if_pos hlarge]
    refine iff_of_true (fun hsmall => absurd hlarge hsmall) ⟨trivial, fun _ hfits => ?_⟩
    have hlarge' := UInt64.lt_iff_toNat_lt.mp hlarge
    unfold Fits at hfits
    omega
  · rw [if_neg hlarge]
    cases written with
    | false =>
      rw [if_neg Bool.false_ne_true, List.append_nil]
      exact ⟨fun hput => ⟨(hput hlarge).2.1, nofun⟩, fun hsub _ => ⟨h.adds hmessage, hsub.1, nofun⟩⟩
    | true =>
      rw [if_pos rfl, subtracts_concat]
      constructor
      · intro hput
        obtain ⟨-, hsub, hwritten⟩ := hput hlarge
        obtain ⟨-, hreplace, hstored⟩ := hwritten rfl
        have hbounded := h.keeps (Keeps.removeKeys hsub)
        have hroom := fits_or_empty h hmessage horder hsub
        rw [← (removeKeys_frame c (c.victimsFor order (blobSize args.bytes))).2.2] at hroom
        have hrecorded := recordedSize_le hbounded hmessage hroom fun hfull => (hreplace hfull).1
        refine ⟨⟨hsub, hrecorded⟩, fun _ hfits => ?_⟩
        obtain ⟨hvictims, hsaved⟩ := hstored hfits
        exact fits_of_stored h horder hlarge hvictims (Option.isSome_iff_exists.mpr ⟨_, hsaved⟩)
      · rintro ⟨⟨hsub, hrecorded⟩, hfits⟩ _
        have hbounded := h.keeps (Keeps.removeKeys hsub)
        refine ⟨h.adds hmessage, hsub, fun _ => ⟨?_, fun _ => ⟨hrecorded, ?_⟩, fun hfit => ?_⟩⟩
        · exact hbounded.adds ((toNat_netIncrease_le _ _ _).1.trans hmessage)
        · have hadds := hbounded.adds hmessage
          unfold Adds at hadds ⊢
          rw [UInt64.toNat_sub_of_le _ _ hrecorded]
          omega
        · exact stored_of_fits (hfits rfl hfit)

/-- A sound `put` keeps the account. -/
lemma Keeps.put {written : Bool} (h : Bounded c)
    (hsub : Subtracts c (removed c (.put now args order written))) :
    Keeps c (exec c (.put now args order written)) := by
  rw [removed] at hsub
  rw [exec, putInOrder]
  by_cases hlarge : blobSize args.bytes > c.maxSizeBytes
  · rw [if_pos hlarge]
    exact Keeps.refl c
  · rw [if_neg hlarge] at hsub ⊢
    cases written with
    | false =>
      rw [if_neg Bool.false_ne_true, List.append_nil] at hsub
      exact Keeps.removeKeys hsub
    | true =>
      rw [if_pos rfl, subtracts_concat] at hsub
      rw [if_pos rfl]
      have hkeeps := Keeps.removeKeys hsub.1
      have hbounded := h.keeps hkeeps
      let w := (c.removeKeys (c.victimsFor order (blobSize args.bytes))).writeFiles args.key args.bytes
        args.bodyBr
      let entry := newEntry now args.url args.domain args.contentType args.bytes args.ttl args.bodyBr
        args.cachedHeaders
      have hwrite : Keeps (c.removeKeys (c.victimsFor order (blobSize args.bytes))) w := ⟨rfl, id, rfl⟩
      have hregister : Keeps w (w.register args.key entry) :=
        Keeps.register (hbounded.keeps hwrite) (toNat_size_le args) fun _ => hsub.2
      exact (hkeeps.trans hwrite).trans hregister

/-! ## Steps and runs -/

/-- The debt is the gap, and the counter is within its bounds. -/
structure Account (s : State) : Prop where
  debt : s.debt = gap s.layer
  bounded : Bounded s.layer

lemma account_initial (gib : UInt64) : Account (State.initial gib) where
  debt := rfl
  bounded := ⟨Nat.zero_le _, capacity_initial gib⟩

variable {s s' t : State} {a : Action} {as : List Action}

lemma step_eq_some (hstep : step s a = some s') :
    Possible s.layer a ∧ s' = ⟨exec s.layer a, debtAfter s a⟩ := by
  rw [step] at hstep
  split at hstep
  · next hpossible => exact ⟨hpossible, (Option.some.inj hstep).symm⟩
  · cases hstep

/-- The counter covers what an operation takes out exactly when what it leaves covers the debt. -/
lemma subtracts_iff_debt (h : Account s) (keys : List String) :
    Subtracts s.layer keys ↔ s.debt ≤ total entrySize (kept s.layer keys) := by
  rw [subtracts_iff, h.debt, gap]
  omega

/-- An operation is sound exactly when it is covered. -/
lemma sound_iff_covered (h : Account s) (hstep : step s a = some s') : Sound s.layer a ↔ Covered s a := by
  obtain ⟨hpossible, -⟩ := step_eq_some hstep
  rw [Covered, ← subtracts_iff_debt h]
  cases a with
  | put now args order written =>
    have hdebt := h.debt
    unfold gap at hdebt
    refine (putSound_iff h.bounded hpossible written).trans (and_congr_right fun _ => ?_)
    refine forall₂_congr fun _ _ => ?_
    omega
  | get | purgeByKey | purgeByUrl | purgeDomain | purgeAll | evictLru | evictToRatio | devSeedPopular =>
    exact (and_iff_left trivial).symm

/-- What a sound operation other than seeding and the purge of everything does to the layer. -/
lemma keeps_exec (h : Bounded s.layer) (hsub : Subtracts s.layer (removed s.layer a))
    (hseed : ∀ now, a ≠ .devSeedPopular now) (hall : a ≠ .purgeAll) : Keeps s.layer (exec s.layer a) := by
  cases a with
  | put now args order written => exact Keeps.put h hsub
  | get now key allowStale => exact Keeps.get hsub
  | purgeByKey key =>
    rw [exec, purgeByKey]
    split
    · exact Keeps.removeKeys hsub
    · exact Keeps.refl _
  | purgeByUrl url => exact Keeps.removeKeys hsub
  | purgeDomain domain => exact Keeps.removeKeys hsub
  | purgeAll => exact absurd rfl hall
  | evictLru needed order => exact Keeps.removeKeys hsub
  | evictToRatio belowHard targetBytes order =>
    rw [removed] at hsub
    rw [exec]
    cases hexcess : s.layer.excess belowHard targetBytes with
    | none => exact Keeps.refl _
    | some needed =>
      rw [hexcess] at hsub
      exact Keeps.removeKeys hsub
  | devSeedPopular now => exact absurd rfl (hseed now)

/-- A covered operation keeps the account. -/
lemma Account.step (h : Account s) (hcovered : Covered s a) (hstep : step s a = some s') : Account s' := by
  obtain ⟨-, rfl⟩ := step_eq_some hstep
  have hsub := (subtracts_iff_debt h _).mpr hcovered.1
  by_cases hspecial : (∀ now, a ≠ .devSeedPopular now) ∧ a ≠ .purgeAll
  · have hkeeps := keeps_exec h.bounded hsub hspecial.1 hspecial.2
    have hdebt : debtAfter s a = s.debt := by
      unfold debtAfter
      split
      · exact absurd rfl (hspecial.1 _)
      · exact absurd rfl hspecial.2
      · rfl
    exact ⟨by rw [hdebt, hkeeps.gap_eq, h.debt], h.bounded.keeps hkeeps⟩
  · cases a with
    | devSeedPopular now =>
      refine ⟨?_, ⟨h.bounded.within, h.bounded.room⟩⟩
      have hdebt := h.debt
      unfold gap at hdebt
      change s.debt +
          (total entrySize (s.layer.devSeedPopular now).2.index - total entrySize s.layer.index : ℤ) =
        (total entrySize (s.layer.devSeedPopular now).2.index : ℤ) - s.layer.currentSize.toNat
      omega
    | purgeAll =>
      obtain ⟨hindex, hcounter, hmax⟩ := deleteFiles_frame
        { s.layer with index := ∅, currentSize := 0 } (s.layer.keysWhere fun _ => true)
      have hlayer : exec s.layer .purgeAll = (s.layer.keysWhere fun _ => true).foldl deleteFiles
        { s.layer with index := ∅, currentSize := 0 } := rfl
      refine ⟨?_, ⟨?_, ?_⟩⟩
      · rw [debtAfter, hlayer, gap, hindex, hcounter]
        rfl
      · rw [hlayer, hcounter]
        exact Nat.zero_le _
      · rw [hlayer, hmax]
        exact h.bounded.room
    | put | get | purgeByKey | purgeByUrl | purgeDomain | evictLru | evictToRatio =>
      simp at hspecial

/-- Without seeding there is no debt, and every operation is covered. -/
lemma covered_of_unseeded (hrun : Trace step (fun _ a => ∀ now, a ≠ .devSeedPopular now) s as t)
    (h : Account s) (hdebt : s.debt = 0) : Trace step Covered s as t := by
  induction hrun with
  | nil s => exact Trace.nil s
  | @cons s s' t a as hseed hstep _ ih =>
    have hcovered : Covered s a := by
      refine ⟨by rw [hdebt]; exact Int.natCast_nonneg _, ?_⟩
      cases a with
      | put now args order written =>
        intro _ hfits
        unfold Fits at hfits
        omega
      | get | purgeByKey | purgeByUrl | purgeDomain | purgeAll | evictLru | evictToRatio | devSeedPopular =>
        trivial
    refine Trace.cons hcovered hstep (ih (h.step hcovered hstep) ?_)
    obtain ⟨-, rfl⟩ := step_eq_some hstep
    unfold debtAfter
    split
    · exact absurd rfl (hseed _)
    · rfl
    · exact hdebt

end SmartSchoolCdn.Seeding
