import SmartSchoolCdn.Foundation.FiniteMap
import SmartSchoolCdn.Storage.DiskSteps

/-!
# The size counter of the cache layer

Every change of the index and of the size counter happens under the lock of the index, and
every such part of an operation keeps their agreement: the counter is the sum of the recorded
sizes, it stays within the capacity, and what is subtracted from it was part of that sum
(`accounting`).

The capacity leaves room for one message below `2 ^ 64`, since it is a number of whole GiB, so
that the sums of the capacity checks do not overflow.
-/

namespace SmartSchoolCdn

open FiniteMaps Traces

/-- The recorded size of an entry. -/
def entrySize (_ : String) (e : CacheEntry) : ℕ := e.sizeBytes.toNat

namespace CacheLayer

variable {β : Type} {c : CacheLayer β} {key : String} {e : CacheEntry}

/-- The size counter is the sum of the recorded sizes. -/
def Balanced (c : CacheLayer β) : Prop := c.currentSize.toNat = total entrySize c.index

lemma recordedSize_of_some (h : c.index.lookup key = some e) : c.recordedSize key = e.sizeBytes := by
  rw [recordedSize, h]
  rfl

lemma recordedSize_of_none (h : c.index.lookup key = none) : c.recordedSize key = 0 := by
  rw [recordedSize, h]
  rfl

/-- What is recorded for a key is part of the sum. -/
lemma Balanced.recordedSize_le (h : c.Balanced) (key : String) : c.recordedSize key ≤ c.currentSize := by
  rw [UInt64.le_iff_toNat_le, h]
  cases hlookup : c.index.lookup key with
  | none =>
    rw [recordedSize_of_none hlookup]
    exact Nat.zero_le _
  | some e =>
    rw [recordedSize_of_some hlookup]
    exact le_total (f := entrySize) hlookup

/-- Removing an entry keeps the balance, and the counter does not grow. -/
lemma Balanced.dropEntry (h : c.Balanced) (key : String) :
    (c.dropEntry key).Balanced ∧ (c.dropEntry key).currentSize ≤ c.currentSize := by
  unfold CacheLayer.dropEntry
  cases hlookup : c.index.lookup key with
  | none => exact ⟨h, UInt64.le_refl _⟩
  | some e =>
    have hle := h.recordedSize_le key
    rw [recordedSize_of_some hlookup] at hle
    have hsub := UInt64.toNat_sub_of_le _ _ hle
    have herase := total_erase (f := entrySize) hlookup
    have hsize : entrySize key e = e.sizeBytes.toNat := rfl
    have hsum : c.currentSize.toNat = total entrySize c.index := h
    constructor
    · change (c.currentSize - e.sizeBytes).toNat = total entrySize (c.index.erase key)
      omega
    · change c.currentSize - e.sizeBytes ≤ c.currentSize
      rw [UInt64.le_iff_toNat_le]
      omega

end CacheLayer

namespace Disk

/-- The counter is the sum of the recorded sizes and within the capacity, and no subtraction
has gone below zero. -/
structure Accounted (s : State) : Prop where
  sum : s.layer.currentSize.toNat = total entrySize s.layer.index
  within : s.layer.currentSize ≤ s.layer.maxSizeBytes
  sound : s.underflow = false

/-- The capacity leaves room for one message below `2 ^ 64`. -/
def Capacity (s : State) : Prop := s.layer.maxSizeBytes.toNat + maxMessageBytes < 2 ^ 64

variable {s s' : State} {key : String}

/-- A capacity of whole GiB leaves room for one message. -/
lemma capacity_initial (gib : UInt64) : Capacity (State.initial gib) := by
  have hproduct : (gib * 1024 * 1024 * 1024).toNat = gib.toNat * 2 ^ 30 % 2 ^ 64 := by
    simp only [UInt64.toNat_mul, UInt64.reduceToNat]
    omega
  have hmax : (State.initial gib).layer.maxSizeBytes.toNat = gib.toNat * 2 ^ 30 % 2 ^ 64 := hproduct
  rw [Capacity, hmax, maxMessageBytes]
  omega

/-! ## The parts under the lock -/

/-- Removing an entry keeps the account. -/
lemma Accounted.drop (h : Accounted s) : Accounted (s.drop key) := by
  have hbalanced : s.layer.Balanced := h.sum
  obtain ⟨hsum, hle⟩ := hbalanced.dropEntry key
  have hmax : (s.drop key).layer.maxSizeBytes = s.layer.maxSizeBytes := (dropAll_frame s [key]).2.2.2.1
  refine ⟨hsum, ?_, ?_⟩
  · rw [hmax]
    exact UInt64.le_trans hle h.within
  · have hnot : ¬ s.layer.currentSize < s.layer.recordedSize key :=
      UInt64.not_lt.mpr (hbalanced.recordedSize_le key)
    simp [State.drop, h.sound, hnot]

/-- Removing entries one by one keeps the account. -/
lemma Accounted.dropAll {keys : List String} (h : Accounted s) : Accounted (s.dropAll keys) := by
  induction keys generalizing s with
  | nil => exact h
  | cons key keys ih => exact ih h.drop

/-- An empty index with the counter at zero is in order. -/
lemma Accounted.clear (h : Accounted s) : Accounted s.clear where
  sum := rfl
  within := UInt64.le_iff_toNat_le.mpr (Nat.zero_le _)
  sound := h.sound

/-- The statistics of a hit keep the account. -/
lemma Accounted.touch {e : CacheEntry} (h : Accounted s) (hlookup : s.layer.index.lookup key = some e) :
    Accounted { s with layer := s.layer.touch s.now key e } := by
  by_cases hexpired : e.isExpired s.now = true
  · have hlayer : s.layer.touch s.now key e = s.layer := by
      unfold CacheLayer.touch
      rw [if_pos hexpired]
    rw [hlayer]
    exact h
  · have hlayer : s.layer.touch s.now key e = { s.layer with
        index := s.layer.index.insert key { e with hitCount := e.hitCount + 1, accessedAt := s.now } } := by
      unfold CacheLayer.touch
      rw [if_neg hexpired]
    have hinsert := total_insert_of_some (f := entrySize)
      (x := { e with hitCount := e.hitCount + 1, accessedAt := s.now }) hlookup
    have hsize : entrySize key { e with hitCount := e.hitCount + 1, accessedAt := s.now } = entrySize key e := rfl
    have hsum := h.sum
    rw [hlayer]
    refine ⟨?_, h.within, h.sound⟩
    change s.layer.currentSize.toNat = total entrySize (s.layer.index.insert key
      { e with hitCount := e.hitCount + 1, accessedAt := s.now })
    omega

/-- The length of a body as the code stores it. -/
lemma toNat_blobSize (args : PutArgs) : (blobSize args.bytes).toNat = args.bytes.length := by
  have hfits := args.fits
  have hlt : args.bytes.length < 2 ^ 64 := by
    rw [maxMessageBytes] at hfits
    omega
  exact Nat.mod_eq_of_lt hlt

/-- A registration with room, without overflow: the counter afterwards, which is within the
capacity. -/
lemma Accounted.toNat_insertEntry {args : PutArgs} (h : Accounted s) (hcapacity : Capacity s)
    (hroom : s.hasRoom args = true) (i : ℕ) (hasBr : Bool) :
    (s.insertEntry i args hasBr).layer.currentSize.toNat =
        s.layer.currentSize.toNat - (s.layer.recordedSize args.key).toNat + args.bytes.length ∧
      s.layer.currentSize.toNat - (s.layer.recordedSize args.key).toNat + args.bytes.length ≤
        s.layer.maxSizeBytes.toNat := by
  have hbalanced : s.layer.Balanced := h.sum
  have hrecorded := UInt64.le_iff_toNat_le.mp (hbalanced.recordedSize_le args.key)
  have hsub := UInt64.toNat_sub_of_le _ _ (UInt64.le_iff_toNat_le.mpr hrecorded)
  have hwithin := UInt64.le_iff_toNat_le.mp h.within
  have hsize := toNat_blobSize args
  have hfits := args.fits
  unfold Capacity maxMessageBytes at hcapacity
  unfold maxMessageBytes at hfits
  have hcheck : s.layer.currentSize.toNat - (s.layer.recordedSize args.key).toNat + args.bytes.length ≤
      s.layer.maxSizeBytes.toNat := by
    unfold State.hasRoom CacheLayer.netIncrease at hroom
    rw [decide_eq_true_eq, UInt64.le_iff_toNat_le, UInt64.toNat_add] at hroom
    by_cases hgrows : blobSize args.bytes ≥ s.layer.recordedSize args.key
    · have hdiff := UInt64.toNat_sub_of_le _ _ hgrows
      have hgrows' := UInt64.le_iff_toNat_le.mp hgrows
      rw [if_pos hgrows, hdiff, hsize] at hroom
      rw [hsize] at hgrows'
      omega
    · have hshrinks : (blobSize args.bytes).toNat < (s.layer.recordedSize args.key).toNat := by
        rw [← Nat.not_le]
        exact fun hle => hgrows (UInt64.le_iff_toNat_le.mpr hle)
      rw [hsize] at hshrinks
      omega
  refine ⟨?_, hcheck⟩
  change (s.layer.currentSize - s.layer.recordedSize args.key + blobSize args.bytes).toNat = _
  rw [UInt64.toNat_add, hsub, hsize]
  omega

/-- A registration with room keeps the account. -/
lemma Accounted.insertEntry {i : ℕ} {args : PutArgs} {hasBr : Bool} (h : Accounted s)
    (hcapacity : Capacity s) (hroom : s.hasRoom args = true) :
    Accounted (s.insertEntry i args hasBr) := by
  have hbalanced : s.layer.Balanced := h.sum
  have hrecorded := UInt64.le_iff_toNat_le.mp (hbalanced.recordedSize_le args.key)
  have hsize := toNat_blobSize args
  have hsum := h.sum
  obtain ⟨hadd, hcheck⟩ : (s.layer.currentSize - s.layer.recordedSize args.key + blobSize args.bytes).toNat =
      s.layer.currentSize.toNat - (s.layer.recordedSize args.key).toNat + args.bytes.length ∧ _ :=
    h.toNat_insertEntry hcapacity hroom i hasBr
  have hentry : entrySize args.key (State.entryOf s.now args hasBr) = args.bytes.length := hsize
  refine ⟨?_, ?_, ?_⟩
  · change (s.layer.currentSize - s.layer.recordedSize args.key + blobSize args.bytes).toNat =
      total entrySize (s.layer.index.insert args.key (State.entryOf s.now args hasBr))
    rw [hadd, total_insert, hentry]
    cases hlookup : s.layer.index.lookup args.key with
    | none =>
      have hzero := CacheLayer.recordedSize_of_none hlookup
      rw [hzero, erase_eq_self hlookup, ← hsum, UInt64.toNat_zero]
      omega
    | some e =>
      have hold := CacheLayer.recordedSize_of_some hlookup
      have herase := total_erase (f := entrySize) hlookup
      have hesize : entrySize args.key e = e.sizeBytes.toNat := rfl
      rw [hold] at hrecorded ⊢
      omega
  · refine UInt64.le_iff_toNat_le.mpr ?_
    change (s.layer.currentSize - s.layer.recordedSize args.key + blobSize args.bytes).toNat ≤ _
    rw [hadd]
    exact hcheck
  · have hnot : ¬ s.layer.currentSize < s.layer.recordedSize args.key :=
      UInt64.not_lt.mpr (UInt64.le_iff_toNat_le.mpr hrecorded)
    simp [State.insertEntry, h.sound, hnot]

/-! ## Steps and runs -/

/-- Moving an operation keeps the account. -/
lemma Accounted.setPhase {i : ℕ} {phase : Phase} (h : Accounted s) : Accounted (s.setPhase i phase) :=
  ⟨h.sum, h.within, h.sound⟩

/-- Writing and deleting files keeps the account. -/
lemma Accounted.of_index (h : Accounted s) (hindex : s'.layer.index = s.layer.index)
    (hsize : s'.layer.currentSize = s.layer.currentSize)
    (hmax : s'.layer.maxSizeBytes = s.layer.maxSizeBytes) (hunderflow : s'.underflow = s.underflow) :
    Accounted s' where
  sum := by rw [hindex, hsize, h.sum]
  within := by
    rw [hsize, hmax]
    exact h.within
  sound := by rw [hunderflow, h.sound]

lemma Accounted.removeFile {file : FileKind × String} (h : Accounted s) : Accounted (s.removeFile file) := by
  obtain ⟨kind, key⟩ := file
  cases kind <;> exact h.of_index rfl rfl rfl rfl

/-- Every step of an operation keeps the account. -/
lemma Accounted.move {jsonSize : HeaderMap → ℕ} {i : ℕ} {t : Task} {phase : Phase} (h : Accounted s)
    (hcapacity : Capacity s) (hmove : Move jsonSize s i t s' phase) : Accounted s' := by
  cases hmove with
  | hit _ _ hlookup _ => exact h.touch hlookup
  | cleanup _ _ => exact h.drop
  | writesBody _ _ => exact h.of_index rfl rfl rfl rfl
  | writesVariant _ _ _ _ => exact h.of_index rfl rfl rfl rfl
  | writesSidecar _ _ _ => exact h.of_index rfl rfl rfl rfl
  | registers _ _ hroom => exact h.insertEntry hcapacity hroom
  | removes _ _ _ => exact h.dropAll
  | clears _ _ _ => exact h.clear
  | deletes _ => exact h.removeFile
  | ends _ _ => exact h
  | missing _ _ _ => exact h
  | plain _ _ _ _ => exact h
  | body _ _ _ _ => exact h
  | variant _ _ => exact h
  | evicting _ _ => exact h
  | fitting _ _ => exact h
  | noVariant _ _ _ => exact h
  | noSidecar _ _ => exact h
  | rollsBack _ _ _ => exact h

/-- Every action keeps the account. -/
lemma Accounted.step {jsonSize : HeaderMap → ℕ} {a : Action} (h : Accounted s) (hcapacity : Capacity s)
    (hs : step jsonSize s a = some s') : Accounted s' := by
  cases step_cases hs with
  | tick => exact ⟨h.sum, h.within, h.sound⟩
  | call => exact ⟨h.sum, h.within, h.sound⟩
  | moves _ _ hmove => exact (h.move hcapacity hmove).setPhase
  | fails _ hfail =>
    obtain ⟨hindex, hsize, hmax, hunderflow⟩ := index_of_fail hfail
    exact (h.of_index hindex hsize hmax hunderflow).setPhase
  | restart => exact ⟨rfl, UInt64.le_iff_toNat_le.mpr (Nat.zero_le _), h.sound⟩

/-- The account is in order in every state of every run from an empty directory, whatever the
operations, their interleaving and the failures of file operations. -/
lemma accounted_of_reaches {jsonSize : HeaderMap → ℕ} {gib : UInt64}
    (h : Reaches (step jsonSize) (State.initial gib) s) : Accounted s ∧ Capacity s := by
  refine h.invariant (I := fun s => Accounted s ∧ Capacity s) ?_ ⟨?_, capacity_initial gib⟩
  · rintro s a s' ⟨haccounted, hcapacity⟩ hs
    refine ⟨haccounted.step hcapacity hs, ?_⟩
    rw [Capacity, maxSizeBytes_step hs]
    exact hcapacity
  · exact ⟨rfl, UInt64.le_iff_toNat_le.mpr (Nat.zero_le _), rfl⟩

/-- Between the parts under the lock of the index, which are the steps, the size counter is the
sum of the recorded sizes and at most the capacity, and no subtraction from it has gone below
zero. -/
theorem accounting (jsonSize : HeaderMap → ℕ) (gib : UInt64) (t : State)
    (h : Reaches (step jsonSize) (State.initial gib) t) :
    t.layer.currentSize.toNat = total entrySize t.layer.index ∧
      t.layer.currentSize ≤ t.layer.maxSizeBytes ∧ t.underflow = false := by
  obtain ⟨haccounted, -⟩ := accounted_of_reaches h
  exact ⟨haccounted.sum, haccounted.within, haccounted.sound⟩

/-- Length of a header list as JSON, without characters that need an escape. -/
def sampleJsonSize (headers : HeaderMap) : ℕ :=
  (headers.map fun h => h.1.utf8ByteSize + h.2.utf8ByteSize + 8).sum + 1

/-- Two bodies for one key. -/
def threeBytes : PutArgs := { key := "k", bytes := [1, 2, 3] }

def twoBytes : PutArgs := { key := "k", bytes := [4, 5] }

/-- Two overlapping `put`s of one key, of three bytes and of two, the second of which registers
last, and a purge of the key afterwards. -/
def overlappingPuts : List Action :=
  [.call (.put threeBytes), .call (.put twoBytes),
    .step 0, .step 0, .step 1, .step 0, .step 1, .step 0, .step 1, .step 0, .step 1, .step 1]

theorem accounting_overlapping :
    ∃ s t : State, s.layer.currentSize = 2 ∧ s.layer.currentSize.toNat = total entrySize s.layer.index ∧
      t.layer.currentSize = 0 ∧ t.layer.currentSize.toNat = total entrySize t.layer.index ∧
      t.underflow = false := by
  have hrun : (run (step sampleJsonSize) (State.initial 1) overlappingPuts).any (fun s =>
      decide (s.layer.currentSize = 2) &&
      (run (step sampleJsonSize) s [.call (.purgeByKey "k"), .step 2]).any fun t =>
        decide (t.layer.currentSize = 0)) = true := by
    decide +kernel
  obtain ⟨s, hs, hrun⟩ := exists_trace_of_run hrun
  obtain ⟨hsize, hrun⟩ := Bool.and_eq_true_iff.mp hrun
  obtain ⟨t, ht, hzero⟩ := exists_trace_of_run hrun
  obtain ⟨hsum, -, -⟩ := accounting sampleJsonSize 1 s hs.reaches
  obtain ⟨hsum', -, hsound⟩ := accounting sampleJsonSize 1 t (hs.append ht).reaches
  exact ⟨s, t, of_decide_eq_true hsize, hsum, of_decide_eq_true hzero, hsum', hsound⟩

end Disk

end SmartSchoolCdn
