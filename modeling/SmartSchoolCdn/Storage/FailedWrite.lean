import SmartSchoolCdn.Storage.Accounting
import SmartSchoolCdn.Storage.Grpc

/-!
# A body write that fails

`put` writes straight into the file of the live entry and, when the write fails, returns without
touching the index.  The entry then comes with a truncated body, unless the write failed before
it opened the file or there is no entry left (`failed_write_harmless_iff`).
-/

namespace SmartSchoolCdn.CacheLayer

open FiniteMaps

/-- A failed write of a body file, which has not opened the file or has truncated it and written
a prefix of the body. -/
def failWrite (c : CacheLayer Bytes) (key : String) (bytes : Bytes) (written : Option ℕ) :
    CacheLayer Bytes :=
  match written with
  | none => c
  | some n => { c with files := c.files.insert key (bytes.take n) }

/-- `put` when its body write fails: room has been made, and nothing else follows. -/
def putFailing (c : CacheLayer Bytes) (key : String) (bytes : Bytes) (written : Option ℕ) :
    CacheLayer Bytes :=
  if blobSize bytes > c.maxSizeBytes then c
  else (c.reserve (blobSize bytes)).failWrite key bytes written

/-- The keys that `put` evicts to make room for a body. -/
def evictedFor {β : Type} (c : CacheLayer β) (size : UInt64) : List String :=
  if c.currentSize + size > c.maxSizeBytes then
    evictVictims (c.currentSize + size - c.maxSizeBytes) 0 c.evictOrder
  else []

/-- The failed write does no harm: `put` does not come to write, or has not opened the file, or
the key has no entry or loses it to the eviction, or what was written is the previous body. -/
def Harmless (c : CacheLayer Bytes) (key : String) (bytes : Bytes) (written : Option ℕ) : Prop :=
  c.maxSizeBytes < blobSize bytes ∨ written = none ∨ c.index.lookup key = none ∨
    key ∈ c.evictedFor (blobSize bytes) ∨
      ∃ n, written = some n ∧ c.files.lookup key = some (bytes.take n)

instance (c : CacheLayer Bytes) (key : String) (bytes : Bytes) (written : Option ℕ) :
    Decidable (c.Harmless key bytes written) :=
  have : Decidable (∃ n, written = some n ∧ c.files.lookup key = some (bytes.take n)) :=
    match written with
    | none => .isFalse (by simp)
    | some n => decidable_of_iff (c.files.lookup key = some (bytes.take n)) (by simp)
  inferInstanceAs (Decidable (_ ∨ _ ∨ _ ∨ _ ∨ _))

/-- The request is a `put` of the key. -/
def isPutOf (key : String) : StorageRequest Bytes → Bool
  | .put k .. => k == key
  | _ => false

/-- The layer after requests that have arrived at their times. -/
def serveAll (c : CacheLayer Bytes) (requests : List (Time × StorageRequest Bytes)) : CacheLayer Bytes :=
  requests.foldl (fun c r => (c.serve r.1 r.2).2) c

/-! ## Making room -/

section Reserve

variable {β : Type} {c : CacheLayer β} {size : UInt64} {k : String}

lemma reserve_eq : c.reserve size = c.removeKeys (c.evictedFor size) := by
  unfold reserve evictedFor
  split <;> rfl

/-- Making room removes the entries of the evicted keys. -/
lemma index_reserve :
    (c.reserve size).index.lookup k = if k ∈ c.evictedFor size then none else c.index.lookup k := by
  rw [reserve_eq, removeKeys, (deleteFiles_spec _ _).1]
  exact (dropEntries_spec _ c).1 k

/-- Making room keeps the files of the other keys. -/
lemma files_reserve (hk : k ∉ c.evictedFor size) :
    (c.reserve size).files.lookup k = c.files.lookup k ∧
      (c.reserve size).brFiles.lookup k = c.brFiles.lookup k := by
  obtain ⟨hfiles, hbr⟩ := (deleteFiles_spec (c.evictedFor size) ((c.evictedFor size).foldl dropEntry c)).2 k hk
  obtain ⟨-, hfiles', hbr'⟩ := dropEntries_spec (c.evictedFor size) c
  rw [reserve_eq, removeKeys, hfiles, hbr, hfiles', hbr']
  exact ⟨rfl, rfl⟩

/-- Removing keys keeps the balance. -/
lemma Balanced.removeKeys (h : c.Balanced) (keys : List String) : (c.removeKeys keys).Balanced := by
  have hdrop : ∀ (keys : List String) (c : CacheLayer β), c.Balanced → (keys.foldl CacheLayer.dropEntry c).Balanced := by
    intro keys
    induction keys with
    | nil => exact fun c h => h
    | cons key keys ih => exact fun c h => ih _ (h.dropEntry key).1
  have hdelete : ∀ (keys : List String) (c : CacheLayer β), c.Balanced → (keys.foldl deleteFiles c).Balanced := by
    intro keys
    induction keys with
    | nil => exact fun c h => h
    | cons key keys ih => exact fun c h => ih (c.deleteFiles key) h
  exact hdelete keys _ (hdrop keys c h)

end Reserve

/-! ## Later requests -/

variable {c : CacheLayer Bytes} {key k : String} {bytes : Bytes} {written : Option ℕ}

/-- Requests that save nothing under a key keep its content or remove it. -/
lemma stored_serveAll (requests : List (Time × StorageRequest Bytes))
    (h : ∀ r ∈ requests, isPutOf key r.2 = false) :
    (c.serveAll requests).stored key = none ∨ (c.serveAll requests).stored key = c.stored key := by
  induction requests generalizing c with
  | nil => exact .inr rfl
  | cons r requests ih =>
    have hfirst : (c.serve r.1 r.2).2.stored key = none ∨ (c.serve r.1 r.2).2.stored key = c.stored key := by
      rcases stored_serve c r.1 r.2 key with hnone | hsame | ⟨url, domain, ct, body, ttl, br, headers, hput, -⟩
      · exact .inl hnone
      · exact .inr hsame
      · have hr := h r List.mem_cons_self
        rw [hput] at hr
        simp [isPutOf] at hr
    have hrest : ((c.serve r.1 r.2).2.serveAll requests).stored key = none ∨
        ((c.serve r.1 r.2).2.serveAll requests).stored key = (c.serve r.1 r.2).2.stored key :=
      ih fun r' hr' => h r' (List.mem_cons_of_mem _ hr')
    rcases hrest with hnone | hsame
    · exact .inl hnone
    · rcases hfirst with hnone | hfirst
      · exact .inl (hsame.trans hnone)
      · exact .inr (hsame.trans hfirst)

/-- The content of a key has the body of its file. -/
lemma file_of_stored {x : Stored Bytes} (h : c.stored key = some x) : c.files.lookup key = some x.body := by
  obtain ⟨e, -, h⟩ := Option.bind_eq_some_iff.mp h
  obtain ⟨body, hbody, rfl⟩ := Option.map_eq_some_iff.mp h
  exact hbody

/-- After a harmless failure the key has its previous content or none. -/
lemma stored_putFailing (h : c.Harmless key bytes written) :
    (c.putFailing key bytes written).stored key = none ∨
      (c.putFailing key bytes written).stored key = c.stored key := by
  unfold putFailing
  split
  · exact .inr rfl
  · rename_i hfits
    have hroom := stored_reserve c (blobSize bytes) key
    cases written with
    | none => exact hroom
    | some n =>
      rcases h with hlarge | hnone | hnone | hevicted | ⟨m, hm, hbody⟩
      · exact absurd hlarge hfits
      · cases hnone
      · left
        refine stored_eq_none_of_index ?_
        change (c.reserve (blobSize bytes)).index.lookup key = none
        rw [index_reserve, hnone, ite_self]
      · left
        refine stored_eq_none_of_index ?_
        change (c.reserve (blobSize bytes)).index.lookup key = none
        rw [index_reserve, if_pos hevicted]
      · cases hm
        by_cases hevicted : key ∈ c.evictedFor (blobSize bytes)
        · left
          refine stored_eq_none_of_index ?_
          change (c.reserve (blobSize bytes)).index.lookup key = none
          rw [index_reserve, if_pos hevicted]
        · right
          refine stored_congr ?_ ?_ (files_reserve hevicted).2
          · change (c.reserve (blobSize bytes)).index.lookup key = _
            rw [index_reserve, if_neg hevicted]
          · rw [hbody]
            exact AList.lookup_insert _

/-- After a failure that is not harmless the key has a truncated body that was not its own. -/
lemma stored_putFailing_of_harm (h : ¬ c.Harmless key bytes written) : ∃ n x, written = some n ∧
    (c.putFailing key bytes written).stored key = some x ∧ x.body = bytes.take n ∧
      c.files.lookup key ≠ some (bytes.take n) := by
  unfold Harmless at h
  simp only [not_or, not_exists, not_and] at h
  obtain ⟨hfits, hwritten, hentry, hkept, hbody⟩ := h
  obtain ⟨n, rfl⟩ := Option.ne_none_iff_exists'.mp hwritten
  obtain ⟨e, he⟩ := Option.ne_none_iff_exists'.mp hentry
  have hindex : (c.putFailing key bytes (some n)).index.lookup key = some e := by
    rw [putFailing, if_neg hfits]
    change (c.reserve (blobSize bytes)).index.lookup key = some e
    rw [index_reserve, if_neg hkept, he]
  have hfile : (c.putFailing key bytes (some n)).files.lookup key = some (bytes.take n) := by
    rw [putFailing, if_neg hfits]
    exact AList.lookup_insert _
  refine ⟨n, combine e (bytes.take n) ((c.putFailing key bytes (some n)).brFiles.lookup key), rfl, ?_, rfl,
    hbody n rfl⟩
  rw [stored_of_index hindex, hfile, Option.map_some]

/-- The counter stays the sum of the recorded sizes. -/
lemma Balanced.putFailing (h : c.Balanced) : (c.putFailing key bytes written).Balanced := by
  unfold CacheLayer.putFailing
  split
  · exact h
  · have hreserve : (c.reserve (blobSize bytes)).Balanced := by
      rw [reserve_eq]
      exact h.removeKeys _
    cases written <;> exact hreserve

/-- After a `put` with a failed body write the counter is still the sum of the recorded sizes;
and every later lookup of the key, before the next `put` of it, finds the previous copy or
nothing exactly when the failure is harmless. -/
theorem failed_write_harmless_iff (c : CacheLayer Bytes) (key : String) (bytes : Bytes)
    (written : Option ℕ) (hbalanced : c.Balanced) :
    ((c.putFailing key bytes written).Balanced ∧
      ∀ (later : List (Time × StorageRequest Bytes)) (now : Time) (allowStale : Bool),
        (∀ r ∈ later, isPutOf key r.2 = false) →
          let answer := (((c.putFailing key bytes written).serveAll later).getWithStale now key allowStale).1
          answer = none ∨ ∃ x, c.stored key = some x ∧ answer = some (x.toLookup now)) ↔
      c.Harmless key bytes written := by
  constructor
  · rintro ⟨-, hanswers⟩
    by_contra hharm
    obtain ⟨n, x, rfl, hx, hbody, hother⟩ := stored_putFailing_of_harm hharm
    have hanswer := getWithStale_fst (c.putFailing key bytes (some n)) 0 key true
    simp only [hx, Bool.not_true, Bool.and_false, Bool.not_false, Option.filter_some, if_true,
      Option.map_some] at hanswer
    rcases hanswers [] 0 true (by simp) with hnone | ⟨y, hy, hfound⟩
    · have hnone' : ((c.putFailing key bytes (some n)).getWithStale 0 key true).1 = none := hnone
      rw [hanswer] at hnone'
      cases hnone'
    · have hfound' : ((c.putFailing key bytes (some n)).getWithStale 0 key true).1 = some (y.toLookup 0) := hfound
      rw [hanswer, Option.some.injEq] at hfound'
      have hsame : x.body = y.body := congrArg Lookup.body hfound'
      refine hother ?_
      rw [← hbody, hsame]
      exact file_of_stored hy
  · intro hharmless
    refine ⟨hbalanced.putFailing, fun later now allowStale hlater => ?_⟩
    simp only [getWithStale_fst]
    have hstored : ((c.putFailing key bytes written).serveAll later).stored key = none ∨
        ((c.putFailing key bytes written).serveAll later).stored key = c.stored key := by
      rcases stored_serveAll later hlater with hnone | hsame
      · exact .inl hnone
      · rw [hsame]
        exact stored_putFailing hharmless
    rcases hstored with hnone | hsame
    · left
      rw [hnone]
      rfl
    · rw [hsame]
      cases hx : c.stored key with
      | none => exact .inl rfl
      | some x =>
        by_cases hkept : !(x.isExpired now && !allowStale)
        · right
          exact ⟨x, rfl, by simp [Option.filter, hkept]⟩
        · left
          simp [Option.filter, hkept]

/-- A layer with one copy of three bytes. -/
def oneCopy : CacheLayer Bytes :=
  (new 1024).put 0 "k" "https://a.test/k" "a.test" (some "text/plain") [1, 2, 3] none none []

theorem failed_write_harmless_unopened : oneCopy.Balanced ∧ oneCopy.stored "k" ≠ none ∧
    (((oneCopy.putFailing "k" [4, 5] none).serveAll []).getWithStale 0 "k" false).1 ≠ none ∧
      (oneCopy.putFailing "k" [4, 5] none).Balanced := by
  have hbalanced : oneCopy.Balanced := by
    unfold Balanced
    decide +kernel
  have hharmless : oneCopy.Harmless "k" [4, 5] none := .inr (.inl rfl)
  obtain ⟨hafter, -⟩ := (failed_write_harmless_iff oneCopy "k" [4, 5] none hbalanced).mpr hharmless
  refine ⟨hbalanced, ?_, ?_, hafter⟩
  · exact Option.ne_none_iff_isSome.mpr (by decide +kernel)
  · exact Option.ne_none_iff_isSome.mpr (by decide +kernel)

/-- A write that fails after one byte leaves that byte under the metadata of the previous copy. -/
theorem failed_write_truncates : ∃ l,
    ((oneCopy.putFailing "k" [4, 5] (some 1)).getWithStale 0 "k" false).1 = some l ∧ l.body = [4] ∧
      l.contentType = some "text/plain" ∧ (oneCopy.stored "k").map Stored.body = some [1, 2, 3] := by
  have hanswer : ((oneCopy.putFailing "k" [4, 5] (some 1)).getWithStale 0 "k" false).1.any (fun l =>
      decide (l.body = [4] ∧ l.contentType = some "text/plain" ∧
        (oneCopy.stored "k").map Stored.body = some [1, 2, 3])) = true := by
    decide +kernel
  obtain ⟨l, hl, hfacts⟩ := (Option.any_eq_true _ _).mp hanswer
  exact ⟨l, hl, of_decide_eq_true hfacts⟩

end SmartSchoolCdn.CacheLayer
