import SmartSchoolCdn.Proxy.Labels
import SmartSchoolCdn.Proxy.Purge

/-!
# Purges of one URL on the two cache levels

A purge of type `url` names an entry twice.  The memory cache is cleared under the cache key
of the target, which is made of the normalised host, the path and the query.  The storage
removes the copies whose recorded URL is the target, and the save path writes that URL as
`https://`, the normalised host, and the URI of the request line.

The two agree for a target that is written exactly like that.  Another scheme, an upper case
letter or a port in the host, a missing path, an empty query or a request line in absolute
form leave the copy in the storage (`purge_url_out_of_step`).
-/

namespace SmartSchoolCdn

open Traces

variable {cfg : Config} {s w v : State} {u key : String}

/-- The purge of one URL. -/
def urlPurge (u : String) : PurgeCall := .cache { type := "url", target := some u }

/-- What a purge of the URL with a cache key should do to the storage: the copy under the key
is gone, and every other copy is as it was. -/
structure PurgedInStep (key : String) (before after : CacheLayer Copy) : Prop where
  removed : after.stored key = none
  others : ∀ k, k ≠ key → after.stored k = before.stored k

/-- Of the stored copies, exactly the one under the key was saved for a request whose URL is
written `u`. -/
def RecordedAs (storage : CacheLayer Copy) (key u : String) : Prop :=
  ∀ k x, storage.stored k = some x → (x.body.source.fullUrl = u ↔ k = key)

/-- The state in which a purge of one URL finds the storage: with an answer the spelling has
to be the recorded one, without an answer there must be nothing to remove. -/
def PurgeAgrees (storage : CacheLayer Copy) (key u : String) (answered : Bool) : Prop :=
  if answered then RecordedAs storage key u else storage.stored key = none

/-- The storage removes by the recorded URL, so it removes the copy under the key and no other
exactly when only that copy is recorded under the target. -/
lemma purgedInStep_purgeByUrl_iff {storage : CacheLayer Copy}
    (hurl : ∀ k x, storage.stored k = some x → x.url = x.body.source.fullUrl) :
    PurgedInStep key storage (storage.purgeByUrl u).2.2 ↔ RecordedAs storage key u := by
  constructor
  · intro h k x hx
    constructor
    · intro hrecorded
      by_contra hne
      have hkept := h.others k hne
      rw [CacheLayer.stored_purgeByUrl, hx, Option.filter_eq_some_iff] at hkept
      simp [hurl k x hx, hrecorded] at hkept
    · rintro rfl
      have hgone := h.removed
      rw [CacheLayer.stored_purgeByUrl, Option.filter_eq_none_iff] at hgone
      simpa [hurl k x hx] using hgone x hx
  · intro h
    refine ⟨?_, fun k hne => ?_⟩
    · rw [CacheLayer.stored_purgeByUrl, Option.filter_eq_none_iff]
      intro x hx
      simp [hurl key x hx, (h key x hx).mpr rfl]
    · rw [CacheLayer.stored_purgeByUrl]
      cases hx : storage.stored k with
      | none => rfl
      | some x =>
        have hother : x.body.source.fullUrl ≠ u := fun heq => hne ((h k x hx).mp heq)
        simp [hurl k x hx, hother]

/-- Without a call nothing changes, which is in step when there is nothing to remove. -/
lemma purgedInStep_self_iff {storage : CacheLayer Copy} :
    PurgedInStep key storage storage ↔ storage.stored key = none :=
  ⟨fun h => h.removed, fun h => ⟨h, fun _ _ => rfl⟩⟩

/-- The storage after the second half of a purge of one URL. -/
lemma storage_purgeFinish_urlPurge {id : ℕ} (hu : u ≠ "") (answered : Bool) :
    (w.purgeFinish id (urlPurge u) answered).storage =
      if answered then (w.storage.purgeByUrl u).2.2 else w.storage := by
  have htarget : purgeTarget (urlPurge u) = some (.url u) := by
    simp [purgeTarget, urlPurge, hu]
  cases answered with
  | true => simp [State.purgeFinish, State.callPurge, htarget, State.attempt, State.execute,
      CacheLayer.serve]
  | false => simp [State.purgeFinish, State.callPurge, htarget, State.attempt]

/-- A purge of type `url` that invalidates a key in the memory cache removes the copy under
that key from the storage, and no other, exactly when the storage answers and has recorded
that copy, and no other, under the very string of the target (or, without an answer, when
there is no such copy). -/
theorem purge_url_in_step_iff (cfg : Config) (maxSizeBytes : UInt64) (u key : String)
    (answered : Bool) (s w v : State) (as : List Action)
    (hs : Reaches (step cfg) (State.initial maxSizeBytes) s)
    (hkey : urlPurgeKey cfg (some u) = some key)
    (hwait : Trace (step cfg) Free (s.purgeBegin cfg (urlPurge u)) as w)
    (hfinish : step cfg w (.purgeFinish s.nextId answered) = some v) :
    PurgedInStep key w.storage v.storage ↔ PurgeAgrees w.storage key u answered := by
  have hu : u ≠ "" := by
    rintro rfl
    simp [urlPurgeKey, Option.filter] at hkey
  have hw : Reaches (step cfg) (State.initial maxSizeBytes) w := by
    have hbegin : step cfg s (.purgeBegin (urlPurge u)) = some (s.purgeBegin cfg (urlPurge u)) := rfl
    exact hs.trans (Trace.cons (C := Free) trivial hbegin hwait).reaches
  have hlabels : ∀ k x, w.storage.stored k = some x → x.url = x.body.source.fullUrl :=
    fun k x hx => ((labels_of_reaches hw).stored k x hx).1.url
  have hhandler : ∀ c, w.purges s.nextId = some c → c = urlPurge u := by
    refine purge_of_begin hwait (Nat.lt_succ_self _) fun c hc => ?_
    simpa [State.purgeBegin, eq_comm] using hc
  cases step_cases hfinish with
  | purgeFinish hcall =>
    obtain rfl := hhandler _ hcall
    rw [storage_purgeFinish_urlPurge hu]
    cases answered with
    | true => exact purgedInStep_purgeByUrl_iff hlabels
    | false => exact purgedInStep_self_iff

/-! ## Sample runs -/

/-- The URI parser on absolute URLs without user information and fragment. -/
def sampleParseUri (text : String) : Option ParsedUri :=
  ((Text.stripHead text "https://").or (Text.stripHead text "http://")).bind fun rest =>
    let isHost := fun c : Char => c != '/' && c != '?'
    let authority := String.ofList (rest.toList.takeWhile isHost)
    let tail := String.ofList (rest.toList.dropWhile isHost)
    let path := Text.beforeFirst tail '?'
    if authority.isEmpty then none
    else
      some
        { authority := some authority
          path := if path.isEmpty then "/" else path
          query := (Text.splitOnce tail '?').map (·.2) }

/-- The sample deployment with that parser. -/
def urlConfig : Config := { sampleConfig with parseUri := sampleParseUri }

/-- A GET for an image that misses both levels, with its background save. -/
def savedActions (req : Request) : List Action :=
  [sampleDomains, .arrive req] ++ missActions 0
    ++ fetchActions 0 200 [("content-type", "image/png")] [1, 2, 3]
    ++ [.publish 0, .respond 0] ++ saveActions 0

/-- A saved request, and a purge of the URL that has the given cache key. -/
structure UrlPurgeRun where
  request : Request
  target : String
  key : String

/-- The image, requested in absolute form. -/
def absoluteLogo : Request :=
  { sampleRequest .get "/logo.png" [] with
    uri := { schemeAuthority := "http://a.test", path := "/logo.png", query := none } }

/-- Targets with the cache key of the saved copy in another spelling than the recorded one:
scheme, case, port, empty query, missing path, and a request line in absolute form; at the
end a target with another cache key in the spelling of the copy. -/
def misspelledRuns : List UrlPurgeRun :=
  [{ request := sampleRequest .get "/logo.png" []
     target := "http://a.test/logo.png"
     key := "GET:a.test/logo.png?" },
   { request := sampleRequest .get "/logo.png" []
     target := "https://A.TEST/logo.png"
     key := "GET:a.test/logo.png?" },
   { request := sampleRequest .get "/logo.png" []
     target := "https://a.test:443/logo.png"
     key := "GET:a.test/logo.png?" },
   { request := sampleRequest .get "/logo.png" []
     target := "https://a.test/logo.png?"
     key := "GET:a.test/logo.png?" },
   { request := sampleRequest .get "/" []
     target := "https://a.test"
     key := "GET:a.test/?" },
   { request := absoluteLogo
     target := "https://a.test/logo.png"
     key := "GET:a.test/logo.png?" },
   { request := absoluteLogo
     target := "https://a.testhttp://a.test/logo.png"
     key := "GET:a.testhttp//a.test/logo.png?" }]

/-- In the run the purge is answered, and it is not in step with the memory cache. -/
def UrlPurgeRun.OutOfStep (r : UrlPurgeRun) : Prop :=
  ∃ s v, Trace (step urlConfig) Free (State.initial 1000000) (savedActions r.request) s ∧
    urlPurgeKey urlConfig (some r.target) = some r.key ∧
    step urlConfig (s.purgeBegin urlConfig (urlPurge r.target)) (.purgeFinish s.nextId true) =
      some v ∧
    ¬ PurgedInStep r.key s.storage v.storage

/-- What being in step says about one key. -/
def inStepAt (key k : String) (before after : CacheLayer Copy) : Bool :=
  if k = key then (after.stored k).isNone
  else (after.stored k).isSome == (before.stored k).isSome

/-- A purge in step is so at every key. -/
lemma PurgedInStep.at {before after : CacheLayer Copy} (h : PurgedInStep key before after)
    (k : String) : inStepAt key k before after = true := by
  unfold inStepAt
  split
  · rename_i hk
    rw [hk, h.removed]
    rfl
  · rename_i hk
    rw [h.others k hk]
    exact beq_self_eq_true _

/-- In each of these runs the copy stays, or a copy under another key is removed. -/
theorem purge_url_out_of_step : misspelledRuns.Forall UrlPurgeRun.OutOfStep := by
  rw [List.forall_iff_forall_mem]
  intro r hr
  have hrun : ((run (step urlConfig) sampleStart (savedActions r.request)).any fun s =>
      decide (urlPurgeKey urlConfig (some r.target) = some r.key) &&
        (step urlConfig (s.purgeBegin urlConfig (urlPurge r.target))
          (.purgeFinish s.nextId true)).any fun v =>
            ["GET:a.test/logo.png?", "GET:a.test/?"].any fun k =>
              !inStepAt r.key k s.storage v.storage) = true := by
    revert r
    decide +kernel
  obtain ⟨s, hs, hrun⟩ := exists_trace_of_run hrun
  obtain ⟨hkey, hrun⟩ := Bool.and_eq_true_iff.mp hrun
  obtain ⟨v, hv, hrun⟩ := (Option.any_eq_true _ _).mp hrun
  obtain ⟨k, -, hk⟩ := List.any_eq_true.mp hrun
  refine ⟨s, v, hs, of_decide_eq_true hkey, hv, fun hstep => ?_⟩
  rw [hstep.at k] at hk
  cases hk

/-- Whether exactly the copy under the key is recorded under the URL. -/
def recordedAs (storage : CacheLayer Copy) (key u : String) : Bool :=
  storage.index.keys.all fun k =>
    (storage.stored k).all fun x => (x.body.source.fullUrl == u) == (k == key)

/-- The test looks at every copy. -/
lemma recordedAs_of_test {storage : CacheLayer Copy} (h : recordedAs storage key u = true) :
    RecordedAs storage key u := by
  intro k x hx
  have hmem : k ∈ storage.index.keys := by
    by_contra hnot
    rw [CacheLayer.stored_eq_none_of_index (AList.lookup_eq_none.mpr hnot)] at hx
    cases hx
  have htest := List.all_eq_true.mp h k hmem
  rw [hx, Option.all_some, beq_iff_eq] at htest
  rw [← beq_iff_eq, htest, beq_iff_eq]

/-- A purge of the image in the recorded spelling is in step. -/
theorem purge_url_in_step_logo :
    ∃ s v, Trace (step urlConfig) Free (State.initial 1000000)
      (savedActions (sampleRequest .get "/logo.png" [])) s ∧
      step urlConfig (s.purgeBegin urlConfig (urlPurge "https://a.test/logo.png"))
        (.purgeFinish s.nextId true) = some v ∧
      (s.storage.stored "GET:a.test/logo.png?").isSome = true ∧
      PurgedInStep "GET:a.test/logo.png?" s.storage v.storage := by
  have hrun : ((run (step urlConfig) sampleStart
      (savedActions (sampleRequest .get "/logo.png" []))).any fun s =>
      (s.storage.stored "GET:a.test/logo.png?").isSome &&
      recordedAs s.storage "GET:a.test/logo.png?" "https://a.test/logo.png" &&
        (step urlConfig (s.purgeBegin urlConfig (urlPurge "https://a.test/logo.png"))
          (.purgeFinish s.nextId true)).isSome) = true := by
    decide +kernel
  obtain ⟨s, hs, hrun⟩ := exists_trace_of_run hrun
  simp only [Bool.and_eq_true, Option.isSome_iff_exists] at hrun
  obtain ⟨⟨hstored, htest⟩, v, hv⟩ := hrun
  refine ⟨s, v, hs, hv, Option.isSome_iff_exists.mpr hstored, ?_⟩
  have hkey : urlPurgeKey urlConfig (some "https://a.test/logo.png") =
      some "GET:a.test/logo.png?" := by
    decide +kernel
  have hiff := purge_url_in_step_iff urlConfig 1000000 "https://a.test/logo.png"
    "GET:a.test/logo.png?" true s (s.purgeBegin urlConfig (urlPurge "https://a.test/logo.png")) v []
    hs.reaches hkey (Trace.nil _) hv
  exact hiff.mpr (recordedAs_of_test htest)

end SmartSchoolCdn
