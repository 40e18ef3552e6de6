import SmartSchoolCdn.Proxy.Answers

/-!
# If-Range

The proxy fetches whole bodies: it strips `Range` and `If-Range` from the request to the origin and
cuts the range of the client out of what it has.  `If-Range` is looked at nowhere, so a
client that resumes a download with the validator of an older version is sent a part of the new one
(`stale_validator_sliced`).  The whole representation is sent exactly when the `Range` header
is not one that the proxy follows, or when the fetched response is not a 200
(`if_range_whole_iff`).
-/

namespace SmartSchoolCdn

open Traces

variable {cfg : Config} {s s' : State} {a : Action}

/-! ## Representations and validators -/

/-- What a cache level or a coalesced fetch has to send for a URL. -/
structure Representation where
  status : ℕ
  headers : HeaderMap
  body : Bytes

/-- The representation in a cached entry. -/
def MemoryCacheEntry.representation (e : MemoryCacheEntry) : Representation :=
  { status := 200, headers := e.cachedHeaders, body := e.body.bytes }

/-- The representation in the result of a coalesced fetch. -/
def Coalesced.representation (r : Coalesced) : Representation :=
  { status := r.status, headers := r.cachedHeaders ++ r.passthroughHeaders, body := r.body }

/-- The representation that an answer of a cache level or of a coalesced fetch is about. -/
def Via.representation : Via → Option Representation
  | .l1Hit slot => some slot.entry.representation
  | .l2Hit x lookedUpAt => some (x.seen lookedUpAt).toEntry.representation
  | .coalesced _ result => result.response.map Coalesced.representation
  | .own => none

/-- The validator names the representation: it is its `ETag`, which must not be a weak one, or
its `Last-Modified`. -/
def Representation.validatedBy (rep : Representation) (validator : String) : Bool :=
  (rep.headers.get "etag" == some validator && (Text.stripHead validator "W/").isNone)
    || rep.headers.get "last-modified" == some validator

/-- The response is the whole representation. -/
structure Response.Whole (rep : Representation) (sent : Response) : Prop where
  status : sent.status = rep.status
  body : sent.body = rep.body

/-! ## One response -/

/-- The whole body is sent unless the `Range` header is one that the parser follows. -/
lemma evaluateRange_eq_full_iff (headers : HeaderMap) (totalSize : ℕ) :
    evaluateRange headers totalSize = .full ↔
      (headers.getStr "range").bind parseByteRange = none := by
  unfold evaluateRange
  cases hraw : headers.getStr "range" with
  | none => simp
  | some raw =>
    cases hrange : parseByteRange raw with
    | none => simp [hrange]
    | some range =>
      cases hresolve : resolveRange range totalSize with
      | none => simp [hrange, hresolve]
      | some part => simp [hrange, hresolve]

/-- A HIT of a GET with a `Range` header. -/
lemma whole_hitResponse_iff (cfg : Config) (reason : CacheOutcome) {req : Request} (entry : MemoryCacheEntry)
    (hmethod : req.method = .get) (hrange : (req.headers.get "range").isSome = true) :
    (hitResponse cfg reason req entry).Whole entry.representation ↔
      (req.headers.getStr "range").bind parseByteRange = none := by
  rw [← evaluateRange_eq_full_iff req.headers entry.body.bytes.length]
  constructor
  · rintro ⟨hstatus, -⟩
    simp only [hitResponse, hitBody, MemoryCacheEntry.representation] at hstatus
    cases hpart : evaluateRange req.headers entry.body.bytes.length with
    | full => rfl
    | partialBody start stop => simp [hpart] at hstatus
    | invalid => simp [hpart] at hstatus
  · intro hfull
    -- a request with a `Range` header gets no content coding
    constructor
    · simp [hitResponse, hitBody, hfull, MemoryCacheEntry.representation]
    · simp [hitResponse, hitBody, hfull, hmethod, hrange, selectEncodedBody,
        MemoryCacheEntry.representation]

/-- A response of a coalesced fetch. -/
lemma whole_missResponse_iff (req : Request) (r : Coalesced) :
    (missResponse req r).Whole r.representation ↔
      r.status ≠ 200 ∨ (req.headers.getStr "range").bind parseByteRange = none := by
  rw [← evaluateRange_eq_full_iff req.headers r.body.length]
  by_cases hstatus : r.status = 200
  · constructor
    · rintro ⟨hsent, -⟩
      simp only [missResponse, missBody, hstatus, Coalesced.representation] at hsent
      cases hpart : evaluateRange req.headers r.body.length with
      | full => exact Or.inr rfl
      | partialBody start stop => simp [hpart] at hsent
      | invalid => simp [hpart] at hsent
    · intro hfull
      have hfull := hfull.resolve_left (not_not_intro hstatus)
      constructor <;> simp [missResponse, missBody, hstatus, hfull, Coalesced.representation]
  · refine iff_of_true ?_ (Or.inl hstatus)
    constructor <;> simp [missResponse, missBody, hstatus, Coalesced.representation]

/-! ## All answers -/

/-- The answer is the response that `proxy_handler` builds for its representation. -/
def Answer.Built (cfg : Config) (ans : Answer) : Prop :=
  match ans.via with
  | .l1Hit slot => ans.response = hitResponse cfg .l1Hit ans.request slot.entry
  | .l2Hit x lookedUpAt =>
    ans.response = hitResponse cfg .l2Hit ans.request (x.seen lookedUpAt).toEntry
  | .coalesced _ result => ans.response = coalescedAnswer ans.request result
  | .own => True

/-- Every answer is sent so. -/
lemma Replies.built {ans : Answer} (h : Replies cfg s a ans) : ans.Built cfg := by
  cases h with
  | own => trivial
  | l1Hit => exact rfl
  | l2Hit => exact rfl
  | coalesced => exact rfl

/-- Every answer of a run is built so. -/
lemma built_of_run {C : State → Action → Prop} {maxSizeBytes : UInt64} {t : State} {as : List Action}
    (h : Trace (step cfg) C (State.initial maxSizeBytes) as t) : ∀ ans ∈ t.answers, ans.Built cfg := by
  refine answers_of_trace (I := fun _ => True) (Q := fun _ ans => ans.Built cfg) h ?_ ?_ ?_ trivial ?_
  · exact fun _ _ _ _ _ _ => trivial
  · exact fun _ _ _ _ _ hans => hans
  · exact fun _ _ _ _ _ _ _ hreply => hreply.built
  · exact fun ans hans => absurd hans (by simp [State.initial])

/-- A GET with a `Range` header is sent the whole representation exactly when the header is not one
that the parser follows, or the fetched response is not a 200. -/
lemma Answer.Built.whole_iff {ans : Answer} (h : ans.Built cfg) {rep : Representation}
    (hrep : ans.via.representation = some rep) (hmethod : ans.request.method = .get)
    (hrange : (ans.request.headers.get "range").isSome = true) :
    ans.response.Whole rep ↔
      rep.status ≠ 200 ∨ (ans.request.headers.getStr "range").bind parseByteRange = none := by
  unfold Answer.Built at h
  cases hvia : ans.via with
  | l1Hit slot =>
    rw [hvia] at h hrep
    obtain rfl := Option.some.inj hrep
    rw [h, whole_hitResponse_iff cfg .l1Hit slot.entry hmethod hrange]
    simp [MemoryCacheEntry.representation]
  | l2Hit x lookedUpAt =>
    rw [hvia] at h hrep
    obtain rfl := Option.some.inj hrep
    rw [h, whole_hitResponse_iff cfg .l2Hit _ hmethod hrange]
    simp [MemoryCacheEntry.representation]
  | coalesced leader result =>
    rw [hvia] at h hrep
    obtain ⟨r, hr, rfl⟩ := Option.map_eq_some_iff.mp hrep
    have hresp : ans.response = missResponse ans.request r := by
      rw [h, coalescedAnswer, hr]
    rw [hresp, whole_missResponse_iff]
    exact Iff.rfl
  | own =>
    rw [hvia] at hrep
    cases hrep

/-- The answer of a GET with a range and a validator that does not name its representation. -/
structure Answer.Resumes (ans : Answer) (rep : Representation) (validator : String) : Prop where
  representation : ans.via.representation = some rep
  method : ans.request.method = .get
  range : (ans.request.headers.get "range").isSome = true
  ifRange : ans.request.headers.get "if-range" = some validator
  stale : rep.validatedBy validator = false

/-- In every run, a GET with a `Range` header and an `If-Range` validator that does not name the
representation, answered from a cache level or by a coalesced fetch, is sent the whole
representation if and only if the range is not one that the proxy follows, or the fetched
response is not a 200. -/
theorem if_range_whole_iff (cfg : Config) (maxSizeBytes : UInt64) (t : State) (as : List Action)
    (h : Trace (step cfg) Free (State.initial maxSizeBytes) as t) :
    ∀ ans ∈ t.answers, ∀ rep validator, ans.Resumes rep validator →
      (ans.response.Whole rep ↔
        rep.status ≠ 200 ∨ (ans.request.headers.getStr "range").bind parseByteRange = none) := by
  -- the validator plays no part in the proof: `proxy_handler` never reads it
  intro ans hans rep validator hresumes
  exact (built_of_run h ans hans).whole_iff hresumes.representation hresumes.method hresumes.range

/-- A client asks for the rest of a video with the validator of an older version, and so does
another one after the background save. -/
def resumeActions (range : String) : List Action :=
  [sampleDomains, .arrive (sampleRequest .get "/clip.mp4" [("range", range), ("if-range", "\"v1\"")])]
    ++ missActions 0
    ++ fetchActions 0 200 [("content-type", "video/mp4"), ("etag", "\"v2\"")] [1, 2, 3]
    ++ [.publish 0, .respond 0] ++ saveActions 0
    ++ [.arrive (sampleRequest .get "/clip.mp4" [("range", range), ("if-range", "\"v1\"")]), .l1Get 1]

/-- The test for such an answer about a 200. -/
def Answer.resumes (ans : Answer) : Bool :=
  decide (ans.request.method = .get) && (ans.request.headers.get "range").isSome
    && (ans.request.headers.get "if-range").any fun validator =>
      ans.via.representation.any fun rep => rep.status == 200 && !rep.validatedBy validator

/-- The test finds such answers only. -/
lemma resumes_of_test {ans : Answer} (h : ans.resumes = true) :
    ∃ rep validator, ans.Resumes rep validator ∧ rep.status = 200 := by
  simp only [Answer.resumes, Bool.and_eq_true, Option.any_eq_true, decide_eq_true_eq, beq_iff_eq,
    Bool.not_eq_true'] at h
  obtain ⟨⟨hmethod, hrange⟩, validator, hvalidator, rep, hrep, hstatus, hstale⟩ := h
  exact ⟨rep, validator, ⟨hrep, hmethod, hrange, hvalidator, hstale⟩, hstatus⟩

/-- Both of them are sent a part of the new version, from the fetch and from the memory cache. -/
theorem stale_validator_sliced :
    ∃ t, Trace (step sampleConfig) Free (State.initial 1000000) (resumeActions "bytes=1-") t ∧
      t.answers.length = 2 ∧ ∀ ans ∈ t.answers, ∃ rep validator, ans.Resumes rep validator ∧
        rep.status = 200 ∧ ans.response.status = 206 ∧ ¬ ans.response.Whole rep := by
  have hrun : ((run (step sampleConfig) sampleStart (resumeActions "bytes=1-")).any fun t =>
      t.answers.length == 2 && t.answers.all fun ans =>
        ans.resumes && decide (ans.response.status = 206)) = true := by
    decide +kernel
  obtain ⟨t, ht, hall⟩ := exists_trace_of_run hrun
  simp only [Bool.and_eq_true, List.all_eq_true, decide_eq_true_eq, beq_iff_eq] at hall
  refine ⟨t, ht, hall.1, fun ans hans => ?_⟩
  obtain ⟨hresumes, hsent⟩ := hall.2 ans hans
  obtain ⟨rep, validator, hrep, hstatus⟩ := resumes_of_test hresumes
  refine ⟨rep, validator, hrep, hstatus, hsent, ?_⟩
  rintro ⟨hwhole, -⟩
  omega

/-- A client that asks for two parts at once is sent the whole video. -/
theorem if_range_whole_two_parts :
    ∃ t, Trace (step sampleConfig) Free (State.initial 1000000) (resumeActions "bytes=0-0,2-2") t ∧
      t.answers.length = 2 ∧ ∀ ans ∈ t.answers, ∃ rep, ans.via.representation = some rep ∧
        ans.response.Whole rep := by
  have hrun : ((run (step sampleConfig) sampleStart (resumeActions "bytes=0-0,2-2")).any fun t =>
      t.answers.length == 2 && t.answers.all fun ans => ans.resumes &&
        ((ans.request.headers.getStr "range").bind parseByteRange).isNone) = true := by
    decide +kernel
  obtain ⟨t, ht, hall⟩ := exists_trace_of_run hrun
  simp only [Bool.and_eq_true, List.all_eq_true, Option.isNone_iff_eq_none, beq_iff_eq] at hall
  refine ⟨t, ht, hall.1, fun ans hans => ?_⟩
  obtain ⟨hresumes, hrange⟩ := hall.2 ans hans
  obtain ⟨rep, validator, hrep, -⟩ := resumes_of_test hresumes
  refine ⟨rep, hrep.representation, ?_⟩
  exact (if_range_whole_iff sampleConfig 1000000 t _ ht ans hans rep validator hrep).mpr (Or.inr hrange)

end SmartSchoolCdn
