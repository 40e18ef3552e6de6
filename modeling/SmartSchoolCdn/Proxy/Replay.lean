import SmartSchoolCdn.Proxy.ContentCoding

/-!
# HITs replay stored responses

A cached entry has the body, the content type and the whitelisted headers of the origin response it
was made from, but not its status: a HIT is sent with status 200, while every successful status is
saved.  So a HIT repeats the MISS that delivered the same origin response exactly when that
MISS was sent with status 200 (`hit_replays_iff`).
-/

namespace SmartSchoolCdn

open Traces

variable {cfg : Config} {x : Exchange} {e : MemoryCacheEntry} {reason : CacheOutcome} {req : Request}

/-! ## The replayed headers -/

/-- The whitelisted headers of a response, without the `Vary: Accept-Encoding` that the proxy adds by
itself to the HITs of compressed entries. -/
def replayed (headers : HeaderMap) : HeaderMap :=
  headers.filter fun nv => cacheableHeaders.contains nv.1 && nv != ("vary", "Accept-Encoding")

/-- Header lists one after the other. -/
lemma replayed_append (h h' : HeaderMap) : replayed (h ++ h') = replayed h ++ replayed h' :=
  List.filter_append h h'

/-- Headers with names outside the whitelist are not replayed. -/
lemma replayed_eq_nil {headers : HeaderMap} (hnames : ∀ nv ∈ headers, nv.1 ∉ cacheableHeaders) :
    replayed headers = [] := by
  refine List.filter_eq_nil_iff.mpr fun nv hnv => ?_
  have hname := hnames nv hnv
  simp [hname]

/-- An optional header with a name outside the whitelist is not replayed. -/
lemma replayed_headerIf {name : String} (hname : name ∉ cacheableHeaders) (value : Option String) :
    replayed (headerIf name value) = [] := by
  refine replayed_eq_nil fun nv hnv => ?_
  unfold headerIf at hnv
  split at hnv
  · rw [List.mem_singleton.mp hnv]
    exact hname
  · cases hnv

/-- The extraction leaves out the `Vary` that the proxy adds by itself. -/
lemma vary_not_mem_extractCacheableHeaders (headers : HeaderMap) :
    ("vary", "Accept-Encoding") ∉ extractCacheableHeaders headers := by
  intro h
  have hmem := mem_of_mem_takeWithin h
  simp only [List.mem_flatMap, List.mem_filterMap, Option.bind_eq_some_iff] at hmem
  obtain ⟨wanted, -, value, -, v, -, hv⟩ := hmem
  split at hv
  · cases hv
  · rename_i hother
    obtain ⟨rfl, rfl⟩ := Prod.mk.inj (Option.some.inj hv)
    exact hother (by decide)

/-- All stored headers are replayed. -/
lemma replayed_extractCacheableHeaders (headers : HeaderMap) :
    replayed (extractCacheableHeaders headers) = extractCacheableHeaders headers := by
  refine List.filter_eq_self.mpr fun nv hnv => ?_
  have hname : nv.1 ∈ cacheableHeaders := name_mem_of_mem_extractCacheableHeaders hnv
  have hother : nv ≠ ("vary", "Accept-Encoding") :=
    fun heq => vary_not_mem_extractCacheableHeaders headers (heq ▸ hnv)
  simp [hname, hother]

/-- A MISS has the stored headers of its exchange. -/
lemma replayed_missResponse (req : Request) (x : Exchange) :
    replayed (missResponse req (originResponse x)).headers =
      extractCacheableHeaders x.response.headers := by
  have hdisjoint : ∀ name ∈ passthroughHeaders, name ∉ cacheableHeaders := by decide
  have hpassed : replayed (extractPassthroughHeaders x.response.headers) = [] :=
    replayed_eq_nil fun nv hnv => hdisjoint nv.1 (name_mem_of_mem_extractPassthroughHeaders hnv)
  simp only [missResponse, originResponse, replayed_append, hpassed,
    replayed_extractCacheableHeaders]
  rw [replayed_headerIf (by decide), replayed_headerIf (by decide)]
  simp [replayed, cacheableHeaders]

/-- A HIT has the stored headers of its entry. -/
lemma replayed_hitResponse {headers : HeaderMap} (cfg : Config) (reason : CacheOutcome) (req : Request)
    (h : e.cachedHeaders = extractCacheableHeaders headers) :
    replayed (hitResponse cfg reason req e).headers = extractCacheableHeaders headers := by
  have hvary : replayed (headerIf "vary" (if e.bodyBr.isSome then some "Accept-Encoding" else none)) =
      [] := by
    cases e.bodyBr.isSome <;> decide
  simp only [hitResponse, replayed_append, h, hvary, replayed_extractCacheableHeaders]
  rw [replayed_headerIf (by decide), replayed_headerIf (by decide), replayed_headerIf (by decide),
    replayed_headerIf (by decide)]
  simp [replayed, cacheableHeaders]

/-! ## The content type and the status -/

/-- The optimizer has replaced the image of the exchange in the entry. -/
def Optimised (cfg : Config) (x : Exchange) (e : MemoryCacheEntry) : Prop :=
  cfg.hasOptimizer = true ∧ shouldOptimize x.contentType = true ∧
    ∃ o, e = preparedEntry cfg x (some o) ∨ e = (preparedEntry cfg x (some o)).wire

/-- A stored response has a content type that is not empty. -/
lemma contentType_wire (hx : x.outcome = .miss) :
    ofWireText (x.contentType.getD "") = x.contentType := by
  have htype := ((originOutcome_eq_miss_iff _ _).mp hx).cacheableType
  have hempty : isCacheableContentType (contentTypeBase "") = false := by decide
  unfold ofWireText
  cases hct : x.contentType with
  | none => rfl
  | some ct =>
    rw [Option.getD_some]
    refine if_neg fun hct' => ?_
    obtain rfl := String.isEmpty_iff.mp hct'
    rw [show x.response.headers.getStr "content-type" = some "" from hct, Option.getD_some,
      hempty] at htype
    cases htype

/-- A save that the optimizer has no part in keeps the content type. -/
lemma preparedEntry_contentType (cfg : Config) (x : Exchange) {optimized : Option Optimized}
    (h : shouldOptimize x.contentType = false ∨ optimized = none) :
    (preparedEntry cfg x optimized).contentType = x.contentType := by
  simp only [preparedEntry, storeVariant]
  rcases h with himage | rfl
  · simp only [himage]
    grind
  · grind

/-- What an entry keeps of its exchange. -/
lemma Derives.keeps (h : Derives cfg x e) (hx : x.outcome = .miss) :
    e.cachedHeaders = extractCacheableHeaders x.response.headers ∧
      (e.contentType = x.contentType ∨ Optimised cfg x e) := by
  obtain ⟨optimized, hallowed, heq⟩ := h
  have htype : shouldOptimize x.contentType = false ∨ optimized = none →
      e.contentType = x.contentType := by
    intro hunchanged
    have hprepared := preparedEntry_contentType cfg x hunchanged
    rcases heq with rfl | rfl
    · exact hprepared
    · simp only [MemoryCacheEntry.wire, hprepared]
      exact contentType_wire hx
  constructor
  · rcases heq with rfl | rfl
    · exact preparedEntry_cachedHeaders cfg x optimized
    · exact preparedEntry_cachedHeaders cfg x optimized
  · cases optimized with
    | none => exact Or.inl (htype (Or.inr rfl))
    | some o =>
      by_cases himage : shouldOptimize x.contentType = true
      · exact Or.inr ⟨hallowed rfl, himage, o, heq⟩
      · exact Or.inl (htype (Or.inl (Bool.eq_false_iff.mpr himage)))

/-- A HIT has the content type of its entry. -/
lemma contentType_hitResponse (cfg : Config) (reason : CacheOutcome) (req : Request)
    (hheaders : ∀ nv ∈ e.cachedHeaders, nv.1 ∈ cacheableHeaders) :
    (hitResponse cfg reason req e).headers.get "content-type" = e.contentType := by
  have hnone : e.cachedHeaders.get "content-type" = none := get_of_whitelisted hheaders (by decide)
  simp only [hitResponse, HeaderMap.get_append, get_headerIf, hnone]
  simp [HeaderMap.get]

/-- A MISS has the content type of its exchange. -/
lemma contentType_missResponse (req : Request) (x : Exchange) :
    (missResponse req (originResponse x)).headers.get "content-type" = x.contentType := by
  have hcached : (extractCacheableHeaders x.response.headers).get "content-type" = none :=
    get_of_whitelisted (fun _ => name_mem_of_mem_extractCacheableHeaders) (by decide)
  have hpassed : (extractPassthroughHeaders x.response.headers).get "content-type" = none :=
    get_of_whitelisted (fun _ => name_mem_of_mem_extractPassthroughHeaders) (by decide)
  simp only [missResponse, originResponse, HeaderMap.get_append, get_headerIf, hcached, hpassed]
  simp [HeaderMap.get]

/-- A HIT of a request without a `Range` header is sent with status 200. -/
lemma status_hit_of_no_range (cfg : Config) (reason : CacheOutcome) (e : MemoryCacheEntry)
    (hrange : req.headers.get "range" = none) : (hitResponse cfg reason req e).status = 200 := by
  simp [hitResponse, hitBody, evaluateRange_of_no_range hrange]

/-- A MISS is sent with status 200 exactly when the origin answered so and no range is cut out. -/
lemma status_missResponse_eq_iff (req : Request) (r : Coalesced) :
    (missResponse req r).status = 200 ↔
      r.status = 200 ∧ evaluateRange req.headers r.body.length = .full := by
  simp only [missResponse, missBody]
  by_cases hstatus : r.status = 200
  · cases evaluateRange req.headers r.body.length <;> simp [hstatus]
  · simp [hstatus]

/-! ## Runs -/

/-- The cached entry that an answer shows. -/
def Via.entry : Via → Option MemoryCacheEntry
  | .l1Hit slot => some slot.entry
  | .l2Hit x lookedUpAt => some (x.seen lookedUpAt).toEntry
  | _ => none

/-- The exchange that an answer delivers from its coalesced fetch. -/
def Via.delivered : Via → Option Exchange
  | .coalesced _ (.origin x) => some x
  | _ => none

/-- The HIT repeats the MISS, image optimisation excluded. -/
structure Replays (cfg : Config) (x : Exchange) (miss hit : Answer) : Prop where
  status : hit.response.status = miss.response.status
  contentType :
    hit.response.headers.get "content-type" = miss.response.headers.get "content-type" ∨
      ∃ e, hit.via.entry = some e ∧ Optimised cfg x e
  headers : replayed hit.response.headers = replayed miss.response.headers

/-- The exchange behind a HIT is the source of the entry it shows. -/
lemma Via.hit_eq (via : Via) : via.hit = via.entry.map fun e => e.body.source := by
  cases via <;> rfl

/-- A backed HIT is made from the entry it shows. -/
lemma Answer.Backed.entry {P : Exchange → Prop} {ans : Answer} (h : ans.Backed cfg P)
    (hentry : ans.via.entry = some e) :
    ∃ reason, requestKey cfg ans.request = some e.body.source.key ∧ P e.body.source ∧
      Derives cfg e.body.source e ∧ ans.response = hitResponse cfg reason ans.request e := by
  unfold Answer.Backed at h
  cases hvia : ans.via with
  | l1Hit slot =>
    rw [hvia] at h hentry
    obtain rfl := Option.some.inj hentry
    obtain ⟨key, hkey, ⟨hP, rfl, hderives⟩, hresp⟩ := h
    exact ⟨.l1Hit, hkey, hP, hderives, hresp⟩
  | l2Hit y lookedUpAt =>
    rw [hvia] at h hentry
    obtain rfl := Option.some.inj hentry
    obtain ⟨key, hkey, ⟨hP, rfl, hderives⟩, hresp⟩ := h
    exact ⟨.l2Hit, hkey, hP, hderives, hresp⟩
  | coalesced leader result =>
    rw [hvia] at hentry
    cases hentry
  | own =>
    rw [hvia] at hentry
    cases hentry

/-- What a backed HIT shows of its exchange. -/
lemma Answer.Backed.hit {ans : Answer} (h : ans.Backed cfg fun x => x.outcome = .miss)
    (hhit : ans.via.hit = some x) :
    ∃ e reason, ans.via.entry = some e ∧ Derives cfg x e ∧ x.outcome = .miss ∧
      ans.response = hitResponse cfg reason ans.request e := by
  rw [Via.hit_eq] at hhit
  obtain ⟨e, hentry, rfl⟩ := Option.map_eq_some_iff.mp hhit
  obtain ⟨reason, -, hmiss, hderives, hresp⟩ := h.entry hentry
  exact ⟨e, reason, hentry, hderives, hmiss, hresp⟩

/-- A backed MISS is made from the exchange it delivers. -/
lemma Answer.Backed.delivered {P : Exchange → Prop} {ans : Answer} (h : ans.Backed cfg P)
    (hmiss : ans.via.delivered = some x) :
    ans.response = missResponse ans.request (originResponse x) := by
  unfold Answer.Backed at h
  unfold Via.delivered at hmiss
  split at hmiss
  · rename_i leader y hvia
    obtain rfl := Option.some.inj hmiss
    rw [hvia] at h
    exact h.2.2.2
  · cases hmiss

/-- In every run, a HIT of a request without a `Range` header repeats the MISS that delivered the
origin response of its entry if and only if the origin answered with status 200 and the MISS was
sent whole. -/
theorem hit_replays_iff (cfg : Config) (maxSizeBytes : UInt64) (t : State) (as : List Action)
    (h : Trace (step cfg) Free (State.initial maxSizeBytes) as t) :
    ∀ miss ∈ t.answers, ∀ hit ∈ t.answers, ∀ x, miss.via.delivered = some x →
      hit.via.hit = some x → hit.request.headers.get "range" = none →
      (Replays cfg x miss hit ↔
        x.response.status = 200 ∧ evaluateRange miss.request.headers x.response.body.length = .full) := by
  have hbacked := backed_of_run h
  intro miss hmiss hit hhit x hvia hsource hrange
  obtain ⟨e, reason, hentry, hderives, houtcome, hsent⟩ := (hbacked hit hhit).hit hsource
  obtain ⟨hheaders, htype⟩ := hderives.keeps houtcome
  have hdelivered := (hbacked miss hmiss).delivered hvia
  have hstatus : hit.response.status = 200 := hsent ▸ status_hit_of_no_range cfg reason e hrange
  have hfull := status_missResponse_eq_iff miss.request (originResponse x)
  rw [← hdelivered] at hfull
  constructor
  · intro hreplays
    exact hfull.mp (hreplays.status.symm.trans hstatus)
  · intro hwhole
    refine ⟨hstatus.trans (hfull.mpr hwhole).symm, ?_, ?_⟩
    · rw [hsent, hdelivered, contentType_missResponse, contentType_hitResponse]
      · exact htype.imp_right fun hopt => ⟨e, hentry, hopt⟩
      · intro nv hnv
        exact name_mem_of_mem_extractCacheableHeaders (hheaders ▸ hnv)
    · rw [hsent, hdelivered, replayed_missResponse, replayed_hitResponse cfg reason _ hheaders]

/-- Two GET requests for a feed that the origin answers with `status`, the second one after the
background save. -/
def feedActions (status : ℕ) : List Action :=
  [sampleDomains, .arrive (sampleRequest .get "/feed.json" [])] ++ missActions 0
    ++ fetchActions 0 status [("content-type", "application/json"), ("etag", "\"v1\"")] [1, 2]
    ++ [.publish 0, .respond 0] ++ saveActions 0
    ++ [.arrive (sampleRequest .get "/feed.json" []), .l1Get 1]

/-- The run ends with a MISS sent with `status` and a HIT of the same exchange sent with 200. -/
def State.deliversThenHits (t : State) (status : ℕ) : Bool :=
  t.answers.any fun miss => miss.via.delivered.any fun x =>
    decide (miss.response.status = status ∧ x.response.status = status ∧
      evaluateRange miss.request.headers x.response.body.length = .full) &&
    t.answers.any fun hit => decide (hit.via.hit = some x ∧
      hit.request.headers.get "range" = none ∧ hit.response.status = 200)

/-- What the test finds. -/
lemma of_deliversThenHits {t : State} {status : ℕ} (h : t.deliversThenHits status = true) :
    ∃ miss ∈ t.answers, ∃ hit ∈ t.answers, ∃ x, miss.via.delivered = some x ∧
      hit.via.hit = some x ∧ hit.request.headers.get "range" = none ∧
      miss.response.status = status ∧ hit.response.status = 200 ∧ x.response.status = status ∧
      evaluateRange miss.request.headers x.response.body.length = .full := by
  simp only [State.deliversThenHits, List.any_eq_true, Option.any_eq_true, Bool.and_eq_true,
    decide_eq_true_eq] at h
  obtain ⟨miss, hmiss, x, hx, ⟨hsent, hstatus, hfull⟩, hit, hhit, hsource, hrange, h200⟩ := h
  exact ⟨miss, hmiss, hit, hhit, x, hx, hsource, hrange, hsent, h200, hstatus, hfull⟩

/-- The origin answers 203: the second GET is a HIT with status 200. -/
theorem hit_changes_status :
    ∃ t, Trace (step sampleConfig) Free (State.initial 1000000) (feedActions 203) t ∧
      ∃ miss ∈ t.answers, ∃ hit ∈ t.answers, ∃ x, miss.via.delivered = some x ∧
        hit.via.hit = some x ∧ hit.request.headers.get "range" = none ∧
        miss.response.status = 203 ∧ hit.response.status = 200 ∧
        ¬ Replays sampleConfig x miss hit := by
  have hrun : ((run (step sampleConfig) sampleStart (feedActions 203)).any fun t =>
      t.deliversThenHits 203) = true := by
    decide +kernel
  obtain ⟨t, ht, hany⟩ := exists_trace_of_run hrun
  obtain ⟨miss, hmiss, hit, hhit, x, hx, hsource, hrange, hsent, h200, -⟩ := of_deliversThenHits hany
  refine ⟨t, ht, miss, hmiss, hit, hhit, x, hx, hsource, hrange, hsent, h200, ?_⟩
  intro hreplays
  have hstatus := hreplays.status
  omega

/-- The origin answers 200: the HIT repeats the MISS. -/
theorem hit_replays_feed :
    ∃ t, Trace (step sampleConfig) Free (State.initial 1000000) (feedActions 200) t ∧
      ∃ miss ∈ t.answers, ∃ hit ∈ t.answers, ∃ x, miss.via.delivered = some x ∧
        hit.via.hit = some x ∧ Replays sampleConfig x miss hit := by
  have hrun : ((run (step sampleConfig) sampleStart (feedActions 200)).any fun t =>
      t.deliversThenHits 200) = true := by
    decide +kernel
  obtain ⟨t, ht, hany⟩ := exists_trace_of_run hrun
  obtain ⟨miss, hmiss, hit, hhit, x, hx, hsource, hrange, -, -, hwhole⟩ := of_deliversThenHits hany
  refine ⟨t, ht, miss, hmiss, hit, hhit, x, hx, hsource, ?_⟩
  exact (hit_replays_iff sampleConfig 1000000 t _ ht miss hmiss hit hhit x hx hsource hrange).mpr hwhole

end SmartSchoolCdn
