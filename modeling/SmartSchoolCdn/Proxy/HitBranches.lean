import SmartSchoolCdn.Proxy.Answers
import SmartSchoolCdn.Proxy.Reports

/-!
# The two HIT branches of `proxy_handler`

The branch that answers from the memory cache and the branch that answers from the disk cache
are two copies of one text.  Here each of them is transcribed by itself, call by call of its
response builder, and the two are compared (`hit_branches_agree`).  The rest of the
development uses `hitResponse` for both; `l1HitBranch_eq` and `l2HitBranch_eq` say that this
is what the branches send.
-/

namespace SmartSchoolCdn

/-! ## Response builders -/

/-- `http::response::Builder`. -/
structure ResponseBuilder where
  status : ℕ
  headers : HeaderMap

namespace ResponseBuilder

/-- `Response::builder().status(status)`. -/
def ofStatus (status : ℕ) : ResponseBuilder := { status := status, headers := [] }

/-- `header`, which appends. -/
def header (b : ResponseBuilder) (name value : String) : ResponseBuilder :=
  { b with headers := b.headers ++ [(name, value)] }

/-- `if let Some(v) = value { resp = resp.header(name, v) }`. -/
def headerIfSome (b : ResponseBuilder) (name : String) (value : Option String) : ResponseBuilder :=
  match value with
  | some v => b.header name v
  | none => b

/-- A loop over stored headers. -/
def replay (b : ResponseBuilder) (stored : HeaderMap) : ResponseBuilder :=
  stored.foldl (fun b nv => b.header nv.1 nv.2) b

/-- `body(..).unwrap()`. -/
def body (b : ResponseBuilder) (bytes : Bytes) : Response :=
  { status := b.status, headers := b.headers, body := bytes }

variable (b : ResponseBuilder) (name value : String)

@[simp] lemma header_status : (b.header name value).status = b.status := rfl

@[simp] lemma header_headers : (b.header name value).headers = b.headers ++ [(name, value)] := rfl

@[simp] lemma headerIfSome_status (o : Option String) :
    (b.headerIfSome name o).status = b.status := by
  cases o <;> simp [headerIfSome]

/-- A header that is set when its value is present. -/
@[simp] lemma headerIfSome_headers (o : Option String) :
    (b.headerIfSome name o).headers = b.headers ++ headerIf name o := by
  cases o <;> simp [headerIfSome, headerIf]

/-- The loop appends the stored headers in their order. -/
@[simp] lemma replay_headers (stored : HeaderMap) :
    (b.replay stored).headers = b.headers ++ stored := by
  unfold replay
  induction stored generalizing b with
  | nil => simp
  | cons nv rest ih =>
    rw [List.foldl_cons, ih, header_headers, List.append_assoc, List.singleton_append]

/-- The loop keeps the status. -/
@[simp] lemma replay_status (stored : HeaderMap) : (b.replay stored).status = b.status := by
  unfold replay
  induction stored generalizing b with
  | nil => rw [List.foldl_nil]
  | cons nv rest ih => rw [List.foldl_cons, ih, header_status]

end ResponseBuilder

/-- The tuple that a branch computes from the `Range` header. -/
structure HitParts where
  respStatus : ℕ
  respBody : Bytes
  contentRangeHdr : Option String
  decision : String
  outBytes : ℕ
  contentEncoding : Option String

/-- What a branch sends, and what it reports. -/
structure HitBranch where
  response : Response
  decision : String
  outBytes : ℕ

/-! ## The branches -/

/-- `resp_status`, … of the L1 branch. -/
def l1HitParts (cfg : Config) (req : Request) (entry : MemoryCacheEntry) : HitParts :=
  let total := entry.body.bytes.length
  let isHead := req.method == .head
  let hasRangeReq := isHead || (req.headers.get "range").isSome
  let ae := req.headers.getStr "accept-encoding"
  match evaluateRange req.headers total with
  | .full =>
    let negotiated := selectEncodedBody cfg.codecs entry.body.bytes (entry.bodyBr.map Copy.bytes)
      hasRangeReq cfg.textCompress.gzipLevel ae
    { respStatus := 200
      respBody := negotiated.1
      contentRangeHdr := none
      decision := CacheOutcome.l1Hit.asHeader
      outBytes := negotiated.1.length
      contentEncoding := negotiated.2 }
  | .partialBody start stop =>
    let sliced := sliceBody entry.body.bytes start stop
    { respStatus := 206
      respBody := sliced
      contentRangeHdr := some (formatContentRange start stop total)
      decision := CacheOutcome.l1Hit.asHeader ++ "_206"
      outBytes := sliced.length
      contentEncoding := none }
  | .invalid =>
    { respStatus := 416
      respBody := []
      contentRangeHdr := some (formatContentRangeUnsatisfied total)
      decision := CacheOutcome.l1Hit.asHeader ++ "_416"
      outBytes := 0
      contentEncoding := none }

/-- The L1 branch, for the entry that `memory_cache.get` returned. -/
def l1HitBranch (cfg : Config) (req : Request) (entry : MemoryCacheEntry) : HitBranch :=
  let isHead := req.method == .head
  let parts := l1HitParts cfg req entry
  let bodyForResp := if isHead then [] else parts.respBody
  let resp := (ResponseBuilder.ofStatus parts.respStatus).header "accept-ranges" "bytes"
  let resp := resp.replay entry.cachedHeaders
  let resp := if isHead then resp.header "content-length" (toString entry.body.bytes.length) else resp
  let resp := resp.headerIfSome "content-type" entry.contentType
  let resp := resp.headerIfSome "content-range" parts.contentRangeHdr
  let resp := if !isHead then resp.headerIfSome "content-encoding" parts.contentEncoding else resp
  let resp := if entry.bodyBr.isSome then resp.header "vary" "Accept-Encoding" else resp
  { response :=
      (((resp.header "x-cache-status" "HIT").header "x-cache-reason"
        CacheOutcome.l1Hit.asHeader).header "x-served-by" "smart-school-cdn").body bodyForResp
    decision := parts.decision
    outBytes := parts.outBytes }

/-- `resp_status`, … of the L2 branch. -/
def l2HitParts (cfg : Config) (req : Request) (bodyBytes : Copy) (cachedBr : Option Copy) : HitParts :=
  let total := bodyBytes.bytes.length
  let isHead := req.method == .head
  let hasRangeReq := isHead || (req.headers.get "range").isSome
  let ae := req.headers.getStr "accept-encoding"
  match evaluateRange req.headers total with
  | .full =>
    let negotiated := selectEncodedBody cfg.codecs bodyBytes.bytes (cachedBr.map Copy.bytes)
      hasRangeReq cfg.textCompress.gzipLevel ae
    { respStatus := 200
      respBody := negotiated.1
      contentRangeHdr := none
      decision := CacheOutcome.l2Hit.asHeader
      outBytes := negotiated.1.length
      contentEncoding := negotiated.2 }
  | .partialBody start stop =>
    let sliced := sliceBody bodyBytes.bytes start stop
    { respStatus := 206
      respBody := sliced
      contentRangeHdr := some (formatContentRange start stop total)
      decision := CacheOutcome.l2Hit.asHeader ++ "_206"
      outBytes := sliced.length
      contentEncoding := none }
  | .invalid =>
    { respStatus := 416
      respBody := []
      contentRangeHdr := some (formatContentRangeUnsatisfied total)
      decision := CacheOutcome.l2Hit.asHeader ++ "_416"
      outBytes := 0
      contentEncoding := none }

/-- The L2 branch, for the tuple that `StorageClient::get` returned. -/
def l2HitBranch (cfg : Config) (req : Request) (cachedBytes : Copy) (contentType : Option String)
    (cachedBr : Option Copy) (cachedHeaders : HeaderMap) : HitBranch :=
  let isHead := req.method == .head
  let parts := l2HitParts cfg req cachedBytes cachedBr
  let bodyForResp := if isHead then [] else parts.respBody
  let resp := (ResponseBuilder.ofStatus parts.respStatus).header "accept-ranges" "bytes"
  let resp := resp.replay cachedHeaders
  let resp := if isHead then resp.header "content-length" (toString cachedBytes.bytes.length) else resp
  let resp := resp.headerIfSome "content-type" contentType
  let resp := resp.headerIfSome "content-range" parts.contentRangeHdr
  let resp := if !isHead then resp.headerIfSome "content-encoding" parts.contentEncoding else resp
  let resp := if cachedBr.isSome then resp.header "vary" "Accept-Encoding" else resp
  { response :=
      (((resp.header "x-cache-status" "HIT").header "x-cache-reason"
        CacheOutcome.l2Hit.asHeader).header "x-served-by" "smart-school-cdn").body bodyForResp
    decision := parts.decision
    outBytes := parts.outBytes }

/-! ## What the branches send -/

/-- The L1 branch sends `hitResponse`, and reports what `hitReport` says. -/
theorem l1HitBranch_eq (cfg : Config) (req : Request) (entry : MemoryCacheEntry) :
    l1HitBranch cfg req entry =
      { response := hitResponse cfg .l1Hit req entry
        decision := rangeDecision .l1Hit req.headers entry.body.bytes.length
        outBytes := (hitBody cfg req entry).2.1.length } := by
  have hparts : l1HitParts cfg req entry =
      { respStatus := (hitBody cfg req entry).1
        respBody := (hitBody cfg req entry).2.1
        contentRangeHdr := (hitBody cfg req entry).2.2.1
        decision := rangeDecision .l1Hit req.headers entry.body.bytes.length
        outBytes := (hitBody cfg req entry).2.1.length
        contentEncoding := (hitBody cfg req entry).2.2.2 } := by
    simp only [l1HitParts, hitBody, rangeDecision]
    cases evaluateRange req.headers entry.body.bytes.length <;> simp
  simp only [l1HitBranch, hparts, hitResponse, ResponseBuilder.body, ResponseBuilder.ofStatus]
  -- the two conditions of the chain: the method, and whether there is a brotli variant
  cases req.method == .head <;> cases entry.bodyBr.isSome <;> simp [headerIf]

/-- The L2 branch sends `hitResponse` of the entry that it has just promoted, and reports what
`hitReport` says. -/
theorem l2HitBranch_eq (cfg : Config) (req : Request) (entry : MemoryCacheEntry) :
    l2HitBranch cfg req entry.body entry.contentType entry.bodyBr entry.cachedHeaders =
      { response := hitResponse cfg .l2Hit req entry
        decision := rangeDecision .l2Hit req.headers entry.body.bytes.length
        outBytes := (hitBody cfg req entry).2.1.length } := by
  have hparts : l2HitParts cfg req entry.body entry.bodyBr =
      { respStatus := (hitBody cfg req entry).1
        respBody := (hitBody cfg req entry).2.1
        contentRangeHdr := (hitBody cfg req entry).2.2.1
        decision := rangeDecision .l2Hit req.headers entry.body.bytes.length
        outBytes := (hitBody cfg req entry).2.1.length
        contentEncoding := (hitBody cfg req entry).2.2.2 } := by
    simp only [l2HitParts, hitBody, rangeDecision]
    cases evaluateRange req.headers entry.body.bytes.length <;> simp
  simp only [l2HitBranch, hparts, hitResponse, ResponseBuilder.body, ResponseBuilder.ofStatus]
  cases req.method == .head <;> cases entry.bodyBr.isSome <;> simp [headerIf]

/-! ## The branches agree -/

/-- The headers but for the reason. -/
def withoutReason (headers : HeaderMap) : HeaderMap :=
  headers.filter fun nv => nv.1 != "x-cache-reason"

/-- The responses are the same but for `X-Cache-Reason`. -/
structure SameButReason (r r' : Response) : Prop where
  status : r.status = r'.status
  body : r.body = r'.body
  headers : withoutReason r.headers = withoutReason r'.headers

/-- The reason is the only part of a HIT in which the level shows. -/
lemma sameButReason_hitResponse (cfg : Config) (reason reason' : CacheOutcome) (req : Request)
    (entry : MemoryCacheEntry) :
    SameButReason (hitResponse cfg reason req entry) (hitResponse cfg reason' req entry) where
  status := by simp only [hitResponse]
  body := by simp only [hitResponse]
  headers := by
    simp only [withoutReason, hitResponse, List.filter_append]
    congr 1

/-- The decision is the reason, and what the range adds to it. -/
lemma rangeDecision_suffix (headers : HeaderMap) (total : ℕ) :
    ∃ suffix, ∀ reason, rangeDecision reason headers total = reason.asHeader ++ suffix := by
  unfold rangeDecision
  cases evaluateRange headers total with
  | full => exact ⟨"", fun reason => String.append_empty.symm⟩
  | partialBody start stop => exact ⟨"_206", fun reason => rfl⟩
  | invalid => exact ⟨"_416", fun reason => rfl⟩

/-- For every cached entry and every request, the L1 branch and the L2 branch send the same
status, the same body and the same headers but for `X-Cache-Reason`; they report the same number of
bytes, and decisions that differ in the name of the level only. -/
theorem hit_branches_agree (cfg : Config) (req : Request) (body : Copy) (contentType : Option String)
    (bodyBr : Option Copy) (cachedHeaders : HeaderMap) :
    let l1 := l1HitBranch cfg req
      { body := body, contentType := contentType, bodyBr := bodyBr, cachedHeaders := cachedHeaders }
    let l2 := l2HitBranch cfg req body contentType bodyBr cachedHeaders
    SameButReason l1.response l2.response ∧ l1.outBytes = l2.outBytes ∧
      ∃ suffix, l1.decision = "L1-HIT" ++ suffix ∧ l2.decision = "L2-HIT" ++ suffix := by
  intro l1 l2
  let entry : MemoryCacheEntry :=
    { body := body, contentType := contentType, bodyBr := bodyBr, cachedHeaders := cachedHeaders }
  have h1 : l1 = _ := l1HitBranch_eq cfg req entry
  have h2 : l2 = _ := l2HitBranch_eq cfg req entry
  obtain ⟨suffix, hsuffix⟩ := rangeDecision_suffix req.headers body.bytes.length
  rw [h1, h2]
  exact ⟨sameButReason_hitResponse cfg .l1Hit .l2Hit req entry, rfl, suffix, hsuffix .l1Hit,
    hsuffix .l2Hit⟩

/-- In every run, two HITs of equal requests, one of them from the memory cache and one from the disk
cache, that show the same entry are the same response but for `X-Cache-Reason`. -/
theorem hits_of_one_entry_agree (cfg : Config) (maxSizeBytes : UInt64) (t : State)
    (as : List Action) (h : Traces.Trace (step cfg) Traces.Free (State.initial maxSizeBytes) as t) :
    ∀ ans ∈ t.answers, ∀ ans' ∈ t.answers, ∀ slot x lookedUpAt, ans.via = .l1Hit slot →
      ans'.via = .l2Hit x lookedUpAt → slot.entry = (x.seen lookedUpAt).toEntry →
      ans.request = ans'.request →
      SameButReason ans.response ans'.response := by
  have hbacked := backed_of_run h
  intro ans hans ans' hans' slot x lookedUpAt hvia hvia' hentry hreq
  have hl1 := hbacked ans hans
  have hl2 := hbacked ans' hans'
  unfold Answer.Backed at hl1 hl2
  rw [hvia] at hl1
  rw [hvia'] at hl2
  obtain ⟨-, -, -, hresp⟩ := hl1
  obtain ⟨-, -, -, hresp'⟩ := hl2
  rw [hresp, hresp', hentry, hreq]
  exact sameButReason_hitResponse cfg .l1Hit .l2Hit _ _

end SmartSchoolCdn
