import SmartSchoolCdn.Proxy.Compress
import SmartSchoolCdn.Proxy.Range
import SmartSchoolCdn.Storage.Grpc

/-!
# Cached entries, results of a coalesced fetch, and responses

The values that move through `proxy_handler`: the entry kept in memory, what a coalesced
fetch hands to its requesters, and the responses built from them.

Bodies in the caches carry the origin exchange they derive from.  That tag is a ghost: no
definition of the proxy branches on it, it only lets statements say where a body comes from.
-/

namespace SmartSchoolCdn

/-! ## Origin exchanges and cached entries -/

/-- A completed coalesced fetch: its number in the order in which fetches were started, the
request whose method and headers were sent (`rid`), and the response read completely. -/
structure Exchange where
  id : ℕ
  rid : ℕ
  key : String
  host : String
  request : Request
  response : OriginResponse
  deriving DecidableEq, Repr

namespace Exchange

/-- `content_type`. -/
def contentType (x : Exchange) : Option String := x.response.headers.getStr "content-type"

/-- The `Content-Encoding` of the origin. -/
def contentEncoding (x : Exchange) : Option String := x.response.headers.getStr "content-encoding"

/-- `outcome`. -/
def outcome (x : Exchange) : CacheOutcome := originOutcome x.request.uri.path x.response

/-- `ttl_bg`, in seconds. -/
def ttl (x : Exchange) : ℕ := (cacheDirectiveOf x.response.headers).ttl

end Exchange

/-- Bytes held by a cache, with the exchange they derive from. -/
structure Copy where
  bytes : Bytes
  source : Exchange
  deriving DecidableEq, Repr

instance : Blob Copy := ⟨fun c => c.bytes.length⟩

/-- `MemoryCacheEntry`. -/
structure MemoryCacheEntry where
  body : Copy
  contentType : Option String
  bodyBr : Option Copy
  cachedHeaders : HeaderMap
  deriving DecidableEq, Repr

/-- The entry that an L2 HIT puts into the memory cache. -/
def Lookup.toEntry (l : Lookup Copy) : MemoryCacheEntry :=
  { body := l.body
    contentType := l.contentType
    bodyBr := l.bodyBr
    cachedHeaders := l.cachedHeaders }

/-- A parsed URI of a purge target, as the `http` crate reads it. -/
structure ParsedUri where
  authority : Option String
  path : String
  query : Option String
  deriving DecidableEq, Repr

/-- What is fixed when the proxy starts: the functions of other crates and the settings read
from environment variables. -/
structure Config where
  sha256Hex : String → String
  parseUri : String → Option ParsedUri
  codecs : Codecs
  textCompress : TextCompressConfig
  /-- `MEMORY_CACHE_TTL_SECS`. -/
  memoryCacheTtl : Time
  /-- `stale_if_error_window_secs`. -/
  staleIfErrorWindow : ℤ
  /-- `stream_bypass_threshold`. -/
  streamBypassThreshold : ℕ
  /-- Whether the optimizer service was reachable at the start. -/
  hasOptimizer : Bool

/-- The text that is hashed for the cache key of a request to a normalised host; `none` for
methods that are not cached.  A HEAD request uses the text of the GET. -/
def cacheTextOf (host : String) (req : Request) : Option String :=
  if req.method = .get ∨ req.method = .head then
    some (cacheKeyText "GET" host req.uri.path req.uri.queryOrEmpty)
  else none

/-- The cache key of a request to a normalised host. -/
def cacheKeyOf (cfg : Config) (host : String) (req : Request) : Option String :=
  (cacheTextOf host req).map cfg.sha256Hex

/-- The URL of a cacheable request, in the form in which it is hashed. -/
def requestUrl (req : Request) : Option String :=
  (req.headers.getStr "host").bind fun raw => cacheTextOf (normalizeHost raw) req

/-- The cache key of a request. -/
def requestKey (cfg : Config) (req : Request) : Option String :=
  (requestUrl req).map cfg.sha256Hex

/-- When the hash does not collide, requests with one cache key are for one URL. -/
lemma requestUrl_eq_of_requestKey_eq {cfg : Config} (hinj : Function.Injective cfg.sha256Hex)
    {req req' : Request} (h : requestKey cfg req = requestKey cfg req') :
    requestUrl req = requestUrl req' :=
  Option.map_injective hinj h

/-- Requests with a URL of that form are GET and HEAD requests. -/
lemma method_of_requestKey {cfg : Config} {req : Request} {key : String}
    (h : requestKey cfg req = some key) : req.method = .get ∨ req.method = .head := by
  unfold requestKey requestUrl cacheTextOf at h
  by_contra hmethod
  simp [hmethod] at h

/-- The entry that the background save of a response stores in both levels. -/
def preparedEntry (cfg : Config) (x : Exchange) (optimized : Option Optimized) : MemoryCacheEntry :=
  let variant := storeVariant cfg.codecs cfg.textCompress x.contentType x.contentEncoding
    x.response.body optimized
  { body := ⟨variant.1, x⟩
    contentType := variant.2.1
    bodyBr := variant.2.2.map fun br => ⟨br, x⟩
    cachedHeaders := extractCacheableHeaders x.response.headers }

section PreparedEntry

variable (cfg : Config) (x : Exchange) (optimized : Option Optimized)

/-- The body of a saved entry. -/
lemma preparedEntry_bytes : (preparedEntry cfg x optimized).body.bytes =
    (storeVariant cfg.codecs cfg.textCompress x.contentType x.contentEncoding x.response.body
      optimized).1 := by
  simp only [preparedEntry]

/-- The brotli variant of a saved entry. -/
lemma preparedEntry_bodyBr : (preparedEntry cfg x optimized).bodyBr =
    (storeVariant cfg.codecs cfg.textCompress x.contentType x.contentEncoding x.response.body
      optimized).2.2.map fun br => ⟨br, x⟩ := by
  simp only [preparedEntry]

/-- The headers of a saved entry. -/
lemma preparedEntry_cachedHeaders : (preparedEntry cfg x optimized).cachedHeaders =
    extractCacheableHeaders x.response.headers := by
  simp only [preparedEntry]

end PreparedEntry

/-- The message that the background save sends to the storage service. -/
def saveRequest (x : Exchange) (entry : MemoryCacheEntry) : StorageRequest Copy :=
  putRequest x.key ("https://" ++ x.host ++ x.request.uri.toText) x.host entry.contentType entry.body
    (some x.ttl) entry.bodyBr entry.cachedHeaders

/-- `MAX_MEMORY_ENTRY_BYTES` admits the entry. -/
def MemoryCacheEntry.fitsMemory (e : MemoryCacheEntry) : Bool :=
  e.body.bytes.length ≤ maxMemoryEntryBytes

/-! ## Results of a coalesced fetch -/

/-- `CoalescedResponse`. -/
structure Coalesced where
  body : Bytes
  contentType : Option String
  status : ℕ
  outcome : CacheOutcome
  cachedHeaders : HeaderMap
  passthroughHeaders : HeaderMap
  deriving DecidableEq, Repr

/-- The ways in which the fetch closure of `proxy_handler` returns. -/
inductive Fetched
  /-- `Err(())`. -/
  | failed
  /-- No slot of the origin semaphore in time. -/
  | permitTimeout
  /-- `InFlightGuard::reserve` refused. -/
  | bufferFull
  /-- The copy found by `try_serve_stale`. -/
  | stale (found : Lookup Copy)
  /-- The declared length asks for streaming: only the head of the response is used. -/
  | oversize (status : ℕ) (headers : HeaderMap) (contentLength : ℕ)
  /-- The origin response. -/
  | origin (x : Exchange)

/-- The body of both 503 answers of the fetch closure. -/
def capacityResponse (body : String) : Coalesced :=
  { body := body.toUTF8.toList
    contentType := some "text/plain"
    status := 503
    outcome := .bypassOther
    cachedHeaders := []
    passthroughHeaders := [("retry-after", "5")] }

/-- The response that `try_serve_stale` makes of a stored copy. -/
def staleResponse (found : Lookup Copy) : Coalesced :=
  { body := found.body.bytes
    contentType := found.contentType
    status := 200
    outcome := .bypassOther
    cachedHeaders :=
      found.cachedHeaders.filter fun nv => nv.1 != "warning" && nv.1 != "x-cache-stale"
    passthroughHeaders :=
      [("warning", "110 - \"Response is stale\""), ("x-cache-stale", "true")] }

/-- The marker that sends every requester to the streaming path. -/
def sentinelResponse (status : ℕ) (headers : HeaderMap) (contentLength : ℕ) : Coalesced :=
  { body := []
    contentType := headers.getStr "content-type"
    status := status
    outcome := .bypassSize
    cachedHeaders := extractCacheableHeaders headers
    passthroughHeaders := extractPassthroughHeaders headers ++
      [("x-stream-mode", "1"), ("x-stream-content-length", toString contentLength)] }

/-- The origin response as it is handed to the requesters, stored or not. -/
def originResponse (x : Exchange) : Coalesced :=
  { body := x.response.body
    contentType := x.contentType
    status := x.response.status
    outcome := x.outcome
    cachedHeaders := extractCacheableHeaders x.response.headers
    passthroughHeaders := extractPassthroughHeaders x.response.headers }

/-- The value that the fetch closure returns, `none` for `Err(())`. -/
def Fetched.response : Fetched → Option Coalesced
  | .failed => none
  | .permitTimeout => some (capacityResponse "Origin fetch capacity exceeded, please retry")
  | .bufferFull => some (capacityResponse "In-flight buffer capacity exceeded, please retry")
  | .stale found => some (staleResponse found)
  | .oversize status headers contentLength => some (sentinelResponse status headers contentLength)
  | .origin x => some (originResponse x)

/-- The test that sends a requester to the streaming path. -/
def Coalesced.isSentinel (r : Coalesced) : Bool :=
  r.outcome == .bypassSize && r.passthroughHeaders.any fun nv => nv.1 == "x-stream-mode" && nv.2 == "1"

/-! ## Responses -/

/-- One header when its value is present. -/
def headerIf (name : String) (value : Option String) : HeaderMap :=
  match value with
  | some v => [(name, v)]
  | none => []

/-- Status, body, `Content-Range` and `Content-Encoding` of a HIT. -/
def hitBody (cfg : Config) (req : Request) (entry : MemoryCacheEntry) :
    ℕ × Bytes × Option String × Option String :=
  let total := entry.body.bytes.length
  match evaluateRange req.headers total with
  | .full =>
    let hasRangeReq := req.method == .head || (req.headers.get "range").isSome
    let selected := selectEncodedBody cfg.codecs entry.body.bytes (entry.bodyBr.map Copy.bytes)
      hasRangeReq cfg.textCompress.gzipLevel (req.headers.getStr "accept-encoding")
    (200, selected.1, none, selected.2)
  | .partialBody start stop =>
    (206, sliceBody entry.body.bytes start stop, some (formatContentRange start stop total), none)
  | .invalid => (416, [], some (formatContentRangeUnsatisfied total), none)

/-- The response of an L1 or L2 HIT; `reason` is the value of `X-Cache-Reason`. -/
def hitResponse (cfg : Config) (reason : CacheOutcome) (req : Request) (entry : MemoryCacheEntry) :
    Response :=
  let isHead := req.method == .head
  let (status, body, contentRange, contentEncoding) := hitBody cfg req entry
  { status := status
    headers :=
      [("accept-ranges", "bytes")] ++ entry.cachedHeaders
        ++ headerIf "content-length"
            (if isHead then some (toString entry.body.bytes.length) else none)
        ++ headerIf "content-type" entry.contentType
        ++ headerIf "content-range" contentRange
        ++ headerIf "content-encoding" (if isHead then none else contentEncoding)
        ++ headerIf "vary" (if entry.bodyBr.isSome then some "Accept-Encoding" else none)
        ++ [("x-cache-status", "HIT"), ("x-cache-reason", reason.asHeader),
            ("x-served-by", "smart-school-cdn")]
    body := if isHead then [] else body }

/-- Status, body and `Content-Range` of a response after a coalesced fetch: ranges apply to
status 200 only. -/
def missBody (req : Request) (r : Coalesced) : ℕ × Bytes × Option String :=
  if r.status = 200 then
    match evaluateRange req.headers r.body.length with
    | .full => (r.status, r.body, none)
    | .partialBody start stop =>
      (206, sliceBody r.body start stop, some (formatContentRange start stop r.body.length))
    | .invalid => (416, [], some (formatContentRangeUnsatisfied r.body.length))
  else (r.status, r.body, none)

/-- The response to a requester of a coalesced fetch. -/
def missResponse (req : Request) (r : Coalesced) : Response :=
  let (status, body, contentRange) := missBody req r
  { status := status
    headers :=
      [("accept-ranges", "bytes")] ++ r.cachedHeaders ++ r.passthroughHeaders
        ++ headerIf "content-type" r.contentType
        ++ headerIf "content-range" contentRange
        ++ [("x-cache-status", "MISS"), ("x-cache-reason", r.outcome.asHeader),
            ("x-served-by", "smart-school-cdn")]
    body := body }

/-- A response with a text body and no other header than the given ones. -/
def textResponse (status : ℕ) (headers : HeaderMap) (body : String) : Response :=
  { status := status, headers := headers, body := body.toUTF8.toList }

/-- The answer to `Err(())` of the coalescer. -/
def fetchFailedResponse : Response :=
  textResponse 502
    [("x-cache-status", "BYPASS"), ("x-cache-reason", CacheOutcome.bypassOther.asHeader),
     ("x-served-by", "smart-school-cdn")] "Origin fetch failed"

/-- `stream_bypass_response` without a slot of the origin semaphore. -/
def streamBusyResponse : Response :=
  textResponse 503
    [("retry-after", "5"), ("x-cache-status", "BYPASS"),
     ("x-cache-reason", CacheOutcome.bypassSize.asHeader)]
    "Origin fetch capacity exceeded, please retry"

/-- `stream_bypass_response`: what is sent for the answer to the requester's own fetch. -/
def streamResponse : Option OriginResponse → Response
  | none =>
    textResponse 502
      [("x-cache-status", "BYPASS"), ("x-cache-reason", CacheOutcome.bypassSize.asHeader)]
      "Origin fetch failed"
  | some resp =>
    { status := resp.status
      headers :=
        [("accept-ranges", "bytes"), ("x-cache-status", "BYPASS"),
         ("x-cache-reason", CacheOutcome.bypassSize.asHeader), ("x-served-by", "smart-school-cdn")]
          ++ headerIf "content-type" (resp.headers.getStr "content-type")
          ++ headerIf "content-length" (resp.headers.getStr "content-length")
          ++ extractPassthroughHeaders resp.headers
      body := resp.body }

/-- A method that is not cached, without a slot of the origin semaphore. -/
def directBusyResponse : Response :=
  textResponse 503 [("retry-after", "5")] "Origin fetch capacity exceeded, please retry"

/-- What a fetch that bypasses the coalescer gets from the origin. -/
inductive DirectReply
  | unreachable
  | unreadable
  | answered (resp : OriginResponse)

/-- A method that is not cached: what is sent for the answer of the origin. -/
def directResponse : DirectReply → Response
  | .unreachable => textResponse 502 [] "Origin server unreachable"
  | .unreadable => textResponse 502 [] "Failed to read origin response"
  | .answered resp =>
    { status := resp.status
      headers :=
        extractCacheableHeaders resp.headers ++ extractPassthroughHeaders resp.headers
          ++ headerIf "content-type" (resp.headers.getStr "content-type")
          ++ [("x-cache-status", "BYPASS"), ("x-cache-reason", CacheOutcome.bypassMethod.asHeader),
              ("x-served-by", "smart-school-cdn")]
      body := resp.body }

/-- The window test of `try_serve_stale` for a lookup that was answered. -/
def staleAdmitted (now : Time) (window : ℤ) (found : Lookup Copy) : Bool :=
  !found.isStale ||
    !(decide (window ≤ 0) || found.expiresAt == 0
      || decide ((timestamp now : ℤ) > found.expiresAt + window))

/-! ## Facts about responses -/

/-- A requester gets status 200 only from a result with status 200. -/
lemma status_of_missResponse {req : Request} {r : Coalesced}
    (h : (missResponse req r).status = 200) : r.status = 200 := by
  by_contra hne
  have hstatus : (missResponse req r).status = r.status := by
    simp [missResponse, missBody, hne]
  exact hne (hstatus.symm.trans h)

/-- Only the marker sends a requester to the streaming path. -/
theorem isSentinel_eq_true_iff {f : Fetched} {r : Coalesced} (h : f.response = some r) :
    r.isSentinel = true ↔ ∃ status headers contentLength, f = .oversize status headers contentLength := by
  constructor
  · intro hs
    cases f with
    | failed => simp [Fetched.response] at h
    | permitTimeout =>
      obtain rfl : _ = r := by simpa [Fetched.response] using h
      exact absurd hs (by simp [capacityResponse, Coalesced.isSentinel])
    | bufferFull =>
      obtain rfl : _ = r := by simpa [Fetched.response] using h
      exact absurd hs (by simp [capacityResponse, Coalesced.isSentinel])
    | stale found =>
      obtain rfl : _ = r := by simpa [Fetched.response] using h
      exact absurd hs (by simp [staleResponse, Coalesced.isSentinel])
    | oversize status headers contentLength => exact ⟨status, headers, contentLength, rfl⟩
    | origin x =>
      obtain rfl : _ = r := by simpa [Fetched.response] using h
      simp only [Coalesced.isSentinel, originResponse, Bool.and_eq_true, List.any_eq_true] at hs
      obtain ⟨-, nv, hmem, hname, -⟩ := hs
      have hlist := name_mem_of_mem_extractPassthroughHeaders hmem
      have hnv : nv.1 = "x-stream-mode" := by simpa using hname
      rw [hnv] at hlist
      exact absurd hlist (by decide)
  · rintro ⟨status, headers, contentLength, rfl⟩
    obtain rfl : _ = r := by simpa [Fetched.response] using h
    simp [Coalesced.isSentinel, sentinelResponse]

end SmartSchoolCdn
