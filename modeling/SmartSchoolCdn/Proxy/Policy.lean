import SmartSchoolCdn.Http

/-!
# Caching policy of the proxy

The pure functions of `services/proxy/src/lib.rs` that decide what a request is looked up
under and whether an origin response may be stored: the cache key, host normalisation,
`Cache-Control` parsing, the header whitelists and `classify_outcome`.

The hash is a parameter of the key: the code only relies on it being a function.
-/

namespace SmartSchoolCdn

/-! ## Cache keys and hosts -/

/-- The text that `compute_cache_key` hashes. -/
def cacheKeyText (method host path query : String) : String :=
  method ++ ":" ++ host ++ path ++ "?" ++ query

/-- `compute_cache_key`: the hex digest of the key text. -/
def computeCacheKey (sha256Hex : String → String) (method host path query : String) : String :=
  sha256Hex (cacheKeyText method host path query)

/-- `normalize_host`: no port, no trailing dots, ASCII lower case. -/
def normalizeHost (raw : String) : String :=
  let noPort := Text.beforeFirst raw ':'
  let noDot := String.ofList (noPort.toList.rdropWhile (· == '.'))
  Text.lower noDot

/-- The lookup of `proxy_handler` in the domain map: the host itself, then the wildcard
entry of its parent domain. -/
def findOrigin (domainMap : String → Option String) (host : String) : Option String :=
  (domainMap host).or <|
    (Text.splitOnce host '.').bind fun parts => domainMap ("*." ++ parts.2)

/-! ## Cache-Control -/

/-- `CacheDirective`; the time to live is in seconds, `none` when no header gives one. -/
inductive CacheDirective
  | noStore
  | cacheable (ttl : Option ℕ)
  deriving DecidableEq, Repr

/-- `parse_duration_directive`: the value of the first part `directive=N` that parses. -/
def parseDurationDirective (cc directive : String) : Option ℕ :=
  (Text.split cc ',').findSome? fun part =>
    match Text.splitOnce (Text.trim part) '=' with
    | some (name, value) =>
      if Text.lower (Text.trim name) == directive then Text.parseU64 (Text.trim value) else none
    | none => none

/-- `parse_cache_control`. -/
def parseCacheControl (cacheControl pragma : Option String) : CacheDirective :=
  match cacheControl with
  | none =>
    match pragma with
    | some p => if Text.contains p "no-cache" then .noStore else .cacheable none
    | none => .cacheable none
  | some cc =>
    if (Text.split cc ',').any fun directive =>
        let lower := Text.lower (Text.trim directive)
        lower == "no-store" || lower == "no-cache" || lower == "private" then
      .noStore
    else
      match parseDurationDirective cc "s-maxage" with
      | some secs => .cacheable (some secs)
      | none => .cacheable (parseDurationDirective cc "max-age")

/-- `DEFAULT_TTL` in seconds. -/
def defaultTtl : ℕ := 3600

/-- The directive of an origin response, from the first line of either header. -/
def cacheDirectiveOf (headers : HeaderMap) : CacheDirective :=
  parseCacheControl (headers.getStr "cache-control") (headers.getStr "pragma")

/-- `ttl_bg`: the time to live a response is saved with. -/
def CacheDirective.ttl : CacheDirective → ℕ
  | .cacheable (some t) => t
  | _ => defaultTtl

/-! ## Paths and content types -/

/-- The extension of a path as `is_static_extension` and `is_media_request` read it. -/
def extensionOf (path : String) : String :=
  Text.lower (String.ofList ((Text.afterLast path '.').toList.takeWhile Text.isAlphanum))

/-- `is_static_extension`. -/
def isStaticExtension (path : String) : Bool :=
  ["mp4", "m4v", "mov", "avi", "webm", "mpg", "mpeg",
   "mp3", "m4a", "aac", "flac", "wav", "ogg",
   "png", "jpg", "jpeg", "gif", "ico", "svg", "webp",
   "woff", "woff2", "ttf", "otf",
   "js", "css", "wasm"].contains (extensionOf path)

/-- The content type without its parameters. -/
def contentTypeBase (contentType : String) : String :=
  Text.trim (Text.beforeFirst contentType ';')

/-- `should_optimize`: the image formats handed to the optimizer. -/
def shouldOptimize (contentType : Option String) : Bool :=
  ["image/jpeg", "image/png", "image/webp", "image/gif", "image/bmp", "image/tiff"].contains
    (contentTypeBase (contentType.getD ""))

/-- `is_cacheable_content_type`. -/
def isCacheableContentType (contentType : String) : Bool :=
  Text.startsWith contentType "image/"
    || Text.startsWith contentType "text/"
    || Text.startsWith contentType "font/"
    || Text.startsWith contentType "video/"
    || Text.startsWith contentType "audio/"
    || contentType == "application/javascript"
    || contentType == "application/json"
    || contentType == "application/octet-stream"
    || contentType == "application/pdf"
    || contentType == "application/wasm"
    || contentType == "application/epub+zip"

/-! ## Header forwarding -/

/-- `CACHEABLE_HEADERS`: stored with the entry and restored on every response. -/
def cacheableHeaders : List String :=
  ["cache-control", "etag", "last-modified", "vary", "content-language", "content-disposition",
   "access-control-allow-origin", "access-control-allow-credentials",
   "access-control-expose-headers", "access-control-allow-methods",
   "access-control-allow-headers", "access-control-max-age"]

/-- `PASSTHROUGH_HEADERS`: forwarded on a MISS only. -/
def passthroughHeaders : List String :=
  ["location", "www-authenticate", "proxy-authenticate", "retry-after"]

/-- `MAX_CACHED_HEADERS_BYTES`. -/
def maxCachedHeadersBytes : ℕ := 8 * 1024

/-- The early return of `extract_cacheable_headers`: keep entries until the next one would
pass the limit. -/
def takeWithin (limit : ℕ) : ℕ → HeaderMap → HeaderMap
  | _, [] => []
  | total, nv :: rest =>
    let size := nv.1.length + nv.2.length
    if total + size > limit then [] else nv :: takeWithin limit (total + size) rest

/-- `extract_cacheable_headers`: the whitelisted headers, without `Vary: Accept-Encoding`. -/
def extractCacheableHeaders (headers : HeaderMap) : HeaderMap :=
  takeWithin maxCachedHeadersBytes 0 <|
    cacheableHeaders.flatMap fun wanted =>
      (headers.getAll wanted).filterMap fun value =>
        (toStr value).bind fun v =>
          if wanted == "vary" && Text.lower (Text.trim v) == "accept-encoding" then none
          else some (wanted, v)

/-- `extract_passthrough_headers`. -/
def extractPassthroughHeaders (headers : HeaderMap) : HeaderMap :=
  passthroughHeaders.flatMap fun wanted =>
    (headers.getAll wanted).filterMap fun value => (toStr value).map fun v => (wanted, v)

/-- `has_set_cookie`. -/
def hasSetCookie (headers : HeaderMap) : Bool := headers.containsKey "set-cookie"

/-- `has_vary_star`. -/
def hasVaryStar (headers : HeaderMap) : Bool :=
  (headers.getAll "vary").any fun v => ((toStr v).map fun s => Text.trim s == "*").getD false

/-- The request headers that no fetch forwards to the origin. -/
def hopByHopHeaders : List String :=
  ["host", "connection", "transfer-encoding", "proxy-connection", "keep-alive", "upgrade",
   "te", "trailer"]

/-- The request headers of a coalesced or streaming fetch: also without the range. -/
def forwardedHeaders (headers : HeaderMap) : HeaderMap :=
  headers.filter fun nv => !(hopByHopHeaders ++ ["range", "if-range"]).contains nv.1

/-! ## Outcomes -/

/-- `CacheOutcome`. -/
inductive CacheOutcome
  | l1Hit
  | l2Hit
  | miss
  | bypassMethod
  | bypassNoCache
  | bypassSize
  | bypassOther
  deriving DecidableEq, Repr

/-- `CacheOutcome::as_header`. -/
def CacheOutcome.asHeader : CacheOutcome → String
  | l1Hit => "L1-HIT"
  | l2Hit => "L2-HIT"
  | miss => "MISS"
  | bypassMethod => "BYPASS-METHOD"
  | bypassNoCache => "BYPASS-NOCACHE"
  | bypassSize => "BYPASS-SIZE"
  | bypassOther => "BYPASS-OTHER"

/-- `MAX_CACHE_ENTRY_BYTES`. -/
def maxCacheEntryBytes : ℕ := 128 * 1024 * 1024

/-- `MAX_MEMORY_ENTRY_BYTES`. -/
def maxMemoryEntryBytes : ℕ := 16 * 1024 * 1024

/-- `classify_outcome`. -/
def classifyOutcome (methodIsGetOrHead l1Hit l2Hit originNoCache sizeExceeded
    originOkAndCacheable originHasSetCookie originVaryStar : Bool) : CacheOutcome :=
  if !methodIsGetOrHead then .bypassMethod
  else if l1Hit then .l1Hit
  else if l2Hit then .l2Hit
  else if originHasSetCookie then .bypassOther
  else if originVaryStar then .bypassOther
  else if originNoCache then .bypassNoCache
  else if sizeExceeded then .bypassSize
  else if originOkAndCacheable then .miss
  else .bypassOther

/-- The flags that the coalesced fetch of `proxy_handler` computes for a response to a
request for `path`, and the outcome it classifies them to. -/
def originOutcome (path : String) (resp : OriginResponse) : CacheOutcome :=
  let originNoCache := cacheDirectiveOf resp.headers == .noStore && !isStaticExtension path
  let sizeExceeded : Bool := resp.body.length > maxCacheEntryBytes
  let cacheableCt :=
    isCacheableContentType (contentTypeBase ((resp.headers.getStr "content-type").getD ""))
  let originOkAndCacheable := isSuccess resp.status && !originNoCache && !sizeExceeded && cacheableCt
  classifyOutcome true false false originNoCache sizeExceeded originOkAndCacheable
    (hasSetCookie resp.headers) (hasVaryStar resp.headers)

/-- What the code asks of an origin response before it stores it, stated without the
classifier: the response to a request for `path` may be kept in a shared cache. -/
structure Storable (path : String) (resp : OriginResponse) : Prop where
  success : isSuccess resp.status = true
  noCookie : hasSetCookie resp.headers = false
  noVaryStar : hasVaryStar resp.headers = false
  mayStore : cacheDirectiveOf resp.headers = .noStore → isStaticExtension path = true
  cacheableType :
    isCacheableContentType (contentTypeBase ((resp.headers.getStr "content-type").getD "")) = true
  withinLimit : resp.body.length ≤ maxCacheEntryBytes

/-- After both cache levels missed, the classifier answers `miss` exactly when the response
sets no cookie, does not vary on everything and is storable as the flags say. -/
lemma classifyOutcome_eq_miss_iff (noCache size ok cookie vary : Bool) :
    classifyOutcome true false false noCache size ok cookie vary = .miss ↔
      cookie = false ∧ vary = false ∧ noCache = false ∧ size = false ∧ ok = true := by
  cases noCache <;> cases size <;> cases ok <;> cases cookie <;> cases vary <;> decide

/-- The classification `miss` says exactly that the response is storable. -/
theorem originOutcome_eq_miss_iff (path : String) (resp : OriginResponse) :
    originOutcome path resp = .miss ↔ Storable path resp := by
  unfold originOutcome
  rw [classifyOutcome_eq_miss_iff]
  constructor
  · rintro ⟨hcookie, hvary, hcache, hsize, hok⟩
    simp only [Bool.and_eq_true] at hok
    refine ⟨hok.1.1.1, hcookie, hvary, fun hns => ?_, hok.2, by simpa using hsize⟩
    simpa [hns] using hcache
  · rintro ⟨hsuccess, hcookie, hvary, hstore, htype, hlimit⟩
    have hcache : (cacheDirectiveOf resp.headers == .noStore && !isStaticExtension path) = false := by
      by_cases hns : cacheDirectiveOf resp.headers = .noStore
      · simp [hstore hns]
      · simp [hns]
    have hsize : decide (resp.body.length > maxCacheEntryBytes) = false := by simpa using hlimit
    exact ⟨hcookie, hvary, hcache, hsize, by simp [hsuccess, hcache, hsize, htype]⟩

/-- Entries kept by the size limit were candidates. -/
lemma mem_of_mem_takeWithin {limit total : ℕ} {l : HeaderMap} {nv : String × String}
    (h : nv ∈ takeWithin limit total l) : nv ∈ l := by
  induction l generalizing total with
  | nil => simp [takeWithin] at h
  | cons x xs ih =>
    rw [takeWithin] at h
    split at h
    · simp at h
    · rcases List.mem_cons.mp h with rfl | h
      · exact List.mem_cons_self
      · exact List.mem_cons_of_mem _ (ih h)

/-- Every stored header has a name of the whitelist. -/
theorem name_mem_of_mem_extractCacheableHeaders {headers : HeaderMap} {nv : String × String}
    (h : nv ∈ extractCacheableHeaders headers) : nv.1 ∈ cacheableHeaders := by
  have hmem := mem_of_mem_takeWithin h
  simp only [List.mem_flatMap, List.mem_filterMap, Option.bind_eq_some_iff] at hmem
  obtain ⟨wanted, hwanted, value, -, v, -, hv⟩ := hmem
  split at hv
  · exact absurd hv (by simp)
  · obtain rfl : (wanted, v) = nv := by simpa using hv
    exact hwanted

/-- Every passed-through header has a name of the second whitelist. -/
theorem name_mem_of_mem_extractPassthroughHeaders {headers : HeaderMap} {nv : String × String}
    (h : nv ∈ extractPassthroughHeaders headers) : nv.1 ∈ passthroughHeaders := by
  simp only [extractPassthroughHeaders, List.mem_flatMap, List.mem_filterMap, Option.map_eq_some_iff]
    at h
  obtain ⟨wanted, hwanted, value, -, v, -, rfl⟩ := h
  exact hwanted

example : parseCacheControl (some "public, S-MaxAge=5, max-age=60") none = .cacheable (some 5) := by
  decide

example : normalizeHost "Example.COM.:443" = "example.com" := by decide

example : isStaticExtension "/lesson/intro.MP4?x" = true := by decide

end SmartSchoolCdn
