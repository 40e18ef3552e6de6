import SmartSchoolCdn.Proxy.Answers

/-!
# Content codings

What a client reads from a response is the body decoded as the `Content-Encoding` header
says.  The proxy forwards `Accept-Encoding`, so an origin may answer with a coded body, but
none of the header whitelists has `Content-Encoding`: the body is sent, saved and replayed
without the header that says how to read it.  The codings the proxy adds itself are right.

So an answer is read as the origin meant it exactly when the coding of the origin response
reads its body as it stands (`decoded_answer_iff`).
-/

namespace SmartSchoolCdn

open Traces

variable {cfg : Config} {s s' : State} {a : Action}

/-- How clients read a body under a `Content-Encoding` value: an absent header is the
identity, and the codecs of the proxy are undone by the codings they are announced as. -/
structure Coding (codecs : Codecs) where
  decode : Option String → Bytes → Option Bytes
  decode_none : ∀ body, decode none body = some body
  decode_br : ∀ body level coded, codecs.compressBrotli body level = some coded →
    decode (some "br") coded = some body
  decompress_br : ∀ body level coded, codecs.compressBrotli body level = some coded →
    codecs.decompressBrotli coded = some body
  decode_gzip : ∀ body level coded, codecs.encodeGzip body level = some coded →
    decode (some "gzip") coded = some body

/-- The first `Content-Encoding` of a response. -/
def contentCoding (headers : HeaderMap) : Option String := headers.get "content-encoding"

/-! ## The headers of responses -/

/-- An optional header has its value under its name and nothing under another one. -/
lemma get_headerIf (name other : String) (value : Option String) :
    HeaderMap.get (headerIf name value) other = if name = other then value else none := by
  cases value with
  | none => simp [headerIf, HeaderMap.get]
  | some v =>
    by_cases hname : name = other
    · simp [headerIf, HeaderMap.get, hname]
    · simp [headerIf, HeaderMap.get, hname]

/-- Headers of the whitelists have none of the names the proxy decides itself. -/
lemma get_of_whitelisted {headers : HeaderMap} {names : List String} {name : String}
    (hnames : ∀ nv ∈ headers, nv.1 ∈ names) (hname : name ∉ names) : headers.get name = none :=
  HeaderMap.get_eq_none fun nv hnv heq => hname (heq ▸ hnames nv hnv)

/-- The codings and ranges that a HIT announces are those of its body. -/
lemma get_hitResponse (cfg : Config) (reason : CacheOutcome) (req : Request)
    {entry : MemoryCacheEntry} (hheaders : ∀ nv ∈ entry.cachedHeaders, nv.1 ∈ cacheableHeaders) :
    let sent := hitResponse cfg reason req entry
    contentCoding sent.headers =
      (if req.method == .head then none else (hitBody cfg req entry).2.2.2) ∧
    sent.headers.get "content-range" = (hitBody cfg req entry).2.2.1 := by
  have hcoding : entry.cachedHeaders.get "content-encoding" = none :=
    get_of_whitelisted hheaders (by decide)
  have hrange : entry.cachedHeaders.get "content-range" = none :=
    get_of_whitelisted hheaders (by decide)
  intro sent
  constructor
  · simp only [sent, hitResponse, contentCoding, HeaderMap.get_append, get_headerIf, hcoding]
    simp [HeaderMap.get]
  · simp only [sent, hitResponse, HeaderMap.get_append, get_headerIf, hrange]
    simp [HeaderMap.get]

/-- A response after a coalesced fetch announces no coding, and a range exactly when it was
cut. -/
lemma get_missResponse (req : Request) {r : Coalesced}
    (hcached : ∀ nv ∈ r.cachedHeaders, nv.1 ≠ "content-encoding" ∧ nv.1 ≠ "content-range")
    (hpassed : ∀ nv ∈ r.passthroughHeaders, nv.1 ≠ "content-encoding" ∧ nv.1 ≠ "content-range") :
    let sent := missResponse req r
    contentCoding sent.headers = none ∧ sent.headers.get "content-range" = (missBody req r).2.2 := by
  have hcoding : r.cachedHeaders.get "content-encoding" = none :=
    HeaderMap.get_eq_none fun nv hnv => (hcached nv hnv).1
  have hcoding' : r.passthroughHeaders.get "content-encoding" = none :=
    HeaderMap.get_eq_none fun nv hnv => (hpassed nv hnv).1
  have hrange : r.cachedHeaders.get "content-range" = none :=
    HeaderMap.get_eq_none fun nv hnv => (hcached nv hnv).2
  have hrange' : r.passthroughHeaders.get "content-range" = none :=
    HeaderMap.get_eq_none fun nv hnv => (hpassed nv hnv).2
  intro sent
  constructor
  · simp only [sent, missResponse, contentCoding, HeaderMap.get_append, get_headerIf, hcoding,
      hcoding']
    simp [HeaderMap.get]
  · simp only [sent, missResponse, HeaderMap.get_append, get_headerIf, hrange, hrange']
    simp [HeaderMap.get]

/-- A body that was not cut is sent whole. -/
lemma missBody_whole {req : Request} {r : Coalesced} (h : (missBody req r).2.2 = none) :
    (missBody req r).2.1 = r.body := by
  unfold missBody at h ⊢
  split
  · rename_i hstatus
    rw [if_pos hstatus] at h
    split
    · rfl
    · rename_i start stop hrange
      rw [hrange] at h
      cases h
    · rename_i hrange
      rw [hrange] at h
      cases h
  · rfl

/-- A HIT that was not cut is the selected coding of the stored body. -/
lemma hitBody_whole {cfg : Config} {req : Request} {entry : MemoryCacheEntry}
    (h : (hitBody cfg req entry).2.2.1 = none) :
    ∃ hasRange, ((hitBody cfg req entry).2.1, (hitBody cfg req entry).2.2.2) =
      selectEncodedBody cfg.codecs entry.body.bytes (entry.bodyBr.map Copy.bytes) hasRange
        cfg.textCompress.gzipLevel (req.headers.getStr "accept-encoding") := by
  unfold hitBody at h ⊢
  simp only at h ⊢
  split
  · exact ⟨_, rfl⟩
  · rename_i start stop hrange
    rw [hrange] at h
    cases h
  · rename_i hrange
    rw [hrange] at h
    cases h

/-- The selected coding is read as the stored body when the stored variant is its
compression. -/
lemma decode_selectEncodedBody {codecs : Codecs} (coding : Coding codecs) {body : Bytes}
    {bodyBr : Option Bytes} (level : ℕ)
    (hbr : ∀ br, bodyBr = some br → codecs.compressBrotli body level = some br)
    (hasRange : Bool) (gzipLevel : ℕ) (acceptEncoding : Option String) :
    coding.decode (selectEncodedBody codecs body bodyBr hasRange gzipLevel acceptEncoding).2
      (selectEncodedBody codecs body bodyBr hasRange gzipLevel acceptEncoding).1 = some body := by
  unfold selectEncodedBody
  split
  · exact coding.decode_none body
  · cases bodyBr with
    | none => exact coding.decode_none body
    | some br =>
      have hcompress := hbr br rfl
      simp only
      cases negotiateEncoding acceptEncoding with
      | br => exact coding.decode_br body level br hcompress
      | gzip =>
        simp only
        rw [coding.decompress_br body level br hcompress, Option.bind_some]
        cases hgz : codecs.encodeGzip body gzipLevel with
        | none => exact coding.decode_none body
        | some gz => exact coding.decode_gzip body gzipLevel gz hgz
      | identity => exact coding.decode_none body

/-! ## Entries and answers -/

/-- The background save keeps the body of the exchange: it is no image, or there is no
optimizer. -/
def KeepsBody (cfg : Config) (x : Exchange) : Prop :=
  shouldOptimize x.contentType = false ∨ cfg.hasOptimizer = false

/-- A save that keeps the body stores it as it came. -/
lemma preparedEntry_body {x : Exchange} {optimized : Option Optimized} (hx : KeepsBody cfg x)
    (hallowed : optimized.isSome = true → cfg.hasOptimizer = true) :
    (preparedEntry cfg x optimized).body.bytes = x.response.body := by
  rw [preparedEntry_bytes, storeVariant_body]
  rcases hx with himage | hnone
  · exact Or.inl himage
  · right
    cases optimized with
    | none => rfl
    | some o =>
      rw [hallowed rfl] at hnone
      cases hnone

/-- The variant of a saved entry is the compression of its body. -/
lemma preparedEntry_br {x : Exchange} {optimized : Option Optimized} {copy : Copy}
    (h : (preparedEntry cfg x optimized).bodyBr = some copy) :
    cfg.codecs.compressBrotli (preparedEntry cfg x optimized).body.bytes
      cfg.textCompress.brLevel = some copy.bytes := by
  rw [preparedEntry_bodyBr] at h
  obtain ⟨br, hbr, rfl⟩ := Option.map_eq_some_iff.mp h
  rw [preparedEntry_bytes]
  exact storeVariant_br hbr

/-- The wire keeps a variant or drops it. -/
lemma MemoryCacheEntry.wire_bodyBr {e : MemoryCacheEntry} {copy : Copy}
    (h : e.wire.bodyBr = some copy) : e.bodyBr = some copy :=
  (Option.filter_eq_some_iff.mp h).1

/-- An entry holds headers of the whitelist, and no other variant than the compression of its
body. -/
lemma Derives.coded {x : Exchange} {e : MemoryCacheEntry} (h : Derives cfg x e) :
    (∀ nv ∈ e.cachedHeaders, nv.1 ∈ cacheableHeaders) ∧
      ∀ br, e.bodyBr.map Copy.bytes = some br →
        cfg.codecs.compressBrotli e.body.bytes cfg.textCompress.brLevel = some br := by
  obtain ⟨optimized, -, heq⟩ := h
  have hheaders : ∀ nv ∈ (preparedEntry cfg x optimized).cachedHeaders, nv.1 ∈ cacheableHeaders := by
    rw [preparedEntry_cachedHeaders]
    exact fun nv hnv => name_mem_of_mem_extractCacheableHeaders hnv
  have hvariant : ∀ copy, (preparedEntry cfg x optimized).bodyBr = some copy →
      cfg.codecs.compressBrotli (preparedEntry cfg x optimized).body.bytes
        cfg.textCompress.brLevel = some copy.bytes := fun copy hcopy => preparedEntry_br hcopy
  generalize preparedEntry cfg x optimized = prepared at heq hheaders hvariant
  rcases heq with rfl | rfl
  · refine ⟨hheaders, fun br hbr => ?_⟩
    obtain ⟨copy, hcopy, rfl⟩ := Option.map_eq_some_iff.mp hbr
    exact hvariant copy hcopy
  · refine ⟨hheaders, fun br hbr => ?_⟩
    obtain ⟨copy, hcopy, rfl⟩ := Option.map_eq_some_iff.mp hbr
    exact hvariant copy (MemoryCacheEntry.wire_bodyBr hcopy)

/-- An entry holds the body of its exchange, headers of the whitelist, and no other variant
than the compression of that body. -/
lemma Derives.parts {x : Exchange} {e : MemoryCacheEntry} (h : Derives cfg x e)
    (hx : KeepsBody cfg x) :
    e.body.bytes = x.response.body ∧ (∀ nv ∈ e.cachedHeaders, nv.1 ∈ cacheableHeaders) ∧
      ∀ br, e.bodyBr.map Copy.bytes = some br →
        cfg.codecs.compressBrotli x.response.body cfg.textCompress.brLevel = some br := by
  have hbody : e.body.bytes = x.response.body := by
    obtain ⟨optimized, hallowed, heq⟩ := h
    have hprepared := preparedEntry_body hx hallowed
    rcases heq with heq | heq
    · rw [heq]
      exact hprepared
    · rw [heq, MemoryCacheEntry.wire_body]
      exact hprepared
  obtain ⟨hheaders, hbr⟩ := h.coded
  exact ⟨hbody, hheaders, hbody ▸ hbr⟩

/-- The client reads a HIT of a whole body as the body of the exchange behind it. -/
lemma decode_hit (coding : Coding cfg.codecs) {reason : CacheOutcome} {req : Request}
    {x : Exchange} {e : MemoryCacheEntry} (h : Derives cfg x e) (hx : KeepsBody cfg x)
    (hget : req.method = .get)
    (hwhole : (hitResponse cfg reason req e).headers.get "content-range" = none) :
    coding.decode (contentCoding (hitResponse cfg reason req e).headers)
      (hitResponse cfg reason req e).body = some x.response.body := by
  obtain ⟨hbody, hheaders, hbr⟩ := h.parts hx
  obtain ⟨hcoding, hrange⟩ := get_hitResponse cfg reason req hheaders
  rw [hrange] at hwhole
  obtain ⟨hasRange, hselected⟩ := hitBody_whole hwhole
  have hmethod : (req.method == Method.head) = false := by simp [hget]
  have hsent : (hitResponse cfg reason req e).body = (hitBody cfg req e).2.1 := by
    simp [hitResponse, hmethod]
  rw [hcoding, hmethod, hsent]
  have hdecode := decode_selectEncodedBody coding cfg.textCompress.brLevel (hbody ▸ hbr) hasRange
    cfg.textCompress.gzipLevel (req.headers.getStr "accept-encoding")
  rw [← hselected] at hdecode
  rw [← hbody]
  exact hdecode

/-- The client reads a whole response after a coalesced fetch as the body it was given. -/
lemma decode_miss {codecs : Codecs} (coding : Coding codecs) {req : Request} {r : Coalesced}
    (hcached : ∀ nv ∈ r.cachedHeaders, nv.1 ≠ "content-encoding" ∧ nv.1 ≠ "content-range")
    (hpassed : ∀ nv ∈ r.passthroughHeaders, nv.1 ≠ "content-encoding" ∧ nv.1 ≠ "content-range")
    (hwhole : (missResponse req r).headers.get "content-range" = none) :
    coding.decode (contentCoding (missResponse req r).headers) (missResponse req r).body =
      some r.body := by
  obtain ⟨hcoding, hrange⟩ := get_missResponse req hcached hpassed
  rw [hrange] at hwhole
  have hsent : (missResponse req r).body = r.body := missBody_whole hwhole
  rw [hcoding, hsent]
  exact coding.decode_none r.body

/-- Headers of the whitelist are neither of the two. -/
lemma whitelisted_ne {name : String} (h : name ∈ cacheableHeaders ∨ name ∈ passthroughHeaders) :
    name ≠ "content-encoding" ∧ name ≠ "content-range" := by
  constructor <;> rintro rfl <;> rcases h with h | h <;> revert h <;> decide

/-- Extracted headers are neither of the two. -/
lemma extracted_ne {headers : HeaderMap} :
    (∀ nv ∈ extractCacheableHeaders headers, nv.1 ≠ "content-encoding" ∧ nv.1 ≠ "content-range") ∧
      ∀ nv ∈ extractPassthroughHeaders headers,
        nv.1 ≠ "content-encoding" ∧ nv.1 ≠ "content-range" :=
  ⟨fun _ hnv => whitelisted_ne (Or.inl (name_mem_of_mem_extractCacheableHeaders hnv)),
    fun _ hnv => whitelisted_ne (Or.inr (name_mem_of_mem_extractPassthroughHeaders hnv))⟩

/-- The headers of the result of a coalesced fetch are neither of the two. -/
lemma Answer.Backed.result_headers {P : Exchange → Prop} {ans : Answer} (h : ans.Backed cfg P)
    {leader : ℕ} {result : Fetched} (hvia : ans.via = .coalesced leader result) {r : Coalesced}
    (hr : result.response = some r) :
    (∀ nv ∈ r.cachedHeaders, nv.1 ≠ "content-encoding" ∧ nv.1 ≠ "content-range") ∧
      ∀ nv ∈ r.passthroughHeaders, nv.1 ≠ "content-encoding" ∧ nv.1 ≠ "content-range" := by
  rw [Answer.Backed, hvia] at h
  cases result with
  | failed => cases hr
  | permitTimeout =>
    obtain rfl := Option.some.inj hr
    exact ⟨by decide, by decide⟩
  | bufferFull =>
    obtain rfl := Option.some.inj hr
    exact ⟨by decide, by decide⟩
  | stale found =>
    obtain rfl := Option.some.inj hr
    obtain ⟨key, -, ⟨-, -, hderives⟩, -⟩ := h
    refine ⟨fun nv hnv => ?_, fun nv hnv => ?_⟩
    · exact whitelisted_ne (Or.inl (hderives.coded.1 nv (List.mem_filter.mp hnv).1))
    · simp only [staleResponse, List.mem_cons, List.not_mem_nil, or_false] at hnv
      rcases hnv with rfl | rfl <;> exact ⟨by decide, by decide⟩
  | oversize status headers contentLength =>
    obtain rfl := Option.some.inj hr
    refine ⟨extracted_ne.1, fun nv hnv => ?_⟩
    rcases List.mem_append.mp hnv with hnv | hnv
    · exact extracted_ne.2 nv hnv
    · rcases List.mem_cons.mp hnv with rfl | hnv
      · exact ⟨by decide, by decide⟩
      · obtain rfl := List.mem_singleton.mp hnv
        exact ⟨by simp, by simp⟩
  | origin x =>
    obtain rfl := Option.some.inj hr
    exact extracted_ne

/-- The client reads every whole answer as the body of the exchange behind it, as it came
from the origin. -/
theorem decode_answer (coding : Coding cfg.codecs) {P : Exchange → Prop} {ans : Answer}
    (h : ans.Backed cfg P) (hget : ans.request.method = .get)
    (hwhole : ans.response.headers.get "content-range" = none) {x : Exchange}
    (hsource : ans.via.source = some x) (hx : KeepsBody cfg x) :
    coding.decode (contentCoding ans.response.headers) ans.response.body = some x.response.body := by
  have hbacked := h
  unfold Answer.Backed at h
  cases hvia : ans.via with
  | own =>
    rw [hvia] at hsource
    cases hsource
  | l1Hit slot =>
    rw [hvia] at h hsource
    obtain rfl := Option.some.inj hsource
    obtain ⟨key, -, ⟨-, -, hderives⟩, hresp⟩ := h
    rw [hresp] at hwhole ⊢
    exact decode_hit coding hderives hx hget hwhole
  | l2Hit copy lookedUpAt =>
    rw [hvia] at h hsource
    obtain rfl := Option.some.inj hsource
    obtain ⟨key, -, ⟨-, -, hderives⟩, hresp⟩ := h
    rw [hresp] at hwhole ⊢
    exact decode_hit coding hderives hx hget hwhole
  | coalesced leader result =>
    rw [hvia] at h hsource
    cases result with
    | stale found =>
      obtain rfl := Option.some.inj hsource
      obtain ⟨key, -, ⟨-, -, hderives⟩, hresp⟩ := h
      obtain ⟨hcached, hpassed⟩ := hbacked.result_headers hvia rfl
      have hbody : (staleResponse found).body = found.body.source.response.body :=
        (hderives.parts hx).1
      rw [hresp] at hwhole ⊢
      rw [← hbody]
      exact decode_miss coding hcached hpassed hwhole
    | origin y =>
      obtain rfl := Option.some.inj hsource
      obtain ⟨-, -, -, hresp⟩ := h
      obtain ⟨hcached, hpassed⟩ := hbacked.result_headers hvia rfl
      rw [hresp] at hwhole ⊢
      exact decode_miss coding hcached hpassed hwhole
    | _ => cases hsource

/-- In every reachable state, for every whole answer to a GET from a cache level or a
coalesced fetch, image optimisation excluded: the client reads it as it would read the origin
response if and only if the `Content-Encoding` of the origin response reads its body as it
stands. -/
theorem decoded_answer_iff (cfg : Config) (coding : Coding cfg.codecs) (maxSizeBytes : UInt64)
    (t : State) (h : Reaches (step cfg) (State.initial maxSizeBytes) t) :
    ∀ ans ∈ t.answers, ans.request.method = .get →
      ans.response.headers.get "content-range" = none →
      ∀ x, ans.via.source = some x → KeepsBody cfg x →
        (coding.decode (contentCoding ans.response.headers) ans.response.body =
            coding.decode (contentCoding x.response.headers) x.response.body ↔
          coding.decode (contentCoding x.response.headers) x.response.body =
            some x.response.body) := by
  intro ans hans hget hwhole x hsource hx
  obtain ⟨as, has⟩ := h
  have hbacked : ans.Backed cfg fun _ => True :=
    (backed_of_run has ans hans).mono fun _ _ => trivial
  rw [decode_answer coding hbacked hget hwhole hsource hx]
  exact eq_comm

/-- How clients read the codecs of the sample deployment. -/
def sampleCoding : Coding sampleCodecs where
  decode coding body :=
    if coding = some "br" ∨ coding = some "gzip" then some (body.drop 1) else some body
  decode_none := fun body => rfl
  decode_br := by
    rintro body level coded ⟨⟩
    rfl
  decompress_br := by
    rintro body level coded ⟨⟩
    rfl
  decode_gzip := by
    rintro body level coded ⟨⟩
    rfl

/-- Two visitors ask for a page that the origin sends compressed, a third one finds it in
the memory cache. -/
def gzipPageActions : List Action :=
  [sampleDomains, .arrive (sampleRequest .get "/page" [("accept-encoding", "gzip")]),
   .arrive (sampleRequest .get "/page" [("accept-encoding", "gzip")])]
    ++ missActions 0 ++ missActions 1
    ++ fetchActions 0 200 [("content-encoding", "gzip"), ("content-type", "text/html")] [2, 7]
    ++ [.publish 0, .respond 0, .respond 1] ++ saveActions 0
    ++ [.arrive (sampleRequest .get "/page" [("accept-encoding", "gzip")]), .l1Get 2]

/-- All three are sent the compressed body without its coding. -/
theorem gzip_page_read_wrong :
    ∃ t, Trace (step sampleConfig) Free (State.initial 1000000) gzipPageActions t ∧
      t.answers.length = 3 ∧ ∀ ans ∈ t.answers, ans.request.method = .get ∧
        ans.response.headers.get "content-range" = none ∧
        ∃ x, ans.via.source = some x ∧ KeepsBody sampleConfig x ∧
          sampleCoding.decode (contentCoding ans.response.headers) ans.response.body ≠
            sampleCoding.decode (contentCoding x.response.headers) x.response.body := by
  have hrun : ((run (step sampleConfig) sampleStart gzipPageActions).any fun t =>
      t.answers.length == 3 && t.answers.all fun ans =>
        decide (ans.request.method = .get ∧ ans.response.headers.get "content-range" = none) &&
          ans.via.source.any fun x =>
            decide (sampleCoding.decode (contentCoding ans.response.headers) ans.response.body ≠
              sampleCoding.decode (contentCoding x.response.headers) x.response.body)) = true := by
    decide +kernel
  obtain ⟨t, ht, hall⟩ := exists_trace_of_run hrun
  simp only [Bool.and_eq_true, beq_iff_eq, List.all_eq_true, Option.any_eq_true,
    decide_eq_true_eq] at hall
  refine ⟨t, ht, hall.1, fun ans hans => ?_⟩
  obtain ⟨⟨hget, hwhole⟩, x, hsource, hne⟩ := hall.2 ans hans
  exact ⟨hget, hwhole, x, hsource, Or.inr rfl, hne⟩

/-- An image sent without a coding is read right. -/
theorem logo_read_right :
    ∃ t, Reaches (step sampleConfig) (State.initial 1000000) t ∧ ∃ ans ∈ t.answers,
      ∃ x, ans.via.source = some x ∧
        sampleCoding.decode (contentCoding ans.response.headers) ans.response.body =
          sampleCoding.decode (contentCoding x.response.headers) x.response.body := by
  have hrun : ((run (step sampleConfig) sampleStart logoActions).any fun t =>
      t.answers.any fun ans =>
        decide (ans.request.method = .get ∧ ans.response.headers.get "content-range" = none) &&
          ans.via.source.any fun x => decide
            (sampleCoding.decode (contentCoding x.response.headers) x.response.body =
              some x.response.body)) = true := by
    decide +kernel
  obtain ⟨t, ht, hany⟩ := exists_trace_of_run hrun
  simp only [List.any_eq_true, Bool.and_eq_true, Option.any_eq_true, decide_eq_true_eq] at hany
  obtain ⟨ans, hans, ⟨hget, hwhole⟩, x, hsource, hplain⟩ := hany
  exact ⟨t, ht.reaches, ans, hans, x, hsource,
    (decoded_answer_iff sampleConfig sampleCoding 1000000 t ht.reaches ans hans hget hwhole x hsource
      (Or.inr rfl)).mpr hplain⟩

end SmartSchoolCdn
