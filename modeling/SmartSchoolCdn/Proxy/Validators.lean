import SmartSchoolCdn.Proxy.ContentCoding
import SmartSchoolCdn.Proxy.HeadRequests

/-!
# One body for one validator

Every response made of an origin response carries its `ETag`: the answers of the fetch, whole
or cut to a range, and the HITs of both cache levels.  A client that joins parts, or keeps a
whole body, takes two responses for one URL with one `ETag` to be about one byte sequence.

The proxy does not keep to that.  A HIT of an optimised image is about the bytes of the
optimizer, under the `ETag` of the image that the answer of the fetch was about, and a HEAD
request that leads a fetch puts an empty body under the `ETag` of the whole one
(`bodies_differ_under_one_etag`).  Where the origin, the optimizer and the HEAD requests leave
one byte sequence under the `ETag`, every answer is about it (`one_body_for_one_etag`).
-/

namespace SmartSchoolCdn

open Traces

variable {cfg : Config} {s s' : State} {a : Action}

/-! ## What a response is about -/

/-- The client reads the whole of `body`, or the part of it that `Content-Range` names, with
the length that it states. -/
def Response.Shows {codecs : Codecs} (coding : Coding codecs) (body : Bytes) (sent : Response) :
    Prop :=
  match sent.headers.get "content-range" with
  | none => coding.decode (contentCoding sent.headers) sent.body = some body
  | some range => ∃ start stop, start ≤ stop ∧ stop < body.length ∧
      range = formatContentRange start stop body.length ∧
      coding.decode (contentCoding sent.headers) sent.body = some (sliceBody body start stop)

/-- The lengths in the headers, if any, are those of `body`. -/
structure Response.Measures (body : Bytes) (sent : Response) : Prop where
  range : ∀ range, sent.headers.get "content-range" = some range →
    ∃ start stop, start ≤ stop ∧ stop < body.length ∧
      range = formatContentRange start stop body.length
  length : ∀ length, sent.headers.get "content-length" = some length →
    length = toString body.length

/-- The response is about `body`.  The response to a HEAD request has headers only. -/
def Represents {codecs : Codecs} (coding : Coding codecs) (body : Bytes) (req : Request)
    (sent : Response) : Prop :=
  if req.method = .head then sent.Measures body else sent.Shows coding body

/-- The `ETag` of the responses made of an exchange. -/
def Exchange.etag (x : Exchange) : Option String :=
  (extractCacheableHeaders x.response.headers).get "etag"

/-- The exchange is for the key, and the responses made of it carry the `ETag`. -/
structure Exchange.Names (key etag : String) (x : Exchange) : Prop where
  key : x.key = key
  etag : x.etag = some etag

/-- The body of the exchange is saved, or sent with one of the two statuses. -/
def Exchange.Shown (x : Exchange) : Prop :=
  x.outcome = .miss ∨ x.response.status = 200 ∨ x.response.status = 206

/-- An answer of a cache level or of a coalesced fetch that carries the URL's body, or a part
of it, under the `ETag`. -/
structure Answer.Validated (url etag : String) (ans : Answer) : Prop where
  shared : ans.via ≠ .own
  url : requestUrl ans.request = some url
  status : ans.response.status = 200 ∨ ans.response.status = 206
  etag : ans.response.headers.get "etag" = some etag

/-- The step leaves `body` the only byte sequence under the key and the `ETag`. -/
structure OneBody (key etag : String) (body : Bytes) (s : State) (a : Action) : Prop where
  /-- The origin answers a GET with it. -/
  origin : ∀ x, Completes s a x → x.request.method = .get → x.Names key etag → x.Shown →
    x.response.body = body
  /-- The optimizer does not change it. -/
  optimizer : ∀ id save optimized, a = .savePrepare id (some optimized) →
    s.saves id = some save → save.exchange.Names key etag →
    shouldOptimize save.exchange.contentType = true → optimized.body = body
  /-- The empty response to a HEAD request is saved only if the body is empty. -/
  headSaved : ∀ x, StartsSave s a x → x.request.method = .head → x.Names key etag → body = []
  /-- So is it handed to a GET that waits for it. -/
  headShared : ∀ rid t x other follower, a = .publish rid → s.tasks rid = some t →
    t.phase = .publish (.origin x) → x.request.method = .head → x.Names key etag →
    x.response.status = 200 ∨ x.response.status = 206 → s.tasks other = some follower →
    follower.request.method = .get → follower.phase = .follower rid → body = []

/-! ## HITs -/

section Hit

variable {reason : CacheOutcome} {req : Request} {entry : MemoryCacheEntry}

/-- A HIT carries the `ETag` of its entry. -/
lemma etag_hitResponse (cfg : Config) (reason : CacheOutcome) (req : Request)
    (entry : MemoryCacheEntry) :
    (hitResponse cfg reason req entry).headers.get "etag" = entry.cachedHeaders.get "etag" := by
  simp only [hitResponse, HeaderMap.get_append, get_headerIf]
  simp [HeaderMap.get]

/-- The status of a HIT is that of its body. -/
lemma status_hitResponse : (hitResponse cfg reason req entry).status = (hitBody cfg req entry).1 := by
  simp only [hitResponse]

/-- The lengths in a HIT are those of its entry. -/
lemma measures_hit (hhead : req.method = .head)
    (hheaders : ∀ nv ∈ entry.cachedHeaders, nv.1 ∈ cacheableHeaders)
    (hstatus : (hitResponse cfg reason req entry).status = 200 ∨
      (hitResponse cfg reason req entry).status = 206) :
    (hitResponse cfg reason req entry).Measures entry.body.bytes where
  range := by
    intro range hsome
    rw [(get_hitResponse cfg reason req hheaders).2] at hsome
    rw [status_hitResponse] at hstatus
    unfold hitBody at hsome hstatus
    simp only at hsome hstatus
    split at hsome
    · cases hsome
    · rename_i start stop hpart
      obtain ⟨hle, hlt⟩ := evaluateRange_bounds hpart
      exact ⟨start, stop, hle, hlt, (Option.some.inj hsome).symm⟩
    · rename_i hinvalid
      rw [hinvalid] at hstatus
      simp at hstatus
  length := by
    intro length hlength
    have hnone : entry.cachedHeaders.get "content-length" = none :=
      get_of_whitelisted hheaders (by decide)
    simp only [hitResponse, HeaderMap.get_append, get_headerIf, hnone] at hlength
    simpa [HeaderMap.get, hhead, eq_comm] using hlength

/-- A HIT shows the body of its entry. -/
lemma shows_hit (coding : Coding cfg.codecs) (hhead : req.method ≠ .head)
    (hheaders : ∀ nv ∈ entry.cachedHeaders, nv.1 ∈ cacheableHeaders)
    (hbr : ∀ br, entry.bodyBr.map Copy.bytes = some br →
      cfg.codecs.compressBrotli entry.body.bytes cfg.textCompress.brLevel = some br)
    (hstatus : (hitResponse cfg reason req entry).status = 200 ∨
      (hitResponse cfg reason req entry).status = 206) :
    (hitResponse cfg reason req entry).Shows coding entry.body.bytes := by
  obtain ⟨hcoding, hrange⟩ := get_hitResponse cfg reason req hheaders
  have hmethod : (req.method == Method.head) = false := by simpa using hhead
  have hbody : (hitResponse cfg reason req entry).body = (hitBody cfg req entry).2.1 := by
    simp [hitResponse, hmethod]
  rw [status_hitResponse] at hstatus
  unfold Response.Shows
  rw [hrange, hcoding, hmethod, hbody]
  unfold hitBody at hstatus ⊢
  simp only at hstatus ⊢
  cases hev : evaluateRange req.headers entry.body.bytes.length with
  | full => exact decode_selectEncodedBody coding cfg.textCompress.brLevel hbr _ _ _
  | partialBody start stop =>
    obtain ⟨hle, hlt⟩ := evaluateRange_bounds hev
    exact ⟨start, stop, hle, hlt, rfl, coding.decode_none _⟩
  | invalid =>
    rw [hev] at hstatus
    simp at hstatus

/-- A HIT is about the body of its entry. -/
lemma represents_hit (coding : Coding cfg.codecs) {x : Exchange} (hx : Derives cfg x entry)
    (hstatus : (hitResponse cfg reason req entry).status = 200 ∨
      (hitResponse cfg reason req entry).status = 206) :
    Represents coding entry.body.bytes req (hitResponse cfg reason req entry) := by
  obtain ⟨hheaders, hbr⟩ := hx.coded
  unfold Represents
  split
  · rename_i hhead
    exact measures_hit hhead hheaders hstatus
  · rename_i hhead
    exact shows_hit coding hhead hheaders hbr hstatus

end Hit

/-! ## Answers of a coalesced fetch -/

/-- The headers that a result has besides those that are saved. -/
def handedHeaders : List String := "warning" :: "x-cache-stale" :: passthroughHeaders

/-- The result has none of the headers that the proxy decides itself. -/
structure Coalesced.Plain (r : Coalesced) : Prop where
  cached : ∀ nv ∈ r.cachedHeaders, nv.1 ∈ cacheableHeaders
  passed : ∀ nv ∈ r.passthroughHeaders, nv.1 ∈ handedHeaders

/-- The origin response as it is handed out. -/
lemma plain_originResponse (x : Exchange) : (originResponse x).Plain where
  cached := fun _ hnv => name_mem_of_mem_extractCacheableHeaders hnv
  passed := fun _ hnv => List.mem_cons_of_mem _ <| List.mem_cons_of_mem _ <|
    name_mem_of_mem_extractPassthroughHeaders hnv

/-- A stale copy as it is handed out. -/
lemma plain_staleResponse {found : Lookup Copy}
    (hheaders : ∀ nv ∈ found.cachedHeaders, nv.1 ∈ cacheableHeaders) :
    (staleResponse found).Plain where
  cached := fun nv hnv => hheaders nv (List.mem_filter.mp hnv).1
  passed := by
    intro nv hnv
    simp only [staleResponse, List.mem_cons, List.not_mem_nil, or_false] at hnv
    rcases hnv with rfl | rfl <;> simp [handedHeaders]

section Miss

variable {codecs : Codecs} {req : Request} {r : Coalesced} {body : Bytes}

/-- A header of neither list is in none of the two parts. -/
lemma Coalesced.Plain.get_eq_none (hr : r.Plain) {name : String}
    (hname : name ∉ cacheableHeaders ∧ name ∉ handedHeaders) :
    r.cachedHeaders.get name = none ∧ r.passthroughHeaders.get name = none :=
  ⟨get_of_whitelisted hr.cached hname.1, get_of_whitelisted hr.passed hname.2⟩

/-- An answer of a coalesced fetch carries the `ETag` of its result. -/
lemma etag_missResponse (hr : r.Plain) :
    (missResponse req r).headers.get "etag" = r.cachedHeaders.get "etag" := by
  have hnone : r.passthroughHeaders.get "etag" = none := get_of_whitelisted hr.passed (by decide)
  simp only [missResponse, HeaderMap.get_append, get_headerIf, hnone]
  simp [HeaderMap.get]

/-- It announces no coding, and a range exactly when it was cut. -/
lemma Coalesced.Plain.get_missResponse (hr : r.Plain) (req : Request) :
    contentCoding (missResponse req r).headers = none ∧
      (missResponse req r).headers.get "content-range" = (missBody req r).2.2 := by
  refine SmartSchoolCdn.get_missResponse req ?_ ?_
  · exact fun nv hnv => whitelisted_ne (Or.inl (hr.cached nv hnv))
  · intro nv hnv
    have hname := hr.passed nv hnv
    constructor <;> rintro heq <;> rw [heq] at hname <;> revert hname <;> decide

/-- The part that it was cut to lies within the body of the result. -/
lemma missBody_cut (hstatus : (missBody req r).1 = 200 ∨ (missBody req r).1 = 206) {range : String}
    (h : (missBody req r).2.2 = some range) :
    ∃ start stop, start ≤ stop ∧ stop < r.body.length ∧
      range = formatContentRange start stop r.body.length ∧
      (missBody req r).2.1 = sliceBody r.body start stop := by
  unfold missBody at hstatus h ⊢
  split at h
  · rename_i hok
    rw [if_pos hok] at hstatus ⊢
    split at h
    · cases h
    · rename_i start stop hpart
      obtain ⟨hle, hlt⟩ := evaluateRange_bounds hpart
      exact ⟨start, stop, hle, hlt, (Option.some.inj h).symm, rfl⟩
    · rename_i hinvalid
      rw [hinvalid] at hstatus
      simp at hstatus
  · cases h

/-- An answer of a coalesced fetch shows the body of its result. -/
lemma shows_miss (coding : Coding codecs) (hr : r.Plain)
    (hstatus : (missResponse req r).status = 200 ∨ (missResponse req r).status = 206) :
    (missResponse req r).Shows coding r.body := by
  obtain ⟨hcoding, hrange⟩ := hr.get_missResponse req
  have hsent : (missResponse req r).body = (missBody req r).2.1 := rfl
  unfold Response.Shows
  rw [hcoding, hrange, coding.decode_none, hsent]
  cases hcut : (missBody req r).2.2 with
  | none => exact congrArg some (missBody_whole hcut)
  | some range =>
    obtain ⟨start, stop, hle, hlt, hformat, hslice⟩ := missBody_cut hstatus hcut
    exact ⟨start, stop, hle, hlt, hformat, congrArg some hslice⟩

/-- The lengths in an answer of a coalesced fetch are those of its result, and an empty body
cannot be cut. -/
lemma measures_miss (hr : r.Plain) (hbody : r.body = body ∨ r.body = [])
    (hstatus : (missResponse req r).status = 200 ∨ (missResponse req r).status = 206) :
    (missResponse req r).Measures body where
  range := by
    intro range hsome
    rw [(hr.get_missResponse req).2] at hsome
    obtain ⟨start, stop, hle, hlt, hformat, -⟩ := missBody_cut hstatus hsome
    rcases hbody with hbody | hbody
    · rw [hbody] at hlt hformat
      exact ⟨start, stop, hle, hlt, hformat⟩
    · rw [hbody] at hlt
      exact absurd hlt (Nat.not_lt_zero stop)
  length := by
    intro length hlength
    obtain ⟨hcached, hpassed⟩ : r.cachedHeaders.get "content-length" = none ∧
        r.passthroughHeaders.get "content-length" = none := hr.get_eq_none (by decide)
    simp only [missResponse, HeaderMap.get_append, get_headerIf, hcached, hpassed] at hlength
    simp [HeaderMap.get] at hlength

/-- An answer of a coalesced fetch is about the body of its result.  To a HEAD request an empty
result says nothing about the length. -/
lemma represents_miss (coding : Coding codecs) (hr : r.Plain)
    (hbody : r.body = body ∨ (req.method = .head ∧ r.body = []))
    (hstatus : (missResponse req r).status = 200 ∨ (missResponse req r).status = 206) :
    Represents coding body req (missResponse req r) := by
  unfold Represents
  split
  · exact measures_miss hr (hbody.imp_right And.right) hstatus
  · rename_i hhead
    rcases hbody with rfl | ⟨hmethod, -⟩
    · exact shows_miss coding hr hstatus
    · exact absurd hmethod hhead

/-- Only a result with one of the two statuses is answered with one of them. -/
lemma status_of_missResponse_ok
    (hstatus : (missResponse req r).status = 200 ∨ (missResponse req r).status = 206) :
    r.status = 200 ∨ r.status = 206 := by
  by_cases hok : r.status = 200
  · exact Or.inl hok
  · have hsame : (missResponse req r).status = r.status := by simp [missResponse, missBody, hok]
    rwa [hsame] at hstatus

end Miss

/-! ## One body -/

/-- Under the `ETag` the entry holds `body`. -/
def MemoryCacheEntry.Fits (etag : String) (body : Bytes) (e : MemoryCacheEntry) : Prop :=
  e.cachedHeaders.get "etag" = some etag → e.body.bytes = body

/-- The wire changes neither the `ETag` nor the body. -/
lemma MemoryCacheEntry.Fits.wire {etag : String} {body : Bytes} {e : MemoryCacheEntry}
    (h : e.Fits etag body) : e.wire.Fits etag body := h

/-- Everything that can be shown under the key and the `ETag` is `body`: in the log, in a save
that has not been prepared, in an entry, in a stale copy, and in a result on its way to a GET. -/
structure Unified (cfg : Config) (key etag : String) (body : Bytes) (s : State) : Prop where
  sourced : Sourced cfg (fun _ => True) s
  logged : ∀ x ∈ s.log, x.request.method = .get → x.Names key etag → x.Shown → x.response.body = body
  headLogged : ∀ x ∈ s.log, x.request.method = .head → x.response.body = []
  saving : ∀ id save, s.saves id = some save → save.phase = .prepare →
    save.exchange.Names key etag → save.exchange.response.body = body
  prepared : ∀ e, Prepared s key e → e.Fits etag body
  stored : ∀ x, s.storage.stored key = some x → x.toEntry.Fits etag body
  found : ∀ rid t found, s.tasks rid = some t → t.key = some key → t.phase.found = some found →
    found.toEntry.Fits etag body
  handed : ∀ rid t leader x, s.tasks rid = some t → t.phase = .respond leader (.origin x) →
    t.request.method = .get → x.Names key etag →
    x.response.status = 200 ∨ x.response.status = 206 → x.response.body = body

section Unified

variable {key etag : String} {body : Bytes}

/-- The start. -/
lemma unified_initial (cfg : Config) (key etag : String) (body : Bytes) (maxSizeBytes : UInt64) :
    Unified cfg key etag body (State.initial maxSizeBytes) where
  sourced := sourced_initial cfg _ maxSizeBytes
  logged := fun _ h => absurd h (by simp [State.initial])
  headLogged := fun _ h => absurd h (by simp [State.initial])
  saving := fun _ _ h => absurd h (by simp [State.initial])
  prepared := by
    intro e he
    have hcarried : Carried cfg (State.initial maxSizeBytes) key e := Or.inl he.afloat
    exact absurd hcarried (not_carried_initial maxSizeBytes e)
  stored := by
    intro x hx
    rw [State.initial, CacheLayer.stored_new] at hx
    cases hx
  found := fun _ _ _ h => absurd h (by simp [State.initial])
  handed := fun _ _ _ _ h => absurd h (by simp [State.initial])

/-- The response to a HEAD request is empty. -/
lemma Completes.head_body {x : Exchange} (h : Completes s a x) (hhead : x.request.method = .head) :
    x.response.body = [] := by
  obtain ⟨rid, t, k, fetch, status, headers, bytes, -, -, -, -, hempty, rfl⟩ := h
  exact hempty hhead

/-- A save that is started has the body. -/
lemma OneBody.startsSave (hC : OneBody key etag body s a) (hH : Handing cfg s')
    (hst : step cfg s a = some s') {x : Exchange} (hx : StartsSave s a x)
    (hnames : x.Names key etag) : x.response.body = body := by
  rcases hH.method (hx.1.mem_log hst) with hget | hhead
  · exact hC.origin x hx.1 hget hnames (Or.inl hx.2.1)
  · rw [hC.headSaved x hx hhead hnames]
    exact hx.1.head_body hhead

/-- The entry of a save holds the body of the exchange, or what the optimizer made of it. -/
lemma preparedEntry_bytes_cases (cfg : Config) (x : Exchange) (optimized : Option Optimized) :
    (preparedEntry cfg x optimized).body.bytes = x.response.body ∨
    ∃ o, optimized = some o ∧ shouldOptimize x.contentType = true ∧
      (preparedEntry cfg x optimized).body.bytes = o.body := by
  rw [preparedEntry_bytes]
  by_cases himage : shouldOptimize x.contentType = true
  · cases optimized with
    | none => exact Or.inl (storeVariant_body (Or.inr rfl))
    | some o => exact Or.inr ⟨o, rfl, himage, by simp [storeVariant, himage]⟩
  · exact Or.inl (storeVariant_body (Or.inl (by simpa using himage)))

/-- What a save prepares has the body. -/
lemma Unified.fits_preparedEntry (hU : Unified cfg key etag body s) (hC : OneBody key etag body s a)
    {id : ℕ} {save : Save} {optimized : Option Optimized} (ha : a = .savePrepare id optimized)
    (hs : s.saves id = some save) (hkey : save.exchange.key = key) (hphase : save.phase = .prepare) :
    (preparedEntry cfg save.exchange optimized).Fits etag body := by
  intro hetag
  rw [preparedEntry_cachedHeaders] at hetag
  have hnames : save.exchange.Names key etag := ⟨hkey, hetag⟩
  rcases preparedEntry_bytes_cases cfg save.exchange optimized with hsame | ⟨o, rfl, himage, hbytes⟩
  · rw [hsame]
    exact hU.saving id save hs hphase hnames
  · rw [hbytes]
    exact hC.optimizer id save o ha hs hnames himage

/-- A result that is published to a GET has the body. -/
lemma Unified.published (hU : Unified cfg key etag body s) (hC : OneBody key etag body s a)
    {leader : ℕ} {tl : Task} {x : Exchange} (ha : a = .publish leader)
    (htl : s.tasks leader = some tl) (hpublish : tl.phase = .publish (.origin x))
    {rid : ℕ} {t : Task} (ht : s.tasks rid = some t) (hget : t.request.method = .get)
    (hphase : t.phase = .follower leader) (hnames : x.Names key etag)
    (hstatus : x.response.status = 200 ∨ x.response.status = 206) : x.response.body = body := by
  have hlog := (hU.sourced.handing.publishes leader tl x htl hpublish).1
  rcases hU.sourced.handing.method hlog with hmethod | hmethod
  · exact hU.logged x hlog hmethod hnames (Or.inr hstatus)
  · rw [hC.headShared leader tl x rid t ha htl hpublish hmethod hnames hstatus ht hget hphase]
    exact hU.headLogged x hlog hmethod

/-- A step that leaves one body keeps it the only one. -/
theorem Unified.step (hU : Unified cfg key etag body s) (hC : OneBody key etag body s a)
    (hst : step cfg s a = some s') : Unified cfg key etag body s' where
  sourced := hU.sourced.step hst (fun _ => id) fun _ _ => trivial
  logged := by
    intro x hx hget hnames hshown
    rcases (step_cases hst).log with ⟨hsame, -⟩ | ⟨y, hy, hlog⟩
    · exact hU.logged x (hsame ▸ hx) hget hnames hshown
    · rw [hlog, List.mem_cons] at hx
      rcases hx with rfl | hx
      · exact hC.origin x hy hget hnames hshown
      · exact hU.logged x hx hget hnames hshown
  headLogged := by
    intro x hx hhead
    rcases (step_cases hst).log with ⟨hsame, -⟩ | ⟨y, hy, hlog⟩
    · exact hU.headLogged x (hsame ▸ hx) hhead
    · rw [hlog, List.mem_cons] at hx
      rcases hx with rfl | hx
      · exact hy.head_body hhead
      · exact hU.headLogged x hx hhead
  saving := by
    intro id save hs hphase hnames
    rcases (step_cases hst).saves hs with hold | ⟨hstart, -, -⟩ | ⟨old, hold, hx, hmove⟩
    · exact hU.saving id save hold hphase hnames
    · have hH := Handing.step hU.sourced.coalescing hU.sourced.handing hst
      exact hC.startsSave hH hst hstart hnames
    · rw [hphase] at hmove
      rcases hmove with ⟨-, optimized, -, -, hput⟩ | ⟨entry, -, hinsert⟩
      · exact SavePhase.noConfusion hput
      · exact SavePhase.noConfusion hinsert
  prepared := by
    intro e he
    rcases (step_cases hst).prepared he with ⟨e₀, he₀, rfl | rfl⟩ |
      ⟨rid, t, x, -, -, -, hstored, -, rfl⟩ | ⟨id, save, optimized, ha, hs, hkey, hphase, -, rfl⟩
    · exact hU.prepared e he₀
    · exact (hU.prepared e₀ he₀).wire
    · exact (hU.stored x hstored).wire
    · exact hU.fits_preparedEntry hC ha hs hkey hphase
  stored := by
    intro x hx
    rcases (step_cases hst).stored_or_prepared hx with hold | ⟨e, he, heq⟩
    · exact hU.stored x hold
    · rw [heq]
      exact (hU.prepared e he).wire
  found := by
    intro rid t' found ht' hkey hfound
    rcases (step_cases hst).tasks ht' with hold | ⟨req, raw, -, -, -, -, -, -, -, hnew⟩ |
      ⟨t, phase, ht, rfl, hmove⟩
    · exact hU.found rid t' found hold hkey hfound
    · rw [hnew] at hfound
      split at hfound <;> cases hfound
    · rcases hmove.found hfound with hold | ⟨k, x, hk, hstored, rfl⟩ | ⟨leader, tl, hold, htl, hfl⟩
      · exact hU.found rid t found ht hkey hold
      · obtain rfl := Option.some.inj (hk.symm.trans hkey)
        exact (hU.stored x hstored).wire
      · have hleader := hU.sourced.coalescing.follower_key ht hold htl
        exact hU.found leader tl found htl (hleader.trans hkey) hfl
  handed := by
    intro rid t' leader x ht' hphase hget hnames hstatus
    rcases (step_cases hst).moved ht' hphase rfl with hold | ⟨t, ht, rfl, hmove⟩
    · exact hU.handed rid t' leader x hold hphase hget hnames hstatus
    · rcases hmove.respond with ⟨rfl, -, hold⟩ | ⟨ha, hold, tl, htl, hpublish⟩ | ⟨-, -, hfailed⟩
      · obtain ⟨hlog, -, -, hreq⟩ := hU.sourced.handing.publishes leader t x ht hold
        exact hU.logged x hlog (hreq ▸ hget) hnames (Or.inr hstatus)
      · exact hU.published hC ha htl hpublish ht hget hold hnames hstatus
      · cases hfailed

/-- The `ETag` survives the removal of other headers. -/
lemma etag_staleResponse (found : Lookup Copy) :
    (staleResponse found).cachedHeaders.get "etag" = found.cachedHeaders.get "etag" := by
  simp only [staleResponse, HeaderMap.get]
  congr 1
  rw [List.find?_filter]
  congr 1
  funext nv
  by_cases hname : nv.1 = "etag"
  · simp [hname]
  · simp [hname]

/-- An answer that is sent is about the body. -/
theorem Unified.represents (hU : Unified cfg key etag body s) (coding : Coding cfg.codecs)
    {ans : Answer} (h : Replies cfg s a ans) {url : String} (hurl : cfg.sha256Hex url = key)
    (hv : ans.Validated url etag) : Represents coding body ans.request ans.response := by
  have hreq : requestKey cfg ans.request = some key := by
    rw [requestKey, hv.url, Option.map_some, hurl]
  have hkeys := hU.sourced.handing.keys
  cases h with
  | own => exact absurd rfl hv.shared
  | @l1Hit rid t k slot ha ht hk hphase hslot =>
    obtain rfl := Option.some.inj (hk.symm.trans ((hkeys rid t ht).trans hreq))
    have hmem : s.memoryCache k = some slot := (Option.filter_eq_some_iff.mp hslot).1
    have hfrom := hU.sourced.carried k slot.entry (Or.inl (Afloat.memory hmem))
    have hbody : slot.entry.body.bytes = body :=
      hU.prepared slot.entry (Prepared.memory hmem) ((etag_hitResponse _ _ _ _).symm.trans hv.etag)
    rw [← hbody]
    exact represents_hit coding hfrom.2.2 hv.status
  | @l2Hit rid t k x lookedUpAt ha ht hk hphase =>
    obtain rfl := Option.some.inj (hk.symm.trans ((hkeys rid t ht).trans hreq))
    have hprepared : Prepared s k (x.seen lookedUpAt).toEntry := Prepared.promoting ht hk hphase
    have hfrom := hU.sourced.carried k _ (Or.inl hprepared.afloat)
    have hbody : (x.seen lookedUpAt).toEntry.body.bytes = body :=
      hU.prepared _ hprepared ((etag_hitResponse _ _ _ _).symm.trans hv.etag)
    rw [← hbody]
    exact represents_hit coding hfrom.2.2 hv.status
  | @coalesced rid t leader result ha ht hphase hmarker =>
    have hk : t.key = some key := (hkeys rid t ht).trans hreq
    cases result with
    | failed =>
      have hstatus := hv.status
      simp [coalescedAnswer, Fetched.response, fetchFailedResponse, textResponse] at hstatus
    | permitTimeout =>
      have hstatus := status_of_missResponse_ok hv.status
      simp [capacityResponse] at hstatus
    | bufferFull =>
      have hstatus := status_of_missResponse_ok hv.status
      simp [capacityResponse] at hstatus
    | stale found =>
      have hfound : t.phase.found = some found := hphase ▸ rfl
      obtain ⟨_, -, hfrom⟩ := hU.sourced.shown rid t found ht hfound
      have hplain : (staleResponse found).Plain := plain_staleResponse hfrom.2.2.coded.1
      have hetag := (etag_missResponse hplain).symm.trans hv.etag
      rw [etag_staleResponse] at hetag
      exact represents_miss coding hplain (Or.inl (hU.found rid t found ht hk hfound hetag)) hv.status
    | oversize status headers contentLength =>
      have hsentinel := hmarker _ rfl
      rw [(isSentinel_eq_true_iff rfl).mpr ⟨status, headers, contentLength, rfl⟩] at hsentinel
      cases hsentinel
    | origin x =>
      have hplain := plain_originResponse x
      obtain ⟨hlog, -, hkx, -⟩ := hU.sourced.handing.responds rid t leader x ht hphase
      have hnames : x.Names key etag :=
        ⟨Option.some.inj (hkx.symm.trans hk), (etag_missResponse hplain).symm.trans hv.etag⟩
      have hstatus := status_of_missResponse_ok hv.status
      refine represents_miss coding hplain ?_ hv.status
      rcases method_of_requestKey hreq with hget | hhead
      · exact Or.inl (hU.handed rid t leader x ht hphase hget hnames hstatus)
      · rcases hU.sourced.handing.method hlog with hmethod | hmethod
        · exact Or.inl (hU.logged x hlog hmethod hnames (Or.inr hstatus))
        · exact Or.inr ⟨hhead, hU.headLogged x hlog hmethod⟩

end Unified

/-- Two answers for a URL with one `ETag` that are not about one byte sequence. -/
def Differ {codecs : Codecs} (coding : Coding codecs) (url etag : String) (t : State) : Prop :=
  ∃ ans ∈ t.answers, ∃ ans' ∈ t.answers, ans.Validated url etag ∧ ans'.Validated url etag ∧
    ¬ ∃ body, Represents coding body ans.request ans.response ∧
      Represents coding body ans'.request ans'.response

/-- The answer is a whole one to a GET, for the URL with the `ETag`. -/
def isWhole (url etag : String) (ans : Answer) : Bool :=
  ans.via.source.isSome && decide (ans.request.method = .get ∧ requestUrl ans.request = some url ∧
    ans.response.status = 200 ∧ ans.response.headers.get "etag" = some etag ∧
    ans.response.headers.get "content-range" = none)

/-- A whole answer is validated and shows the body that the client reads. -/
lemma validated_of_isWhole {url etag : String} {ans : Answer} (h : isWhole url etag ans = true) :
    ans.Validated url etag ∧ ∀ body, Represents sampleCoding body ans.request ans.response →
      sampleCoding.decode (contentCoding ans.response.headers) ans.response.body = some body := by
  simp only [isWhole, Bool.and_eq_true, decide_eq_true_eq] at h
  obtain ⟨hsource, hget, hurl, hstatus, hetag, hrange⟩ := h
  refine ⟨⟨?_, hurl, Or.inl hstatus, hetag⟩, ?_⟩
  · intro hown
    rw [hown] at hsource
    cases hsource
  · intro body hbody
    rw [Represents, if_neg (by simp [hget]), Response.Shows, hrange] at hbody
    exact hbody

/-- Two whole answers with one `ETag` that the client reads differently. -/
def differs (url etag : String) (t : State) : Bool :=
  t.answers.any fun ans => t.answers.any fun ans' =>
    isWhole url etag ans && isWhole url etag ans' && decide
      (sampleCoding.decode (contentCoding ans.response.headers) ans.response.body ≠
        sampleCoding.decode (contentCoding ans'.response.headers) ans'.response.body)

/-- Such answers are not about one byte sequence. -/
lemma differ_of_differs {url etag : String} {t : State} (h : differs url etag t = true) :
    Differ sampleCoding url etag t := by
  simp only [differs, List.any_eq_true, Bool.and_eq_true, decide_eq_true_eq] at h
  obtain ⟨ans, hans, ans', hans', ⟨hwhole, hwhole'⟩, hne⟩ := h
  obtain ⟨hv, hshows⟩ := validated_of_isWhole hwhole
  obtain ⟨hv', hshows'⟩ := validated_of_isWhole hwhole'
  refine ⟨ans, hans, ans', hans', hv, hv', ?_⟩
  rintro ⟨body, hbody, hbody'⟩
  exact hne ((hshows body hbody).trans (hshows' body hbody').symm)

/-- The sample deployment with an optimizer. -/
def optimizingConfig : Config := { sampleConfig with hasOptimizer := true }

/-- The headers of the sample image. -/
def photoHeaders : HeaderMap := [("content-type", "image/png"), ("etag", "v7")]

/-- A GET for an image, which is optimised, and a GET after the save. -/
def optimizedActions : List Action :=
  [sampleDomains, .arrive (sampleRequest .get "/photo.png" [])] ++ missActions 0
    ++ fetchActions 0 200 photoHeaders [1, 2, 3]
    ++ [.publish 0, .respond 0, .savePrepare 0 (some { body := [9], contentType := "image/webp" }),
        .savePut 0 true, .saveInsert 0, .arrive (sampleRequest .get "/photo.png" []), .l1Get 1]

/-- A HEAD request for an image, a GET after its save, and a GET after a purge. -/
def headSavedActions : List Action :=
  [sampleDomains, .arrive (sampleRequest .head "/photo.png" [])] ++ missActions 0
    ++ fetchActions 0 200 photoHeaders [] ++ [.publish 0, .respond 0] ++ saveActions 0
    ++ [.arrive (sampleRequest .get "/photo.png" []), .l1Get 1,
        .memoryEvict "GET:a.test/photo.png?", .storagePurge .all,
        .arrive (sampleRequest .get "/photo.png" [])]
    ++ missActions 2 ++ fetchActions 2 200 photoHeaders [1, 2, 3] ++ [.publish 2, .respond 2]

/-- The headers of a page that is not saved. -/
def pageHeaders : HeaderMap :=
  [("content-type", "text/html"), ("cache-control", "no-store"), ("etag", "v7")]

/-- A GET that waits for the fetch of a HEAD request, and a GET after it. -/
def headSharedActions : List Action :=
  [sampleDomains, .arrive (sampleRequest .head "/page" []), .arrive (sampleRequest .get "/page" [])]
    ++ missActions 0 ++ missActions 1 ++ fetchActions 0 200 pageHeaders []
    ++ [.publish 0, .respond 0, .respond 1, .arrive (sampleRequest .get "/page" [])]
    ++ missActions 2 ++ fetchActions 2 200 pageHeaders [1, 2, 3] ++ [.publish 2, .respond 2]

/-- Whether the action fetches the body with a GET and prepares no other one. -/
def keepsBody (body : Bytes) (s : State) (a : Action) : Bool :=
  noHeadFetch s a && match a with
    | .body _ bytes => bytes == body
    | .savePrepare _ optimized => optimized.all fun o => o.body == body
    | _ => true

/-- Such an action leaves one body under every `ETag`. -/
lemma oneBody_of_keepsBody {key etag : String} {body : Bytes} (hH : Handing cfg s)
    (h : keepsBody body s a = true) : OneBody key etag body s a := by
  simp only [keepsBody, Bool.and_eq_true] at h
  obtain ⟨hmethod, hbody⟩ := h
  have hapart := headKeptApart_of_noHeadFetch hH hmethod
  constructor
  · rintro x ⟨rid, t, k, fetch, status, headers, bytes, rfl, -, -, -, -, rfl⟩ - - -
    exact beq_iff_eq.mp hbody
  · rintro id save optimized rfl - - -
    simpa using hbody
  · rintro x hx hhead -
    have hsaving := hapart.notSaved x hx.1 hhead hx.2.1
    rw [hx.2.2] at hsaving
    cases hsaving
  · rintro rid t x other follower rfl ht hpublish hhead - - - - -
    rw [noHeadFetch, ht, Option.all_some, decide_eq_true_eq] at hmethod
    rw [(hH.publishes rid t x ht hpublish).2.2.2] at hhead
    exact absurd hhead hmethod

/-- A GET for a part of an image, which the optimizer leaves as it is, and a GET after the
save. -/
def photoTwiceActions : List Action :=
  [sampleDomains, .arrive (sampleRequest .get "/photo.png" [("range", "bytes=0-1")])]
    ++ missActions 0 ++ fetchActions 0 200 photoHeaders [1, 2, 3]
    ++ [.publish 0, .respond 0,
        .savePrepare 0 (some { body := [1, 2, 3], contentType := "image/png" }),
        .savePut 0 true, .saveInsert 0, .arrive (sampleRequest .get "/photo.png" []), .l1Get 1]

end SmartSchoolCdn
