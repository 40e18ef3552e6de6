import SmartSchoolCdn.Proxy.IfRange
import SmartSchoolCdn.Proxy.Replay
import SmartSchoolCdn.Proxy.Validators

/-!
# HEAD requests and the GET in the same state

What one GET or HEAD request meets on its way through `proxy_handler` is fixed by its
circumstances: the two cache levels, the fetch that is in flight for its key, and what the origin
answers to a fetch of its own, which is sent with the method of the request.  `Circumstances.meet` is
the handler as a function of them, so that a HEAD request and the GET for the same URL can be
put into the same state; `answered_in_circumstances` says that every answer of the transition
system is one of these.

The two HIT branches give a HEAD request the length of the stored body, and a fetch in flight gives it
the body it gives a GET.  A HEAD request that leads a fetch has only the empty body of the origin's
answer to it, and announces length zero (`head_tells_get_iff`).
-/

namespace SmartSchoolCdn

open Traces

variable {cfg : Config} {s s' : State} {a : Action}

/-! ## Circumstances -/

/-- The headers are stored ones. -/
def Whitelisted (headers : HeaderMap) : Prop := ∀ nv ∈ headers, nv.1 ∈ cacheableHeaders

/-- The answer in the result has none of the headers that the proxy decides itself. -/
def Fetched.Plain (result : Fetched) : Prop :=
  ∀ r, result.response = some r → r.isSentinel = false → r.Plain

/-- What a GET or HEAD request meets. -/
structure Circumstances where
  /-- The live entry of the memory cache. -/
  l1 : Option MemoryCacheEntry
  /-- The fresh copy that the storage service returns. -/
  l2 : Option MemoryCacheEntry
  /-- The result of the fetch that is in flight for the key. -/
  inFlight : Option Fetched
  /-- The result of a fetch of the request's own, by the method that is sent. -/
  own : Method → Fetched
  /-- Whether the streaming path gets a slot of the origin semaphore. -/
  streamSlot : Bool
  /-- The origin's answer on the streaming path, by the method that is sent. -/
  stream : Method → Option OriginResponse
  l1_whitelisted : ∀ e, l1 = some e → Whitelisted e.cachedHeaders
  l2_whitelisted : ∀ e, l2 = some e → Whitelisted e.cachedHeaders
  inFlight_plain : ∀ result, inFlight = some result → result.Plain
  own_plain : ∀ method, (own method).Plain
  /-- The origin's answer to a HEAD request has no body. -/
  own_head : ∀ x, own .head = .origin x → x.response.body = []

/-- Where an answer comes from. -/
inductive Level
  | l1
  | l2
  | miss
  | bypass
  deriving DecidableEq

/-- An answer with the body it has before a content coding is chosen. -/
structure Met where
  level : Level
  response : Response
  identity : Bytes

/-- The end of `proxy_handler` for the result of a coalesced fetch. -/
def Circumstances.afterFetch (c : Circumstances) (req : Request) (result : Fetched) : Met :=
  match result.response with
  | none =>
    { level := .bypass, response := fetchFailedResponse, identity := fetchFailedResponse.body }
  | some r =>
    if r.isSentinel then
      let sent := if c.streamSlot then streamResponse (c.stream req.method) else streamBusyResponse
      { level := .bypass, response := sent, identity := sent.body }
    else
      let sent := missResponse req r
      { level := .miss, response := sent, identity := sent.body }

/-- `proxy_handler` for a GET or HEAD request. -/
def Circumstances.meet (cfg : Config) (c : Circumstances) (req : Request) : Met :=
  match c.l1 with
  | some e => { level := .l1, response := hitResponse cfg .l1Hit req e, identity := e.body.bytes }
  | none =>
    match c.l2 with
    | some e => { level := .l2, response := hitResponse cfg .l2Hit req e, identity := e.body.bytes }
    | none =>
      match c.inFlight with
      | some result => c.afterFetch req result
      | none => c.afterFetch req (c.own req.method)

/-- The content type of a response. -/
def Response.contentType (r : Response) : Option String := r.headers.get "content-type"

/-- The `Content-Length` of a response: the header, or what axum fills in. -/
def Response.contentLength (r : Response) : String :=
  (r.headers.get "content-length").getD (toString r.body.length)

/-- The GET for the URL of a request. -/
def Request.asGet (req : Request) : Request := { req with method := .get }

/-- A HEAD request answered 200 from a cache level or by a coalesced fetch has the status and the
content type of the GET, and the length of its body without content coding. -/
def Circumstances.HeadTellsGet (cfg : Config) (c : Circumstances) (head : Request) : Prop :=
  let h := c.meet cfg head
  let g := c.meet cfg head.asGet
  h.level ≠ .bypass → h.response.status = 200 →
    g.response.status = 200 ∧ g.response.contentType = h.response.contentType ∧
      h.response.contentLength = toString g.identity.length

/-- Status, content type and length of what the result of a fetch brings, streamed or not. -/
def Circumstances.brought (c : Circumstances) (method : Method) (result : Fetched) :
    Option (ℕ × Option String × ℕ) :=
  result.response.bind fun r =>
    if r.isSentinel then
      if c.streamSlot then
        (c.stream method).map fun resp =>
          (resp.status, resp.headers.getStr "content-type", resp.body.length)
      else none
    else some (r.status, r.contentType, r.body.length)

/-- If the fetch of a HEAD request brings a 200, the fetch of the GET brings the same type and
length. -/
def Circumstances.FetchesAgree (c : Circumstances) : Prop :=
  ∀ r, (c.own .head).response = some r → r.isSentinel = false → r.status = 200 →
    c.brought .get (c.own .get) = some (200, r.contentType, r.body.length)

/-! ## Responses -/

section Responses

variable {req : Request} {e : MemoryCacheEntry} {reason : CacheOutcome}

/-- A HIT of a request without a `Range` header: status and content type. -/
lemma hit_of_no_range (cfg : Config) (reason : CacheOutcome) (hheaders : Whitelisted e.cachedHeaders)
    (hrange : req.headers.get "range" = none) :
    (hitResponse cfg reason req e).status = 200 ∧
      (hitResponse cfg reason req e).contentType = e.contentType :=
  ⟨status_hit_of_no_range cfg reason e hrange, contentType_hitResponse cfg reason req hheaders⟩

/-- A HIT tells a HEAD request the length of the stored body. -/
lemma contentLength_hit_head (cfg : Config) (reason : CacheOutcome)
    (hheaders : Whitelisted e.cachedHeaders) (hmethod : req.method = .head) :
    (hitResponse cfg reason req e).contentLength = toString e.body.bytes.length := by
  have hnone : e.cachedHeaders.get "content-length" = none := get_of_whitelisted hheaders (by decide)
  simp only [Response.contentLength, hitResponse, HeaderMap.get_append, get_headerIf, hnone, hmethod]
  simp [HeaderMap.get]

/-- An answer of a coalesced fetch to a request without a `Range` header hands on what was
fetched. -/
lemma miss_of_no_range {r : Coalesced} (hr : r.Plain) (hrange : req.headers.get "range" = none) :
    (missResponse req r).status = r.status ∧ (missResponse req r).contentType = r.contentType ∧
      (missResponse req r).body = r.body ∧
      (missResponse req r).contentLength = toString r.body.length := by
  have hbody : missBody req r = (r.status, r.body, none) := by
    simp [missBody, evaluateRange_of_no_range hrange]
  obtain ⟨hcached, hpassed⟩ : r.cachedHeaders.get "content-type" = none ∧
      r.passthroughHeaders.get "content-type" = none := hr.get_eq_none (by decide)
  obtain ⟨hcached', hpassed'⟩ : r.cachedHeaders.get "content-length" = none ∧
      r.passthroughHeaders.get "content-length" = none := hr.get_eq_none (by decide)
  have hlength : (missResponse req r).headers.get "content-length" = none := by
    simp only [missResponse, HeaderMap.get_append, get_headerIf, hcached', hpassed']
    simp [HeaderMap.get]
  refine ⟨?_, ?_, ?_, ?_⟩
  · simp only [missResponse, hbody]
  · simp only [Response.contentType, missResponse, HeaderMap.get_append, get_headerIf, hcached, hpassed]
    simp [HeaderMap.get]
  · simp only [missResponse, hbody]
  · rw [Response.contentLength, hlength]
    simp only [missResponse, hbody, Option.getD_none]

/-- A streamed answer has the status and the content type of the origin. -/
lemma stream_response (resp : OriginResponse) :
    (streamResponse (some resp)).status = resp.status ∧
      (streamResponse (some resp)).contentType = resp.headers.getStr "content-type" ∧
      (streamResponse (some resp)).body = resp.body := by
  have hpassed : (extractPassthroughHeaders resp.headers).get "content-type" = none :=
    get_of_whitelisted (fun _ => name_mem_of_mem_extractPassthroughHeaders) (by decide)
  refine ⟨rfl, ?_, rfl⟩
  simp only [Response.contentType, streamResponse, HeaderMap.get_append, get_headerIf, hpassed]
  simp [HeaderMap.get]

end Responses

/-! ## HEAD and GET -/

section Tells

variable {c : Circumstances} {head : Request} {result result' : Fetched}

/-- Lengths are told apart by their decimal texts. -/
lemma length_text_inj {m n : ℕ} (h : toString m = toString n) : m = n := by
  have hdigits : Nat.toDigits 10 m = Nat.toDigits 10 n := by
    have hlist := congrArg String.toList h
    simpa using hlist
  rw [← Nat.ofDigitChars_ten_toDigits (n := m), hdigits, Nat.ofDigitChars_ten_toDigits]

/-- A failed fetch. -/
lemma afterFetch_failed (req : Request) (hresponse : result.response = none) :
    c.afterFetch req result =
      { level := .bypass, response := fetchFailedResponse, identity := fetchFailedResponse.body } := by
  simp only [Circumstances.afterFetch, hresponse]

/-- A fetch that sends its requesters to the streaming path. -/
lemma afterFetch_streamed (req : Request) {r : Coalesced} (hresponse : result.response = some r)
    (hsentinel : r.isSentinel = true) :
    let sent := if c.streamSlot then streamResponse (c.stream req.method) else streamBusyResponse
    c.afterFetch req result = { level := .bypass, response := sent, identity := sent.body } := by
  simp only [Circumstances.afterFetch, hresponse, hsentinel, if_true]

/-- Any other fetch. -/
lemma afterFetch_miss (req : Request) {r : Coalesced} (hresponse : result.response = some r)
    (hsentinel : r.isSentinel = false) :
    c.afterFetch req result =
      { level := .miss, response := missResponse req r, identity := (missResponse req r).body } := by
  simp only [Circumstances.afterFetch, hresponse, hsentinel, Bool.false_eq_true, if_false]

/-- The end of the handler when the streaming path is not taken. -/
lemma afterFetch_response (req : Request)
    (hstreamed : ∀ r, result.response = some r → r.isSentinel = false) :
    (c.afterFetch req result).response = coalescedAnswer req result := by
  unfold coalescedAnswer
  cases hresponse : result.response with
  | none => rw [afterFetch_failed req hresponse]
  | some r => rw [afterFetch_miss req hresponse (hstreamed r hresponse)]

/-- A GET is answered 200 with a type and a length exactly when its fetch brings them. -/
lemma afterFetch_get_iff (hresult : result.Plain) (hget : head.method = .get)
    (hrange : head.headers.get "range" = none) (contentType : Option String) (length : ℕ) :
    let g := c.afterFetch head result
    (g.response.status = 200 ∧ g.response.contentType = contentType ∧ g.identity.length = length) ↔
      c.brought .get result = some (200, contentType, length) := by
  unfold Circumstances.brought
  cases hresponse : result.response with
  | none =>
    rw [afterFetch_failed head hresponse]
    simp [fetchFailedResponse, textResponse]
  | some r =>
    rw [Option.bind_some]
    cases hsentinel : r.isSentinel with
    | true =>
      rw [afterFetch_streamed head hresponse hsentinel, hget]
      cases hslot : c.streamSlot with
      | false => simp [streamBusyResponse, textResponse]
      | true =>
        cases hstream : c.stream .get with
        | none => simp [streamResponse, textResponse]
        | some resp =>
          obtain ⟨hstatus, htype, hbody⟩ := stream_response resp
          simp [hstatus, htype, hbody]
    | false =>
      obtain ⟨hstatus, htype, hbody, -⟩ := miss_of_no_range (hresult r hresponse hsentinel) hrange
      rw [afterFetch_miss head hresponse hsentinel]
      simp [hstatus, htype, hbody]

/-- The answers to a HEAD request and to the GET after fetches with two results. -/
lemma afterFetch_tells_iff (hresult : result.Plain) (hresult' : result'.Plain)
    (hrange : head.headers.get "range" = none) :
    let h := c.afterFetch head result
    let g := c.afterFetch head.asGet result'
    (h.level ≠ .bypass → h.response.status = 200 →
      g.response.status = 200 ∧ g.response.contentType = h.response.contentType ∧
        h.response.contentLength = toString g.identity.length) ↔
    ∀ r, result.response = some r → r.isSentinel = false → r.status = 200 →
      c.brought .get result' = some (200, r.contentType, r.body.length) := by
  have hget := fun contentType length =>
    afterFetch_get_iff (c := c) hresult' (show head.asGet.method = .get from rfl) hrange contentType length
  cases hresponse : result.response with
  | none =>
    rw [afterFetch_failed head hresponse]
    simp
  | some r =>
    cases hsentinel : r.isSentinel with
    | true =>
      rw [afterFetch_streamed head hresponse hsentinel]
      simp [hsentinel]
    | false =>
      obtain ⟨hstatus, htype, -, hlength⟩ := miss_of_no_range (hresult r hresponse hsentinel) hrange
      rw [afterFetch_miss head hresponse hsentinel]
      simp only [hstatus, htype, hlength]
      constructor
      · rintro htells r' hr' - h200
        obtain rfl := Option.some.inj hr'
        obtain ⟨hg, hgtype, hglength⟩ := htells (by decide) h200
        exact (hget r.contentType r.body.length).mp ⟨hg, hgtype, (length_text_inj hglength).symm⟩
      · rintro hbrought - h200
        obtain ⟨hg, hgtype, hglength⟩ :=
          (hget r.contentType r.body.length).mpr (hbrought r rfl hsentinel h200)
        exact ⟨hg, hgtype, congrArg toString hglength.symm⟩

/-- When the origin answers the HEAD request with a 200, which has no body, the GET's own fetch has to
bring an empty 200 of the same type. -/
lemma fetchesAgree_iff_of_origin {x : Exchange} (hx : c.own .head = .origin x)
    (hstatus : x.response.status = 200) :
    c.FetchesAgree ↔ c.brought .get (c.own .get) = some (200, x.contentType, 0) := by
  have hempty : (originResponse x).body.length = 0 := congrArg List.length (c.own_head x hx)
  have hsentinel : (originResponse x).isSentinel = false := by
    refine Bool.eq_false_iff.mpr fun htrue => ?_
    obtain ⟨_, _, _, h⟩ := (isSentinel_eq_true_iff (f := .origin x) rfl).mp htrue
    cases h
  unfold Circumstances.FetchesAgree
  rw [hx]
  constructor
  · intro hagree
    rw [hagree _ rfl hsentinel hstatus, hempty]
    rfl
  · rintro hbrought r hr - -
    obtain rfl := Option.some.inj hr
    rw [hbrought, hempty]
    rfl

/-- A HEAD request tells what the GET in the same state would if and only if a cache level or a fetch
in flight answers it, or its own fetch brings no 200, or the GET's own fetch brings a 200 of the same
type and length; when the origin answers the HEAD request with a 200, that length is zero. -/
theorem head_tells_get_iff (cfg : Config) (c : Circumstances) (head : Request)
    (hmethod : head.method = .head) (hrange : head.headers.get "range" = none) :
    (c.HeadTellsGet cfg head ↔
      c.l1.isSome = true ∨ c.l2.isSome = true ∨ c.inFlight.isSome = true ∨ c.FetchesAgree) ∧
    ∀ x, c.own .head = .origin x → x.response.status = 200 →
      (c.FetchesAgree ↔ c.brought .get (c.own .get) = some (200, x.contentType, 0)) := by
  have hgetRange : head.asGet.headers.get "range" = none := hrange
  have hhit : ∀ reason e, Whitelisted e.cachedHeaders →
      (hitResponse cfg reason head.asGet e).status = 200 ∧
        (hitResponse cfg reason head.asGet e).contentType =
          (hitResponse cfg reason head e).contentType ∧
        (hitResponse cfg reason head e).contentLength = toString e.body.bytes.length := by
    intro reason e hheaders
    obtain ⟨-, htype⟩ := hit_of_no_range cfg reason hheaders hrange
    obtain ⟨hstatus, hgetType⟩ := hit_of_no_range cfg reason hheaders hgetRange
    exact ⟨hstatus, hgetType.trans htype.symm, contentLength_hit_head cfg reason hheaders hmethod⟩
  refine ⟨?_, fun x hx hstatus => fetchesAgree_iff_of_origin hx hstatus⟩
  · unfold Circumstances.HeadTellsGet Circumstances.meet
    cases hl1 : c.l1 with
    | some e => exact iff_of_true (fun _ _ => hhit .l1Hit e (c.l1_whitelisted e hl1)) (Or.inl rfl)
    | none =>
      cases hl2 : c.l2 with
      | some e =>
        exact iff_of_true (fun _ _ => hhit .l2Hit e (c.l2_whitelisted e hl2)) (Or.inr (Or.inl rfl))
      | none =>
        cases hflight : c.inFlight with
        | some result =>
          have hplain := c.inFlight_plain result hflight
          refine iff_of_true ?_ (Or.inr (Or.inr (Or.inl rfl)))
          refine (afterFetch_tells_iff hplain hplain hrange).mpr ?_
          -- both are handed the result of the same fetch
          intro r hresponse hsentinel hstatus
          simp [Circumstances.brought, hresponse, hsentinel, hstatus]
        | none =>
          rw [hmethod]
          refine (afterFetch_tells_iff (c.own_plain .head) (c.own_plain .get) hrange).trans ?_
          simp [Circumstances.FetchesAgree]

end Tells

/-! ## Answers of runs -/

/-- A failed fetch brings no answer. -/
lemma plain_failed : Fetched.failed.Plain := by
  intro r hr
  cases hr

/-- Nothing is cached or in flight, and a fetch fails. -/
def Circumstances.nothing : Circumstances where
  l1 := none
  l2 := none
  inFlight := none
  own := fun _ => .failed
  streamSlot := false
  stream := fun _ => none
  l1_whitelisted := fun _ h => by cases h
  l2_whitelisted := fun _ h => by cases h
  inFlight_plain := fun _ h => by cases h
  own_plain := fun _ => plain_failed
  own_head := fun _ h => by cases h

/-- An entry in the memory cache. -/
def Circumstances.ofL1 (e : MemoryCacheEntry) (he : Whitelisted e.cachedHeaders) : Circumstances :=
  { nothing with
    l1 := some e
    l1_whitelisted := fun _ h => Option.some.inj h ▸ he }

/-- A copy in the storage. -/
def Circumstances.ofL2 (e : MemoryCacheEntry) (he : Whitelisted e.cachedHeaders) : Circumstances :=
  { nothing with
    l2 := some e
    l2_whitelisted := fun _ h => Option.some.inj h ▸ he }

/-- A fetch in flight. -/
def Circumstances.ofInFlight (result : Fetched) (hresult : result.Plain) : Circumstances :=
  { nothing with
    inFlight := some result
    inFlight_plain := fun _ h => Option.some.inj h ▸ hresult }

/-- A fetch of the request's own, sent with its method. -/
def Circumstances.ofOwn (method : Method) (result : Fetched) (hresult : result.Plain)
    (hhead : ∀ x, method = .head → result = .origin x → x.response.body = []) : Circumstances :=
  { nothing with
    own := fun m => if m = method then result else .failed
    own_plain := fun m => by
      split
      · exact hresult
      · exact plain_failed
    own_head := fun x hx => by
      split at hx
      · rename_i hm
        exact hhead x hm.symm hx
      · cases hx }

/-- The request of an answer has met these circumstances. -/
def Circumstances.MetBy (c : Circumstances) (ans : Answer) : Prop :=
  match ans.via with
  | .l1Hit slot => c.l1 = some slot.entry
  | .l2Hit x lookedUpAt => c.l1 = none ∧ c.l2 = some (x.seen lookedUpAt).toEntry
  | .coalesced leader result =>
    c.l1 = none ∧ c.l2 = none ∧
      if leader = ans.rid then c.inFlight = none ∧ c.own ans.request.method = result
      else c.inFlight = some result
  | .own => False

/-- The responses to HEAD requests in the log have no body. -/
def HeadsEmpty (s : State) : Prop := ∀ x ∈ s.log, x.request.method = .head → x.response.body = []

/-- A step keeps this. -/
lemma HeadsEmpty.step (hE : HeadsEmpty s) (h : Step cfg s a s') : HeadsEmpty s' := by
  intro x hx hhead
  rcases h.log with ⟨hsame, -⟩ | ⟨y, hcompletes, hnew⟩
  · exact hE x (hsame ▸ hx) hhead
  · rw [hnew, List.mem_cons] at hx
    rcases hx with rfl | hx
    · obtain ⟨rid, t, key, fetch, status, headers, body, -, -, -, -, hempty, rfl⟩ := hcompletes
      exact hempty hhead
    · exact hE x hx hhead

/-- What is known of an answer when it is sent. -/
structure Answer.Sent (cfg : Config) (ans : Answer) : Prop where
  backed : ans.Backed cfg fun _ => True
  built : ans.Built cfg
  notStreamed : ∀ leader result r, ans.via = .coalesced leader result → result.response = some r →
    r.isSentinel = false
  headEmpty : ∀ leader x, ans.via = .coalesced leader (.origin x) → x.request.method = .head →
    x.response.body = []

/-- Every answer is sent so. -/
lemma sent_of_replies (hS : Sourced cfg (fun _ => True) s) (hE : HeadsEmpty s) {ans : Answer}
    (h : Replies cfg s a ans) : ans.Sent cfg where
  backed := hS.replies h
  built := h.built
  notStreamed := by
    intro leader result r hvia hr
    cases h with
    | coalesced _ _ _ hmarker =>
      obtain ⟨rfl, rfl⟩ := Via.coalesced.inj hvia
      exact hmarker r hr
    | _ => cases hvia
  headEmpty := by
    intro leader x hvia hhead
    cases h with
    | coalesced _ ht hphase _ =>
      obtain ⟨rfl, rfl⟩ := Via.coalesced.inj hvia
      exact hE x (hS.handing.responds _ _ _ x ht hphase).1 hhead
    | _ => cases hvia

/-- The result that an answer hands on is plain. -/
lemma Answer.Sent.plain {ans : Answer} (h : ans.Sent cfg) {leader : ℕ} {result : Fetched}
    (hvia : ans.via = .coalesced leader result) : result.Plain := by
  intro r hr hsentinel
  cases result with
  | failed => cases hr
  | permitTimeout =>
    obtain rfl := Option.some.inj hr
    exact ⟨by simp [capacityResponse], by simp [capacityResponse, handedHeaders, passthroughHeaders]⟩
  | bufferFull =>
    obtain rfl := Option.some.inj hr
    exact ⟨by simp [capacityResponse], by simp [capacityResponse, handedHeaders, passthroughHeaders]⟩
  | stale found =>
    obtain rfl := Option.some.inj hr
    have hbacked := h.backed
    unfold Answer.Backed at hbacked
    rw [hvia] at hbacked
    obtain ⟨key, -, ⟨-, -, hderives⟩, -⟩ := hbacked
    exact plain_staleResponse hderives.coded.1
  | oversize status headers contentLength =>
    obtain rfl := Option.some.inj hr
    rw [(isSentinel_eq_true_iff rfl).mpr ⟨status, headers, contentLength, rfl⟩] at hsentinel
    cases hsentinel
  | origin x =>
    obtain rfl := Option.some.inj hr
    exact plain_originResponse x

/-- Every answer of a run that a cache level or a coalesced fetch gives is the one of
`proxy_handler` in the circumstances that its request has met. -/
theorem answered_in_circumstances (cfg : Config) (maxSizeBytes : UInt64) (t : State)
    (as : List Action) (h : Trace (step cfg) Free (State.initial maxSizeBytes) as t) :
    ∀ ans ∈ t.answers, ans.via ≠ .own →
      ∃ c : Circumstances, c.MetBy ans ∧ (c.meet cfg ans.request).response = ans.response := by
  have hall : ∀ ans ∈ t.answers, ans.Sent cfg := by
    refine answers_of_trace (I := fun s => Sourced cfg (fun _ => True) s ∧ HeadsEmpty s)
      (Q := fun _ ans => ans.Sent cfg) h ?_ ?_ ?_ ?_ ?_
    · rintro s a s' ⟨hS, hE⟩ - hst
      exact ⟨hS.step hst (fun _ hx => hx) (fun _ _ => trivial), hE.step (step_cases hst)⟩
    · exact fun _ _ _ _ _ hans => hans
    · rintro s a s' ans ⟨hS, hE⟩ - - hreply
      exact sent_of_replies hS hE hreply
    · exact ⟨sourced_initial cfg _ maxSizeBytes, fun x hx => absurd hx (by simp [State.initial])⟩
    · exact fun ans hans => absurd hans (by simp [State.initial])
  intro ans hans hown
  have hplain : ∀ leader result, ans.via = .coalesced leader result → result.Plain :=
    fun _ _ => (hall ans hans).plain
  obtain ⟨hbacked, hbuilt, hstreamed, hhead⟩ := hall ans hans
  unfold Answer.Backed at hbacked
  unfold Answer.Built at hbuilt
  cases hvia : ans.via with
  | own => exact absurd hvia hown
  | l1Hit slot =>
    rw [hvia] at hbacked hbuilt
    obtain ⟨key, -, ⟨-, -, hderives⟩, -⟩ := hbacked
    refine ⟨.ofL1 slot.entry hderives.coded.1, ?_, hbuilt.symm⟩
    rw [Circumstances.MetBy, hvia]
    rfl
  | l2Hit x lookedUpAt =>
    rw [hvia] at hbacked hbuilt
    obtain ⟨key, -, ⟨-, -, hderives⟩, -⟩ := hbacked
    refine ⟨.ofL2 _ hderives.coded.1, ?_, hbuilt.symm⟩
    rw [Circumstances.MetBy, hvia]
    exact ⟨rfl, rfl⟩
  | coalesced leader result =>
    rw [hvia] at hbacked hbuilt
    have hplain := hplain leader result hvia
    have hanswer : ∀ c : Circumstances, (c.afterFetch ans.request result).response = ans.response :=
      fun c => (afterFetch_response ans.request fun r => hstreamed leader result r hvia).trans
        hbuilt.symm
    by_cases hled : leader = ans.rid
    · -- a fetch of its own: the response to a HEAD request that it leads has no body
      have hempty : ∀ x, ans.request.method = .head → result = .origin x → x.response.body = [] := by
        rintro x hmethod rfl
        have hrequest : x.request = ans.request := hbacked.2.2.1 hled
        exact hhead leader x hvia (hrequest ▸ hmethod)
      refine ⟨.ofOwn ans.request.method result hplain hempty, ?_, ?_⟩
      · rw [Circumstances.MetBy, hvia]
        simp [Circumstances.ofOwn, Circumstances.nothing, hled]
      · refine Eq.trans ?_ (hanswer (.ofOwn ans.request.method result hplain hempty))
        simp [Circumstances.meet, Circumstances.ofOwn, Circumstances.nothing]
    · refine ⟨.ofInFlight result hplain, ?_, hanswer _⟩
      rw [Circumstances.MetBy, hvia]
      simp [Circumstances.ofInFlight, Circumstances.nothing, hled]

/-! ## A HEAD request for a video that is not cached -/

/-- The origin's answers to a HEAD request and to a GET for a video. -/
def videoOrigin (method : Method) : Exchange :=
  { id := 0
    rid := 0
    key := ""
    host := "a.test"
    request := sampleRequest method "/clip.mp4" []
    response :=
      { status := 200
        headers := [("content-type", "video/mp4"), ("content-length", "3")]
        body := if method = .head then [] else [1, 2, 3] } }

/-- Nothing is cached, and the origin answers. -/
def videoCircumstances : Circumstances where
  l1 := none
  l2 := none
  inFlight := none
  own := fun method => .origin (videoOrigin method)
  streamSlot := true
  stream := fun method => some (videoOrigin method).response
  l1_whitelisted := fun _ h => by cases h
  l2_whitelisted := fun _ h => by cases h
  inFlight_plain := fun _ h => by cases h
  own_plain := by
    rintro method r hr -
    obtain rfl := Option.some.inj hr
    exact plain_originResponse _
  own_head := by
    rintro x hx
    obtain rfl := Fetched.origin.inj hx
    rfl

/-- The HEAD request is told length zero, the GET would be sent three bytes. -/
theorem head_told_zero :
    (videoCircumstances.meet sampleConfig (sampleRequest .head "/clip.mp4" [])).level = .miss ∧
      (videoCircumstances.meet sampleConfig (sampleRequest .head "/clip.mp4" [])).response.status =
        200 ∧
      (videoCircumstances.meet sampleConfig
        (sampleRequest .head "/clip.mp4" [])).response.contentLength = "0" ∧
      (videoCircumstances.meet sampleConfig
        (sampleRequest .head "/clip.mp4" []).asGet).identity = [1, 2, 3] ∧
      ¬ videoCircumstances.HeadTellsGet sampleConfig (sampleRequest .head "/clip.mp4" []) := by
  have hlevel : (videoCircumstances.meet sampleConfig
      (sampleRequest .head "/clip.mp4" [])).level = .miss := by decide +kernel
  have hstatus : (videoCircumstances.meet sampleConfig
      (sampleRequest .head "/clip.mp4" [])).response.status = 200 := by decide +kernel
  have hlength : (videoCircumstances.meet sampleConfig
      (sampleRequest .head "/clip.mp4" [])).response.contentLength = "0" := by decide +kernel
  have hbody : (videoCircumstances.meet sampleConfig
      (sampleRequest .head "/clip.mp4" []).asGet).identity = [1, 2, 3] := by decide +kernel
  refine ⟨hlevel, hstatus, hlength, hbody, fun htells => ?_⟩
  obtain ⟨-, -, hequal⟩ := htells (by rw [hlevel]; decide) hstatus
  rw [hlength, hbody] at hequal
  exact absurd hequal (by decide)

/-- With the video in the memory cache the HEAD request is told its length. -/
theorem head_tells_get_cached :
    (Circumstances.ofL1 (preparedEntry sampleConfig (videoOrigin .get) none)
        (Derives.coded ⟨none, by simp, Or.inl rfl⟩).1).HeadTellsGet sampleConfig
      (sampleRequest .head "/clip.mp4" []) :=
  (head_tells_get_iff sampleConfig _ (sampleRequest .head "/clip.mp4" []) rfl (by decide)).1.mpr
    (Or.inl rfl)

end SmartSchoolCdn
