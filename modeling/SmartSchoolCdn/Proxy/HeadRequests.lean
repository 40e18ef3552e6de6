import SmartSchoolCdn.Proxy.Answers

/-!
# HEAD requests

A HEAD request has the cache key of the GET, and the coalesced fetch is sent with the method
of its leader.  A HEAD request that leads a fetch therefore fetches an empty body under the
key of the GET: its background save puts that body into both cache levels, and its broadcast
hands it to subscribed GET requests (`get_answered_with_head_body`).

As long as neither happens, every GET that is answered from a cache or by another request's
fetch is answered from a response to a GET (`get_answers_come_from_get`).
-/

namespace SmartSchoolCdn

open Traces

variable {cfg : Config} {s s' : State} {a : Action}

/-- The step neither saves the response to a HEAD request nor broadcasts it, with status
200, to a GET. -/
structure HeadKeptApart (s : State) (a : Action) : Prop where
  notSaved : ∀ x, Completes s a x → x.request.method = .head → x.outcome = .miss →
    s.saving x.key = true
  notShared : ∀ rid t x, a = .publish rid → s.tasks rid = some t →
    t.phase = .publish (.origin x) → x.request.method = .head → x.response.status = 200 →
    ∀ other t', s.tasks other = some t' → t'.request.method = .get → t'.phase ≠ .follower rid

/-- The request was not answered by a fetch of its own. -/
def Answer.fromOthers (ans : Answer) : Prop :=
  match ans.via with
  | .l1Hit _ => True
  | .l2Hit _ _ => True
  | .coalesced leader _ => leader ≠ ans.rid
  | .own => False

/-- A HIT of the memory cache is not an answer of a fetch of its own. -/
lemma fromOthers_of_l1Hit {ans : Answer}
    (h : (match ans.via with | .l1Hit _ => true | _ => false) = true) : ans.fromOthers := by
  unfold Answer.fromOthers
  split at h
  · rename_i slot hslot
    rw [hslot]
    trivial
  · cases h

/-- A GET exchange of the log. -/
def FetchedByGet (s : State) (x : Exchange) : Prop :=
  x ∈ s.log ∧ x.request.method = .get

/-- A save that is started is one of a GET. -/
lemma HeadKeptApart.fetchedByGet (hC : HeadKeptApart s a) (hH : Handing cfg s')
    (hst : step cfg s a = some s') {x : Exchange} (hx : StartsSave s a x) : FetchedByGet s' x := by
  have hlog := hx.1.mem_log hst
  refine ⟨hlog, ?_⟩
  rcases hH.method hlog with hget | hhead
  · exact hget
  · have hsaving := hC.notSaved x hx.1 hhead hx.2.1
    rw [hx.2.2] at hsaving
    cases hsaving

/-- A GET that follows another request is on its way to be answered from a GET. -/
def FollowsGet (s : State) : Prop :=
  ∀ rid t leader x, s.tasks rid = some t → t.phase = .respond leader (.origin x) →
    leader ≠ rid → t.request.method = .get → x.response.status = 200 → x.request.method = .get

/-- Under the side condition it stays so. -/
lemma FollowsGet.step (hF : FollowsGet s) (hH : Handing cfg s) (hC : HeadKeptApart s a)
    (h : Step cfg s a s') : FollowsGet s' := by
  intro rid t' leader x ht' hphase hne hget hstatus
  rcases h.moved ht' hphase rfl with hold | ⟨t, ht, rfl, hmove⟩
  · exact hF rid t' leader x hold hphase hne hget hstatus
  · rcases hmove.respond with ⟨hleader, -, -⟩ | ⟨ha, hfollows, tl, htl, hpublish⟩ | ⟨-, -, hfailed⟩
    · exact absurd hleader hne
    · rcases hH.method (hH.publishes leader tl x htl hpublish).1 with hmethod | hmethod
      · exact hmethod
      · exact absurd hfollows (hC.notShared leader tl x ha htl hpublish hmethod hstatus rid t ht hget)
    · cases hfailed

/-- What is said about an answer to a GET. -/
def AnsweredByGet (cfg : Config) (s : State) (ans : Answer) : Prop :=
  ans.request.method = .get → ans.response.status = 200 → ans.fromOthers →
    ∃ x ∈ s.log, ans.via.source = some x ∧ x.request.method = .get ∧
      requestKey cfg x.request = requestKey cfg ans.request ∧ ans.Backed cfg (· = x)

/-- An entry backs an answer by its own source. -/
lemma From.self {P : Exchange → Prop} {key : String} {e : MemoryCacheEntry}
    (h : From cfg P key e) : From cfg (· = e.body.source) key e :=
  ⟨rfl, h.2⟩

/-- An answer sent under the invariants. -/
lemma answeredByGet_replies (hS : Sourced cfg (FetchedByGet s) s) (hF : FollowsGet s) {ans : Answer}
    (h : Replies cfg s a ans) : AnsweredByGet cfg s ans := by
  intro hget hstatus hothers
  have hbacked := hS.replies h
  have hentry : ∀ {key : String} {e : MemoryCacheEntry}, requestKey cfg ans.request = some key →
      From cfg (FetchedByGet s) key e → e.body.source ∈ s.log ∧
        e.body.source.request.method = .get ∧
        requestKey cfg e.body.source.request = requestKey cfg ans.request := by
    rintro key e hkey ⟨⟨hlog, hmethod⟩, rfl, -⟩
    exact ⟨hlog, hmethod, (hS.handing.logged _ hlog).trans hkey.symm⟩
  cases h with
  | own => exact absurd hothers id
  | l1Hit =>
    obtain ⟨key, hkey, hfrom, hresp⟩ := hbacked
    obtain ⟨hlog, hmethod, hurl⟩ := hentry hkey hfrom
    exact ⟨_, hlog, rfl, hmethod, hurl, key, hkey, hfrom.self, hresp⟩
  | l2Hit =>
    obtain ⟨key, hkey, hfrom, hresp⟩ := hbacked
    obtain ⟨hlog, hmethod, hurl⟩ := hentry hkey hfrom
    exact ⟨_, hlog, rfl, hmethod, hurl, key, hkey, hfrom.self, hresp⟩
  | @coalesced rid t leader result ha ht hphase hmarker =>
    cases result with
    | failed => exact absurd hstatus (by simp [coalescedAnswer, Fetched.response, fetchFailedResponse,
        textResponse])
    | permitTimeout => exact absurd (status_of_missResponse hstatus) (by simp [capacityResponse])
    | bufferFull => exact absurd (status_of_missResponse hstatus) (by simp [capacityResponse])
    | stale found =>
      obtain ⟨key, hkey, hfrom, hresp⟩ := hbacked
      obtain ⟨hlog, hmethod, hurl⟩ := hentry hkey hfrom
      exact ⟨_, hlog, rfl, hmethod, hurl, key, hkey, hfrom.self, hresp⟩
    | oversize status headers contentLength =>
      have hsentinel := hmarker _ rfl
      rw [(isSentinel_eq_true_iff rfl).mpr ⟨status, headers, contentLength, rfl⟩] at hsentinel
      cases hsentinel
    | origin x =>
      obtain ⟨hlog, -⟩ := hS.handing.responds rid t leader x ht hphase
      obtain ⟨hrid, hkey, hreq, hresp⟩ := hbacked
      have hmethod := hF rid t leader x ht hphase hothers hget (status_of_missResponse hstatus)
      exact ⟨x, hlog, rfl, hmethod, (hS.handing.logged x hlog).trans hkey.symm, hrid, hkey, hreq, hresp⟩

/-- A GET answered from a GET stays so. -/
lemma AnsweredByGet.step (hst : step cfg s a = some s') {ans : Answer} (h : AnsweredByGet cfg s ans) :
    AnsweredByGet cfg s' ans := by
  intro hget hstatus hothers
  obtain ⟨x, hlog, hrest⟩ := h hget hstatus hothers
  exact ⟨x, mem_log_of_step hst hlog, hrest⟩

/-- In every run that neither saves a response to a HEAD request nor broadcasts one with
status 200 to a GET, every GET that is answered 200 from a cache level or by the fetch of
another request is answered from an origin response that was obtained for a GET with the
same cache key, which is one of the same URL when the hash does not collide. -/
theorem get_answers_come_from_get (cfg : Config) (maxSizeBytes : UInt64) (t : State)
    (as : List Action) (h : Trace (step cfg) HeadKeptApart (State.initial maxSizeBytes) as t) :
    ∀ ans ∈ t.answers, ans.request.method = .get → ans.response.status = 200 → ans.fromOthers →
      ∃ x ∈ t.log, ans.via.source = some x ∧ x.request.method = .get ∧
        requestKey cfg x.request = requestKey cfg ans.request ∧
        (Function.Injective cfg.sha256Hex → requestUrl x.request = requestUrl ans.request) ∧
        ans.Backed cfg (· = x) := by
  have hall : ∀ ans ∈ t.answers, AnsweredByGet cfg t ans := by
    refine answers_of_trace (I := fun s => Sourced cfg (FetchedByGet s) s ∧ FollowsGet s)
      (Q := AnsweredByGet cfg) h ?_ ?_ ?_ ?_ ?_
    · rintro s a s' ⟨hS, hF⟩ hC hst
      have hH := Handing.step hS.coalescing hS.handing hst
      refine ⟨hS.step hst ?_ fun x hx => hC.fetchedByGet hH hst hx,
        hF.step hS.handing hC (step_cases hst)⟩
      exact fun x hx => ⟨mem_log_of_step hst hx.1, hx.2⟩
    · exact fun s a s' ans hst hans => hans.step hst
    · rintro s a s' ans ⟨hS, hF⟩ - hst hreply
      exact (answeredByGet_replies hS hF hreply).step hst
    · refine ⟨sourced_initial cfg _ maxSizeBytes, ?_⟩
      intro rid t leader x ht
      exact absurd ht (by simp [State.initial])
    · intro ans hans
      exact absurd hans (by simp [State.initial])
  intro ans hans hget hstatus hothers
  obtain ⟨x, hlog, hsource, hmethod, hkey, hbacked⟩ := hall ans hans hget hstatus hothers
  exact ⟨x, hlog, hsource, hmethod, hkey,
    fun hinj => requestUrl_eq_of_requestKey_eq hinj hkey, hbacked⟩

/-- A HEAD request for an image, and a GET after its background save. -/
def headThenGetActions : List Action :=
  [sampleDomains, .arrive (sampleRequest .head "/logo.png" [])] ++ missActions 0
    ++ fetchActions 0 200 [("content-type", "image/png")] []
    ++ [.publish 0, .respond 0] ++ saveActions 0
    ++ [.arrive (sampleRequest .get "/logo.png" []), .l1Get 1]

/-- The GET is answered 200 from the memory cache, with the empty body of the response to
the HEAD request. -/
theorem get_answered_with_head_body :
    ∃ t, Trace (step sampleConfig) Free (State.initial 1000000) headThenGetActions t ∧
      ∃ ans ∈ t.answers, ans.request.method = .get ∧ ans.response.status = 200 ∧
        ans.response.body = [] ∧ ans.fromOthers ∧
        ∃ x, ans.via.source = some x ∧ x.request.method = .head := by
  have hrun : ((run (step sampleConfig) sampleStart headThenGetActions).any fun t =>
      t.answers.any fun ans => decide (ans.request.method = .get ∧ ans.response.status = 200 ∧
        ans.response.body = []) && (match ans.via with | .l1Hit _ => true | _ => false)
          && ans.via.source.any fun x => decide (x.request.method = .head)) = true := by
    decide +kernel
  obtain ⟨t, ht, hany⟩ := exists_trace_of_run hrun
  simp only [List.any_eq_true, Bool.and_eq_true, Option.any_eq_true, decide_eq_true_eq] at hany
  obtain ⟨ans, hans, ⟨⟨hget, hstatus, hbody⟩, hvia⟩, x, hsource, hx⟩ := hany
  exact ⟨t, ht, ans, hans, hget, hstatus, hbody, fromOthers_of_l1Hit hvia, x, hsource, hx⟩

/-- Whether the action completes or broadcasts a fetch of a HEAD request. -/
def noHeadFetch (s : State) (a : Action) : Bool :=
  match a with
  | .body rid _ => (s.tasks rid).all fun t => decide (t.request.method ≠ .head)
  | .publish rid => (s.tasks rid).all fun t => decide (t.request.method ≠ .head)
  | _ => true

/-- Without fetches of HEAD requests the side condition is met. -/
lemma headKeptApart_of_noHeadFetch (hH : Handing cfg s) (h : noHeadFetch s a = true) :
    HeadKeptApart s a where
  notSaved := by
    rintro x ⟨rid, t, key, fetch, status, headers, body, rfl, ht, -, -, -, rfl⟩ hhead
    rw [noHeadFetch, ht, Option.all_some, decide_eq_true_eq] at h
    exact absurd hhead h
  notShared := by
    rintro rid t x rfl ht hphase hhead
    rw [noHeadFetch, ht, Option.all_some, decide_eq_true_eq] at h
    rw [(hH.publishes rid t x ht hphase).2.2.2] at hhead
    exact absurd hhead h

/-- Two GET requests for an image, the second one after the background save. -/
def getTwiceActions : List Action :=
  logoActions ++ [.arrive (sampleRequest .get "/logo.png" []), .l1Get 1]

/-- The second GET is answered from the first one. -/
theorem get_answers_come_from_get_twice :
    ∃ t, Trace (step sampleConfig) HeadKeptApart (State.initial 1000000) getTwiceActions t ∧
      ∃ ans ∈ t.answers, ans.fromOthers ∧ ∃ x, ans.via.source = some x ∧ x.request.method = .get ∧
        ans.Backed sampleConfig (· = x) := by
  have hrun : ((checkedRun (step sampleConfig) noHeadFetch sampleStart getTwiceActions).any fun t =>
      t.answers.any fun ans => decide (ans.request.method = .get ∧ ans.response.status = 200) &&
        (match ans.via with | .l1Hit _ => true | _ => false)) = true := by
    decide +kernel
  obtain ⟨t, ht, hany⟩ := exists_trace_of_checkedRun (C := HeadKeptApart)
    (I := fun s => Coalescing s ∧ Handing sampleConfig s)
    (fun s a s' hI hst => bookkeeping_step hI hst)
    (fun s a hI hc => headKeptApart_of_noHeadFetch hI.2 hc)
    (bookkeeping_initial sampleConfig 1000000) hrun
  simp only [List.any_eq_true, Bool.and_eq_true, decide_eq_true_eq] at hany
  obtain ⟨ans, hans, ⟨hget, hstatus⟩, hvia⟩ := hany
  have hothers : ans.fromOthers := fromOthers_of_l1Hit hvia
  obtain ⟨x, -, hsource, hmethod, -, -, hbacked⟩ :=
    get_answers_come_from_get sampleConfig 1000000 t _ ht ans hans hget hstatus hothers
  exact ⟨t, ht, ans, hans, hothers, x, hsource, hmethod, hbacked⟩

end SmartSchoolCdn
