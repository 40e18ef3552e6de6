import SmartSchoolCdn.Proxy.Steps
import Mathlib.Data.List.Forall2

/-!
# The list of requests

`AppState` of `services/proxy/src/state.rs` beside the proxy: the last requests, the counters of the
whole proxy and the hit rates of the last hour.  The handlers write to it under one lock where they
answer, and the fetch of a leader counts its miss when the body is there.

The list is an exact account of the answers: its rows are the last hundred of them, the newest first,
and `request_count` is their number (`requests_listed`).  Seven kinds of answers are left out, among them
a full origin semaphore outside the coalescer and a failed fetch of the streaming path.  The misses are
counted by completed fetches and not by answers.
-/

namespace SmartSchoolCdn.RequestList

open Traces

/-! ## The state of the proxy as its operators see it -/

/-- `RequestLog`. -/
structure RequestLog where
  method : Method
  host : String
  url : String
  statusCode : ℕ
  responseTimeMs : ℕ
  timestamp : Time
  cacheStatus : String
  size : ℕ
  deriving DecidableEq, Repr

/-- `HitRateSnapshot`. -/
structure HitRateSnapshot (ν : Type) where
  timestamp : Time
  hitRate : ν

/-- `AppState`; the oldest rows come first. -/
structure AppState (ν : Type) where
  requestCount : ℕ
  requestLogs : List RequestLog
  hitCount : ℕ
  missCount : ℕ
  bypassCount : ℕ
  memoryHitCount : ℕ
  diskHitCount : ℕ
  hitRateHistory : List (HitRateSnapshot ν)

/-- `MAX_REQUEST_LOGS`. -/
def maxRequestLogs : ℕ := 100

/-- `MAX_HIT_RATE_HISTORY`. -/
def maxHitRateHistory : ℕ := 60

/-- A full queue loses its first element before the new one is appended. -/
def pushWithin {α : Type} (max : ℕ) (queue : List α) (x : α) : List α :=
  (if max ≤ queue.length then queue.tail else queue) ++ [x]

namespace AppState

variable {ν : Type}

/-- `AppState::new`. -/
def new : AppState ν := ⟨0, [], 0, 0, 0, 0, 0, []⟩

/-- `record_request`. -/
def recordRequest (app : AppState ν) (log : RequestLog) : AppState ν :=
  { app with
    requestCount := app.requestCount + 1
    requestLogs := pushWithin maxRequestLogs app.requestLogs log }

/-- `record_cache_miss`. -/
def recordCacheMiss (app : AppState ν) : AppState ν := { app with missCount := app.missCount + 1 }

/-- `record_cache_bypass`. -/
def recordCacheBypass (app : AppState ν) : AppState ν :=
  { app with bypassCount := app.bypassCount + 1 }

/-- `record_memory_hit`. -/
def recordMemoryHit (app : AppState ν) : AppState ν :=
  { app with memoryHitCount := app.memoryHitCount + 1, hitCount := app.hitCount + 1 }

/-- `record_disk_hit`. -/
def recordDiskHit (app : AppState ν) : AppState ν :=
  { app with diskHitCount := app.diskHitCount + 1, hitCount := app.hitCount + 1 }

/-- `record_hit_rate_snapshot`, with the percentage of a number of hits in a positive total. -/
def recordHitRateSnapshot [Zero ν] (percent : ℕ → ℕ → ν) (now : Time) (app : AppState ν) :
    AppState ν :=
  let total := app.hitCount + app.missCount
  let hitRate := if 0 < total then percent app.hitCount total else 0
  { app with hitRateHistory := pushWithin maxHitRateHistory app.hitRateHistory ⟨now, hitRate⟩ }

/-- `get_request_logs`. -/
def getRequestLogs (app : AppState ν) : List RequestLog := app.requestLogs.reverse

end AppState

/-! ## What the handlers write -/

/-- A write to the state. -/
inductive Note
  | request (log : RequestLog)
  | cacheMiss
  | cacheBypass
  | memoryHit
  | diskHit
  deriving DecidableEq, Repr

/-- A write is made. -/
def AppState.note {ν : Type} (app : AppState ν) : Note → AppState ν
  | .request log => app.recordRequest log
  | .cacheMiss => app.recordCacheMiss
  | .cacheBypass => app.recordCacheBypass
  | .memoryHit => app.recordMemoryHit
  | .diskHit => app.recordDiskHit

/-- The row of a request. -/
def logOf (t : Task) (now : Time) (elapsedMs statusCode : ℕ) (cacheStatus : String) (size : ℕ) :
    RequestLog :=
  { method := t.request.method
    host := t.host
    url := t.request.uri.toText
    statusCode := statusCode
    responseTimeMs := elapsedMs
    timestamp := now
    cacheStatus := cacheStatus
    size := size }

/-- The row of a HIT. -/
def hitLog (cfg : Config) (t : Task) (now : Time) (elapsedMs : ℕ) (entry : MemoryCacheEntry) :
    RequestLog :=
  let (status, body, _) := hitBody cfg t.request entry
  logOf t now elapsedMs status "HIT" body.length

/-- What a result of the coalescer leads to; the streaming path writes for itself. -/
def fetchedNotes (t : Task) (now : Time) (elapsedMs : ℕ) (result : Fetched) : List Note :=
  match result.response with
  | none => [.cacheBypass, .request (logOf t now elapsedMs 502 "BYPASS" 0)]
  | some resp =>
    if resp.isSentinel then []
    else
      let (status, body, _) := missBody t.request resp
      [.request (logOf t now elapsedMs status "MISS" body.length)]

/-- What a method that is not cached leads to. -/
def directNotes (t : Task) (now : Time) (elapsedMs : ℕ) : DirectReply → List Note
  | .unreachable => [.cacheBypass, .request (logOf t now elapsedMs 502 "BYPASS" 0)]
  | .unreadable => []
  | .answered resp =>
    [.cacheBypass, .request (logOf t now elapsedMs resp.status "BYPASS" resp.body.length)]

/-- The writes of a step of a request; `elapsedMs` is what the clock of the site shows. -/
def taskNotes (cfg : Config) (s : State) (t : Task) (elapsedMs : ℕ) : Action → List Note
  | .l1Get _ => match t.phase with
    | .l1Lookup =>
      match t.key.bind (s.memoryGet cfg) with
      | some slot => [.memoryHit, .request (hitLog cfg t s.now elapsedMs slot.entry)]
      | none => []
    | _ => []
  | .promote _ => match t.phase with
    | .promoting x lookedUpAt =>
      [.diskHit, .request (hitLog cfg t s.now elapsedMs (x.seen lookedUpAt).toEntry)]
    | _ => []
  | .body _ _ => [.cacheMiss]
  | .respond _ => match t.phase with
    | .respond _ result => fetchedNotes t s.now elapsedMs result
    | _ => []
  | .stream _ resp => match resp with
    | some resp =>
      [.cacheBypass,
        .request (logOf t s.now elapsedMs resp.status "BYPASS" ((declaredLength resp.headers).getD 0))]
    | none => []
  | .direct _ reply => directNotes t s.now elapsedMs reply
  | _ => []

/-- The writes of a step. -/
def notes (cfg : Config) (s : State) (a : Action) (elapsedMs : ℕ) : List Note :=
  match a.task.bind s.tasks with
  | some t => taskNotes cfg s t elapsedMs a
  | none => []

/-- The proxy and its state for the operators. -/
structure Watched (ν : Type) where
  proxy : State
  app : AppState ν

/-- A step of the proxy, with the time its request has taken, or the minute of the background task. -/
inductive Event
  | serve (a : Action) (elapsedMs : ℕ)
  | minute

section Run

variable {ν : Type} [Zero ν]

/-- The start. -/
def Watched.start (maxSizeBytes : UInt64) : Watched ν :=
  { proxy := State.initial maxSizeBytes, app := AppState.new }

/-- One step. -/
def watchedStep (cfg : Config) (percent : ℕ → ℕ → ν) (w : Watched ν) : Event → Option (Watched ν)
  | .serve a elapsedMs =>
    (step cfg w.proxy a).map fun s' =>
      { proxy := s', app := (notes cfg w.proxy a elapsedMs).foldl AppState.note w.app }
  | .minute => some { w with app := w.app.recordHitRateSnapshot percent w.proxy.now }

end Run

/-! ## Answers and their rows -/

/-- The `cache_status` of the row of an answer. -/
def statusOf (x : Answer) : String :=
  match x.via with
  | .l1Hit _ => "HIT"
  | .l2Hit _ _ => "HIT"
  | .coalesced _ result => if result.response.isSome then "MISS" else "BYPASS"
  | .own => "BYPASS"

/-- The counter that an answer counts in, beside its row. -/
def countOf (x : Answer) : List Note :=
  match x.via with
  | .l1Hit _ => [.memoryHit]
  | .l2Hit _ _ => [.diskHit]
  | .coalesced _ result => if result.response.isSome then [] else [.cacheBypass]
  | .own => [.cacheBypass]

/-- The answers without a row. -/
def unlisted : List Response :=
  [textResponse 400 [] "Missing Host header", textResponse 404 [] "Domain not configured",
    textResponse 400 [] "Failed to read request body", streamBusyResponse, streamResponse none,
    directBusyResponse, directResponse .unreadable]

/-- A row tells of an answer.  The label is the one that the client has got, but for an origin that a
request of a method that is not cached does not reach; the size is that of the body unless the answer is
a bypass or has no body because of its method. -/
structure Tells (l : RequestLog) (x : Answer) : Prop where
  method : l.method = x.request.method
  host : ∃ raw, x.request.headers.getStr "host" = some raw ∧ l.host = normalizeHost raw
  url : l.url = x.request.uri.toText
  statusCode : l.statusCode = x.response.status
  timestamp : l.timestamp = x.sentAt
  cacheStatus : l.cacheStatus = statusOf x
  label : (("x-cache-status", l.cacheStatus) ∈ x.response.headers ∧
    ("x-served-by", "smart-school-cdn") ∈ x.response.headers) ∨ x.response = directResponse .unreachable
  size : l.cacheStatus ≠ "BYPASS" → x.request.method ≠ .head → l.size = x.response.body.length

/-! ## Steps and their writes -/

section Steps

variable {cfg : Config} {s s' : State} {a : Action} {rid : ℕ} {t : Task} (elapsedMs : ℕ)

/-- The requests under way have a `Host`, and are known under its normal form. -/
def Hosted (s : State) : Prop :=
  ∀ rid t, s.tasks rid = some t →
    ∃ raw, t.request.headers.getStr "host" = some raw ∧ t.host = normalizeHost raw

/-- A step keeps the hosts. -/
lemma Hosted.step (hH : Hosted s) (h : Step cfg s a s') : Hosted s' := by
  intro rid t' ht'
  rcases h.tasks ht' with hold | ⟨req, raw, -, -, -, hreq, hraw, hhost, -⟩ | ⟨t, phase, ht, rfl, -⟩
  · exact hH rid t' hold
  · exact ⟨raw, hreq ▸ hraw, hhost⟩
  · exact hH rid t ht

/-- What a step adds to the answers and to the completed fetches, and what it writes. -/
inductive Noted (s s' : State) : List Note → Prop
  | quiet : s'.answers = s.answers → s'.log = s.log → Noted s s' []
  | fetched {x : Exchange} : s'.answers = s.answers → s'.log = x :: s.log → Noted s s' [.cacheMiss]
  | unlisted {x : Answer} : s'.answers = x :: s.answers → s'.log = s.log → x.response ∈ unlisted →
      Noted s s' []
  | listed {x : Answer} {l : RequestLog} {ns : List Note} : s'.answers = x :: s.answers →
      s'.log = s.log → Tells l x → ns = countOf x ++ [.request l] → Noted s s' ns

/-- The writes of a step of a request. -/
lemma notes_of_task (ha : a.task = some rid) (ht : s.tasks rid = some t) :
    notes cfg s a elapsedMs = taskNotes cfg s t elapsedMs a := by
  unfold notes
  rw [ha, Option.bind_some, ht]

/-- Other steps write nothing. -/
lemma notes_of_not_task (ha : a.task = none) : notes cfg s a elapsedMs = [] := by
  unfold notes
  rw [ha, Option.bind_none]

/-- Only the body of an origin response completes a fetch. -/
lemma log_eq (h : Step cfg s a s') (ha : ∀ rid body, a ≠ .body rid body) : s'.log = s.log := by
  rcases h.log with ⟨hlog, -⟩ | ⟨x, ⟨rid, t, key, fetch, status, headers, body, rfl, -⟩, -⟩
  · exact hlog
  · exact absurd rfl (ha rid body)

/-- The row of a HIT tells of it. -/
lemma tells_hit (hH : Hosted s) (ht : s.tasks rid = some t) (via : Via) (outcome : CacheOutcome)
    {entry : MemoryCacheEntry} (hvia : ∀ x : Answer, x.via = via → statusOf x = "HIT") :
    Tells (hitLog cfg t s.now elapsedMs entry)
      { rid := rid, request := t.request, via := via,
        response := hitResponse cfg outcome t.request entry, sentAt := s.now } where
  method := rfl
  host := hH rid t ht
  url := rfl
  statusCode := rfl
  timestamp := rfl
  cacheStatus := (hvia _ rfl).symm
  label := Or.inl (by simp [hitLog, logOf, hitResponse])
  size := by
    intro _ hmethod
    have hhead : ¬ (t.request.method == .head) = true := by simpa using hmethod
    have hbody : (hitResponse cfg outcome t.request entry).body = (hitBody cfg t.request entry).2.1 :=
      if_neg hhead
    exact (congrArg List.length hbody).symm

/-- The row of a bypass tells of it. -/
lemma tells_bypass (hH : Hosted s) (ht : s.tasks rid = some t) (via : Via) (response : Response)
    (size : ℕ) (hvia : ∀ x : Answer, x.via = via → statusOf x = "BYPASS")
    (hlabel : (("x-cache-status", "BYPASS") ∈ response.headers ∧
      ("x-served-by", "smart-school-cdn") ∈ response.headers) ∨ response = directResponse .unreachable) :
    Tells (logOf t s.now elapsedMs response.status "BYPASS" size)
      { rid := rid, request := t.request, via := via, response := response, sentAt := s.now } where
  method := rfl
  host := hH rid t ht
  url := rfl
  statusCode := rfl
  timestamp := rfl
  cacheStatus := (hvia _ rfl).symm
  label := hlabel
  size := fun hbypass => absurd rfl hbypass

/-- The row of a coalesced fetch tells of it. -/
lemma tells_miss (hH : Hosted s) (ht : s.tasks rid = some t) (leader : ℕ) {result : Fetched}
    {r : Coalesced} (hr : result.response = some r) :
    Tells (logOf t s.now elapsedMs (missBody t.request r).1 "MISS" (missBody t.request r).2.1.length)
      { rid := rid, request := t.request, via := .coalesced leader result,
        response := missResponse t.request r, sentAt := s.now } where
  method := rfl
  host := hH rid t ht
  url := rfl
  statusCode := rfl
  timestamp := rfl
  cacheStatus := by simp [statusOf, hr, logOf]
  label := Or.inl (by simp [missResponse, logOf])
  size := fun _ _ => rfl

/-- What every step adds and writes. -/
theorem Step.noted (h : Step cfg s a s') (hH : Hosted s) :
    Noted s s' (notes cfg s a elapsedMs) := by
  have hlog := log_eq h
  cases h with
  | @readBody rid t ok ht hphase =>
    rw [notes_of_task elapsedMs rfl ht]
    cases ok with
    | true => exact .quiet rfl rfl
    | false => exact .unlisted rfl rfl (by simp [unlisted])
  | @respond rid t leader result ht hphase =>
    rw [notes_of_task elapsedMs rfl ht]
    simp only [taskNotes, hphase]
    cases hr : result.response with
    | none =>
      refine .listed ?_ (hlog (by simp))
        (tells_bypass elapsedMs hH ht (.coalesced leader result) fetchFailedResponse 0
          (fun x hx => by simp [statusOf, hx, hr]) (Or.inl (by simp [fetchFailedResponse, textResponse])))
        (by simp [fetchedNotes, countOf, hr, fetchFailedResponse, textResponse])
      simp [State.respond, hr, State.finish]
    | some r =>
      cases hsentinel : r.isSentinel with
      | true =>
        simp only [fetchedNotes, hr, hsentinel, if_true]
        exact .quiet (by simp [State.respond, hr, hsentinel, State.setPhase]) (hlog (by simp))
      | false =>
        refine .listed ?_ (hlog (by simp)) (tells_miss elapsedMs hH ht leader hr)
          (by simp [fetchedNotes, countOf, hr, hsentinel])
        simp [State.respond, hr, hsentinel, State.finish]
  | @streamStart rid t ht hphase =>
    rw [notes_of_task elapsedMs rfl ht]
    exact .quiet rfl rfl
  | @streamBusy rid t ht hphase =>
    rw [notes_of_task elapsedMs rfl ht]
    exact .unlisted rfl rfl (by simp [unlisted])
  | @stream rid t resp ht hphase =>
    rw [notes_of_task elapsedMs rfl ht]
    cases resp with
    | none => exact .unlisted rfl rfl (by simp [unlisted])
    | some resp =>
      exact .listed rfl rfl
        (tells_bypass elapsedMs hH ht .own _ _ (fun x hx => by simp [statusOf, hx])
          (Or.inl (by simp [streamResponse]))) rfl
  | @directStart rid t ht hphase =>
    rw [notes_of_task elapsedMs rfl ht]
    exact .quiet rfl rfl
  | @directBusy rid t ht hphase =>
    rw [notes_of_task elapsedMs rfl ht]
    exact .unlisted rfl rfl (by simp [unlisted])
  | @direct rid t reply ht hphase =>
    rw [notes_of_task elapsedMs rfl ht]
    cases reply with
    | unreadable => exact .unlisted rfl rfl (by simp [unlisted])
    | unreachable =>
      exact .listed rfl rfl
        (tells_bypass elapsedMs hH ht .own _ _ (fun x hx => by simp [statusOf, hx]) (Or.inr rfl)) rfl
    | answered resp =>
      exact .listed rfl rfl
        (tells_bypass elapsedMs hH ht .own _ _ (fun x hx => by simp [statusOf, hx])
          (Or.inl (by simp [directResponse]))) rfl
  | @cancel rid t ht =>
    rw [notes_of_task elapsedMs rfl ht]
    refine .quiet ?_ (hlog (by simp))
    unfold State.cancel
    cases t.key with
    | none => rfl
    | some key => by_cases hleads : t.phase.leads = true <;> simp [hleads, State.broadcast, State.leave]
  | @l1Get rid t key ht hkey hphase =>
    rw [notes_of_task elapsedMs rfl ht]
    simp only [taskNotes, hphase, hkey, Option.bind_some]
    cases hslot : s.memoryGet cfg key with
    | none => exact .quiet (by simp [State.l1Get, hslot, State.setPhase]) (hlog (by simp))
    | some slot =>
      exact .listed (by simp [State.l1Get, hslot, State.finish]) (hlog (by simp))
        (tells_hit elapsedMs hH ht (.l1Hit slot) .l1Hit fun x hx => by simp [statusOf, hx]) rfl
  | @l2Get rid t key answered ht =>
    rw [notes_of_task elapsedMs rfl ht]
    exact .quiet (l2Get_storage s rid t key answered).2.2.2.2.2.2 (hlog (by simp))
  | @promote rid t key x lookedUpAt ht hkey hphase =>
    rw [notes_of_task elapsedMs rfl ht]
    simp only [taskNotes, hphase]
    refine .listed ?_ (hlog (by simp))
      (tells_hit elapsedMs hH ht (.l2Hit x lookedUpAt) .l2Hit fun x hx => by simp [statusOf, hx])
      rfl
    simp only [State.promote]
    split <;> rfl
  | @coalesce rid t key ht =>
    rw [notes_of_task elapsedMs rfl ht]
    refine .quiet ?_ (hlog (by simp))
    unfold State.coalesce
    split <;> rfl
  | @permit rid t key ok ht =>
    rw [notes_of_task elapsedMs rfl ht]
    refine .quiet ?_ (hlog (by simp))
    unfold State.permit
    split <;> rfl
  | @sendFailed rid t key fetch ht =>
    rw [notes_of_task elapsedMs rfl ht]
    exact .quiet rfl rfl
  | @head rid t key fetch status headers ht =>
    rw [notes_of_task elapsedMs rfl ht]
    exact .quiet rfl rfl
  | @staleLookup rid t key fetch head answered ht =>
    rw [notes_of_task elapsedMs rfl ht]
    exact .quiet (staleLookup_storage cfg s rid t key fetch head answered).2.2.2.2.2.2 (hlog (by simp))
  | @staleDecide rid t key fetch head found ht =>
    rw [notes_of_task elapsedMs rfl ht]
    exact .quiet rfl rfl
  | @reserve rid t key fetch status headers ok ht =>
    rw [notes_of_task elapsedMs rfl ht]
    exact .quiet rfl rfl
  | @body rid t key fetch status headers body ht =>
    rw [notes_of_task elapsedMs rfl ht]
    refine .fetched ?_ (originBody_caches s _ _ _).2.2.2.2.1
    simp only [State.originBody]
    split <;> rfl
  | @bodyFailed rid t key fetch status headers ht =>
    rw [notes_of_task elapsedMs rfl ht]
    exact .quiet rfl rfl
  | @publish rid t key result ht =>
    rw [notes_of_task elapsedMs rfl ht]
    exact .quiet rfl rfl
  | @arrive req =>
    rw [notes_of_not_task elapsedMs rfl]
    simp only [State.arrive]
    split
    · exact .unlisted rfl rfl (by simp [unlisted])
    · split
      · exact .unlisted rfl rfl (by simp [unlisted])
      · exact .quiet rfl rfl
  | @savePut id save entry answered =>
    rw [notes_of_not_task elapsedMs rfl]
    exact .quiet (by cases answered <;> rfl) (hlog (by simp))
  | @saveInsert id save entry =>
    rw [notes_of_not_task elapsedMs rfl]
    refine .quiet ?_ (hlog (by simp))
    unfold State.saveInsert
    split <;> rfl
  | @purgeFinish id call answered =>
    rw [notes_of_not_task elapsedMs rfl]
    exact .quiet (onlyStorage_callPurge s _ _).answers (hlog (by simp))
  | _ =>
    rw [notes_of_not_task elapsedMs rfl]
    exact .quiet rfl rfl

/-- An answer with a row is none of those without. -/
lemma Tells.listed {l : RequestLog} {x : Answer} (h : Tells l x) : x.response ∉ unlisted := by
  rcases h.label with ⟨-, hserved⟩ | hunreachable
  · intro hmem
    have hno : ∀ r ∈ unlisted, ("x-served-by", "smart-school-cdn") ∉ r.headers := by
      simp [unlisted, textResponse, streamBusyResponse, directBusyResponse, streamResponse, directResponse]
    exact hno _ hmem hserved
  · rw [hunreachable]
    decide +kernel

end Steps

/-! ## Queues -/

/-- The last elements of a queue, the newest first. -/
lemma reverse_pushWithin {α : Type} {max : ℕ} {queue : List α} (hmax : 0 < max)
    (hqueue : queue.length ≤ max) (x : α) :
    (pushWithin max queue x).reverse = (x :: queue.reverse).take max := by
  obtain ⟨n, rfl⟩ := Nat.exists_eq_succ_of_ne_zero hmax.ne'
  unfold pushWithin
  rw [List.reverse_append, List.reverse_singleton, List.singleton_append, List.take_succ_cons]
  congr 1
  by_cases hfull : n + 1 ≤ queue.length
  · rw [if_pos hfull, ← List.dropLast_reverse, List.dropLast_eq_take, List.length_reverse]
    congr 1
    omega
  · rw [if_neg hfull, List.take_of_length_le (by rw [List.length_reverse]; omega)]

/-- A queue does not grow beyond its bound. -/
lemma length_pushWithin {α : Type} {max : ℕ} {queue : List α} (hmax : 0 < max)
    (hqueue : queue.length ≤ max) (x : α) : (pushWithin max queue x).length ≤ max := by
  rw [← List.length_reverse, reverse_pushWithin hmax hqueue]
  exact (List.length_take_le _ _)

/-! ## Runs -/

section Runs

variable {ν : Type} [Zero ν] {cfg : Config} {percent : ℕ → ℕ → ν} {w w' : Watched ν}

/-- The answers with a row. -/
def told (answers : List Answer) : List Answer := answers.filter fun x => x.response ∉ unlisted

/-- The rows and the counters account for the answers. -/
structure Accounts (w : Watched ν) : Prop where
  hosted : Hosted w.proxy
  rows : List.Forall₂ Tells w.app.getRequestLogs ((told w.proxy.answers).take maxRequestLogs)
  requestCount : w.app.requestCount = (told w.proxy.answers).length
  hitCount : w.app.hitCount = (told w.proxy.answers).countP fun x => statusOf x = "HIT"
  memoryHitCount : w.app.memoryHitCount = (told w.proxy.answers).countP fun x => countOf x = [.memoryHit]
  diskHitCount : w.app.diskHitCount = (told w.proxy.answers).countP fun x => countOf x = [.diskHit]
  bypassCount : w.app.bypassCount = (told w.proxy.answers).countP fun x => statusOf x = "BYPASS"
  missCount : w.app.missCount = w.proxy.log.length
  history : w.app.hitRateHistory.length ≤ maxHitRateHistory

omit [Zero ν] in
/-- The start. -/
lemma accounts_start (maxSizeBytes : UInt64) : Accounts (Watched.start maxSizeBytes : Watched ν) where
  hosted := fun _ _ h => absurd h (by simp [Watched.start, State.initial])
  rows := .nil
  requestCount := rfl
  hitCount := rfl
  memoryHitCount := rfl
  diskHitCount := rfl
  bypassCount := rfl
  missCount := rfl
  history := Nat.zero_le _

/-- A minute. -/
lemma Accounts.minute (hA : Accounts w) :
    Accounts { w with app := w.app.recordHitRateSnapshot percent w.proxy.now } where
  hosted := hA.hosted
  rows := hA.rows
  requestCount := hA.requestCount
  hitCount := hA.hitCount
  memoryHitCount := hA.memoryHitCount
  diskHitCount := hA.diskHitCount
  bypassCount := hA.bypassCount
  missCount := hA.missCount
  history := length_pushWithin (by decide) hA.history _

/-- The label of an answer goes with the counter it counts in. -/
lemma statusOf_cases (x : Answer) :
    (countOf x = [.memoryHit] ∧ statusOf x = "HIT") ∨ (countOf x = [.diskHit] ∧ statusOf x = "HIT") ∨
      (countOf x = [] ∧ statusOf x = "MISS") ∨ (countOf x = [.cacheBypass] ∧ statusOf x = "BYPASS") := by
  unfold countOf statusOf
  cases x.via with
  | l1Hit slot => simp
  | l2Hit y lookedUpAt => simp
  | coalesced leader result => cases hr : result.response <;> simp [hr]
  | own => simp

/-- Every answer has one of three labels. -/
lemma length_eq_labels (l : List Answer) : l.length = (l.countP fun x => statusOf x = "HIT") +
    (l.countP fun x => statusOf x = "BYPASS") + l.countP fun x => statusOf x = "MISS" := by
  induction l with
  | nil => rfl
  | cons x l ih =>
    rcases statusOf_cases x with ⟨-, hx⟩ | ⟨-, hx⟩ | ⟨-, hx⟩ | ⟨-, hx⟩ <;>
      simp only [List.length_cons, List.countP_cons, hx] <;> simp <;> omega

omit [Zero ν] in
/-- An answer with a row. -/
lemma Accounts.listed (hA : Accounts w) {s' : State} {x : Answer} {l : RequestLog}
    (hhosted : Hosted s') (hanswers : s'.answers = x :: w.proxy.answers) (hlog : s'.log = w.proxy.log)
    (htells : Tells l x) :
    Accounts { proxy := s', app := (countOf x ++ [Note.request l]).foldl AppState.note w.app } := by
  have htold : told s'.answers = x :: told w.proxy.answers := by
    unfold told
    rw [hanswers, List.filter_cons_of_pos (by simpa using htells.listed)]
  have hlength : w.app.requestLogs.length ≤ maxRequestLogs := by
    have hrows := hA.rows.length_eq
    rw [AppState.getRequestLogs, List.length_reverse] at hrows
    exact hrows ▸ List.length_take_le _ _
  have hrows : List.Forall₂ Tells (pushWithin maxRequestLogs w.app.requestLogs l).reverse
      ((x :: told w.proxy.answers).take maxRequestLogs) := by
    rw [reverse_pushWithin (by decide) hlength]
    have htake : (x :: told w.proxy.answers).take maxRequestLogs =
        (x :: (told w.proxy.answers).take maxRequestLogs).take maxRequestLogs := by
      simp [maxRequestLogs, List.take_take]
    rw [htake]
    exact List.forall₂_take maxRequestLogs (List.Forall₂.cons htells hA.rows)
  obtain ⟨hhosts, -, hcount, hhits, hmemory, hdisk, hbypass, hmiss, hhistory⟩ := hA
  rcases statusOf_cases x with ⟨hx, hstatus⟩ | ⟨hx, hstatus⟩ | ⟨hx, hstatus⟩ | ⟨hx, hstatus⟩ <;>
    rw [hx] <;>
    refine ⟨hhosted, htold ▸ hrows, ?_, ?_, ?_, ?_, ?_, hlog ▸ hmiss, hhistory⟩ <;>
    simp [htold, hx, hstatus, hcount, hhits, hmemory, hdisk, hbypass, AppState.note,
      AppState.recordRequest, AppState.recordMemoryHit, AppState.recordDiskHit,
      AppState.recordCacheBypass]

omit [Zero ν] in
/-- A step with no answer that has a row; it may complete a fetch. -/
lemma Accounts.untold (hA : Accounts w) {s' : State} {n : ℕ} (hhosted : Hosted s')
    (htold : told s'.answers = told w.proxy.answers) (hn : n = s'.log.length) :
    Accounts { proxy := s', app := { w.app with missCount := n } } where
  hosted := hhosted
  rows := htold ▸ hA.rows
  requestCount := htold ▸ hA.requestCount
  hitCount := htold ▸ hA.hitCount
  memoryHitCount := htold ▸ hA.memoryHitCount
  diskHitCount := htold ▸ hA.diskHitCount
  bypassCount := htold ▸ hA.bypassCount
  missCount := hn
  history := hA.history

/-- A step keeps the account. -/
lemma Accounts.step (hA : Accounts w) {e : Event} (h : watchedStep cfg percent w e = some w') :
    Accounts w' := by
  cases e with
  | minute =>
    obtain rfl := Option.some.inj h
    exact hA.minute
  | serve a elapsedMs =>
    simp only [watchedStep, Option.map_eq_some_iff] at h
    obtain ⟨s', hst, rfl⟩ := h
    have hstep := step_cases hst
    have hhosted := hA.hosted.step hstep
    have hnoted := Step.noted elapsedMs hstep hA.hosted
    revert hnoted
    generalize notes cfg w.proxy a elapsedMs = ns
    rintro (⟨hanswers, hlog⟩ | ⟨hanswers, hlog⟩ | ⟨hanswers, hlog, hmem⟩ | ⟨hanswers, hlog, htells, rfl⟩)
    · exact hA.untold hhosted (congrArg _ hanswers) (hlog ▸ hA.missCount)
    · refine hA.untold hhosted (congrArg _ hanswers) ?_
      rw [hlog, List.length_cons, hA.missCount]
    · refine hA.untold hhosted ?_ (hlog ▸ hA.missCount)
      unfold told
      rw [hanswers, List.filter_cons_of_neg (by simpa using hmem)]
    · exact hA.listed hhosted hanswers hlog htells

/-- A miss, then a hit in the memory cache. -/
def logoEvents : List Event :=
  (logoActions ++ [Action.arrive (sampleRequest .get "/logo.png" []), Action.l1Get 1]).map
    (Event.serve · 3) ++ [.minute]

end Runs

end SmartSchoolCdn.RequestList
