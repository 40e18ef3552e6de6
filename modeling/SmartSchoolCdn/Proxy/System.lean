import SmartSchoolCdn.Foundation.Trace
import SmartSchoolCdn.Proxy.Response
import Mathlib.Logic.Function.Basic

/-!
# The proxy as a transition system

The concurrent runs of `proxy_handler` with everything it shares: the memory cache (L1), the
client of the storage service behind its mutex, the coalescer, the save tracker, the detached
save tasks, and the purge handlers.  One step of the system is what a task does between two
`await` points, so that a run is any interleaving of any number of tasks.  What the
environment decides (arrivals, answers of the origin, which storage calls are answered, the
clock, evictions) is in the actions.

A storage call that is not answered is put aside in `detached`: the service may execute it at
any later time or never.

Ghost fields, which no step reads: the numbering of fetches, the log of completed fetches,
the log of executed storage calls, the log of answers.
-/

namespace SmartSchoolCdn

/-! ## State -/

/-- How an entry came into the memory cache: by a background save, or by promotion of a copy
found in the storage at some time. -/
inductive SlotOrigin
  | saved
  | promoted (x : Stored Copy) (lookedUpAt : Time)

/-- An entry of the memory cache with the time moka counts its lifetime from. -/
structure Slot where
  entry : MemoryCacheEntry
  insertedAt : Time
  origin : SlotOrigin

/-- Where a run of `proxy_handler` stands: the `await` it is going to pass next. -/
inductive Phase
  | l1Lookup
  | l2Lookup
  /-- An L2 HIT at the given time, before the promotion; the storage client stays locked. -/
  | promoting (x : Stored Copy) (lookedUpAt : Time)
  | readBody
  | coalesce
  | follower (leader : ℕ)
  | permit
  | sending (fetch : ℕ)
  /-- `try_serve_stale`, with the 5xx head to go on with if there is one. -/
  | staleLookup (fetch : ℕ) (head : Option (ℕ × HeaderMap))
  | staleDecision (fetch : ℕ) (head : Option (ℕ × HeaderMap)) (found : Lookup Copy)
  | reserve (fetch status : ℕ) (headers : HeaderMap)
  | reading (fetch status : ℕ) (headers : HeaderMap)
  | publish (result : Fetched)
  /-- The coalescer has returned; `leader` is the request that ran the fetch. -/
  | respond (leader : ℕ) (result : Fetched)
  | streamPermit
  | streaming
  | directPermit
  | direct

namespace Phase

/-- The phases of a leader between its entry in the in-flight map and the broadcast. -/
def leads : Phase → Bool
  | permit => true
  | sending _ => true
  | staleLookup _ _ => true
  | staleDecision _ _ _ => true
  | reserve _ _ _ => true
  | reading _ _ _ => true
  | publish _ => true
  | _ => false

/-- Whether a request is subscribed to the fetch of `leader`. -/
def follows (leader : ℕ) : Phase → Bool
  | follower l => l == leader
  | _ => false

end Phase

/-- A run of `proxy_handler`: the request, its normalised host, the cache key of a GET or
HEAD, and where it stands. -/
structure Task where
  request : Request
  host : String
  key : Option String
  phase : Phase

/-- Where a background save stands. -/
inductive SavePhase
  | prepare
  | put (entry : MemoryCacheEntry)
  | insert (entry : MemoryCacheEntry)

/-- A background save of an origin response. -/
structure Save where
  exchange : Exchange
  phase : SavePhase

/-- `PurgeBody`. -/
structure PurgeBody where
  type : String
  target : Option String
  deriving DecidableEq, Repr

/-- The purge endpoints of the proxy: `cache_purge_handler` and `domain_purge_handler`. -/
inductive PurgeCall
  | cache (body : PurgeBody)
  | domain (host : String)
  deriving DecidableEq, Repr

/-- Where an answer comes from. -/
inductive Via
  | l1Hit (slot : Slot)
  | l2Hit (x : Stored Copy) (lookedUpAt : Time)
  | coalesced (leader : ℕ) (result : Fetched)
  /-- Made by the proxy itself or from a fetch of the request's own. -/
  | own

/-- An answer to a client. -/
structure Answer where
  rid : ℕ
  request : Request
  via : Via
  response : Response
  sentAt : Time

/-- The state of the proxy and of the storage service behind it. -/
structure State where
  now : Time
  domainMap : String → Option String
  stalePolicies : String → Option ℤ
  memoryCache : String → Option Slot
  storage : CacheLayer Copy
  /-- The request that holds the lock of the storage client across an `await`. -/
  storageGuard : Option ℕ
  inFlight : String → Option ℕ
  tasks : ℕ → Option Task
  saves : ℕ → Option Save
  saving : String → Bool
  purges : ℕ → Option PurgeCall
  detached : List (StorageRequest Copy)
  nextId : ℕ
  nextFetch : ℕ
  log : List Exchange
  served : List (Time × StorageRequest Copy)
  answers : List Answer

/-- The start: empty caches, no task. -/
def State.initial (maxSizeBytes : UInt64) : State :=
  { now := 0
    domainMap := fun _ => none
    stalePolicies := fun _ => none
    memoryCache := fun _ => none
    storage := CacheLayer.new maxSizeBytes
    storageGuard := none
    inFlight := fun _ => none
    tasks := fun _ => none
    saves := fun _ => none
    saving := fun _ => false
    purges := fun _ => none
    detached := []
    nextId := 0
    nextFetch := 0
    log := []
    served := []
    answers := [] }

/-! ## Parts of a step -/

namespace State

/-- A request goes on to its next `await`. -/
def setPhase (s : State) (rid : ℕ) (t : Task) (phase : Phase) : State :=
  { s with tasks := Function.update s.tasks rid (some { t with phase := phase }) }

/-- A request is answered. -/
def finish (s : State) (rid : ℕ) (t : Task) (via : Via) (response : Response) : State :=
  { s with
    tasks := Function.update s.tasks rid none
    answers := { rid := rid, request := t.request, via := via, response := response,
                 sentAt := s.now } :: s.answers }

/-- `memory_cache.insert`. -/
def insertMemory (s : State) (key : String) (entry : MemoryCacheEntry) (origin : SlotOrigin) : State :=
  { s with
    memoryCache := Function.update s.memoryCache key
      (some { entry := entry, insertedAt := s.now, origin := origin }) }

/-- The storage service executes a call. -/
def execute (s : State) (req : StorageRequest Copy) : State :=
  { s with
    storage := (s.storage.serve s.now req).2
    served := (s.now, req) :: s.served }

/-- A storage call: executed and answered, or put aside. -/
def attempt (s : State) (req : StorageRequest Copy) (answered : Bool) : State :=
  if answered then s.execute req else { s with detached := req :: s.detached }

/-- Every follower of a leader gets the result of its fetch. -/
def broadcast (s : State) (leader : ℕ) (result : Fetched) : State :=
  { s with
    tasks := fun rid => (s.tasks rid).map fun t =>
      if t.phase.follows leader then { t with phase := .respond leader result } else t }

/-- The leader of a key leaves the in-flight map. -/
def leave (s : State) (key : String) : State :=
  { s with inFlight := Function.update s.inFlight key none }

/-- The live entry of the memory cache under a key: moka drops entries whose lifetime is
over. -/
def memoryGet (cfg : Config) (s : State) (key : String) : Option Slot :=
  (s.memoryCache key).filter fun slot => s.now < slot.insertedAt + cfg.memoryCacheTtl

/-- The window of `stale_if_error_window_for_host`. -/
def staleWindow (cfg : Config) (s : State) (host : String) : ℤ :=
  (s.stalePolicies host).getD cfg.staleIfErrorWindow

end State

/-- The declared length of an origin response. -/
def declaredLength (headers : HeaderMap) : Option ℕ :=
  (headers.getStr "content-length").bind Text.parseU64

/-- The fetch closure after the head of the response: streaming, or the buffered path. -/
def afterHead (cfg : Config) (fetch status : ℕ) (headers : HeaderMap) : Phase :=
  match declaredLength headers with
  | some cl =>
    if cl > cfg.streamBypassThreshold then .publish (.oversize status headers cl)
    else .reserve fetch status headers
  | none => .reserve fetch status headers

/-- The fetch closure when there is no stale copy to serve: an error after a failed send, the
5xx response otherwise. -/
def withoutStale (cfg : Config) (fetch : ℕ) : Option (ℕ × HeaderMap) → Phase
  | none => .publish .failed
  | some (status, headers) => afterHead cfg fetch status headers

/-- The key that a purge of type `url` invalidates, if the target is a URI. -/
def urlPurgeKey (cfg : Config) (target : Option String) : Option String :=
  (target.filter fun t => !t.isEmpty).bind fun t =>
    (cfg.parseUri t).map fun uri =>
      computeCacheKey cfg.sha256Hex "GET" (normalizeHost (uri.authority.getD "")) uri.path
        (uri.query.getD "")

/-- The purge handlers on the memory cache. -/
def purgeMemory (cfg : Config) (call : PurgeCall) (memory : String → Option Slot) :
    String → Option Slot :=
  match call with
  | .domain _ => fun _ => none
  | .cache body =>
    if body.type == "domain" || body.type == "all" then fun _ => none
    else if body.type == "url" then
      match urlPurgeKey cfg body.target with
      | some key => Function.update memory key none
      | none => memory
    else memory

/-- What the purge handlers ask the storage service for, if anything. -/
def purgeTarget : PurgeCall → Option PurgeTarget
  | .domain host => some (.domain host)
  | .cache body =>
    let target := body.target.filter fun t => !t.isEmpty
    if body.type == "url" then target.map .url
    else if body.type == "domain" then target.map .domain
    else if body.type == "all" then some .all
    else none

/-- The status of a purge answer: the storage result does not change it. -/
def purgeStatus : PurgeCall → ℕ
  | .domain _ => 200
  | .cache body =>
    if (body.type == "url" || body.type == "domain") && (body.target.filter fun t => !t.isEmpty).isNone
    then 400 else 200

/-! ## Steps of a request -/

namespace State

/-- A request arrives: host, domain lookup, cache key. -/
def arrive (cfg : Config) (s : State) (req : Request) : State :=
  let s' := { s with nextId := s.nextId + 1 }
  let refuse (response : Response) : State :=
    s'.finish s.nextId { request := req, host := "", key := none, phase := .readBody } .own response
  match req.headers.getStr "host" with
  | none => refuse (textResponse 400 [] "Missing Host header")
  | some raw =>
    let host := normalizeHost raw
    match findOrigin s.domainMap host with
    | none => refuse (textResponse 404 [] "Domain not configured")
    | some _ =>
      let key := cacheKeyOf cfg host req
      let t : Task := { request := req, host := host, key := key, phase := .readBody }
      s'.setPhase s.nextId t (if key.isSome then .l1Lookup else .readBody)

/-- The L1 lookup. -/
def l1Get (cfg : Config) (s : State) (rid : ℕ) (t : Task) (key : String) : State :=
  match s.memoryGet cfg key with
  | some slot => s.finish rid t (.l1Hit slot) (hitResponse cfg .l1Hit t.request slot.entry)
  | none => s.setPhase rid t .l2Lookup

/-- The L2 lookup; after a HIT the lock of the storage client is kept. -/
def l2Get (s : State) (rid : ℕ) (t : Task) (key : String) (answered : Bool) : State :=
  let found := (s.storage.stored key).filter fun x => !x.isExpired s.now
  let s' := s.attempt (.get key false) answered
  match answered, found with
  | true, some x => { s'.setPhase rid t (.promoting x s.now) with storageGuard := some rid }
  | _, _ => s'.setPhase rid t .readBody

/-- The promotion of an L2 HIT to the memory cache, and the answer. -/
def promote (cfg : Config) (s : State) (rid : ℕ) (t : Task) (key : String) (x : Stored Copy)
    (lookedUpAt : Time) : State :=
  let entry := (x.seen lookedUpAt).toEntry
  let s' := if entry.fitsMemory then s.insertMemory key entry (.promoted x lookedUpAt) else s
  { s'.finish rid t (.l2Hit x lookedUpAt) (hitResponse cfg .l2Hit t.request entry) with
    storageGuard := none }

/-- The end of the request body. -/
def readBody (s : State) (rid : ℕ) (t : Task) (ok : Bool) : State :=
  if ok then s.setPhase rid t (if t.key.isSome then .coalesce else .directPermit)
  else s.finish rid t .own (textResponse 400 [] "Failed to read request body")

/-- `get_or_fetch_with_capacity`: subscribe to the fetch in flight, or lead a new one. -/
def coalesce (s : State) (rid : ℕ) (t : Task) (key : String) : State :=
  match s.inFlight key with
  | some leader => s.setPhase rid t (.follower leader)
  | none =>
    { s.setPhase rid t .permit with inFlight := Function.update s.inFlight key (some rid) }

/-- The slot of the origin semaphore; the fetch starts. -/
def permit (s : State) (rid : ℕ) (t : Task) (ok : Bool) : State :=
  if ok then { s.setPhase rid t (.sending s.nextFetch) with nextFetch := s.nextFetch + 1 }
  else s.setPhase rid t (.publish .permitTimeout)

/-- The head of the origin response. -/
def head (cfg : Config) (s : State) (rid : ℕ) (t : Task) (fetch status : ℕ) (headers : HeaderMap) :
    State :=
  s.setPhase rid t <|
    if isServerError status then .staleLookup fetch (some (status, headers))
    else afterHead cfg fetch status headers

/-- The lookup of `try_serve_stale`. -/
def staleLookup (cfg : Config) (s : State) (rid : ℕ) (t : Task) (key : String) (fetch : ℕ)
    (head : Option (ℕ × HeaderMap)) (answered : Bool) : State :=
  let found := s.storage.stored key
  let s' := s.attempt (.get key true) answered
  match answered, found with
  | true, some x => s'.setPhase rid t (.staleDecision fetch head (x.seen s.now))
  | _, _ => s'.setPhase rid t (withoutStale cfg fetch head)

/-- The window test of `try_serve_stale`. -/
def staleDecide (cfg : Config) (s : State) (rid : ℕ) (t : Task) (fetch : ℕ)
    (head : Option (ℕ × HeaderMap)) (found : Lookup Copy) : State :=
  s.setPhase rid t <|
    if staleAdmitted s.now (s.staleWindow cfg t.host) found then .publish (.stale found)
    else withoutStale cfg fetch head

/-- `InFlightGuard::reserve`. -/
def reserve (s : State) (rid : ℕ) (t : Task) (fetch status : ℕ) (headers : HeaderMap) (ok : Bool) :
    State :=
  s.setPhase rid t (if ok then .reading fetch status headers else .publish .bufferFull)

/-- The exchange that a leader completes. -/
def exchangeOf (rid : ℕ) (t : Task) (key : String) (fetch status : ℕ) (headers : HeaderMap)
    (body : Bytes) : Exchange :=
  { id := fetch
    rid := rid
    key := key
    host := t.host
    request := t.request
    response := { status := status, headers := headers, body := body } }

/-- The body of the origin response: a `miss` outcome starts a background save unless one is
running for the key. -/
def originBody (s : State) (rid : ℕ) (t : Task) (x : Exchange) : State :=
  let s' := { s.setPhase rid t (.publish (.origin x)) with log := x :: s.log }
  if x.outcome = .miss ∧ s.saving x.key = false then
    { s' with
      saving := Function.update s.saving x.key true
      saves := Function.update s.saves x.id (some { exchange := x, phase := .prepare }) }
  else s'

/-- The leader leaves the in-flight map and broadcasts its result. -/
def publish (s : State) (rid : ℕ) (t : Task) (key : String) (result : Fetched) : State :=
  ((s.setPhase rid t (.respond rid result)).leave key).broadcast rid result

/-- The answer to a requester of a coalesced fetch, or the streaming path. -/
def respond (s : State) (rid : ℕ) (t : Task) (leader : ℕ) (result : Fetched) : State :=
  match result.response with
  | none => s.finish rid t (.coalesced leader result) fetchFailedResponse
  | some r =>
    if r.isSentinel then s.setPhase rid t .streamPermit
    else s.finish rid t (.coalesced leader result) (missResponse t.request r)

/-- The client goes away: the task is dropped, with the drop guards it holds. -/
def cancel (s : State) (rid : ℕ) (t : Task) : State :=
  let s' :=
    match t.key with
    | some key => if t.phase.leads then (s.leave key).broadcast rid .failed else s
    | none => s
  { s' with
    tasks := Function.update s'.tasks rid none
    storageGuard := if s.storageGuard = some rid then none else s.storageGuard }

/-! ## Steps of a purge handler -/

/-- The part of a purge handler before it waits for the storage client. -/
def purgeBegin (cfg : Config) (s : State) (call : PurgeCall) : State :=
  { s with
    nextId := s.nextId + 1
    memoryCache := purgeMemory cfg call s.memoryCache
    purges := Function.update s.purges s.nextId (some call) }

/-- The storage call of a purge handler, if it makes one. -/
def callPurge (s : State) (call : PurgeCall) (answered : Bool) : State :=
  match purgeTarget call with
  | some target => s.attempt (.purge target) answered
  | none => s

/-- The rest of a purge handler. -/
def purgeFinish (s : State) (id : ℕ) (call : PurgeCall) (answered : Bool) : State :=
  { s.callPurge call answered with purges := Function.update s.purges id none }

/-! ## Steps of a background save -/

/-- The optimizer or the compressor is done. -/
def savePrepare (cfg : Config) (s : State) (id : ℕ) (x : Exchange) (optimized : Option Optimized) :
    State :=
  { s with
    saves := Function.update s.saves id
      (some { exchange := x, phase := .put (preparedEntry cfg x optimized) }) }

/-- `storage.put`. -/
def savePut (s : State) (id : ℕ) (x : Exchange) (entry : MemoryCacheEntry) (answered : Bool) : State :=
  let s' := s.attempt (saveRequest x entry) answered
  { s' with saves := Function.update s'.saves id (some { exchange := x, phase := .insert entry }) }

/-- The L1 insertion and the release of the save tracker. -/
def saveInsert (s : State) (id : ℕ) (x : Exchange) (entry : MemoryCacheEntry) : State :=
  let s' := if entry.fitsMemory then s.insertMemory x.key entry .saved else s
  { s' with
    saves := Function.update s'.saves id none
    saving := Function.update s'.saving x.key false }

end State

/-! ## The transition system -/

/-- What happens next. -/
inductive Action
  | tick (d : Time)
  | arrive (req : Request)
  | l1Get (rid : ℕ)
  | l2Get (rid : ℕ) (answered : Bool)
  | promote (rid : ℕ)
  | readBody (rid : ℕ) (ok : Bool)
  | coalesce (rid : ℕ)
  | permit (rid : ℕ) (ok : Bool)
  | sendFailed (rid : ℕ)
  | head (rid status : ℕ) (headers : HeaderMap)
  | staleLookup (rid : ℕ) (answered : Bool)
  | staleDecide (rid : ℕ)
  | reserve (rid : ℕ) (ok : Bool)
  | body (rid : ℕ) (body : Bytes)
  | bodyFailed (rid : ℕ)
  | publish (rid : ℕ)
  | respond (rid : ℕ)
  | streamPermit (rid : ℕ) (ok : Bool)
  | stream (rid : ℕ) (resp : Option OriginResponse)
  | directPermit (rid : ℕ) (ok : Bool)
  | direct (rid : ℕ) (reply : DirectReply)
  | cancel (rid : ℕ)
  | savePrepare (id : ℕ) (optimized : Option Optimized)
  | savePut (id : ℕ) (answered : Bool)
  | saveInsert (id : ℕ)
  | memoryEvict (key : String)
  | storageEvict (needed : UInt64)
  /-- A purge sent by the admin server, which talks to the storage service directly. -/
  | storagePurge (target : PurgeTarget)
  /-- The service executes a call it did not answer in time. -/
  | lateCall (index : ℕ)
  | purgeBegin (call : PurgeCall)
  | purgeFinish (id : ℕ) (answered : Bool)
  | setDomainMap (domainMap : String → Option String)
  | setStalePolicies (policies : String → Option ℤ)

/-- The step a request takes, by the phase it is in. -/
def taskStep (s : State) (rid : ℕ) (t : Task) : Action → Option State
  | .readBody _ ok => match t.phase with
    | .readBody => some (s.readBody rid t ok)
    | _ => none
  | .respond _ => match t.phase with
    | .respond leader result => some (s.respond rid t leader result)
    | _ => none
  | .streamPermit _ ok => match t.phase with
    | .streamPermit =>
      some (if ok then s.setPhase rid t .streaming else s.finish rid t .own streamBusyResponse)
    | _ => none
  | .stream _ resp => match t.phase with
    | .streaming => some (s.finish rid t .own (streamResponse resp))
    | _ => none
  | .directPermit _ ok => match t.phase with
    | .directPermit =>
      some (if ok then s.setPhase rid t .direct else s.finish rid t .own directBusyResponse)
    | _ => none
  | .direct _ reply => match t.phase with
    | .direct => some (s.finish rid t .own (directResponse reply))
    | _ => none
  | .cancel _ => some (s.cancel rid t)
  | _ => none

/-- The step a request with a cache key takes, by the phase it is in.  Calls of the storage
client wait for its lock. -/
def cachedStep (cfg : Config) (s : State) (rid : ℕ) (t : Task) (key : String) :
    Action → Option State
  | .l1Get _ => match t.phase with
    | .l1Lookup => some (s.l1Get cfg rid t key)
    | _ => none
  | .l2Get _ answered => match t.phase with
    | .l2Lookup => if s.storageGuard.isNone then some (s.l2Get rid t key answered) else none
    | _ => none
  | .promote _ => match t.phase with
    | .promoting x lookedUpAt => some (s.promote cfg rid t key x lookedUpAt)
    | _ => none
  | .coalesce _ => match t.phase with
    | .coalesce => some (s.coalesce rid t key)
    | _ => none
  | .permit _ ok => match t.phase with
    | .permit => some (s.permit rid t ok)
    | _ => none
  | .sendFailed _ => match t.phase with
    | .sending fetch => some (s.setPhase rid t (.staleLookup fetch none))
    | _ => none
  | .head _ status headers => match t.phase with
    | .sending fetch => some (s.head cfg rid t fetch status headers)
    | _ => none
  | .staleLookup _ answered => match t.phase with
    | .staleLookup fetch head =>
      if s.storageGuard.isNone then some (s.staleLookup cfg rid t key fetch head answered) else none
    | _ => none
  | .staleDecide _ => match t.phase with
    | .staleDecision fetch head found => some (s.staleDecide cfg rid t fetch head found)
    | _ => none
  | .reserve _ ok => match t.phase with
    | .reserve fetch status headers => some (s.reserve rid t fetch status headers ok)
    | _ => none
  | .body _ body => match t.phase with
    | .reading fetch status headers =>
      -- the answer to a HEAD request has no body
      if t.request.method = .head ∧ body ≠ [] then none
      else some (s.originBody rid t (State.exchangeOf rid t key fetch status headers body))
    | _ => none
  | .bodyFailed _ => match t.phase with
    | .reading _ _ _ => some (s.setPhase rid t (.publish .failed))
    | _ => none
  | .publish _ => match t.phase with
    | .publish result => some (s.publish rid t key result)
    | _ => none
  | _ => none

/-- The step a background save takes, by the phase it is in. -/
def saveStep (cfg : Config) (s : State) (id : ℕ) (save : Save) : Action → Option State
  | .savePrepare _ optimized => match save.phase with
    | .prepare =>
      if optimized.isSome ∧ !cfg.hasOptimizer then none
      else some (s.savePrepare cfg id save.exchange optimized)
    | _ => none
  | .savePut _ answered => match save.phase with
    | .put entry =>
      if s.storageGuard.isNone then some (s.savePut id save.exchange entry answered) else none
    | _ => none
  | .saveInsert _ => match save.phase with
    | .insert entry => some (s.saveInsert id save.exchange entry)
    | _ => none
  | _ => none

/-- The request an action belongs to. -/
def Action.task : Action → Option ℕ
  | .l1Get rid | .l2Get rid _ | .promote rid | .readBody rid _ | .coalesce rid | .permit rid _
  | .sendFailed rid | .head rid _ _ | .staleLookup rid _ | .staleDecide rid | .reserve rid _
  | .body rid _ | .bodyFailed rid | .publish rid | .respond rid | .streamPermit rid _
  | .stream rid _ | .directPermit rid _ | .direct rid _ | .cancel rid => some rid
  | _ => none

/-- The steps of the environment and of the purge handlers. -/
def environmentStep (cfg : Config) (s : State) : Action → Option State
  | .tick d => some { s with now := s.now + d }
  | .arrive req => some (s.arrive cfg req)
  | .memoryEvict key => some { s with memoryCache := Function.update s.memoryCache key none }
  | .storageEvict needed => some { s with storage := s.storage.evictLru needed }
  | .storagePurge target => some (s.execute (.purge target))
  | .lateCall index =>
    s.detached[index]?.map fun req =>
      { s.execute req with detached := s.detached.eraseIdx index }
  | .purgeBegin call => some (s.purgeBegin cfg call)
  | .purgeFinish id answered =>
    if s.storageGuard.isNone then (s.purges id).map fun call => s.purgeFinish id call answered
    else none
  | .setDomainMap domainMap => some { s with domainMap := domainMap }
  | .setStalePolicies policies => some { s with stalePolicies := policies }
  | _ => none

/-- One step of the proxy. -/
def step (cfg : Config) (s : State) (a : Action) : Option State :=
  match a with
  | .savePrepare id _ | .savePut id _ | .saveInsert id =>
    (s.saves id).bind fun save => saveStep cfg s id save a
  | _ =>
    match a.task with
    | some rid =>
      (s.tasks rid).bind fun t =>
        (taskStep s rid t a).or (t.key.bind fun key => cachedStep cfg s rid t key a)
    | none => environmentStep cfg s a

/-! ## What a step can do -/

/-- The steps of the system, one constructor for each thing that can happen. -/
inductive Step (cfg : Config) (s : State) : Action → State → Prop
  | readBody {rid t ok} : s.tasks rid = some t → t.phase = .readBody →
      Step cfg s (.readBody rid ok) (s.readBody rid t ok)
  | respond {rid t leader result} : s.tasks rid = some t → t.phase = .respond leader result →
      Step cfg s (.respond rid) (s.respond rid t leader result)
  | streamStart {rid t} : s.tasks rid = some t → t.phase = .streamPermit →
      Step cfg s (.streamPermit rid true) (s.setPhase rid t .streaming)
  | streamBusy {rid t} : s.tasks rid = some t → t.phase = .streamPermit →
      Step cfg s (.streamPermit rid false) (s.finish rid t .own streamBusyResponse)
  | stream {rid t resp} : s.tasks rid = some t → t.phase = .streaming →
      Step cfg s (.stream rid resp) (s.finish rid t .own (streamResponse resp))
  | directStart {rid t} : s.tasks rid = some t → t.phase = .directPermit →
      Step cfg s (.directPermit rid true) (s.setPhase rid t .direct)
  | directBusy {rid t} : s.tasks rid = some t → t.phase = .directPermit →
      Step cfg s (.directPermit rid false) (s.finish rid t .own directBusyResponse)
  | direct {rid t reply} : s.tasks rid = some t → t.phase = .direct →
      Step cfg s (.direct rid reply) (s.finish rid t .own (directResponse reply))
  | cancel {rid t} : s.tasks rid = some t → Step cfg s (.cancel rid) (s.cancel rid t)
  | l1Get {rid t key} : s.tasks rid = some t → t.key = some key → t.phase = .l1Lookup →
      Step cfg s (.l1Get rid) (s.l1Get cfg rid t key)
  | l2Get {rid t key answered} : s.tasks rid = some t → t.key = some key → t.phase = .l2Lookup →
      s.storageGuard = none → Step cfg s (.l2Get rid answered) (s.l2Get rid t key answered)
  | promote {rid t key x lookedUpAt} : s.tasks rid = some t → t.key = some key →
      t.phase = .promoting x lookedUpAt →
      Step cfg s (.promote rid) (s.promote cfg rid t key x lookedUpAt)
  | coalesce {rid t key} : s.tasks rid = some t → t.key = some key → t.phase = .coalesce →
      Step cfg s (.coalesce rid) (s.coalesce rid t key)
  | permit {rid t key ok} : s.tasks rid = some t → t.key = some key → t.phase = .permit →
      Step cfg s (.permit rid ok) (s.permit rid t ok)
  | sendFailed {rid t key fetch} : s.tasks rid = some t → t.key = some key →
      t.phase = .sending fetch →
      Step cfg s (.sendFailed rid) (s.setPhase rid t (.staleLookup fetch none))
  | head {rid t key fetch status headers} : s.tasks rid = some t → t.key = some key →
      t.phase = .sending fetch →
      Step cfg s (.head rid status headers) (s.head cfg rid t fetch status headers)
  | staleLookup {rid t key fetch head answered} : s.tasks rid = some t → t.key = some key →
      t.phase = .staleLookup fetch head → s.storageGuard = none →
      Step cfg s (.staleLookup rid answered) (s.staleLookup cfg rid t key fetch head answered)
  | staleDecide {rid t key fetch head found} : s.tasks rid = some t → t.key = some key →
      t.phase = .staleDecision fetch head found →
      Step cfg s (.staleDecide rid) (s.staleDecide cfg rid t fetch head found)
  | reserve {rid t key fetch status headers ok} : s.tasks rid = some t → t.key = some key →
      t.phase = .reserve fetch status headers →
      Step cfg s (.reserve rid ok) (s.reserve rid t fetch status headers ok)
  | body {rid t key fetch status headers body} : s.tasks rid = some t → t.key = some key →
      t.phase = .reading fetch status headers → (t.request.method = .head → body = []) →
      Step cfg s (.body rid body)
        (s.originBody rid t (State.exchangeOf rid t key fetch status headers body))
  | bodyFailed {rid t key fetch status headers} : s.tasks rid = some t → t.key = some key →
      t.phase = .reading fetch status headers →
      Step cfg s (.bodyFailed rid) (s.setPhase rid t (.publish .failed))
  | publish {rid t key result} : s.tasks rid = some t → t.key = some key →
      t.phase = .publish result → Step cfg s (.publish rid) (s.publish rid t key result)
  | savePrepare {id save optimized} : s.saves id = some save → save.phase = .prepare →
      (optimized.isSome = true → cfg.hasOptimizer = true) →
      Step cfg s (.savePrepare id optimized) (s.savePrepare cfg id save.exchange optimized)
  | savePut {id save entry answered} : s.saves id = some save → save.phase = .put entry →
      s.storageGuard = none →
      Step cfg s (.savePut id answered) (s.savePut id save.exchange entry answered)
  | saveInsert {id save entry} : s.saves id = some save → save.phase = .insert entry →
      Step cfg s (.saveInsert id) (s.saveInsert id save.exchange entry)
  | tick {d} : Step cfg s (.tick d) { s with now := s.now + d }
  | arrive {req} : Step cfg s (.arrive req) (s.arrive cfg req)
  | memoryEvict {key} :
      Step cfg s (.memoryEvict key) { s with memoryCache := Function.update s.memoryCache key none }
  | storageEvict {needed} :
      Step cfg s (.storageEvict needed) { s with storage := s.storage.evictLru needed }
  | storagePurge {target} : Step cfg s (.storagePurge target) (s.execute (.purge target))
  | lateCall {index m} : s.detached[index]? = some m →
      Step cfg s (.lateCall index) { s.execute m with detached := s.detached.eraseIdx index }
  | purgeBegin {call} : Step cfg s (.purgeBegin call) (s.purgeBegin cfg call)
  | purgeFinish {id call answered} : s.purges id = some call → s.storageGuard = none →
      Step cfg s (.purgeFinish id answered) (s.purgeFinish id call answered)
  | setDomainMap {domainMap} :
      Step cfg s (.setDomainMap domainMap) { s with domainMap := domainMap }
  | setStalePolicies {policies} :
      Step cfg s (.setStalePolicies policies) { s with stalePolicies := policies }

section StepCases

variable {cfg : Config} {s s' : State} {a : Action} {rid id : ℕ} {t : Task} {key : String}

/-- The steps of a request by its phase. -/
lemma taskStep_cases (ht : s.tasks rid = some t) (ha : a.task = some rid)
    (h : taskStep s rid t a = some s') : Step cfg s a s' := by
  cases a <;> simp only [Action.task, Option.some.injEq, reduceCtorEq] at ha <;> try subst ha
  all_goals simp only [taskStep, reduceCtorEq] at h
  case readBody ok =>
    split at h <;> cases h
    exact Step.readBody ht ‹_›
  case respond =>
    split at h <;> cases h
    exact Step.respond ht ‹_›
  case streamPermit ok =>
    split at h <;> cases h
    cases ok with
    | true => exact Step.streamStart ht ‹_›
    | false => exact Step.streamBusy ht ‹_›
  case stream resp =>
    split at h <;> cases h
    exact Step.stream ht ‹_›
  case directPermit ok =>
    split at h <;> cases h
    cases ok with
    | true => exact Step.directStart ht ‹_›
    | false => exact Step.directBusy ht ‹_›
  case direct reply =>
    split at h <;> cases h
    exact Step.direct ht ‹_›
  case cancel =>
    cases h
    exact Step.cancel ht

/-- The steps of a request with a cache key by its phase. -/
lemma cachedStep_cases (ht : s.tasks rid = some t) (hkey : t.key = some key)
    (ha : a.task = some rid) (h : cachedStep cfg s rid t key a = some s') : Step cfg s a s' := by
  cases a <;> simp only [Action.task, Option.some.injEq, reduceCtorEq] at ha <;> try subst ha
  all_goals simp only [cachedStep, reduceCtorEq] at h
  case l1Get =>
    split at h <;> cases h
    exact Step.l1Get ht hkey ‹_›
  case l2Get answered =>
    split at h
    · split at h <;> cases h
      exact Step.l2Get ht hkey ‹_› (by simpa using ‹s.storageGuard.isNone = true›)
    · cases h
  case promote =>
    split at h <;> cases h
    exact Step.promote ht hkey ‹_›
  case coalesce =>
    split at h <;> cases h
    exact Step.coalesce ht hkey ‹_›
  case permit ok =>
    split at h <;> cases h
    exact Step.permit ht hkey ‹_›
  case sendFailed =>
    split at h <;> cases h
    exact Step.sendFailed ht hkey ‹_›
  case head status headers =>
    split at h <;> cases h
    exact Step.head ht hkey ‹_›
  case staleLookup answered =>
    split at h
    · split at h <;> cases h
      exact Step.staleLookup ht hkey ‹_› (by simpa using ‹s.storageGuard.isNone = true›)
    · cases h
  case staleDecide =>
    split at h <;> cases h
    exact Step.staleDecide ht hkey ‹_›
  case reserve ok =>
    split at h <;> cases h
    exact Step.reserve ht hkey ‹_›
  case body body =>
    split at h
    · split at h
      · cases h
      · rename_i hbody
        cases h
        refine Step.body ht hkey ‹_› fun hhead => ?_
        by_contra hne
        exact hbody ⟨hhead, hne⟩
    · cases h
  case bodyFailed =>
    split at h <;> cases h
    exact Step.bodyFailed ht hkey ‹_›
  case publish =>
    split at h <;> cases h
    exact Step.publish ht hkey ‹_›

/-- The steps of a background save by its phase. -/
lemma saveStep_cases {save : Save} (hs : s.saves id = some save)
    (ha : (∃ optimized, a = .savePrepare id optimized) ∨ (∃ answered, a = .savePut id answered) ∨
      a = .saveInsert id)
    (h : saveStep cfg s id save a = some s') : Step cfg s a s' := by
  rcases ha with ⟨optimized, rfl⟩ | ⟨answered, rfl⟩ | rfl
  all_goals simp only [saveStep] at h
  · split at h
    · split at h
      · cases h
      · rename_i hallowed
        cases h
        refine Step.savePrepare hs ‹_› fun hsome => ?_
        simpa [hsome] using hallowed
    · cases h
  · split at h
    · split at h <;> cases h
      exact Step.savePut hs ‹_› (by simpa using ‹s.storageGuard.isNone = true›)
    · cases h
  · split at h <;> cases h
    exact Step.saveInsert hs ‹_›

/-- The steps of the environment and of the purge handlers. -/
lemma environmentStep_cases (h : environmentStep cfg s a = some s') : Step cfg s a s' := by
  cases a <;> simp only [environmentStep, reduceCtorEq, Option.some.injEq] at h
  case tick d => exact h ▸ Step.tick
  case arrive req => exact h ▸ Step.arrive
  case memoryEvict key => exact h ▸ Step.memoryEvict
  case storageEvict needed => exact h ▸ Step.storageEvict
  case storagePurge target => exact h ▸ Step.storagePurge
  case lateCall index =>
    rw [Option.map_eq_some_iff] at h
    obtain ⟨m, hm, rfl⟩ := h
    exact Step.lateCall hm
  case purgeBegin call => exact h ▸ Step.purgeBegin
  case purgeFinish id answered =>
    split at h
    · rw [Option.map_eq_some_iff] at h
      obtain ⟨call, hcall, rfl⟩ := h
      exact Step.purgeFinish hcall (by simpa using ‹s.storageGuard.isNone = true›)
    · cases h
  case setDomainMap domainMap => exact h ▸ Step.setDomainMap
  case setStalePolicies policies => exact h ▸ Step.setStalePolicies

/-- Every step is one of these. -/
theorem step_cases (h : step cfg s a = some s') : Step cfg s a s' := by
  unfold step at h
  split at h
  · rw [Option.bind_eq_some_iff] at h
    obtain ⟨save, hs, h⟩ := h
    exact saveStep_cases hs (Or.inl ⟨_, rfl⟩) h
  · rw [Option.bind_eq_some_iff] at h
    obtain ⟨save, hs, h⟩ := h
    exact saveStep_cases hs (Or.inr (Or.inl ⟨_, rfl⟩)) h
  · rw [Option.bind_eq_some_iff] at h
    obtain ⟨save, hs, h⟩ := h
    exact saveStep_cases hs (Or.inr (Or.inr rfl)) h
  · split at h
    · rename_i rid ha
      rw [Option.bind_eq_some_iff] at h
      obtain ⟨t, ht, h⟩ := h
      rw [Option.or_eq_some_iff] at h
      rcases h with h | ⟨-, h⟩
      · exact taskStep_cases ht ha h
      · rw [Option.bind_eq_some_iff] at h
        obtain ⟨key, hkey, h⟩ := h
        exact cachedStep_cases ht hkey ha h
    · exact environmentStep_cases h

end StepCases

/-! ## A sample deployment -/

/-- Codecs that put one byte in front of a body. -/
def sampleCodecs : Codecs :=
  { compressBrotli := fun body _ => some (1 :: body)
    decompressBrotli := fun coded =>
      match coded with
      | 1 :: body => some body
      | _ => none
    encodeGzip := fun body _ => some (2 :: body)
    isSmaller := fun size original => 10 * size ≤ 9 * original }

/-- The default settings, with the identity for the hash. -/
def sampleConfig : Config :=
  { sha256Hex := id
    parseUri := fun _ => none
    codecs := sampleCodecs
    textCompress :=
      { enabled := true, minBytes := 1024, brLevel := 5, gzipLevel := 6, maxBytes := 10485760 }
    memoryCacheTtl := 600 * second
    staleIfErrorWindow := 3600
    streamBypassThreshold := maxCacheEntryBytes
    hasOptimizer := false }

/-- The start of the sample runs: empty caches. -/
def sampleStart : State := State.initial 1000000

/-- One registered domain. -/
def sampleDomains : Action :=
  .setDomainMap fun host => if host = "a.test" then some "http://origin" else none

/-- A request to the registered domain. -/
def sampleRequest (method : Method) (path : String) (headers : HeaderMap) : Request :=
  { method := method
    uri := { schemeAuthority := "", path := path, query := none }
    headers := ("host", "a.test") :: headers }

/-- A request that misses both cache levels, up to the coalescer. -/
def missActions (rid : ℕ) : List Action :=
  [.l1Get rid, .l2Get rid true, .readBody rid true, .coalesce rid]

/-- A leader whose origin answers, up to the broadcast. -/
def fetchActions (rid status : ℕ) (headers : HeaderMap) (body : Bytes) : List Action :=
  [.permit rid true, .head rid status headers, .reserve rid true, .body rid body]

/-- A background save, with an answered storage call. -/
def saveActions (id : ℕ) : List Action :=
  [.savePrepare id none, .savePut id true, .saveInsert id]

/-- A GET that misses both levels, with its background save. -/
def logoActions : List Action :=
  [sampleDomains, .arrive (sampleRequest .get "/logo.png" [])] ++ missActions 0
    ++ fetchActions 0 200 [("content-type", "image/png")] [1, 2, 3]
    ++ [.publish 0, .respond 0] ++ saveActions 0

/-- The GET is answered, and the response is saved in both levels. -/
example :
    ((Traces.run (step sampleConfig) sampleStart logoActions).any fun t =>
      t.answers.length == 1 && (t.memoryCache "GET:a.test/logo.png?").isSome
        && (t.storage.stored "GET:a.test/logo.png?").isSome) = true := by
  decide +kernel

end SmartSchoolCdn
