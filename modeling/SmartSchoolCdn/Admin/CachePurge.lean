import SmartSchoolCdn.Admin.Reply
import SmartSchoolCdn.Proxy.Answers

/-!
# The purge route of the admin server

`DELETE /api/cache/purge` checks that the target is registered and calls the storage service.
It never calls the proxy, so the memory cache keeps what it has, and the storage compares the
target with the recorded strings exactly, while the check compares hosts and accepts every
spelling of a URL.

So after a purge answered with success the next GET of a URL of the target is no HIT exactly
when the memory cache had no live entry for it and the storage had recorded every live entry
under the string of the target (`purge_complete_iff`).
-/

namespace SmartSchoolCdn

open Traces

/-! ## The route -/

/-- `purgeBodySchema`. -/
inductive PurgeRequest
  | url (target : String)
  | domain (target : String)
  | all
  deriving DecidableEq, Repr

/-- The reply to a purge whose type needs a target that is missing. -/
def targetMissing (type : String) : ErrorReply :=
  { status := 400
    error := "invalid_input"
    message := "type이 \"" ++ type ++ "\"이면 target은 필수입니다." }

/-- The validation of the body; fields that are no strings count as absent, and a target has
to be non-empty. -/
def parsePurgeBody (type target : Option String) : Except ErrorReply PurgeRequest :=
  let target := target.filter fun t => !t.isEmpty
  match type with
  | some "url" => (target.map .url).elim (.error (targetMissing "url")) .ok
  | some "domain" => (target.map .domain).elim (.error (targetMissing "domain")) .ok
  | some "all" => .ok .all
  | _ => .error
      { status := 400
        error := "invalid_input"
        message := "type은 \"url\" | \"domain\" | \"all\" 중 하나여야 합니다." }

/-- The wildcard entries that register a host name. -/
def wildcardCandidates (hostname : String) : List String :=
  let parts := Text.split hostname '.'
  ("*." ++ hostname) :: (List.range' 1 (parts.length - 1)).map fun i =>
    "*." ++ ".".intercalate (parts.drop i)

/-- Whether a host name is registered, exactly or by a wildcard entry. -/
def isRegistered (hosts : List String) (hostname : String) : Bool :=
  hosts.contains hostname || (wildcardCandidates hostname).any hosts.contains

/-- The reply for a host that is not registered. -/
def domainNotRegistered (host : String) : ErrorReply :=
  { status := 400
    error := "domain_not_registered"
    message := host ++ "은(는) 등록된 도메인이 아닙니다." }

/-- The reply for a target that is no URL with a host. -/
def invalidUrl : ErrorReply :=
  { status := 400, error := "invalid_url", message := "유효하지 않은 URL 형식입니다." }

/-- The checks of the route, and the target it sends to the storage service: the URL as it
was written, the host normalised. -/
def purgeTargetOf (js : Runtime) (hosts : List String) : PurgeRequest → Except ErrorReply PurgeTarget
  | .url target =>
    match js.parseUrl target with
    | none => .error invalidUrl
    | some parsed =>
      if parsed.protocol != "http:" && parsed.protocol != "https:" then
        .error
          { status := 400
            error := "invalid_url_scheme"
            message := "URL은 http 또는 https scheme만 허용됩니다." }
      else
        let hostname := js.normalizeHost parsed.hostname
        if hostname.isEmpty then .error invalidUrl
        else if isRegistered hosts hostname then .ok (.url target)
        else .error (domainNotRegistered hostname)
  | .domain target =>
    let target := js.normalizeHost target
    if hosts.contains target then .ok (.domain target) else .error (domainNotRegistered target)
  | .all => .ok .all

/-- The counts in the answer of the storage service to a purge. -/
def StorageReply.purgedCounts {β : Type} : StorageReply β → ℕ × UInt64
  | .purged files freedBytes => (files, freedBytes)
  | _ => (0, 0)

/-- `DELETE /api/cache/purge`: the reply and the storage after it.  When the storage service
does not answer, nothing is known to the caller. -/
def purgeRoute {β : Type} [Blob β] (js : Runtime) (hosts : List String) (storage : CacheLayer β)
    (now : Time) (type target : Option String) (answered : Bool) :
    Except ErrorReply (ℕ × UInt64) × CacheLayer β :=
  match (parsePurgeBody type target).bind (purgeTargetOf js hosts) with
  | .error reply => (.error reply, storage)
  | .ok target =>
    if answered then
      let served := storage.serve now (.purge target)
      (.ok served.1.purgedCounts, served.2)
    else
      (.error
        { status := 502
          error := "storage_unreachable"
          message := "storage-service에 연결할 수 없습니다." }, storage)

/-- A purge answered with success had a valid target, and the storage has executed it. -/
lemma purgeRoute_ok {β : Type} [Blob β] {js : Runtime} {hosts : List String} {storage after : CacheLayer β}
    {now : Time} {type target : Option String} {answered : Bool} {counts : ℕ × UInt64}
    (h : purgeRoute js hosts storage now type target answered = (.ok counts, after)) :
    ∃ req sent, parsePurgeBody type target = .ok req ∧ purgeTargetOf js hosts req = .ok sent ∧
      after = (storage.serve now (.purge sent)).2 := by
  unfold purgeRoute at h
  cases hparse : parsePurgeBody type target with
  | error reply =>
    simp [hparse, Except.bind] at h
  | ok req =>
    cases hsent : purgeTargetOf js hosts req with
    | error reply => simp [hparse, hsent, Except.bind] at h
    | ok sent =>
      cases answered with
      | false => simp [hparse, hsent, Except.bind] at h
      | true =>
        simp only [hparse, hsent, Except.bind, if_true, Prod.mk.injEq] at h
        exact ⟨req, sent, rfl, hsent, h.2.symm⟩

/-! ## What a target denotes -/

/-- A registered host routes a host name: it is the same name, or the wildcard entry of its
parent domain. -/
def hostRoutes (registered host : String) : Prop :=
  host = registered ∨ ∃ label base, Text.splitOnce host '.' = some (label, base) ∧
    registered = "*." ++ base

/-- The requests whose URL a target denotes: host names are compared after normalisation, the
scheme does not matter. -/
def PurgeRequest.denotes (js : Runtime) (target : PurgeRequest) (req : Request) : Prop :=
  match target with
  | .url target => ∃ parsed raw, js.parseUrl target = some parsed ∧
      req.headers.getStr "host" = some raw ∧
      normalizeHost raw = js.normalizeHost parsed.hostname ∧
      req.uri.path = parsed.pathname ∧ req.uri.queryOrEmpty = parsed.query
  | .domain target => ∃ raw, req.headers.getStr "host" = some raw ∧
      hostRoutes (js.normalizeHost target) (normalizeHost raw)
  | .all => True

/-- A proxy without requests, with the given caches. -/
def idleState (now : Time) (domainMap : String → Option String) (memory : String → Option Slot)
    (storage : CacheLayer Copy) : State :=
  { State.initial 0 with
    now := now
    domainMap := domainMap
    memoryCache := memory
    storage := storage }

/-- Time passes, or the request takes a step. -/
def Alone (rid : ℕ) (_ : State) (a : Action) : Prop := (∃ d, a = .tick d) ∨ a.task = some rid

variable {cfg : Config} {s s' : State} {a : Action} {key : String}

/-! ## A GET without other traffic -/

/-- Neither level has a live entry under the key. -/
structure Absent (cfg : Config) (key : String) (s : State) : Prop where
  memory : s.memoryGet cfg key = none
  storage : ∀ x, s.storage.stored key = some x → x.isExpired s.now = true

/-- An entry of the memory cache that is live later was live before. -/
lemma memoryGet_of_later {slot : Slot} (hmem : s.memoryCache key = some slot) (hnow : s.now ≤ s'.now)
    (hlive : s'.now < slot.insertedAt + cfg.memoryCacheTtl) : s.memoryGet cfg key = some slot := by
  rw [State.memoryGet, Option.filter_eq_some_iff]
  exact ⟨hmem, decide_eq_true (lt_of_le_of_lt hnow hlive)⟩

/-- A copy that has expired stays expired. -/
lemma isExpired_mono {β : Type} {x : Stored β} {now later : Time} (hle : now ≤ later)
    (h : x.isExpired now = true) : x.isExpired later = true := by
  unfold Stored.isExpired at h ⊢
  cases hexp : x.expiresAt with
  | none =>
    rw [hexp] at h
    cases h
  | some e =>
    rw [hexp] at h
    have hlt : e < now := of_decide_eq_true h
    exact decide_eq_true (lt_of_lt_of_le hlt hle)

/-- No request is promoting a copy. -/
def NotPromoting (s : State) : Prop :=
  ∀ rid t x lookedUpAt, s.tasks rid = some t → t.phase ≠ .promoting x lookedUpAt

/-- A request alone that promotes nothing brings nothing live into the caches. -/
lemma Absent.step {rid : ℕ} (hK : Absent cfg key s) (hP : NotPromoting s) (ha : Alone rid s a)
    (h : Step cfg s a s') : Absent cfg key s' where
  memory := by
    rw [Option.eq_none_iff_forall_ne_some]
    intro slot hslot
    obtain ⟨hmem, hlive⟩ := Option.filter_eq_some_iff.mp hslot
    rcases h.memoryCache hmem with hold | ⟨r, t, x, lookedUpAt, -, ht, -, hphase, -⟩ |
      ⟨id, save, entry, rfl, -⟩
    · have hbefore := memoryGet_of_later hold h.advances.now (of_decide_eq_true hlive)
      rw [hK.memory] at hbefore
      cases hbefore
    · exact hP r t x lookedUpAt ht hphase
    · rcases ha with ⟨d, hd⟩ | htask
      · cases hd
      · cases htask
  storage := by
    intro x hx
    rcases h.stored hx with hold | ⟨url, domain, contentType, body, ttlSecs, bodyBr, cachedHeaders,
      hexec, -⟩
    · exact isExpired_mono h.advances.now (hK.storage x hold)
    · rcases executed_put hexec with ⟨id, save, entry, rfl, -⟩ | ⟨index, rfl, -⟩
      · rcases ha with ⟨d, hd⟩ | htask
        · cases hd
        · cases htask
      · rcases ha with ⟨d, hd⟩ | htask
        · cases hd
        · cases htask

/-- Nothing live is cached for the requests that are running, and no HIT was sent. -/
structure NoHit (cfg : Config) (s : State) : Prop where
  absent : ∀ rid t key, s.tasks rid = some t → t.key = some key → Absent cfg key s
  notPromoting : NotPromoting s
  answers : ∀ ans ∈ s.answers, ans.via.hit = none

/-- A request alone that has nothing cached gets no HIT. -/
theorem NoHit.step {rid : ℕ} (hN : NoHit cfg s) (ha : Alone rid s a) (h : Step cfg s a s') :
    NoHit cfg s' where
  absent := by
    intro r t' key ht' hkey
    rcases h.tasks ht' with hold | ⟨req, raw, rfl, -⟩ | ⟨t, phase, ht, rfl, -⟩
    · exact (hN.absent r t' key hold hkey).step hN.notPromoting ha h
    · rcases ha with ⟨d, hd⟩ | htask
      · cases hd
      · cases htask
    · exact (hN.absent r t key ht hkey).step hN.notPromoting ha h
  notPromoting := by
    intro r t' x lookedUpAt ht' hphase
    rcases h.tasks ht' with hold | ⟨req, raw, -, -, -, -, -, -, -, hnew⟩ | ⟨t, phase, ht, rfl, hmove⟩
    · exact hN.notPromoting r t' x lookedUpAt hold hphase
    · rw [hphase] at hnew
      split at hnew <;> cases hnew
    · obtain rfl : phase = .promoting x lookedUpAt := hphase
      obtain ⟨key, -, hkey, hstored, hfresh, -⟩ := hmove.promoting
      rw [(hN.absent r t key ht hkey).storage x hstored] at hfresh
      cases hfresh
  answers := by
    intro ans hans
    rcases h.answers with hsame | ⟨new, hnew, hreply, -⟩
    · exact hN.answers ans (hsame ▸ hans)
    · rw [hnew, List.mem_cons] at hans
      rcases hans with rfl | hold
      · cases hreply with
        | l1Hit _ ht hkey _ hslot =>
          rw [(hN.absent _ _ _ ht hkey).memory] at hslot
          cases hslot
        | l2Hit _ ht _ hphase => exact absurd hphase (hN.notPromoting _ _ _ _ ht)
        | own => rfl
        | coalesced => rfl
      · exact hN.answers ans hold

/-! ## Completeness of the route -/

/-- The target that is sent to the storage service. -/
def PurgeRequest.sent (js : Runtime) : PurgeRequest → PurgeTarget
  | .url target => .url target
  | .domain target => .domain (js.normalizeHost target)
  | .all => .all

/-- A target that passes the checks is sent. -/
lemma purgeTargetOf_ok {js : Runtime} {hosts : List String} {req : PurgeRequest} {sent : PurgeTarget}
    (h : purgeTargetOf js hosts req = .ok sent) : sent = req.sent js := by
  cases req with
  | url target =>
    simp only [purgeTargetOf] at h
    split at h
    · cases h
    · split at h
      · cases h
      · split at h
        · cases h
        · split at h <;> cases h
          rfl
  | domain target =>
    simp only [purgeTargetOf] at h
    split at h <;> cases h
    rfl
  | all =>
    cases h
    rfl

/-- The proxy has a domain entry for the host of the request. -/
def Routed (domainMap : String → Option String) (req : Request) : Prop :=
  ∃ raw origin, req.headers.getStr "host" = some raw ∧
    findOrigin domainMap (normalizeHost raw) = some origin

/-- A routed GET starts with its L1 lookup. -/
lemma arrive_routed {domainMap : String → Option String} {memory : String → Option Slot}
    {storage : CacheLayer Copy} {now : Time} {req : Request} (hreq : req.method = .get)
    (hrouted : Routed domainMap req) :
    ∃ t k, ((idleState now domainMap memory storage).arrive cfg req).tasks 0 = some t ∧
      t.key = some k ∧ requestKey cfg req = some k ∧ t.phase = .l1Lookup ∧
      ((idleState now domainMap memory storage).arrive cfg req).storageGuard = none := by
  obtain ⟨raw, origin, hraw, horigin⟩ := hrouted
  have hkey : requestKey cfg req = cacheKeyOf cfg (normalizeHost raw) req := by
    rw [requestKey, requestUrl, hraw]
    rfl
  have hsome : ∃ k, cacheKeyOf cfg (normalizeHost raw) req = some k := by
    simp [cacheKeyOf, cacheTextOf, hreq]
  obtain ⟨k, hk⟩ := hsome
  refine ⟨{ request := req, host := normalizeHost raw, key := some k, phase := .l1Lookup }, k, ?_,
    rfl, hkey.trans hk, rfl, ?_⟩
  · simp only [State.arrive, idleState, hraw, horigin, hk]
    exact tasks_setPhase_self _ 0
      { request := req, host := normalizeHost raw, key := some k, phase := .readBody } .l1Lookup
  · simp only [State.arrive, idleState, hraw, horigin]
    rfl

/-- A request that is taken up is routed. -/
lemma routed_of_arrive {domainMap : String → Option String} {memory : String → Option Slot}
    {storage : CacheLayer Copy} {now : Time} {req : Request} {rid : ℕ} {t : Task}
    (ht : ((idleState now domainMap memory storage).arrive cfg req).tasks rid = some t) :
    Routed domainMap req := by
  unfold State.arrive at ht
  simp only at ht
  split at ht
  · cases tasks_remove ht
  · rename_i raw hraw
    split at ht
    · cases tasks_remove ht
    · rename_i origin horigin
      exact ⟨raw, origin, hraw, horigin⟩

/-- After an arrival nothing live is cached for the request if that was so before. -/
lemma noHit_arrive {domainMap : String → Option String} {memory : String → Option Slot}
    {storage : CacheLayer Copy} {now : Time} {req : Request}
    (h : ∀ k, Routed domainMap req → requestKey cfg req = some k →
      Absent cfg k (idleState now domainMap memory storage)) :
    NoHit cfg ((idleState now domainMap memory storage).arrive cfg req) := by
  have hstep : Step cfg (idleState now domainMap memory storage) (.arrive req)
      ((idleState now domainMap memory storage).arrive cfg req) := Step.arrive
  have hsame := sameCaches_arrive cfg (idleState now domainMap memory storage) req
  have hnow := (counters_arrive cfg (idleState now domainMap memory storage) req).2.1
  refine ⟨?_, ?_, ?_⟩
  · intro rid t k ht hk
    have hrouted := routed_of_arrive ht
    rcases hstep.tasks ht with hold | ⟨req', raw, hreq, -, -, -, hraw, -, hkey, -⟩ | ⟨t₀, -, ht₀, -⟩
    · cases hold
    · cases hreq
      have hkey' : requestKey cfg req = some k := by
        rw [requestKey, requestUrl, hraw]
        exact hkey.symm.trans hk
      obtain ⟨hmemory, hstorage⟩ := h k hrouted hkey'
      refine ⟨?_, ?_⟩
      · rw [State.memoryGet, hsame.memoryCache, hnow]
        exact hmemory
      · rw [hsame.storage, hnow]
        exact hstorage
    · cases ht₀
  · intro rid t x lookedUpAt ht hphase
    rcases hstep.tasks ht with hold | ⟨req', raw, -, -, -, -, -, -, -, hnew⟩ | ⟨t₀, -, ht₀, -⟩
    · cases hold
    · rw [hphase] at hnew
      split at hnew <;> cases hnew
    · cases ht₀
  · intro ans hans
    rcases hstep.answers with hold | ⟨new, hnew, hreply, -⟩
    · rw [hold] at hans
      cases hans
    · rw [hnew, List.mem_cons] at hans
      rcases hans with rfl | hold
      · cases hreply with
        | own => rfl
        | l1Hit ha => cases ha
        | l2Hit ha => cases ha
        | coalesced => rfl
      · cases hold

/-- After a purge answered with success, the next GET of a URL that the target denotes is no
HIT, whatever the URL, exactly when before the purge the memory cache had no live entry for
any such URL and the storage had recorded each live entry for one under the string that was
sent to it. -/
theorem purge_complete_iff (cfg : Config) (js : Runtime) (hosts : List String) (now : Time)
    (domainMap : String → Option String) (memory : String → Option Slot)
    (storage after : CacheLayer Copy) (type target : Option String) (answered : Bool)
    (counts : ℕ × UInt64) (req : PurgeRequest) (hreq : parsePurgeBody type target = .ok req)
    (h : purgeRoute js hosts storage now type target answered = (.ok counts, after)) :
    (∀ r, r.method = .get → req.denotes js r → ∀ as t,
      Trace (step cfg) (Alone 0) ((idleState now domainMap memory after).arrive cfg r) as t →
      ∀ ans ∈ t.answers, ans.via.hit = none) ↔
    ∀ r k, r.method = .get → req.denotes js r → Routed domainMap r → requestKey cfg r = some k →
      (idleState now domainMap memory storage).memoryGet cfg k = none ∧
      ∀ x, storage.stored k = some x → x.isExpired now = false → (req.sent js).removes x = true := by
  obtain ⟨req', sent, hparse, hsent, rfl⟩ := purgeRoute_ok h
  obtain rfl : req = req' := Except.ok.inj (hreq.symm.trans hparse)
  obtain rfl := purgeTargetOf_ok hsent
  have hstored := fun k => CacheLayer.stored_serve_purge storage now (req.sent js) k
  generalize (storage.serve now (.purge (req.sent js))).2 = after at hstored ⊢
  constructor
  · intro hcomplete r k hget hdenotes hrouted hkey
    obtain ⟨t, k', ht, htk, hk', hphase, hguard⟩ : ∃ t k',
        ((idleState now domainMap memory after).arrive cfg r).tasks 0 = some t ∧
        t.key = some k' ∧ requestKey cfg r = some k' ∧ t.phase = .l1Lookup ∧
        ((idleState now domainMap memory after).arrive cfg r).storageGuard = none :=
      arrive_routed hget hrouted
    obtain rfl : k' = k := Option.some.inj (hk'.symm.trans hkey)
    have hsame := sameCaches_arrive cfg (idleState now domainMap memory after) r
    have hnow := (counters_arrive cfg (idleState now domainMap memory after) r).2.1
    have hmemory : ((idleState now domainMap memory after).arrive cfg r).memoryGet cfg k' =
        (idleState now domainMap memory storage).memoryGet cfg k' := by
      rw [State.memoryGet, hsame.memoryCache, hnow]
      rfl
    have habsent : (idleState now domainMap memory storage).memoryGet cfg k' = none := by
      rw [Option.eq_none_iff_forall_ne_some]
      intro slot hslot
      obtain ⟨as, u, hrun, ans, hans, -, hhit⟩ :=
        l1_hit_run (C := Alone 0) ht htk hphase (hmemory.trans hslot) (Or.inr rfl)
      exact Option.isSome_iff_ne_none.mp hhit (hcomplete r hget hdenotes as u hrun ans hans)
    refine ⟨habsent, fun x hx hfresh => ?_⟩
    by_contra hkept
    have hx' : after.stored k' = some x := by
      rw [hstored, Option.filter_eq_some_iff]
      exact ⟨hx, by simpa using hkept⟩
    obtain ⟨as, u, hrun, ans, hans, -, hhit⟩ := l2_hit_run (C := Alone 0) ht htk hphase hguard
      (hmemory.trans habsent) ((congrArg (·.stored k') hsame.storage).trans hx')
      ((congrArg x.isExpired hnow).trans hfresh) (Or.inr rfl) (fun _ _ _ _ _ _ => Or.inr rfl)
      fun _ _ => Or.inr rfl
    exact Option.isSome_iff_ne_none.mp hhit (hcomplete r hget hdenotes as u hrun ans hans)
  · intro hstate r hget hdenotes as t ht
    have hstart : NoHit cfg ((idleState now domainMap memory after).arrive cfg r) := by
      refine noHit_arrive fun k hrouted hkey => ?_
      obtain ⟨hmemory, hremoved⟩ := hstate r k hget hdenotes hrouted hkey
      refine ⟨hmemory, fun x hx => ?_⟩
      by_contra hfresh
      have hx' : after.stored k = some x := hx
      rw [hstored k, Option.filter_eq_some_iff] at hx'
      rw [hremoved x hx'.1 (eq_false_of_ne_true hfresh)] at hx'
      cases hx'.2
    exact (ht.invariant (fun _ _ _ hN hC hst => hN.step hC (step_cases hst)) hstart).answers

/-! ## Sample purges -/

/-- A runtime for the sample deployment. -/
def sampleRuntime : Runtime :=
  { trim := Text.trim
    toLowerCase := Text.lower
    parseUrl := fun url =>
      if url = "http://a.test/logo.png" then
        some { protocol := "http:", hostname := "a.test", pathname := "/logo.png", query := "" }
      else none }

/-- The storage after a purge that was answered with success. -/
def purgedStorage : Except ErrorReply (ℕ × UInt64) × CacheLayer Copy → Option (CacheLayer Copy)
  | (.ok _, after) => some after
  | (.error _, _) => none

/-- Then the reply was a success. -/
lemma ok_of_purgedStorage {reply : Except ErrorReply (ℕ × UInt64) × CacheLayer Copy}
    {after : CacheLayer Copy} (h : purgedStorage reply = some after) :
    ∃ counts, reply = (.ok counts, after) := by
  obtain ⟨result, storage⟩ := reply
  cases result with
  | error e => cases h
  | ok counts =>
    obtain rfl := Option.some.inj h
    exact ⟨counts, rfl⟩

/-- After a purge of everything the image is still served from the memory cache; after a
purge of its URL with the scheme `http` it is still served from the storage. -/
theorem purged_logo_served :
    ∃ t, Reaches (step sampleConfig) (State.initial 1000000) t ∧
      (∃ counts after u,
        purgeRoute sampleRuntime ["a.test"] t.storage t.now (some "all") none true =
          (.ok counts, after) ∧
        Trace (step sampleConfig) (Alone 0)
          ((idleState t.now t.domainMap t.memoryCache after).arrive sampleConfig
            (sampleRequest .get "/logo.png" [])) [.l1Get 0] u ∧
        ∃ ans ∈ u.answers, ans.via.hit ≠ none) ∧
      ∃ counts after u,
        purgeRoute sampleRuntime ["a.test"] t.storage t.now (some "url")
          (some "http://a.test/logo.png") true = (.ok counts, after) ∧
        Trace (step sampleConfig) (Alone 0)
          ((idleState t.now t.domainMap (fun _ => none) after).arrive sampleConfig
            (sampleRequest .get "/logo.png" [])) [.l1Get 0, .l2Get 0 true, .promote 0] u ∧
        ∃ ans ∈ u.answers, ans.via.hit ≠ none := by
  have hrun : ((run (step sampleConfig) sampleStart logoActions).any fun t =>
      ((purgedStorage
          (purgeRoute sampleRuntime ["a.test"] t.storage t.now (some "all") none true)).any
        fun after => (checkedRun (step sampleConfig) (fun _ a => decide (a.task = some 0))
          ((idleState t.now t.domainMap t.memoryCache after).arrive sampleConfig
            (sampleRequest .get "/logo.png" [])) [.l1Get 0]).any fun u =>
              u.answers.any fun ans => decide (ans.via.hit ≠ none)) &&
      (purgedStorage (purgeRoute sampleRuntime ["a.test"] t.storage t.now (some "url")
          (some "http://a.test/logo.png") true)).any
        fun after => (checkedRun (step sampleConfig) (fun _ a => decide (a.task = some 0))
          ((idleState t.now t.domainMap (fun _ => none) after).arrive sampleConfig
            (sampleRequest .get "/logo.png" [])) [.l1Get 0, .l2Get 0 true, .promote 0]).any fun u =>
              u.answers.any fun ans => decide (ans.via.hit ≠ none)) = true := by
    decide +kernel
  obtain ⟨t, ht, hboth⟩ := exists_trace_of_run hrun
  rw [Bool.and_eq_true] at hboth
  -- either check is a purge answered with success and a run of the GET alone
  have hserved : ∀ {reply memory as}, ((purgedStorage reply).any fun after =>
      (checkedRun (step sampleConfig) (fun _ a => decide (a.task = some 0))
        ((idleState t.now t.domainMap memory after).arrive sampleConfig
          (sampleRequest .get "/logo.png" [])) as).any fun u =>
            u.answers.any fun ans => decide (ans.via.hit ≠ none)) = true →
      ∃ counts after u, reply = (.ok counts, after) ∧
        Trace (step sampleConfig) (Alone 0) ((idleState t.now t.domainMap memory after).arrive
          sampleConfig (sampleRequest .get "/logo.png" [])) as u ∧
        ∃ ans ∈ u.answers, ans.via.hit ≠ none := by
    intro reply memory as hcheck
    obtain ⟨after, hafter, hcheck⟩ := (Option.any_eq_true _ _).mp hcheck
    obtain ⟨counts, hreply⟩ := ok_of_purgedStorage hafter
    obtain ⟨u, hu, hany⟩ := exists_trace_of_checkedRun (I := fun _ => True) (C := Alone 0)
      (fun _ _ _ _ _ => trivial) (fun _ _ _ hc => Or.inr (of_decide_eq_true hc)) trivial hcheck
    simp only [List.any_eq_true, decide_eq_true_eq] at hany
    exact ⟨counts, after, u, hreply, hu, hany⟩
  exact ⟨t, ht.reaches, hserved hboth.1, hserved hboth.2⟩

/-- Once the image has left the memory cache, a purge of everything is complete. -/
theorem purge_complete_without_memory :
    ∃ t after, Reaches (step sampleConfig) (State.initial 1000000) t ∧
      (t.storage.stored "GET:a.test/logo.png?").isSome = true ∧
      ∀ r, r.method = .get → ∀ as u, Trace (step sampleConfig) (Alone 0)
        ((idleState t.now t.domainMap (fun _ => none) after).arrive sampleConfig r) as u →
        ∀ ans ∈ u.answers, ans.via.hit = none := by
  have hrun : ((run (step sampleConfig) sampleStart logoActions).any fun t =>
      (t.storage.stored "GET:a.test/logo.png?").isSome && (purgedStorage
        (purgeRoute sampleRuntime ["a.test"] t.storage t.now (some "all") none true)).isSome) =
      true := by
    decide +kernel
  obtain ⟨t, ht, hcheck⟩ := exists_trace_of_run hrun
  simp only [Bool.and_eq_true, Option.isSome_iff_exists (x := purgedStorage _)] at hcheck
  obtain ⟨hstored, after, hafter⟩ := hcheck
  obtain ⟨counts, hreply⟩ := ok_of_purgedStorage hafter
  have hcomplete := (purge_complete_iff sampleConfig sampleRuntime ["a.test"] t.now t.domainMap
    (fun _ => none) t.storage after (some "all") none true counts .all rfl hreply).mpr
    fun _ _ _ _ _ _ => ⟨rfl, fun _ _ _ => rfl⟩
  exact ⟨t, after, ht.reaches, hstored, fun r hget => hcomplete r hget trivial⟩

end SmartSchoolCdn
