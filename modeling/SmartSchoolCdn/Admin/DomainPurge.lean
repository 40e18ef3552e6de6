import SmartSchoolCdn.Admin.CachePurge
import SmartSchoolCdn.Admin.DomainRoutes
import SmartSchoolCdn.Proxy.Labels

/-!
# The purge of a domain

`POST /api/domains/:host/purge` checks that the domain is registered and calls the proxy, which
clears the memory cache and asks the storage for the copies recorded under the name of the
domain.  A copy is recorded under the host of its request, and a request is routed through an
exact entry or through the wildcard entry of its parent domain.  So the purge covers an exact
domain, while the copies of the hosts that a wildcard entry routes stay
(`domain_purge_covers_iff`); and it is a success whether or not the storage has answered.
-/

namespace SmartSchoolCdn

open Traces

variable {cfg : Config} {s t : State} {d host : String} {domainMap : String → Option String}

/-! ## Routing -/

/-- The entry of the domain map through which the lookup of `proxy_handler` routes a host. -/
def routingEntry (domainMap : String → Option String) (host : String) : Option String :=
  if (domainMap host).isSome then some host
  else
    ((Text.splitOnce host '.').map fun parts => "*." ++ parts.2).filter fun wildcard =>
      (domainMap wildcard).isSome

/-- The origin of a host is that of its entry. -/
theorem findOrigin_eq (domainMap : String → Option String) (host : String) :
    findOrigin domainMap host = (routingEntry domainMap host).bind domainMap := by
  unfold findOrigin routingEntry
  cases hexact : domainMap host with
  | some origin => simp [hexact]
  | none =>
    cases hsplit : Text.splitOnce host '.' with
    | none => simp
    | some parts =>
      cases hwild : domainMap ("*." ++ parts.2) with
      | none => simp [hwild, Option.filter]
      | some origin => simp [hwild, Option.filter]

/-- A host that is not the name of its entry is routed through a wildcard. -/
lemma isWildcard_of_routingEntry (h : routingEntry domainMap host = some d) (hne : host ≠ d) :
    Text.startsWith d "*." = true := by
  unfold routingEntry at h
  split at h
  · exact absurd (Option.some.inj h) hne
  · rw [Option.filter_eq_some_iff, Option.map_eq_some_iff] at h
    obtain ⟨⟨parts, -, rfl⟩, -⟩ := h
    simp [Text.startsWith]

/-! ## The route -/

/-- The reply when the call of the proxy has failed. -/
def proxyPurgeFailed : ErrorReply :=
  { status := 502, error := "proxy_purge_failed", message := "Proxy 캐시 퍼지 실패" }

/-- The checks of the route, and the call it makes. -/
def domainPurgeCall (js : Runtime) (hosts : List String) (param : String) :
    Except ErrorReply PurgeCall :=
  let host := js.normalizeHost param
  if hosts.contains host then .ok (.domain host) else .error Admin.domainNotFound

/-- `domain_purge_handler` on a proxy without other traffic. -/
def domainPurgeHandler (cfg : Config) (s : State) (call : PurgeCall) (answered : Bool) : State :=
  (s.purgeBegin cfg call).purgeFinish s.nextId call answered

/-- `POST /api/domains/:host/purge`: the reply, and the proxy after it.  `delivered` says that
the answer of the proxy arrives in time, `answered` that the storage service answers the
proxy. -/
def domainPurgeRoute (cfg : Config) (js : Runtime) (hosts : List String) (s : State)
    (param : String) (delivered answered : Bool) : Except ErrorReply Unit × State :=
  match domainPurgeCall js hosts param with
  | .error reply => (.error reply, s)
  | .ok call =>
    if delivered then (.ok (), domainPurgeHandler cfg s call answered)
    else (.error proxyPurgeFailed, s)

/-- A success was a call for the normalised name of a registered domain. -/
lemma domainPurgeRoute_ok {js : Runtime} {hosts : List String} {param : String}
    {delivered answered : Bool}
    (h : domainPurgeRoute cfg js hosts s param delivered answered = (.ok (), t)) :
    t = domainPurgeHandler cfg s (.domain (js.normalizeHost param)) answered := by
  unfold domainPurgeRoute domainPurgeCall at h
  simp only at h
  split at h
  · cases h
  · rename_i call hcall
    split at hcall
    · obtain rfl := Except.ok.inj hcall
      split at h
      · exact (Prod.mk.inj h).2.symm
      · cases h
    · cases hcall

/-- What the proxy holds after the purge: the memory cache is empty, and the storage has lost
the copies recorded under the name if it answered. -/
lemma domainPurgeHandler_caches (cfg : Config) (s : State) (d : String) (answered : Bool) :
    (∀ k, (domainPurgeHandler cfg s (.domain d) answered).memoryCache k = none) ∧
      (domainPurgeHandler cfg s (.domain d) answered).storage =
        if answered then (s.storage.purgeDomain d).2.2 else s.storage := by
  cases answered with
  | true => exact ⟨fun _ => rfl, rfl⟩
  | false => exact ⟨fun _ => rfl, rfl⟩

/-! ## What the purge covers -/

/-- The caches hold nothing for the hosts that are routed through a domain. -/
structure DomainPurged (domainMap : String → Option String) (d : String) (t : State) : Prop where
  memory : ∀ k slot, t.memoryCache k = some slot →
    routingEntry domainMap slot.entry.body.source.host ≠ some d
  storage : ∀ k x, t.storage.stored k = some x →
    routingEntry domainMap x.body.source.host ≠ some d

/-- Every stored copy whose host is routed through the domain was saved for the very name of
the domain, and the storage answers the purge if there is such a copy. -/
def PurgeCovers (s : State) (d : String) (answered : Bool) : Prop :=
  ∀ k x, s.storage.stored k = some x → routingEntry s.domainMap x.body.source.host = some d →
    answered = true ∧ x.body.source.host = d

/-- After a purge of a registered domain that is answered with success, and without other
traffic, the caches hold nothing for the hosts that the lookup routes through the domain
exactly when the storage answered and holds no copy of a host that is routed through it as a
wildcard. -/
theorem domain_purge_covers_iff (cfg : Config) (maxSizeBytes : UInt64) (js : Runtime)
    (hosts : List String) (s t : State) (param : String) (delivered answered : Bool)
    (hs : Reaches (step cfg) (State.initial maxSizeBytes) s)
    (hok : domainPurgeRoute cfg js hosts s param delivered answered = (.ok (), t)) :
    DomainPurged s.domainMap (js.normalizeHost param) t ↔
      PurgeCovers s (js.normalizeHost param) answered := by
  obtain rfl := domainPurgeRoute_ok hok
  obtain ⟨hmemory, hstorage⟩ := domainPurgeHandler_caches cfg s (js.normalizeHost param) answered
  have hdomain : ∀ k x, s.storage.stored k = some x → x.domain = x.body.source.host :=
    fun k x hx => ((labels_of_reaches hs).stored k x hx).1.domain
  constructor
  · intro h k x hx hrouted
    -- a copy that is routed through the domain and stays contradicts the conclusion
    have hgone : ∀ y, (domainPurgeHandler cfg s (.domain (js.normalizeHost param)) answered).storage.stored
        k = some y → y ≠ x := by
      rintro y hy rfl
      exact h.storage k y hy hrouted
    cases answered with
    | false =>
      rw [hstorage] at hgone
      exact absurd rfl (hgone x hx)
    | true =>
      refine ⟨rfl, ?_⟩
      by_contra hne
      rw [hstorage, if_pos rfl, CacheLayer.stored_purgeDomain, hx] at hgone
      refine hgone x ?_ rfl
      simp [Option.filter, hdomain k x hx, hne]
  · intro h
    refine ⟨fun k slot hslot => ?_, fun k x hx hrouted => ?_⟩
    · rw [hmemory k] at hslot
      cases hslot
    · rw [hstorage] at hx
      cases answered with
      | false => exact Bool.noConfusion (h k x hx hrouted).1
      | true =>
        rw [if_pos rfl, CacheLayer.stored_purgeDomain, Option.filter_eq_some_iff] at hx
        have hhost := (h k x hx.1 hrouted).2
        simp [hdomain k x hx.1, hhost] at hx

/-- A purge of an exact domain that the storage answers covers it. -/
theorem purgeCovers_of_exact (hexact : Text.startsWith d "*." = false) : PurgeCovers s d true := by
  intro k x _ hrouted
  refine ⟨rfl, ?_⟩
  by_contra hne
  rw [isWildcard_of_routingEntry hrouted hne] at hexact
  cases hexact

/-! ## Sample purges -/

/-- One registered wildcard domain. -/
def wildcardDomains : Action :=
  .setDomainMap fun host => if host = "*.test" then some "http://origin" else none

/-- The image is requested and saved under the wildcard domain. -/
def wildcardLogoActions : List Action := wildcardDomains :: logoActions.tail

/-- The purge of the wildcard domain is a success, and the copy of its host stays. -/
theorem wildcard_logo_survives :
    ∃ s t, Reaches (step sampleConfig) (State.initial 1000000) s ∧
      domainPurgeRoute sampleConfig sampleRuntime ["*.test"] s "*.test" true true = (.ok (), t) ∧
      ¬ DomainPurged s.domainMap "*.test" t := by
  have hrun : ((run (step sampleConfig) sampleStart wildcardLogoActions).any fun s =>
      ((domainPurgeHandler sampleConfig s (.domain "*.test") true).storage.stored
        "GET:a.test/logo.png?").any fun x =>
          decide (routingEntry s.domainMap x.body.source.host = some "*.test")) = true := by
    decide +kernel
  obtain ⟨s, hs, hcheck⟩ := exists_trace_of_run hrun
  obtain ⟨x, hx, hrouted⟩ := (Option.any_eq_true _ _).mp hcheck
  exact ⟨s, _, hs.reaches, rfl, fun h => h.storage _ x hx (of_decide_eq_true hrouted)⟩

/-- The purge of the exact domain of the image removes its copy. -/
theorem exact_logo_purged :
    ∃ s t, Reaches (step sampleConfig) (State.initial 1000000) s ∧
      (s.storage.stored "GET:a.test/logo.png?").isSome = true ∧
      domainPurgeRoute sampleConfig sampleRuntime ["a.test"] s "A.test" true true = (.ok (), t) ∧
      DomainPurged s.domainMap "a.test" t := by
  have hrun : ((run (step sampleConfig) sampleStart logoActions).any fun s =>
      (s.storage.stored "GET:a.test/logo.png?").isSome) = true := by
    decide +kernel
  obtain ⟨s, hs, hstored⟩ := exists_trace_of_run hrun
  have hiff := domain_purge_covers_iff sampleConfig 1000000 sampleRuntime ["a.test"] s _ "A.test"
    true true hs.reaches rfl
  exact ⟨s, _, hs.reaches, hstored, rfl, hiff.mpr (purgeCovers_of_exact (by decide))⟩

end SmartSchoolCdn
