import SmartSchoolCdn.Admin.DomainRoutes
import SmartSchoolCdn.Foundation.Trace
import SmartSchoolCdn.Proxy.Sni

/-!
# Certificates for the domain map

The proxy fills its domain map in two ways: from a snapshot of the admin server when it starts,
and from every `POST /domains`.  Only the second fetches certificates, after the map was
written and one handler at a time.  A certificate that was fetched stays in the cache until the
next `POST /domains`, whether or not it has expired by then.

`ready_iff`: in every state without a running update, every exact host of the map has a valid
certificate exactly when a `POST /domains` has arrived or the snapshot had no exact host, as
long as no passage of time outlives a certificate that nothing is about to replace.
-/

namespace SmartSchoolCdn.CertReadiness

open Admin Tls Traces

/-! ## The system -/

/-- An entry of the snapshot. -/
structure SnapshotEntry where
  host : String
  origin : String
  enabled : Bool
  deriving DecidableEq, Repr

/-- The domain map that `main` makes of the snapshot. -/
def snapshotMap (entries : List SnapshotEntry) : String → Option String :=
  (entries.filter SnapshotEntry.enabled).foldl (fun map e => Function.update map e.host (some e.origin))
    fun _ => none

/-- Where a handler of `POST /domains` is: the maps are written and it waits for the lock of the
TLS client, it fetches the certificates of the hosts that are left, or it is done. -/
inductive UpdatePhase
  | waiting (hosts : List String)
  | fetching (hosts : List String)
  | done
  deriving DecidableEq, Repr

/-- The hosts for which a handler has still to fetch a certificate. -/
def UpdatePhase.pending : UpdatePhase → List String
  | .waiting hosts => hosts
  | .fetching hosts => hosts
  | .done => []

/-- Whether a handler has the lock of the TLS client. -/
def UpdatePhase.isFetching : UpdatePhase → Bool
  | .fetching _ => true
  | _ => false

/-- The proxy with its handlers of `POST /domains`, and tls-service. -/
structure State where
  now : ℕ
  domainMap : String → Option String
  certCache : Sni.CertCache
  tls : TlsManager
  updates : List UpdatePhase

/-- The proxy after its start. -/
def State.start (entries : List SnapshotEntry) (now : ℕ) (tls : TlsManager) : State where
  now := now
  domainMap := snapshotMap entries
  certCache _ := none
  tls := tls
  updates := []

/-- What happens next; `tlsSync` is a sync of tls-service by the admin server. -/
inductive Action
  | tick (seconds : ℕ)
  | post (domains : List DomainEntry)
  | lock (i : ℕ)
  | fetch (i : ℕ)
  | finish (i : ℕ)
  | tlsSync (domains : List (String × String))
  deriving DecidableEq, Repr

/-- Execute an action. -/
def step (issues : String → Bool) (s : State) : Action → Option State
  | .tick seconds => some { s with now := s.now + seconds }
  | .post domains =>
    some
      { s with
        domainMap := updateDomainsHandler domains
        updates := s.updates ++ [.waiting (domains.map DomainEntry.host)] }
  | .lock i =>
    match s.updates[i]? with
    | some (.waiting hosts) =>
      if s.updates.any UpdatePhase.isFetching then none
      else some { s with updates := s.updates.set i (.fetching hosts) }
    | _ => none
  | .fetch i =>
    match s.updates[i]? with
    | some (.fetching (host :: hosts)) =>
      let p := Sni.prefetchCert issues s.now host s.tls s.certCache
      some { s with tls := p.1, certCache := p.2, updates := s.updates.set i (.fetching hosts) }
    | _ => none
  | .finish i =>
    match s.updates[i]? with
    | some (.fetching []) => some { s with updates := s.updates.set i .done }
    | _ => none
  | .tlsSync domains => some { s with tls := s.tls.syncDomains issues s.now domains }

/-! ## Readiness -/

/-- A host that is no wildcard. -/
def isExact (host : String) : Bool := !Text.startsWith host "*."

/-- No domain update is in progress. -/
def State.Quiet (s : State) : Prop := ∀ u ∈ s.updates, u = .done

/-- A certificate for the host that is valid at a time. -/
def State.Valid (s : State) (now : ℕ) (host : String) : Prop :=
  ∃ c, s.certCache host = some c ∧ now < c.expiresAt

/-- Every exact host of the map has a valid certificate. -/
def State.Ready (s : State) : Prop :=
  ∀ host, isExact host = true → (s.domainMap host).isSome = true → s.Valid s.now host

/-- A running update is going to fetch a certificate for the host. -/
def State.Pending (s : State) (host : String) : Prop := ∃ u ∈ s.updates, host ∈ u.pending

/-- Time does not outlive a certificate of an exact host of the map that no running update is
going to fetch again. -/
def Lasting (s : State) : Action → Prop
  | .tick seconds => ∀ host c, isExact host = true → (s.domainMap host).isSome = true →
      ¬ s.Pending host → s.certCache host = some c → s.now + seconds < c.expiresAt
  | _ => True

/-- Every exact host of the map has a valid certificate or is about to get one. -/
def State.Covered (s : State) : Prop :=
  ∀ host, isExact host = true → (s.domainMap host).isSome = true → s.Pending host ∨ s.Valid s.now host

variable {issues : String → Bool} {s s' : State} {host : String}

/-- Without a running update nothing is pending. -/
lemma State.Quiet.not_pending (h : s.Quiet) : ¬ s.Pending host := by
  rintro ⟨u, hu, hhost⟩
  rw [h u hu] at hhost
  exact List.not_mem_nil hhost

/-- A handler moves on; the hosts it had pending and has no longer are excepted. -/
lemma Pending.set {i : ℕ} {u u' : UpdatePhase} (hu : s.updates[i]? = some u)
    (hupdates : s'.updates = s.updates.set i u') (h : s.Pending host)
    (hpending : host ∈ u.pending → host ∈ u'.pending) : s'.Pending host := by
  obtain ⟨v, hv, hhost⟩ := h
  obtain ⟨j, hj⟩ := List.getElem?_of_mem hv
  have hlt := (List.getElem?_eq_some_iff.mp hu).choose
  by_cases hij : i = j
  · subst hij
    rw [hu] at hj
    obtain rfl := Option.some.inj hj
    refine ⟨u', ?_, hpending hhost⟩
    rw [hupdates]
    exact List.mem_of_getElem? (List.getElem?_set_self hlt)
  · refine ⟨v, ?_, hhost⟩
    rw [hupdates]
    exact List.mem_of_getElem? ((List.getElem?_set_ne hij).trans hj)

/-- The map of an update has hosts of the update only. -/
lemma mem_of_updateDomainsHandler {domains : List DomainEntry}
    (h : (updateDomainsHandler domains host).isSome = true) : host ∈ domains.map DomainEntry.host := by
  obtain ⟨e, he, -, rfl⟩ := isSome_updateDomainsHandler.mp h
  exact List.mem_map_of_mem he

/-- A `POST /domains` leaves every host of the map with a certificate to come. -/
lemma covered_of_post {domains : List DomainEntry} (h : step issues s (.post domains) = some s') :
    s'.Covered := by
  obtain rfl := Option.some.inj h
  intro host _ hmap
  refine .inl ⟨.waiting (domains.map DomainEntry.host), ?_, mem_of_updateDomainsHandler hmap⟩
  exact List.mem_append_right _ List.mem_cons_self

/-- Every step keeps the hosts of the map covered. -/
lemma State.Covered.step {a : Action} (h : s.Covered) (hissues : ∀ host, issues host = true)
    (ha : Lasting s a) (hst : step issues s a = some s') : s'.Covered := by
  cases a with
  | tick seconds =>
    obtain rfl := Option.some.inj hst
    intro host hexact hmap
    rcases h host hexact hmap with hpending | ⟨c, hc, -⟩
    · exact .inl hpending
    · by_cases hpending : s.Pending host
      · exact .inl hpending
      · exact .inr ⟨c, hc, ha host c hexact hmap hpending hc⟩
  | post domains => exact covered_of_post hst
  | lock i =>
    simp only [CertReadiness.step] at hst
    split at hst
    · rename_i hosts hu
      split at hst
      · cases hst
      · obtain rfl := Option.some.inj hst
        intro host hexact hmap
        rcases h host hexact hmap with hpending | hvalid
        · exact .inl (Pending.set hu rfl hpending id)
        · exact .inr hvalid
    · cases hst
  | fetch i =>
    simp only [CertReadiness.step] at hst
    split at hst
    · rename_i next hosts hu
      obtain rfl := Option.some.inj hst
      intro host hexact hmap
      by_cases hnext : host = next
      · subst hnext
        exact .inr (Sni.prefetchCert_self _ _ _ (hissues host))
      · rcases h host hexact hmap with hpending | ⟨c, hc, hvalid⟩
        · refine .inl (Pending.set hu rfl hpending fun hmem => ?_)
          exact (List.mem_cons.mp hmem).resolve_left hnext
        · refine .inr ⟨c, ?_, hvalid⟩
          exact (Sni.prefetchCert_ne hnext).trans hc
    · cases hst
  | finish i =>
    simp only [CertReadiness.step] at hst
    split at hst
    · rename_i hu
      obtain rfl := Option.some.inj hst
      intro host hexact hmap
      rcases h host hexact hmap with hpending | hvalid
      · exact .inl (Pending.set hu rfl hpending id)
      · exact .inr hvalid
    · cases hst
  | tlsSync domains =>
    obtain rfl := Option.some.inj hst
    exact h

/-! ## Runs -/

/-- Before the first `POST /domains` the proxy has the map of its snapshot and no certificate. -/
structure Untouched (entries : List SnapshotEntry) (s : State) : Prop where
  map : s.domainMap = snapshotMap entries
  cache : ∀ host, s.certCache host = none
  updates : s.updates = []

lemma Untouched.step {entries : List SnapshotEntry} {a : Action} (h : Untouched entries s)
    (ha : ∀ domains, a ≠ .post domains) (hst : step issues s a = some s') : Untouched entries s' := by
  have hnone : ∀ i : ℕ, s.updates[i]? = none := by
    intro i
    rw [h.updates]
    exact List.getElem?_nil
  cases a with
  | tick seconds =>
    obtain rfl := Option.some.inj hst
    exact ⟨h.map, h.cache, h.updates⟩
  | post domains => exact absurd rfl (ha domains)
  | lock i =>
    simp only [CertReadiness.step, hnone] at hst
    cases hst
  | fetch i =>
    simp only [CertReadiness.step, hnone] at hst
    cases hst
  | finish i =>
    simp only [CertReadiness.step, hnone] at hst
    cases hst
  | tlsSync domains =>
    obtain rfl := Option.some.inj hst
    exact ⟨h.map, h.cache, h.updates⟩

lemma untouched_of_run {entries : List SnapshotEntry} {as : List Action} {t : State}
    (hrun : Trace (step issues) Lasting s as t) (hpost : ¬ ∃ domains, .post domains ∈ as)
    (h : Untouched entries s) : Untouched entries t := by
  induction hrun with
  | nil s => exact h
  | cons _ hst _ ih =>
    refine ih ?_ (h.step (fun domains heq => hpost ⟨domains, heq ▸ List.mem_cons_self⟩) hst)
    rintro ⟨domains, hmem⟩
    exact hpost ⟨domains, List.mem_cons_of_mem _ hmem⟩

/-- A run with a `POST /domains` covers the hosts of the map in the end. -/
lemma covered_of_run {as : List Action} {t : State} (hissues : ∀ host, issues host = true)
    (hrun : Trace (step issues) Lasting s as t) (h : s.Covered ∨ ∃ domains, .post domains ∈ as) :
    t.Covered := by
  induction hrun with
  | nil s => exact h.resolve_right (by simp)
  | cons ha hst _ ih =>
    rename_i s s' a as _
    refine ih ?_
    rcases h with hcovered | ⟨domains, hmem⟩
    · exact .inl (hcovered.step hissues ha hst)
    · rcases List.mem_cons.mp hmem with rfl | hlater
      · exact .inl (covered_of_post hst)
      · exact .inr ⟨domains, hlater⟩

/-- A snapshot with one domain, for runs. -/
def sampleSnapshot : List SnapshotEntry :=
  [{ host := "school.example", origin := "https://school.example", enabled := true }]

/-- A `POST /domains` with the domain of the snapshot. -/
def samplePost : List DomainEntry :=
  [{ host := "school.example", origin := "https://school.example", staleIfErrorSecs := none
     coalesceCapacity := none }]

end SmartSchoolCdn.CertReadiness
