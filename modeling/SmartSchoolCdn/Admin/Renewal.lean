import SmartSchoolCdn.Admin.DomainRoutes
import SmartSchoolCdn.Services.Tls

/-!
# The renewal of a certificate

`POST /api/tls/renew/:host` checks that the host is a domain and asks tls-service to sync a list
with that host alone.  A sync drops every certificate that is not on its list, and hands out the
certificate on the list from the cache while it has not expired.  So the certificates of the other
domains are gone after it, and that of the host is a new one only if there was none that is valid
(`renew_frame_iff`).
-/

namespace SmartSchoolCdn.Tls

open Admin (domainNotFound)

/-- The reply when the call of tls-service has failed; `detail` repeats the error. -/
def tlsRenewFailed : ErrorReply :=
  { status := 502, error := "tls_renew_failed", message := "TLS 갱신 실패" }

/-- What becomes of the call of tls-service; one that fails for the caller may have been executed. -/
inductive Outcome
  | answered
  | failed (executed : Bool)
  deriving DecidableEq, Repr

/-- `POST /api/tls/renew/:host`: the reply with the host, and the certificates after it.  `hosts`
are the domains of the database, and `param` is the decoded parameter.  What the answer says about
certificates that were not issued is not looked at. -/
def renewRoute (js : Runtime) (issues : String → Bool) (now : ℕ) (hosts : List String)
    (m : TlsManager) (param : String) (outcome : Outcome) : Except ErrorReply String × TlsManager :=
  let host := js.normalizeHost param
  if hosts.contains host then
    let synced := m.syncDomains issues now [(host, "")]
    match outcome with
    | .answered => (.ok host, synced)
    | .failed executed => (.error tlsRenewFailed, if executed then synced else m)
  else (.error domainNotFound, m)

variable {js : Runtime} {issues : String → Bool} {now : ℕ} {hosts : List String} {m m' : TlsManager}
  {host param d : String} {outcome : Outcome}

/-- A success is a sync of the host alone. -/
lemma renewRoute_ok (h : renewRoute js issues now hosts m param outcome = (.ok host, m')) :
    m' = m.syncDomains issues now [(host, "")] := by
  unfold renewRoute at h
  dsimp only at h
  split at h
  · cases outcome with
    | answered =>
      obtain ⟨hhost, hm⟩ := Prod.mk.inj h
      rw [← hm, Except.ok.inj hhost]
    | failed executed => cases (Prod.mk.inj h).1
  · cases (Prod.mk.inj h).1

/-- A sync of one host drops the certificates of the others. -/
lemma certCache_sync_ne (h : d ≠ host) :
    (m.syncDomains issues now [(host, "")]).certCache d = none := by
  simp [TlsManager.syncDomains, TlsManager.pruneTo, h]

/-- A sync of one host leaves what the look-up of its certificate leaves. -/
lemma certCache_sync_self : (m.syncDomains issues now [(host, "")]).certCache host =
    (m.getOrIssue issues now host).2.certCache host := by
  simp [TlsManager.syncDomains, TlsManager.pruneTo, TlsManager.issueAll]

/-- A certificate that was not there before comes from an issuance. -/
lemma issued_iff : (∃ c, (m.getOrIssue issues now host).2.certCache host = some c ∧
      m.certCache host ≠ some c) ↔ m.cached now host = none ∧ issues host = true := by
  constructor
  · rintro ⟨c, hc, hnew⟩
    cases hcached : m.cached now host with
    | some existing =>
      have hsame : (m.getOrIssue issues now host).2 = m := by
        simp only [TlsManager.getOrIssue, hcached]
      rw [hsame] at hc
      exact absurd hc hnew
    | none =>
      refine ⟨rfl, ?_⟩
      by_contra hissues
      have hsame : (m.getOrIssue issues now host).2 = m := by
        simp [TlsManager.getOrIssue, hcached, issueDomainCert, hissues]
      rw [hsame] at hc
      exact absurd hc hnew
  · rintro ⟨hcached, hissues⟩
    obtain ⟨c, -, hc, hvalid⟩ := TlsManager.getOrIssue_spec m now hissues
    refine ⟨c, hc, fun hold => ?_⟩
    have hfound := TlsManager.cached_eq_some.mpr ⟨hold, hvalid⟩
    rw [hcached] at hfound
    cases hfound

/-- A successful renewal leaves the certificates of the other domains as they were and ends with a
certificate for the host that it has issued, exactly when no other domain has a certificate, the
host has none that is valid, and one can be issued. -/
theorem renew_frame_iff (h : renewRoute js issues now hosts m param outcome = (.ok host, m')) :
    ((∀ d ∈ hosts, d ≠ host → m'.certCache d = m.certCache d) ∧
        ∃ c, m'.certCache host = some c ∧ m.certCache host ≠ some c) ↔
      (∀ d ∈ hosts, d ≠ host → m.certCache d = none) ∧
        m.cached now host = none ∧ issues host = true := by
  obtain rfl := renewRoute_ok h
  rw [certCache_sync_self, issued_iff]
  refine and_congr_left fun _ => ⟨fun hframe d hd hne => ?_, fun hframe d hd hne => ?_⟩
  · rw [← hframe d hd hne, certCache_sync_ne hne]
  · rw [hframe d hd hne, certCache_sync_ne hne]

/-- A manager with a certificate for each of two domains, both issued an hour ago. -/
def sampleManager : TlsManager where
  certCache host :=
    if host = "a.test" ∨ host = "b.test" then issueDomainCert (fun _ => true) 0 host else none

/-- The renewal of the first certificate hands out the old one, and drops the second one. -/
theorem renew_drops_others : ∃ m', renewRoute ⟨id, id, fun _ => none⟩ (fun _ => true) 3600
      ["a.test", "b.test"] sampleManager "a.test" .answered = (.ok "a.test", m') ∧
    (sampleManager.certCache "b.test").isSome = true ∧ m'.certCache "b.test" = none ∧
    m'.certCache "a.test" = sampleManager.certCache "a.test" := by
  refine ⟨_, rfl, ?_, ?_, ?_⟩
  · decide +kernel
  · decide +kernel
  · decide +kernel

/-- The renewal of the only certificate after it has expired. -/
theorem renew_frame_expired : ∃ m', renewRoute ⟨id, id, fun _ => none⟩ (fun _ => true) (2 * lifetime)
      ["a.test", "c.test"] sampleManager "a.test" .answered = (.ok "a.test", m') ∧
    m'.certCache "c.test" = sampleManager.certCache "c.test" ∧
    ∃ c, m'.certCache "a.test" = some c ∧ sampleManager.certCache "a.test" ≠ some c := by
  have hroute : renewRoute ⟨id, id, fun _ => none⟩ (fun _ => true) (2 * lifetime) ["a.test", "c.test"]
      sampleManager "a.test" .answered = (.ok "a.test", _) := rfl
  have hothers : ∀ d ∈ ["a.test", "c.test"], d ≠ "a.test" → sampleManager.certCache d = none := by
    decide +kernel
  have hexpired : sampleManager.cached (2 * lifetime) "a.test" = none := by decide +kernel
  obtain ⟨hframe, hissued⟩ := (renew_frame_iff hroute).mpr ⟨hothers, hexpired, rfl⟩
  exact ⟨_, hroute, hframe "c.test" (by decide) (by decide), hissued⟩

end SmartSchoolCdn.Tls
