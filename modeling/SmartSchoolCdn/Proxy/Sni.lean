import SmartSchoolCdn.Services.Tls

/-!
# The certificates of the proxy

The proxy answers a TLS handshake from a cache of its own, which `prefetch_cert` fills from
tls-service: a handshake never asks tls-service.
-/

namespace SmartSchoolCdn.Sni

open Tls

/-- The `cert_cache` of `TlsClient`. -/
abbrev CertCache := String → Option CachedCert

/-- `SniCertResolver::resolve` on the name that the client hello gives. -/
def resolve (cache : CertCache) (serverName : Option String) : Option CachedCert :=
  serverName.bind cache

/-- `prefetch_cert`: what tls-service hands out is stored under the domain. -/
def prefetchCert (issues : String → Bool) (now : ℕ) (domain : String) (m : TlsManager)
    (cache : CertCache) : TlsManager × CertCache :=
  match m.getOrIssue issues now domain with
  | (some cert, m') => (m', Function.update cache domain (some cert))
  | (none, m') => (m', cache)

/-- The last loop of `update_domains_handler`. -/
def prefetchAll (issues : String → Bool) (now : ℕ) :
    List String → TlsManager × CertCache → TlsManager × CertCache
  | [], p => p
  | domain :: domains, p => prefetchAll issues now domains (prefetchCert issues now domain p.1 p.2)

variable {issues : String → Bool} {now : ℕ} {domain host : String} {m : TlsManager} {cache : CertCache}

/-- Other names keep their certificates. -/
lemma prefetchCert_ne (h : host ≠ domain) :
    (prefetchCert issues now domain m cache).2 host = cache host := by
  unfold prefetchCert
  split
  · exact Function.update_of_ne h _ _
  · rfl

/-- The domain gets a certificate that has not expired. -/
lemma prefetchCert_self (now : ℕ) (m : TlsManager) (cache : CertCache) (h : issues domain = true) :
    ∃ c, (prefetchCert issues now domain m cache).2 domain = some c ∧ now < c.expiresAt := by
  obtain ⟨c, hc, -, hvalid⟩ := TlsManager.getOrIssue_spec m now h
  refine ⟨c, ?_, hvalid⟩
  unfold prefetchCert
  split
  · rename_i cert m' heq
    rw [heq] at hc
    obtain rfl := Option.some.inj hc
    exact Function.update_self _ _ _
  · rename_i m' heq
    rw [heq] at hc
    cases hc

/-- The loop adds the domains of its list to the names with a certificate. -/
theorem isSome_prefetchAll {domains : List String} (hissues : ∀ d ∈ domains, issues d = true) :
    ((prefetchAll issues now domains (m, cache)).2 host).isSome = true ↔
      (cache host).isSome = true ∨ host ∈ domains := by
  induction domains generalizing m cache with
  | nil => simp [prefetchAll]
  | cons d domains ih =>
    have hrest : ∀ d' ∈ domains, issues d' = true := fun d' hd' => hissues d' (List.mem_cons_of_mem d hd')
    rw [prefetchAll, ih hrest, List.mem_cons]
    by_cases hhost : host = d
    · subst hhost
      obtain ⟨c, hc, -⟩ := prefetchCert_self now m cache (hissues host List.mem_cons_self)
      simp [hc]
    · rw [prefetchCert_ne hhost]
      simp [hhost]

end SmartSchoolCdn.Sni
