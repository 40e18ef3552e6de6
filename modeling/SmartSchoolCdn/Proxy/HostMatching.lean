import SmartSchoolCdn.Admin.DomainRoutes
import SmartSchoolCdn.Proxy.Policy
import SmartSchoolCdn.Proxy.Sni
import SmartSchoolCdn.Services.Dns

/-!
# Three matchers of host names

A name is matched in three places: dns-service decides whether to answer with the address of
the CDN, the proxy looks for an origin, and the TLS handshake looks for a certificate.  The
first two know exact and wildcard entries, but only the proxy puts the name into lower case;
the third knows exact names only.

`hostsAgree_iff` says for which names the three agree on a set of entries in lower case.
-/

namespace SmartSchoolCdn.HostMatching

open Admin Dns Tls

/-! ## The three answers -/

/-- The entry of `POST /domains` for a synced domain, without policies. -/
def entryFor (d : String × String) : DomainEntry where
  host := d.1
  origin := d.2
  staleIfErrorSecs := none
  coalesceCapacity := none

/-- The proxy's map after a `POST /domains` with the synced domains. -/
def proxyMap (domains : List (String × String)) : String → Option String :=
  updateDomainsHandler (domains.map entryFor)

/-- dns-service answers a query for the name with the address of the CDN. -/
def DnsAnswers (domains : List (String × String)) (name : String) : Prop :=
  ∀ sent upstreamOk,
    (handleDnsQuery (syncDomains domains) (some ⟨name, true⟩) sent upstreamOk).1 = .cdnAddress

/-- The proxy finds an origin for the name as a `Host` header. -/
def ProxyResolves (domains : List (String × String)) (name : String) : Prop :=
  (findOrigin (proxyMap domains) (normalizeHost name)).isSome = true

/-- The handshake finds a certificate once those of the synced domains were fetched. -/
def SniFinds (issues : String → Bool) (now : ℕ) (m : TlsManager) (cache : Sni.CertCache)
    (domains : List (String × String)) (serverName : Option String) : Prop :=
  (Sni.resolve (Sni.prefetchAll issues now (domains.map Prod.fst) (m, cache)).2 serverName).isSome = true

/-- The three matchers agree on a name. -/
def HostsAgree (issues : String → Bool) (now : ℕ) (m : TlsManager) (cache : Sni.CertCache)
    (domains : List (String × String)) (name : String) (serverName : Option String) : Prop :=
  (DnsAnswers domains name ↔ ProxyResolves domains name) ∧
    (DnsAnswers domains name → SniFinds issues now m cache domains serverName)

/-! ## Entries that cover a name -/

/-- The name in lower case, without the dots at its end. -/
def canonical (name : String) : String := Text.lower (trimDots name)

/-- The wildcard one label up is an entry. -/
def WildcardCovers (hosts : List String) (host : String) : Prop := ∃ w ∈ hosts, wildcardOf host = some w

/-- The host, or the wildcard one label up, is an entry. -/
def Covers (hosts : List String) (host : String) : Prop := host ∈ hosts ∨ WildcardCovers hosts host

instance (hosts : List String) (host : String) : Decidable (WildcardCovers hosts host) :=
  inferInstanceAs (Decidable (∃ w ∈ hosts, wildcardOf host = some w))

instance (hosts : List String) (host : String) : Decidable (Covers hosts host) :=
  inferInstanceAs (Decidable (host ∈ hosts ∨ WildcardCovers hosts host))

variable {domains : List (String × String)} {hosts : List String} {host name : String}

/-- A map with the entries as its keys finds the names that they cover. -/
lemma covers_iff {map : String → Option String} (host : String)
    (hmap : ∀ h, (map h).isSome = true ↔ h ∈ hosts) :
    ((map host).isSome || (wildcardOf host).any fun w => (map w).isSome) = true ↔ Covers hosts host := by
  rw [Bool.or_eq_true, hmap, Option.any_eq_true]
  unfold Covers WildcardCovers
  constructor
  · rintro (hexact | ⟨w, hw, hfound⟩)
    · exact .inl hexact
    · exact .inr ⟨w, (hmap w).mp hfound, hw⟩
  · rintro (hexact | ⟨w, hw, hwild⟩)
    · exact .inl hexact
    · exact .inr ⟨w, hwild, (hmap w).mpr hw⟩

/-- The keys of the proxy's map. -/
lemma isSome_proxyMap : (proxyMap domains host).isSome = true ↔ host ∈ domains.map Prod.fst := by
  rw [proxyMap, isSome_updateDomainsHandler, List.mem_map]
  constructor
  · rintro ⟨e, he, -, rfl⟩
    obtain ⟨d, hd, rfl⟩ := List.mem_map.mp he
    exact ⟨d, hd, rfl⟩
  · rintro ⟨d, hd, rfl⟩
    exact ⟨entryFor d, List.mem_map_of_mem hd, rfl, rfl⟩

/-- dns-service looks for the name as it is written. -/
lemma dnsAnswers_iff : DnsAnswers domains name ↔ Covers (domains.map Prod.fst) (trimDots name) := by
  have hmap : ∀ h, (syncDomains domains h).isSome = true ↔ h ∈ domains.map Prod.fst :=
    fun h => isSome_syncDomains
  have hcovers := covers_iff (trimDots name) hmap
  unfold DnsAnswers
  constructor
  · intro h
    exact hcovers.mp (cdnAddress_iff.mp (h true true))
  · intro h sent upstreamOk
    exact cdnAddress_iff.mpr (hcovers.mpr h)

/-- A name without a colon is its own host name. -/
lemma normalizeHost_eq (hname : ':' ∉ name.toList) : normalizeHost name = canonical name := by
  have hport : Text.beforeFirst name ':' = name := by
    unfold Text.beforeFirst
    rw [List.takeWhile_eq_self_iff.mpr]
    · exact String.ofList_toList
    · intro c hc
      have hne : c ≠ ':' := fun heq => hname (heq ▸ hc)
      simpa using hne
  simp only [normalizeHost, hport]
  rfl

/-- The proxy looks for the name in lower case. -/
lemma proxyResolves_iff (hname : ':' ∉ name.toList) :
    ProxyResolves domains name ↔ Covers (domains.map Prod.fst) (canonical name) := by
  have hmap : ∀ h, (proxyMap domains h).isSome = true ↔ h ∈ domains.map Prod.fst :=
    fun h => isSome_proxyMap
  have hcovers := covers_iff (canonical name) hmap
  rw [ProxyResolves, normalizeHost_eq hname, ← hcovers, findOrigin, Option.isSome_or, wildcardOf]
  cases Text.splitOnce (canonical name) '.' <;> rfl

/-! ## Letter case -/

lemma toLower_eq_dot {c : Char} : c.toLower = '.' ↔ c = '.' := by
  unfold Char.toLower
  split
  · rename_i hupper
    constructor
    · intro heq
      have hval := congrArg (fun c : Char => c.val.toNat) heq
      simp at hval
      simp [UInt32.le_iff_toNat_le] at hupper
      omega
    · rintro rfl
      revert hupper
      decide
  · rfl

/-- The wildcard of a name in lower case is its wildcard in lower case. -/
lemma wildcardOf_lower : wildcardOf (Text.lower host) = (wildcardOf host).map Text.lower := by
  have hdot : (fun c : Char => c.toLower != '.') = fun c => c != '.' := by
    funext c
    rw [Bool.eq_iff_iff, bne_iff_ne, bne_iff_ne, Ne, toLower_eq_dot]
  have hrest : (Text.lower host).toList.dropWhile (· != '.') =
      (host.toList.dropWhile (· != '.')).map Char.toLower := by
    rw [Text.lower, String.toList_ofList, List.dropWhile_map]
    congr 2
  unfold wildcardOf Text.splitOnce
  rw [hrest]
  cases host.toList.dropWhile (· != '.') with
  | nil => rfl
  | cons c rest =>
    have hstar : "*.".toList.map Char.toLower = "*.".toList := by decide
    simp only [List.map_cons, Option.map_some, Text.lower, String.toList_append, List.map_append, hstar,
      String.toList_ofList, String.ofList_append, String.ofList_toList]

/-- An entry in lower case that covers a name covers it in lower case. -/
lemma Covers.lower (hlower : ∀ h ∈ hosts, Text.lower h = h) (h : Covers hosts host) :
    Covers hosts (Text.lower host) := by
  rcases h with hexact | ⟨w, hw, hwild⟩
  · rw [hlower host hexact]
    exact .inl hexact
  · refine .inr ⟨w, hw, ?_⟩
    rw [wildcardOf_lower, hwild, Option.map_some, hlower w hw]

/-! ## Agreement -/

/-- The three matchers agree on a name when no entry covers it in lower case; or when its name
in lower case has a certificate, as an entry or from before, and the letters of the name are
small, at least after its first label where a wildcard covers it. -/
theorem hostsAgree_iff {issues : String → Bool} {now : ℕ} {m : TlsManager} {cache : Sni.CertCache}
    {serverName : Option String} (hlower : ∀ d ∈ domains, Text.lower d.1 = d.1)
    (hissues : ∀ d ∈ domains, issues d.1 = true) (hname : ':' ∉ name.toList)
    (hserver : serverName = some (canonical name)) :
    HostsAgree issues now m cache domains name serverName ↔
      ¬ Covers (domains.map Prod.fst) (canonical name) ∨
        (canonical name ∈ domains.map Prod.fst ∨ (cache (canonical name)).isSome = true) ∧
          (trimDots name = canonical name ∨ WildcardCovers (domains.map Prod.fst) (trimDots name)) := by
  have hlower' : ∀ h ∈ domains.map Prod.fst, Text.lower h = h := by
    intro h hh
    obtain ⟨d, hd, rfl⟩ := List.mem_map.mp hh
    exact hlower d hd
  have hissues' : ∀ h ∈ domains.map Prod.fst, issues h = true := by
    intro h hh
    obtain ⟨d, hd, rfl⟩ := List.mem_map.mp hh
    exact hissues d hd
  have hsni : SniFinds issues now m cache domains serverName ↔
      canonical name ∈ domains.map Prod.fst ∨ (cache (canonical name)).isSome = true := by
    rw [SniFinds, hserver, or_comm]
    exact Sni.isSome_prefetchAll hissues'
  have hdown : Covers (domains.map Prod.fst) (trimDots name) →
      Covers (domains.map Prod.fst) (canonical name) := fun h => h.lower hlower'
  rw [HostsAgree, dnsAnswers_iff, proxyResolves_iff hname, hsni]
  constructor
  · rintro ⟨hiff, hcert⟩
    by_cases hcovers : Covers (domains.map Prod.fst) (canonical name)
    · refine .inr ⟨hcert (hiff.mpr hcovers), ?_⟩
      rcases hiff.mpr hcovers with hexact | hwild
      · exact .inl (hlower' _ hexact).symm
      · exact .inr hwild
    · exact .inl hcovers
  · rintro (hnone | ⟨hcert, hcase⟩)
    · have hnone' := fun h => hnone (hdown h)
      exact ⟨iff_of_false hnone' hnone, fun h => absurd h hnone'⟩
    · refine ⟨⟨hdown, fun hcovers => ?_⟩, fun _ => hcert⟩
      rcases hcase with hsame | hwild
      · rw [hsame]
        exact hcovers
      · exact .inr hwild

/-- A name with a capital in its first label, under a wildcard and with an entry of its own. -/
theorem hostsAgree_of_two_entries :
    HostsAgree (fun _ => true) 0 TlsManager.empty (fun _ => none)
      [("*.school.example", "https://school.example"), ("lms.school.example", "https://lms.example")]
      "LMS.school.example." (some "lms.school.example") :=
  (hostsAgree_iff (by decide) (by decide) (by decide) (by decide)).mpr (by decide)

/-- A name with a capital is not known to dns-service, and a name under a wildcard has no
certificate. -/
theorem capital_and_wildcard_disagree :
    ¬ HostsAgree (fun _ => true) 0 TlsManager.empty (fun _ => none)
        [("school.example", "https://school.example")] "School.example" (some "school.example") ∧
      ¬ HostsAgree (fun _ => true) 0 TlsManager.empty (fun _ => none)
        [("*.school.example", "https://school.example")] "lms.school.example"
        (some "lms.school.example") := by
  constructor
  · rintro ⟨hiff, -⟩
    rw [dnsAnswers_iff, proxyResolves_iff (by decide)] at hiff
    revert hiff
    decide
  · rintro ⟨-, hsni⟩
    rw [dnsAnswers_iff] at hsni
    revert hsni
    unfold SniFinds
    decide

end SmartSchoolCdn.HostMatching
