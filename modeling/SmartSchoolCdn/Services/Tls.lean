import Mathlib.Data.Nat.Notation
import Mathlib.Logic.Function.Basic

/-!
# The certificates of tls-service

`TlsManager` keeps one certificate per domain.  A certificate is handed out from the cache
while it has not expired, and is issued anew otherwise.  `sync_domains` makes certificates for
a list of domains and drops all others.

Times are seconds.  Whether a certificate can be issued for a domain is left open, since the
signing library decides it.
-/

namespace SmartSchoolCdn.Tls

/-- A certificate in the cache; the keys and the PEM texts are left out. -/
structure CachedCert where
  domain : String
  issuedAt : ℕ
  expiresAt : ℕ
  deriving DecidableEq, Repr

/-- The lifetime of a domain certificate: 30 days. -/
def lifetime : ℕ := 30 * 24 * 3600

/-- The certificates of `TlsManager`. -/
structure TlsManager where
  certCache : String → Option CachedCert

/-- `issue_domain_cert`. -/
def issueDomainCert (issues : String → Bool) (now : ℕ) (domain : String) : Option CachedCert :=
  if issues domain then
    some { domain := domain, issuedAt := now, expiresAt := now + lifetime }
  else none

namespace TlsManager

variable (m : TlsManager) (issues : String → Bool) (now : ℕ) (domain : String)

/-- The manager after a start: the cache is in memory only. -/
def empty : TlsManager where
  certCache _ := none

/-- What both locked parts of `get_or_issue` look for: a certificate that has not expired. -/
def cached : Option CachedCert := (m.certCache domain).filter fun c => now < c.expiresAt

/-- The second locked part of `get_or_issue`: another call may have stored a certificate. -/
def store (cert : CachedCert) : CachedCert × TlsManager :=
  match m.cached now domain with
  | some existing => (existing, m)
  | none => (cert, { m with certCache := Function.update m.certCache domain (some cert) })

/-- `get_or_issue`, without other calls between its parts. -/
def getOrIssue : Option CachedCert × TlsManager :=
  match m.cached now domain with
  | some existing => (some existing, m)
  | none =>
    match issueDomainCert issues now domain with
    | none => (none, m)
    | some cert => ((m.store now domain cert).1, (m.store now domain cert).2)

/-- `prune_to`. -/
def pruneTo (keep : String → Bool) : TlsManager where
  certCache host := if keep host then m.certCache host else none

/-- The loop of `sync_domains`. -/
def issueAll : List String → TlsManager → TlsManager
  | [], m => m
  | domain :: domains, m => issueAll domains (m.getOrIssue issues now domain).2

/-- `sync_domains`: a host for which no certificate can be issued is not pruned either. -/
def syncDomains (domains : List (String × String)) : TlsManager :=
  (m.issueAll issues now (domains.map Prod.fst)).pruneTo fun host => (domains.map Prod.fst).contains host

/-! ## What is in the cache -/

variable {m} {issues} {now} {domain} {host : String} {c : CachedCert}

lemma cached_eq_some : m.cached now domain = some c ↔
    m.certCache domain = some c ∧ now < c.expiresAt := by
  rw [cached, Option.filter_eq_some_iff, decide_eq_true_eq]

/-- The certificates of other domains stay. -/
lemma certCache_getOrIssue_ne (h : host ≠ domain) :
    (m.getOrIssue issues now domain).2.certCache host = m.certCache host := by
  unfold getOrIssue
  split
  · rfl
  · split
    · rfl
    · unfold store
      split
      · rfl
      · exact Function.update_of_ne h _ _

/-- What is handed out has not expired and is what the cache holds afterwards. -/
lemma getOrIssue_spec (m : TlsManager) (now : ℕ) (h : issues domain = true) : ∃ c, (m.getOrIssue issues now domain).1 = some c ∧
    (m.getOrIssue issues now domain).2.certCache domain = some c ∧ now < c.expiresAt := by
  unfold getOrIssue
  cases hcached : m.cached now domain with
  | some existing =>
    obtain ⟨hfound, hvalid⟩ := cached_eq_some.mp hcached
    exact ⟨existing, rfl, hfound, hvalid⟩
  | none =>
    have hissued : issueDomainCert issues now domain =
        some { domain := domain, issuedAt := now, expiresAt := now + lifetime } := if_pos h
    simp only [hissued, store, hcached, Function.update_self]
    have hpositive : 0 < lifetime := by decide
    refine ⟨_, rfl, rfl, ?_⟩
    change now < now + lifetime
    omega

/-- A domain that has a certificate keeps one. -/
lemma isSome_getOrIssue (h : (m.certCache host).isSome = true) :
    ((m.getOrIssue issues now domain).2.certCache host).isSome = true := by
  by_cases hne : host = domain
  · subst hne
    unfold getOrIssue
    split
    · exact h
    · split
      · exact h
      · unfold store
        split
        · exact h
        · simp
  · rw [certCache_getOrIssue_ne hne]
    exact h

/-- The loop leaves a certificate for every domain in its list. -/
lemma isSome_issueAll {domains : List String} (hissues : ∀ d ∈ domains, issues d = true)
    (h : (m.certCache host).isSome = true ∨ host ∈ domains) :
    ((m.issueAll issues now domains).certCache host).isSome = true := by
  induction domains generalizing m with
  | nil => exact h.resolve_right List.not_mem_nil
  | cons d domains ih =>
    have hrest : ∀ d' ∈ domains, issues d' = true := fun d' hd' => hissues d' (List.mem_cons_of_mem d hd')
    have hhead : ((m.getOrIssue issues now d).2.certCache d).isSome = true := by
      obtain ⟨c, -, hc, -⟩ := getOrIssue_spec m now (hissues d List.mem_cons_self)
      rw [hc]
      rfl
    refine ih hrest ?_
    rcases h with hold | hmem
    · exact .inl (isSome_getOrIssue hold)
    · rcases List.mem_cons.mp hmem with rfl | htail
      · exact .inl hhead
      · exact .inr htail

/-- After `sync_domains` exactly the hosts of its list have a certificate. -/
theorem isSome_syncDomains {domains : List (String × String)}
    (hissues : ∀ d ∈ domains, issues d.1 = true) :
    ((m.syncDomains issues now domains).certCache host).isSome = true ↔ host ∈ domains.map Prod.fst := by
  unfold syncDomains pruneTo
  by_cases hmem : host ∈ domains.map Prod.fst
  · have hkeep : (domains.map Prod.fst).contains host = true := List.contains_iff_mem.mpr hmem
    have hall : ∀ d ∈ domains.map Prod.fst, issues d = true := by
      intro d hd
      obtain ⟨p, hp, rfl⟩ := List.mem_map.mp hd
      exact hissues p hp
    simp only [hkeep, if_true]
    exact ⟨fun _ => hmem, fun _ => isSome_issueAll hall (.inr hmem)⟩
  · simp [hmem]

end TlsManager

end SmartSchoolCdn.Tls
