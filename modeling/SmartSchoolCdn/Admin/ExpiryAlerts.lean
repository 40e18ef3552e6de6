import SmartSchoolCdn.Foundation.Table
import SmartSchoolCdn.Foundation.Trace

/-!
# Alerts before certificates expire

`TlsExpiryScanner` lists the certificates from time to time and sends an alert for each one that has
come to a threshold of days before its expiry.  `tls_expiry_alerts` has the pairs of a domain and a
threshold that an alert has been sent for, and no pair gets a second one.

So no certificate gets two alerts for a threshold, and after each scan an alert for its current
threshold has been sent for the domain of every certificate that is about to expire
(`alerts_once_per_domain`).  It need not have been for that certificate: a renewed certificate finds
the pairs of its predecessor taken (`renewed_gets_no_alert`).
-/

namespace SmartSchoolCdn.Admin

open Tables Traces

/-! ## Thresholds -/

/-- `THRESHOLDS`, in days. -/
def thresholds : List ℕ := [30, 14, 7, 1]

/-- `matchThreshold`: the smallest threshold that has been reached. -/
def matchThreshold (daysUntilExpiry : ℤ) : Option ℕ :=
  if daysUntilExpiry < 0 then none
  else thresholds.foldl (fun matched (t : ℕ) => if daysUntilExpiry ≤ t then some t else matched) none

variable {days : ℤ} {t : ℕ}

lemma matchThreshold_eq (days : ℤ) : matchThreshold days =
    if days < 0 then none else if days ≤ 1 then some 1 else if days ≤ 7 then some 7
      else if days ≤ 14 then some 14 else if days ≤ 30 then some 30 else none := rfl

/-- There is a threshold for the certificates that have not expired and have 30 days left at most. -/
lemma isSome_matchThreshold_iff : (matchThreshold days).isSome = true ↔ 0 ≤ days ∧ days ≤ 30 := by
  rw [matchThreshold_eq]
  split_ifs
  all_goals
    simp only [Option.isSome_none, Option.isSome_some, Bool.false_eq_true, true_iff, false_iff]
    omega

/-- The threshold is the smallest one that the days do not exceed. -/
lemma le_of_matchThreshold (h : matchThreshold days = some t) :
    t ∈ thresholds ∧ days ≤ t ∧ ∀ t' ∈ thresholds, days ≤ t' → t ≤ t' := by
  rw [matchThreshold_eq] at h
  simp only [thresholds, List.mem_cons, List.not_mem_nil, or_false, forall_eq_or_imp, forall_eq]
  split_ifs at h
  all_goals
    obtain rfl := Option.some.inj h
    omega

/-! ## Scans -/

/-- A certificate of a listing; `serial` says which one it is, for the domain may have had others. -/
structure ListedCert where
  domain : String
  expiresAt : String
  serial : ℕ
  deriving DecidableEq, Repr

/-- `TlsExpiryAlert`. -/
structure TlsExpiryAlert where
  domain : String
  thresholdDay : ℕ
  daysUntilExpiry : ℤ
  expiresAt : String
  deriving DecidableEq, Repr

/-- A row of `tls_expiry_alerts`. -/
structure AlertRow where
  domain : String
  thresholdDay : ℕ
  firedAt : ℤ
  deriving DecidableEq, Repr

/-- `PRIMARY KEY (domain, threshold_day)`. -/
def AlertRow.key (r : AlertRow) : String × ℕ := (r.domain, r.thresholdDay)

/-- An alert, and the certificate that it has been sent for. -/
structure SentAlert where
  cert : ListedCert
  alert : TlsExpiryAlert
  deriving DecidableEq, Repr

/-- The pair that an alert takes. -/
def SentAlert.key (a : SentAlert) : String × ℕ := (a.alert.domain, a.alert.thresholdDay)

/-- The table, and, as a ghost, the alerts that have been sent, the last one first. -/
structure Scanner where
  table : Table AlertRow.key
  alerts : List SentAlert

/-- The scanner with an empty table. -/
def Scanner.start : Scanner := ⟨Table.empty, []⟩

/-- The whole days before an expiry, in milliseconds. -/
def daysUntil (expiresMs nowMs : ℤ) : ℤ := (expiresMs - nowMs) / 86400000

section Scan

variable (dateParse : String → Option ℤ) (nowMs : ℤ)

/-- The threshold of a certificate; a date that `Date.parse` does not accept has none. -/
def currentThreshold (cert : ListedCert) : Option ℕ :=
  (dateParse cert.expiresAt).bind fun expiresMs => matchThreshold (daysUntil expiresMs nowMs)

/-- The body of the loop, with the number of alerts. -/
def scanCert (s : Scanner × ℕ) (cert : ListedCert) : Scanner × ℕ :=
  match dateParse cert.expiresAt with
  | none => s
  | some expiresMs =>
    let days := daysUntil expiresMs nowMs
    match matchThreshold days with
    | none => s
    | some t =>
      if (s.1.table.find (cert.domain, t)).isSome then s
      else
        (⟨s.1.table.insertNew ⟨cert.domain, t, nowMs / 1000⟩,
          ⟨cert, ⟨cert.domain, t, days, cert.expiresAt⟩⟩ :: s.1.alerts⟩, s.2 + 1)

/-- `tick`; `listed` is what `listCertificates` returns, unless it fails. -/
def Scanner.tick (s : Scanner) (listed : Option (List ListedCert)) : Scanner × ℕ :=
  match listed with
  | none => (s, 0)
  | some certs => certs.foldl (scanCert dateParse nowMs) (s, 0)

end Scan

/-- A scan, at a time. -/
structure Scan where
  nowMs : ℤ
  listed : Option (List ListedCert)
  deriving DecidableEq

/-- One scan after the other. -/
def scanStep (dateParse : String → Option ℤ) (s : Scanner) (scan : Scan) : Option Scanner :=
  some (s.tick dateParse scan.nowMs scan.listed).1

variable {dateParse : String → Option ℤ} {nowMs : ℤ} {s s' : Scanner} {n : ℕ} {cert : ListedCert}
  {certs : List ListedCert} {a b : SentAlert} {k : String × ℕ} {p : Scanner × ℕ}

/-! ## One certificate -/

/-- What the scanner does about a certificate. -/
inductive CertEffect (dateParse : String → Option ℤ) (nowMs : ℤ) (s : Scanner) (n : ℕ) (cert : ListedCert) :
    Scanner × ℕ → Prop
  | far (hnone : currentThreshold dateParse nowMs cert = none) : CertEffect dateParse nowMs s n cert (s, n)
  | taken (t : ℕ) (ht : currentThreshold dateParse nowMs cert = some t)
      (hfound : (s.table.find (cert.domain, t)).isSome = true) : CertEffect dateParse nowMs s n cert (s, n)
  | send (t : ℕ) (days : ℤ) (ht : currentThreshold dateParse nowMs cert = some t)
      (hfree : (s.table.find (cert.domain, t)).isSome = false) :
      CertEffect dateParse nowMs s n cert
        (⟨s.table.insertNew ⟨cert.domain, t, nowMs / 1000⟩,
          ⟨cert, ⟨cert.domain, t, days, cert.expiresAt⟩⟩ :: s.alerts⟩, n + 1)

theorem scanCert_effect (dateParse : String → Option ℤ) (nowMs : ℤ) (s : Scanner) (n : ℕ)
    (cert : ListedCert) : CertEffect dateParse nowMs s n cert (scanCert dateParse nowMs (s, n) cert) := by
  unfold scanCert
  cases hparse : dateParse cert.expiresAt with
  | none => exact .far (by rw [currentThreshold, hparse]; rfl)
  | some expiresMs =>
    dsimp only
    have hcurrent : currentThreshold dateParse nowMs cert =
        matchThreshold (daysUntil expiresMs nowMs) := by
      rw [currentThreshold, hparse]
      rfl
    cases hmatch : matchThreshold (daysUntil expiresMs nowMs) with
    | none => exact .far (hcurrent.trans hmatch)
    | some t =>
      dsimp only
      split
      · rename_i hfound
        exact .taken t (hcurrent.trans hmatch) hfound
      · rename_i hfree
        exact .send t _ (hcurrent.trans hmatch) (Bool.not_eq_true _ ▸ hfree)

/-! ## The invariant -/

/-- The table has the pairs of the alerts, each of which has been sent once. -/
structure Keyed (s : Scanner) : Prop where
  find : ∀ k, (s.table.find k).isSome = true ↔ k ∈ s.alerts.map SentAlert.key
  nodup : (s.alerts.map SentAlert.key).Nodup
  domain : ∀ a ∈ s.alerts, a.alert.domain = a.cert.domain

/-- A row is found after its insertion, as are those before it. -/
lemma isSome_find_insertNew (table : Table AlertRow.key) (row : AlertRow) :
    ((table.insertNew row).find k).isSome = true ↔ k = row.key ∨ (table.find k).isSome = true := by
  by_cases hk : row.key = k
  · subst hk
    rw [Table.find_insertNew_self]
    simp
  · rw [Table.find_insertNew_ne hk]
    simp [Ne.symm hk]

/-- A certificate keeps the invariant. -/
lemma Keyed.effect (hs : Keyed s) (h : CertEffect dateParse nowMs s n cert p) : Keyed p.1 := by
  cases h with
  | far _ => exact hs
  | taken t _ _ => exact hs
  | send t days _ hfree =>
    constructor
    · intro k
      rw [isSome_find_insertNew, hs.find]
      exact List.mem_cons.symm
    · refine List.nodup_cons.mpr ⟨fun hmem => ?_, hs.nodup⟩
      rw [SentAlert.key, ← hs.find, hfree] at hmem
      cases hmem
    · intro a ha
      rcases List.mem_cons.mp ha with rfl | hold
      · rfl
      · exact hs.domain a hold

/-- No alert is taken back. -/
lemma subset_of_effect (h : CertEffect dateParse nowMs s n cert p) : s.alerts ⊆ p.1.alerts := by
  cases h with
  | far _ => exact fun _ ha => ha
  | taken t _ _ => exact fun _ ha => ha
  | send t days _ _ => exact List.subset_cons_self _ _

/-- After a certificate has been looked at, its pair is taken. -/
lemma taken_of_effect (hs : Keyed s) (h : CertEffect dateParse nowMs s n cert p)
    (ht : currentThreshold dateParse nowMs cert = some t) :
    (cert.domain, t) ∈ p.1.alerts.map SentAlert.key := by
  cases h with
  | far hnone =>
    rw [ht] at hnone
    cases hnone
  | taken t' ht' hfound =>
    obtain rfl := Option.some.inj (ht.symm.trans ht')
    exact (hs.find _).mp hfound
  | send t' days ht' _ =>
    obtain rfl := Option.some.inj (ht.symm.trans ht')
    exact List.mem_cons_self

/-- An alert that is new is for the certificate, at its threshold. -/
lemma new_of_effect (h : CertEffect dateParse nowMs s n cert p) (ha : a ∈ p.1.alerts) :
    a ∈ s.alerts ∨
      (a.cert = cert ∧ currentThreshold dateParse nowMs cert = some a.alert.thresholdDay) := by
  cases h with
  | far _ => exact .inl ha
  | taken t _ _ => exact .inl ha
  | send t days ht _ =>
    rcases List.mem_cons.mp ha with rfl | hold
    · exact .inr ⟨rfl, ht⟩
    · exact .inl hold

/-! ## One scan -/

/-- What a scan does: it keeps the invariant, takes no alert back, leaves no pair of a certificate free,
and sends alerts for the certificates of its list only. -/
structure Scanned (dateParse : String → Option ℤ) (nowMs : ℤ) (certs : List ListedCert) (s s' : Scanner) :
    Prop where
  keyed : Keyed s'
  subset : s.alerts ⊆ s'.alerts
  taken : ∀ cert ∈ certs, ∀ t, currentThreshold dateParse nowMs cert = some t →
    (cert.domain, t) ∈ s'.alerts.map SentAlert.key
  new : ∀ a ∈ s'.alerts, a ∈ s.alerts ∨
    (a.cert ∈ certs ∧ currentThreshold dateParse nowMs a.cert = some a.alert.thresholdDay)

/-- The loop, from the first certificate to the last. -/
lemma scanned_foldl (hs : Keyed s) :
    Scanned dateParse nowMs certs s (certs.foldl (scanCert dateParse nowMs) (s, n)).1 := by
  induction certs generalizing s n with
  | nil => exact ⟨hs, fun _ ha => ha, fun _ hcert => absurd hcert List.not_mem_nil, fun _ ha => .inl ha⟩
  | cons cert certs ih =>
    have heffect := scanCert_effect dateParse nowMs s n cert
    have hrest := ih (n := (scanCert dateParse nowMs (s, n) cert).2) (hs.effect heffect)
    have hfirst := subset_of_effect heffect
    refine ⟨hrest.keyed, fun a ha => hrest.subset (hfirst ha), fun cert' hcert' t ht => ?_,
      fun a ha => ?_⟩
    · rcases List.mem_cons.mp hcert' with rfl | hmem
      · exact List.map_subset _ hrest.subset (taken_of_effect hs heffect ht)
      · exact hrest.taken cert' hmem t ht
    · rcases hrest.new a ha with hold | ⟨hmem, ht⟩
      · rcases new_of_effect heffect hold with holder | ⟨rfl, ht⟩
        · exact .inl holder
        · exact .inr ⟨List.mem_cons_self, ht⟩
      · exact .inr ⟨List.mem_cons_of_mem _ hmem, ht⟩

/-- The invariant of all scans. -/
lemma Keyed.tick (hs : Keyed s) (listed : Option (List ListedCert)) :
    Keyed (s.tick dateParse nowMs listed).1 := by
  cases listed with
  | none => exact hs
  | some certs => exact (scanned_foldl hs).keyed

/-- A certificate adds as many alerts as it counts. -/
lemma length_of_effect (h : CertEffect dateParse nowMs s n cert p) :
    p.1.alerts.length + n = s.alerts.length + p.2 := by
  cases h with
  | far _ => rfl
  | taken t _ _ => rfl
  | send t days _ _ =>
    rw [List.length_cons]
    omega

/-- The number that a scan returns is that of its alerts. -/
lemma length_alerts_tick (s : Scanner) (listed : Option (List ListedCert)) :
    (s.tick dateParse nowMs listed).1.alerts.length =
      s.alerts.length + (s.tick dateParse nowMs listed).2 := by
  have hfold : ∀ (certs : List ListedCert) (p : Scanner × ℕ),
      (certs.foldl (scanCert dateParse nowMs) p).1.alerts.length + p.2 =
        p.1.alerts.length + (certs.foldl (scanCert dateParse nowMs) p).2 := by
    intro certs
    induction certs with
    | nil => exact fun p => rfl
    | cons cert certs ih =>
      intro p
      have hone := length_of_effect (scanCert_effect dateParse nowMs p.1 p.2 cert)
      have hrest := ih (scanCert dateParse nowMs p cert)
      rw [List.foldl_cons]
      change (scanCert dateParse nowMs p cert).1.alerts.length + p.2 =
        p.1.alerts.length + (scanCert dateParse nowMs p cert).2 at hone
      omega
  cases listed with
  | none => rfl
  | some certs => exact hfold certs (s, 0)

/-! ## All scans -/

/-- No certificate has been sent two alerts for a threshold. -/
lemma Keyed.nodup_cert (hs : Keyed s) :
    (s.alerts.map fun a => (a.cert, a.alert.thresholdDay)).Nodup := by
  have hkeys : s.alerts.map SentAlert.key =
      (s.alerts.map fun a => (a.cert, a.alert.thresholdDay)).map fun p => (p.1.domain, p.2) := by
    rw [List.map_map]
    refine List.map_congr_left fun a ha => ?_
    rw [SentAlert.key, hs.domain a ha]
    rfl
  exact List.Nodup.of_map _ (hkeys ▸ hs.nodup)

/-- The alert of a pair. -/
lemma Keyed.eq_of_key (hs : Keyed s) (ha : a ∈ s.alerts) (hb : b ∈ s.alerts) (h : a.key = b.key) :
    a = b :=
  List.inj_on_of_nodup_map hs.nodup ha hb h

/-- The invariant holds after every sequence of scans. -/
lemma keyed_of_trace {scans : List Scan} (h : Trace (scanStep dateParse) Free Scanner.start scans s) :
    Keyed s := by
  refine h.invariant (fun s a s' hs _ hst => ?_) ⟨fun k => ?_, List.nodup_nil, fun a ha => ?_⟩
  · obtain rfl := Option.some.inj hst
    exact hs.tick a.listed
  · simp [Scanner.start, Table.empty, Table.find]
  · cases ha

/-- After every sequence of scans, whatever they list and whenever they are made, no domain has been
sent two alerts for a threshold, and so no certificate has; and after one more scan an alert for its
current threshold has been sent for the domain of every listed certificate that has not expired and
has 30 days left at most. -/
theorem alerts_once_per_domain {scans : List Scan}
    (h : Trace (scanStep dateParse) Free Scanner.start scans s) :
    (s.alerts.map SentAlert.key).Nodup ∧
    (s.alerts.map fun a => (a.cert, a.alert.thresholdDay)).Nodup ∧
    ∀ nowMs certs, ∀ cert ∈ certs, ∀ expiresMs, dateParse cert.expiresAt = some expiresMs →
      0 ≤ daysUntil expiresMs nowMs → daysUntil expiresMs nowMs ≤ 30 →
      ∃ t, matchThreshold (daysUntil expiresMs nowMs) = some t ∧
        ∃ a ∈ (s.tick dateParse nowMs (some certs)).1.alerts,
          a.cert.domain = cert.domain ∧ a.alert.domain = cert.domain ∧ a.alert.thresholdDay = t := by
  have hkeyed := keyed_of_trace h
  refine ⟨hkeyed.nodup, hkeyed.nodup_cert, ?_⟩
  intro nowMs certs cert hcert expiresMs hparse hleft hthirty
  obtain ⟨t, ht⟩ := Option.isSome_iff_exists.mp (isSome_matchThreshold_iff.mpr ⟨hleft, hthirty⟩)
  have hcurrent : currentThreshold dateParse nowMs cert = some t := by
    rw [currentThreshold, hparse]
    exact ht
  have hscanned : Scanned dateParse nowMs certs s (s.tick dateParse nowMs (some certs)).1 :=
    scanned_foldl hkeyed
  obtain ⟨a, ha, hkey⟩ := List.mem_map.mp (hscanned.taken cert hcert t hcurrent)
  obtain ⟨hdomain, hthreshold⟩ := Prod.mk.inj hkey
  exact ⟨t, ht, a, ha, (hscanned.keyed.domain a ha).symm.trans hdomain, hdomain, hthreshold⟩

/-- The alert that a scan leaves for the pair of a certificate is for this very certificate exactly if
neither an earlier alert nor another certificate of the list has the pair. -/
theorem alert_of_certificate_iff {scans : List Scan}
    (h : Trace (scanStep dateParse) Free Scanner.start scans s) (hcert : cert ∈ certs)
    (ht : currentThreshold dateParse nowMs cert = some t)
    (hfirst : ∀ cert' ∈ certs, cert'.domain = cert.domain →
      currentThreshold dateParse nowMs cert' = some t → cert' = cert) :
    (∃ a ∈ (s.tick dateParse nowMs (some certs)).1.alerts, a.cert = cert ∧ a.alert.thresholdDay = t) ↔
      ∀ a ∈ s.alerts, a.key = (cert.domain, t) → a.cert = cert := by
  have hscanned : Scanned dateParse nowMs certs s (s.tick dateParse nowMs (some certs)).1 :=
    scanned_foldl (keyed_of_trace h)
  constructor
  · rintro ⟨a, ha, rfl, rfl⟩ b hb hkey
    have hsame : b.key = a.key := by rw [hkey, SentAlert.key, hscanned.keyed.domain a ha]
    rw [hscanned.keyed.eq_of_key (hscanned.subset hb) ha hsame]
  · intro hown
    obtain ⟨a, ha, hkey⟩ := List.mem_map.mp (hscanned.taken cert hcert t ht)
    obtain ⟨hdomain, hthreshold⟩ := Prod.mk.inj hkey
    refine ⟨a, ha, ?_, hthreshold⟩
    rcases hscanned.new a ha with hold | ⟨hmem, hcurrent⟩
    · exact hown a hold hkey
    · exact hfirst a.cert hmem ((hscanned.keyed.domain a ha).symm.trans hdomain) (hthreshold ▸ hcurrent)

/-! ## Sample scans -/

/-- The dates of the samples, 20 and 40 days after the epoch. -/
def sampleDate (date : String) : Option ℤ :=
  if date = "1970-01-21T00:00:00Z" then some 1728000000
  else if date = "1970-02-10T00:00:00Z" then some 3456000000
  else none

/-- A certificate. -/
def firstCert : ListedCert := ⟨"a.test", "1970-01-21T00:00:00Z", 1⟩

/-- The one that replaces it. -/
def renewedCert : ListedCert := ⟨"a.test", "1970-02-10T00:00:00Z", 2⟩

/-- A scan with twenty days left for the first certificate, and one with twenty days left for the
other. -/
def renewalScans : List Scan := [⟨0, some [firstCert]⟩, ⟨1728000000, some [renewedCert]⟩]

/-- The first certificate gets its alert, the second one none. -/
theorem renewed_gets_no_alert : ∃ s, Trace (scanStep sampleDate) Free Scanner.start renewalScans s ∧
    currentThreshold sampleDate 1728000000 renewedCert = some 30 ∧
    s.alerts.map SentAlert.cert = [firstCert] ∧ ¬ ∃ a ∈ s.alerts, a.cert = renewedCert := by
  have hrun : ((run (scanStep sampleDate) Scanner.start renewalScans).any fun s => decide
      (s.alerts.map SentAlert.cert = [firstCert])) = true := by
    decide +kernel
  obtain ⟨s, hs, hp⟩ := exists_trace_of_run hrun
  have hcerts := of_decide_eq_true hp
  refine ⟨s, hs, by decide +kernel, hcerts, ?_⟩
  rintro ⟨a, ha, hcert⟩
  have hmem : a.cert ∈ s.alerts.map SentAlert.cert := List.mem_map_of_mem ha
  rw [hcerts, hcert] at hmem
  exact absurd hmem (by decide)

/-- A third scan finds the renewed certificate at the threshold of 14 days. -/
theorem alerts_once_per_domain_sample : ∃ s : Scanner, s.alerts.length = 1 ∧
    (s.alerts.map SentAlert.key).Nodup ∧
    ∃ t, matchThreshold (daysUntil 3456000000 2592000000) = some t ∧
      ∃ a ∈ (s.tick sampleDate 2592000000 (some [renewedCert])).1.alerts,
        a.cert.domain = "a.test" ∧ a.alert.domain = "a.test" ∧ a.alert.thresholdDay = t := by
  have hrun : ((run (scanStep sampleDate) Scanner.start renewalScans).any fun s => decide
      (s.alerts.length = 1)) = true := by
    decide +kernel
  obtain ⟨s, hs, hp⟩ := exists_trace_of_run hrun
  obtain ⟨hnodup, -, hcovered⟩ := alerts_once_per_domain hs
  exact ⟨s, of_decide_eq_true hp, hnodup, hcovered 2592000000 [renewedCert] renewedCert List.mem_cons_self
    3456000000 (by decide) (by decide) (by decide)⟩

end SmartSchoolCdn.Admin
