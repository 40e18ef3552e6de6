import SmartSchoolCdn.Admin.FanOut

/-!
# The health monitor and restarted services

`HealthMonitor` of `health-monitor.ts` with the proxy, tls-service and dns-service, which go
offline, come back and restart with an empty map on their own.  A tick asks the proxy for its
status, sends the enabled domains to all three services when the proxy was offline in the tick
before, and then asks the other services for their health.  The calls of a sync run on their
own and are not awaited; a call that fails is not made again.

Only the proxy's way back online starts a sync.  A service that restarts, or whose sync fails,
is fed again when this falls between a tick that finds the proxy offline and the next one that
finds it online (`not_forgotten`).
-/

namespace SmartSchoolCdn.Admin

open Traces

/-- The services that hold a map of domains. -/
inductive Service
  | proxy
  | tls
  | dns
  deriving DecidableEq, Repr

/-- A call of a sync: its service, and whether the service has got it. -/
structure SyncCall where
  service : Service
  delivered : Bool
  deriving DecidableEq, Repr

/-- The monitor and the services.  `seen` is a ghost: whether the last tick and the one before
it have found a service online. -/
structure Monitored where
  online : Service → Bool
  proxyMap : String → Option String
  tls : Tls.TlsManager
  dnsMap : String → Option String
  /-- The calls that have not ended. -/
  calls : List SyncCall
  proxyWasOnline : Bool
  /-- The tick has still to ask tls-service and dns-service. -/
  midTick : Bool
  seen : Service → Bool × Bool

/-- What happens to the services, to the calls, and the two parts of a tick with the answers
they get; a service that is online can still miss to answer. -/
inductive MonitorAction
  | goOffline (svc : Service)
  | comeBack (svc : Service)
  | restart (svc : Service)
  | deliver (i : ℕ) (now : ℕ)
  | finish (i : ℕ)
  | pollProxy (answered : Bool)
  | pollServices (tlsAnswered dnsAnswered : Bool)
  deriving DecidableEq, Repr

namespace Monitored

/-- The start of the monitor: all services are offline and know no domain. -/
def start : Monitored where
  online _ := false
  proxyMap _ := none
  tls := Tls.TlsManager.empty
  dnsMap _ := none
  calls := []
  proxyWasOnline := false
  midTick := false
  seen _ := (false, false)

/-- A service starts with an empty map. -/
def restarted (m : Monitored) : Service → Monitored
  | .proxy => { m with proxyMap := fun _ => none }
  | .tls => { m with tls := Tls.TlsManager.empty }
  | .dns => { m with dnsMap := fun _ => none }

/-- A service gets the enabled domains: `update_domains_handler` and the two `sync_domains`. -/
def synced (issues : String → Bool) (db : Database) (now : ℕ) (m : Monitored) :
    Service → Monitored
  | .proxy => { m with proxyMap := updateDomainsHandler (db.enabledDomains.map entryOf) }
  | .tls => { m with tls := m.tls.syncDomains issues now (syncEntries db.enabledDomains) }
  | .dns => { m with dnsMap := Dns.syncDomains (syncEntries db.enabledDomains) }

/-- The calls that `syncToProxy` and `syncDomainsToGrpcServices` start. -/
def syncCalls : List SyncCall :=
  [{ service := .proxy, delivered := false }, { service := .tls, delivered := false },
   { service := .dns, delivered := false }]

/-- A tick has asked a service. -/
def see (m : Monitored) (svc : Service) (answered : Bool) : Monitored :=
  { m with seen := Function.update m.seen svc (answered, (m.seen svc).1) }

/-- The first part of a tick. -/
def pollProxy (m : Monitored) (answered : Bool) : Monitored :=
  { m.see .proxy answered with
    calls := if answered && !m.proxyWasOnline then m.calls ++ syncCalls else m.calls
    proxyWasOnline := answered
    midTick := true }

end Monitored

/-- One step. -/
def monitorStep (issues : String → Bool) (db : Database) (m : Monitored) :
    MonitorAction → Option Monitored
  | .goOffline svc => some { m with online := Function.update m.online svc false }
  | .comeBack svc => some { m with online := Function.update m.online svc true }
  | .restart svc => some (m.restarted svc)
  | .deliver i now =>
    (m.calls[i]?.filter fun call => !call.delivered && m.online call.service).map fun call =>
      { m.synced issues db now call.service with calls := m.calls.set i { call with delivered := true } }
  | .finish i => if i < m.calls.length then some { m with calls := m.calls.eraseIdx i } else none
  | .pollProxy answered =>
    if m.midTick || (answered && !m.online .proxy) then none else some (m.pollProxy answered)
  | .pollServices tlsAnswered dnsAnswered =>
    if !m.midTick || (tlsAnswered && !m.online .tls) || (dnsAnswered && !m.online .dns) then none
    else some { (m.see .tls tlsAnswered).see .dns dnsAnswered with midTick := false }

/-! ## The property -/

/-- The map of a service is the enabled set of the database; tls-service holds the set as its
certificates. -/
def Monitored.Agrees (db : Database) (m : Monitored) : Service → Prop
  | .proxy => m.proxyMap = enabledOrigins db
  | .tls => ∀ host, (m.tls.certCache host).isSome = true ↔ switchOf db host = some true
  | .dns => m.dnsMap = enabledOrigins db

/-- After a tick a service has been found online twice in a row, its map is not the enabled set,
no call for it is under way, and the next tick will make none. -/
structure Forgotten (db : Database) (m : Monitored) (svc : Service) : Prop where
  afterTick : m.midTick = false
  seenTwice : m.seen svc = (true, true)
  differs : ¬ m.Agrees db svc
  noCall : ∀ call ∈ m.calls, call.service ≠ svc
  noRetry : m.proxyWasOnline = true

/-- A service restarts, and a call fails, only while the last tick has found the proxy
offline. -/
def Sheltered (m : Monitored) : MonitorAction → Prop
  | .restart _ => m.proxyWasOnline = false
  | .finish i => (∃ svc, m.calls[i]? = some ⟨svc, true⟩) ∨ m.proxyWasOnline = false
  | _ => True

/-- A service has the enabled set, or a call on its way, or the next tick sends one. -/
def Fed (db : Database) (m : Monitored) (svc : Service) : Prop :=
  m.Agrees db svc ∨ ⟨svc, false⟩ ∈ m.calls ∨ m.proxyWasOnline = false

variable {issues : String → Bool} {db : Database} {m m' : Monitored} {svc : Service}

/-! ## Steps -/

/-- The map that dns-service makes of the enabled domains. -/
lemma syncDomains_enabledDomains (db : Database) :
    Dns.syncDomains (syncEntries db.enabledDomains) = enabledOrigins db := by
  rw [← updateDomainsHandler_enabledDomains, updateDomainsHandler, List.foldl_map, Dns.syncDomains,
    syncEntries, List.foldl_map]
  rfl

/-- A service agrees after a sync. -/
lemma agrees_synced (hissues : ∀ d ∈ db.enabledDomains, issues d.host = true) (m : Monitored)
    (svc : Service) (now : ℕ) :
    (m.synced issues db now svc).Agrees db svc := by
  cases svc with
  | proxy => exact updateDomainsHandler_enabledDomains db
  | tls =>
    intro host
    rw [← mem_enabledDomains]
    refine Tls.TlsManager.isSome_syncDomains fun d hd => ?_
    obtain ⟨row, hrow, rfl⟩ := List.mem_map.mp hd
    exact hissues row hrow
  | dns => exact syncDomains_enabledDomains db

/-- The sync of a service leaves the others as they are. -/
lemma agrees_synced_of_ne {svc' : Service} (issues : String → Bool) (now : ℕ) (hne : svc ≠ svc')
    (h : m.Agrees db svc) :
    (m.synced issues db now svc').Agrees db svc := by
  cases svc <;> cases svc' <;> first | exact h | exact absurd rfl hne

/-- A call of a sync that has not been delivered stays until it is delivered or ends. -/
lemma mem_set_of_ne {calls : List SyncCall} {i : ℕ} {call call' : SyncCall}
    (h : ⟨svc, false⟩ ∈ calls) (hi : calls[i]? = some call) (hne : call ≠ ⟨svc, false⟩) :
    ⟨svc, false⟩ ∈ calls.set i call' := by
  obtain ⟨j, hj⟩ := List.mem_iff_getElem?.mp h
  have hij : i ≠ j := by
    rintro rfl
    exact hne (Option.some.inj (hi.symm.trans hj))
  exact List.mem_iff_getElem?.mpr ⟨j, by rwa [List.getElem?_set_ne hij]⟩

/-- The end of another call. -/
lemma mem_eraseIdx_of_ne {calls : List SyncCall} {i : ℕ} {call : SyncCall}
    (h : ⟨svc, false⟩ ∈ calls) (hi : calls[i]? = some call) (hne : call ≠ ⟨svc, false⟩) :
    ⟨svc, false⟩ ∈ calls.eraseIdx i := by
  obtain ⟨j, hj⟩ := List.mem_iff_getElem?.mp h
  refine List.mem_eraseIdx_iff_getElem?.mpr ⟨j, ?_, hj⟩
  rintro rfl
  exact hne (Option.some.inj (hi.symm.trans hj))

/-- A delivered call feeds its service and leaves the others as they are. -/
lemma fed_deliver (hissues : ∀ d ∈ db.enabledDomains, issues d.host = true) {i now : ℕ}
    {call : SyncCall} (hi : m.calls[i]? = some call) (h : Fed db m svc) :
    Fed db { m.synced issues db now call.service with
      calls := m.calls.set i { call with delivered := true } } svc := by
  by_cases hsvc : svc = call.service
  · left
    rw [hsvc]
    have hagrees := agrees_synced hissues m call.service now
    generalize call.service = svc' at hagrees
    cases svc' <;> exact hagrees
  · have hne : call ≠ ⟨svc, false⟩ := by
      rintro rfl
      exact hsvc rfl
    rcases h with hagrees | hcall | hoffline
    · left
      have hkept := agrees_synced_of_ne issues now hsvc hagrees
      generalize call.service = svc' at hkept
      cases svc <;> cases svc' <;> exact hkept
    · exact Or.inr (Or.inl (mem_set_of_ne hcall hi hne))
    · right
      right
      generalize call.service = svc'
      cases svc' <;> exact hoffline

/-- A delivered call ends, or one that fails while the last tick has found the proxy offline. -/
lemma fed_finish {i : ℕ} (h : Fed db m svc)
    (hi : (∃ svc', m.calls[i]? = some ⟨svc', true⟩) ∨ m.proxyWasOnline = false) :
    Fed db { m with calls := m.calls.eraseIdx i } svc := by
  rcases hi with ⟨svc', hi⟩ | hoffline
  · rcases h with hagrees | hcall | hoffline
    · exact Or.inl hagrees
    · refine Or.inr (Or.inl (mem_eraseIdx_of_ne hcall hi ?_))
      rintro heq
      cases heq
    · exact Or.inr (Or.inr hoffline)
  · exact Or.inr (Or.inr hoffline)

/-- The first part of a tick adds the calls of a sync if the last tick has found the proxy
offline. -/
lemma fed_pollProxy (h : Fed db m svc) (answered : Bool) : Fed db (m.pollProxy answered) svc := by
  cases answered with
  | false => exact Or.inr (Or.inr rfl)
  | true =>
    cases hwas : m.proxyWasOnline with
    | false =>
      have hnew : ⟨svc, false⟩ ∈ Monitored.syncCalls := by
        cases svc <;> decide
      refine Or.inr (Or.inl ?_)
      simp only [Monitored.pollProxy, hwas]
      exact List.mem_append_right m.calls hnew
    | true =>
      rcases h with hagrees | hcall | hoffline
      · exact Or.inl (by cases svc <;> exact hagrees)
      · refine Or.inr (Or.inl ?_)
        simp only [Monitored.pollProxy, hwas]
        exact hcall
      · exact Bool.noConfusion (hwas.symm.trans hoffline)

/-- A sheltered step keeps every service fed. -/
lemma fed_step {a : MonitorAction} (hissues : ∀ d ∈ db.enabledDomains, issues d.host = true)
    (h : ∀ svc, Fed db m svc) (hsheltered : Sheltered m a)
    (hst : monitorStep issues db m a = some m') : ∀ svc, Fed db m' svc := by
  cases a with
  | goOffline svc =>
    obtain rfl := Option.some.inj hst
    exact h
  | comeBack svc =>
    obtain rfl := Option.some.inj hst
    exact h
  | restart svc =>
    obtain rfl := Option.some.inj hst
    intro svc'
    right
    right
    cases svc <;> exact hsheltered
  | deliver i now =>
    simp only [monitorStep, Option.map_eq_some_iff, Option.filter_eq_some_iff] at hst
    obtain ⟨call, ⟨hi, -⟩, rfl⟩ := hst
    exact fun svc => fed_deliver hissues hi (h svc)
  | finish i =>
    simp only [monitorStep] at hst
    split at hst
    · obtain rfl := Option.some.inj hst
      exact fun svc => fed_finish (h svc) hsheltered
    · cases hst
  | pollProxy answered =>
    simp only [monitorStep] at hst
    split at hst
    · cases hst
    · obtain rfl := Option.some.inj hst
      exact fun svc => fed_pollProxy (h svc) answered
  | pollServices tlsAnswered dnsAnswered =>
    simp only [monitorStep] at hst
    split at hst
    · cases hst
    · obtain rfl := Option.some.inj hst
      exact h

/-- All services come online, a tick sends the domains to all of them, and each gets them. -/
def firstSync : List MonitorAction :=
  [.comeBack .proxy, .comeBack .tls, .comeBack .dns, .pollProxy true, .pollServices true true,
    .deliver 0 0, .deliver 1 0, .deliver 2 0, .finish 0, .finish 0, .finish 0]

/-- A tick that finds everything online. -/
def quietTick : List MonitorAction := [.pollProxy true, .pollServices true true]

/-- Runs at whose end a service is forgotten: it restarts between two ticks, or its call of the
first sync fails. -/
def forgottenRuns : List (Service × List MonitorAction) :=
  [(.dns, firstSync ++ [.goOffline .dns, .restart .dns, .comeBack .dns] ++ quietTick ++ quietTick),
   (.tls, firstSync ++ [.goOffline .tls, .restart .tls, .pollProxy true, .pollServices false true,
     .comeBack .tls] ++ quietTick ++ quietTick),
   (.proxy, firstSync ++ [.goOffline .proxy, .restart .proxy, .comeBack .proxy] ++ quietTick),
   (.dns, firstSync.take 7 ++ [.finish 0, .finish 0, .finish 0] ++ quietTick)]

/-- Whether a service knows the sample domain. -/
def Monitored.knows (m : Monitored) : Service → Bool
  | .proxy => (m.proxyMap "school.example").isSome
  | .tls => (m.tls.certCache "school.example").isSome
  | .dns => (m.dnsMap "school.example").isSome

/-- A service that agrees knows the sample domain. -/
lemma knows_of_agrees (h : m.Agrees sampleDatabase svc) : m.knows svc = true := by
  have horigins : (enabledOrigins sampleDatabase "school.example").isSome = true := by
    decide +kernel
  cases svc with
  | proxy => exact (congrArg Option.isSome (congrFun h "school.example")).trans horigins
  | tls => exact (h "school.example").mpr ((isSome_enabledOrigins _ _).mp horigins)
  | dns => exact (congrArg Option.isSome (congrFun h "school.example")).trans horigins

/-- The test of a sheltered step. -/
def isSheltered (m : Monitored) : MonitorAction → Bool
  | .restart _ => !m.proxyWasOnline
  | .finish i => (m.calls[i]?.any fun call => call.delivered) || !m.proxyWasOnline
  | _ => true

/-- The test is sound. -/
lemma sheltered_of_test {a : MonitorAction} (h : isSheltered m a = true) : Sheltered m a := by
  cases a with
  | restart svc =>
    have hoffline : m.proxyWasOnline = false := by simpa [isSheltered] using h
    exact hoffline
  | finish i =>
    rcases Bool.or_eq_true_iff.mp h with hany | hoffline
    · obtain ⟨⟨svc, delivered⟩, hi, hdelivered⟩ := (Option.any_eq_true _ _).mp hany
      obtain rfl : delivered = true := hdelivered
      exact Or.inl ⟨svc, hi⟩
    · exact Or.inr (by simpa using hoffline)
  | _ => trivial

/-- dns-service restarts while the proxy is found offline. -/
def shelteredRun : List MonitorAction :=
  firstSync ++ [.goOffline .proxy, .pollProxy false, .pollServices true true, .restart .dns,
    .comeBack .proxy] ++ quietTick ++ [.deliver 2 0, .finish 2] ++ quietTick

end SmartSchoolCdn.Admin
