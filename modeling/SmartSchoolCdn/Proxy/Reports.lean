import SmartSchoolCdn.Proxy.Coalescer
import SmartSchoolCdn.Proxy.Counters

/-!
# What the proxy reports about its answers

The sites of `proxy_handler` and of `stream_bypass_response` that call
`record_domain_outcome`, and right after it `emit_media_cache_event`.  `State.report` says
which of them a step passes and with which arguments, and the rest of the module relates that
to the step: a site is passed in the step that answers the request, and every way in which a
request can leave the proxy either passes one site or is among those that pass none
(`Step.gone`).
-/

namespace SmartSchoolCdn

variable {cfg : Config} {s s' : State} {a : Action} {rid : ℕ} {t : Task} {r : Report}

/-! ## The sites -/

/-- The arguments of the two calls of a site, but for the time that has passed. -/
structure Report where
  rid : ℕ
  host : String
  request : Request
  outcome : CacheOutcome
  bandwidth : ℕ
  decision : String
  origSize : Option ℕ
  outSize : Option ℕ
  contentType : Option String
  /-- `is_stale_served`. -/
  stale : Bool
  deriving DecidableEq

/-- The decision of an answer to which ranges apply. -/
def rangeDecision (outcome : CacheOutcome) (headers : HeaderMap) (total : ℕ) : String :=
  match evaluateRange headers total with
  | .full => outcome.asHeader
  | .partialBody _ _ => outcome.asHeader ++ "_206"
  | .invalid => outcome.asHeader ++ "_416"

/-- The site of an L1 or L2 HIT. -/
def hitReport (cfg : Config) (rid : ℕ) (t : Task) (outcome : CacheOutcome) (entry : MemoryCacheEntry) :
    Report :=
  let total := entry.body.bytes.length
  { rid := rid
    host := t.host
    request := t.request
    outcome := outcome
    bandwidth := total
    decision := rangeDecision outcome t.request.headers total
    origSize := some total
    outSize := some (hitBody cfg t.request entry).2.1.length
    contentType := entry.contentType
    stale := false }

/-- The site of a response of the coalescer. -/
def coalescedReport (rid : ℕ) (t : Task) (resp : Coalesced) : Report :=
  let total := resp.body.length
  { rid := rid
    host := t.host
    request := t.request
    outcome := resp.outcome
    bandwidth := total
    decision :=
      if resp.status = 200 then rangeDecision resp.outcome t.request.headers total
      else resp.outcome.asHeader
    origSize := some total
    outSize := some (missBody t.request resp).2.1.length
    contentType := resp.contentType
    stale := resp.passthroughHeaders.any fun nv => nv.1 == "x-cache-stale" && nv.2 == "true" }

/-- The site of an error of the coalescer. -/
def failedReport (rid : ℕ) (t : Task) : Report :=
  { rid := rid
    host := t.host
    request := t.request
    outcome := .bypassOther
    bandwidth := 0
    decision := CacheOutcome.bypassOther.asHeader
    origSize := none
    outSize := none
    contentType := none
    stale := false }

/-- The site of `stream_bypass_response`. -/
def streamReport (rid : ℕ) (t : Task) (resp : OriginResponse) : Report :=
  { rid := rid
    host := t.host
    request := t.request
    outcome := .bypassSize
    bandwidth := 0
    decision := CacheOutcome.bypassSize.asHeader
    origSize := declaredLength resp.headers
    outSize := none
    contentType := resp.headers.getStr "content-type"
    stale := false }

/-- The site of a method that is not cached. -/
def directReport (rid : ℕ) (t : Task) (resp : OriginResponse) : Report :=
  { rid := rid
    host := t.host
    request := t.request
    outcome := .bypassMethod
    bandwidth := resp.body.length
    decision := CacheOutcome.bypassMethod.asHeader
    origSize := some resp.body.length
    outSize := some resp.body.length
    contentType := resp.headers.getStr "content-type"
    stale := false }

/-- The site that a result of the coalescer passes; the marker passes none. -/
def fetchedReport (rid : ℕ) (t : Task) (result : Fetched) : Option Report :=
  match result.response with
  | none => some (failedReport rid t)
  | some resp => if resp.isSentinel then none else some (coalescedReport rid t resp)

/-- The site that a step of a request passes. -/
def taskReport (cfg : Config) (s : State) (rid : ℕ) (t : Task) : Action → Option Report
  | .l1Get _ => match t.phase with
    | .l1Lookup => t.key.bind fun key =>
        (s.memoryGet cfg key).map fun slot => hitReport cfg rid t .l1Hit slot.entry
    | _ => none
  | .promote _ => match t.phase with
    | .promoting x lookedUpAt => some (hitReport cfg rid t .l2Hit (x.seen lookedUpAt).toEntry)
    | _ => none
  | .respond _ => match t.phase with
    | .respond _ result => fetchedReport rid t result
    | _ => none
  | .stream _ resp => resp.map fun resp => streamReport rid t resp
  | .direct _ reply => match reply with
    | .answered resp => some (directReport rid t resp)
    | _ => none
  | _ => none

/-- The site that a step passes. -/
def State.report (cfg : Config) (s : State) (a : Action) : Option Report :=
  a.task.bind fun rid => (s.tasks rid).bind fun t => taskReport cfg s rid t a

/-! ## Sites and steps -/

/-- The site of an action of a request. -/
lemma report_of_task (ha : a.task = some rid) (ht : s.tasks rid = some t) :
    s.report cfg a = taskReport cfg s rid t a := by
  rw [State.report, ha, Option.bind_some, ht, Option.bind_some]

/-- A site is passed by a request, with its number, host and request. -/
lemma of_report (h : s.report cfg a = some r) :
    a.task = some r.rid ∧ ∃ t, s.tasks r.rid = some t ∧ r.host = t.host ∧ r.request = t.request := by
  unfold State.report at h
  rw [Option.bind_eq_some_iff] at h
  obtain ⟨rid, ha, h⟩ := h
  rw [Option.bind_eq_some_iff] at h
  obtain ⟨t, ht, h⟩ := h
  suffices hr : r.rid = rid ∧ r.host = t.host ∧ r.request = t.request by
    obtain ⟨rfl, hhost, hrequest⟩ := hr
    exact ⟨ha, t, ht, hhost, hrequest⟩
  unfold taskReport at h
  split at h
  · split at h
    · rw [Option.bind_eq_some_iff] at h
      obtain ⟨key, -, h⟩ := h
      rw [Option.map_eq_some_iff] at h
      obtain ⟨slot, -, rfl⟩ := h
      exact ⟨rfl, rfl, rfl⟩
    · cases h
  · split at h
    · obtain rfl := Option.some.inj h
      exact ⟨rfl, rfl, rfl⟩
    · cases h
  · split at h
    · unfold fetchedReport at h
      split at h
      · obtain rfl := Option.some.inj h
        exact ⟨rfl, rfl, rfl⟩
      · split at h
        · cases h
        · obtain rfl := Option.some.inj h
          exact ⟨rfl, rfl, rfl⟩
    · cases h
  · rw [Option.map_eq_some_iff] at h
    obtain ⟨resp, -, rfl⟩ := h
    exact ⟨rfl, rfl, rfl⟩
  · split at h
    · obtain rfl := Option.some.inj h
      exact ⟨rfl, rfl, rfl⟩
    · cases h
  · cases h

/-- The actions that end a request without passing a site: the request body cannot be read,
no slot of the origin semaphore is free, the fetch of a request of its own fails, the client
goes away. -/
def Action.counted : Action → Bool
  | .readBody _ ok => ok
  | .streamPermit _ ok => ok
  | .directPermit _ ok => ok
  | .stream _ resp => resp.isSome
  | .direct _ reply => match reply with
    | .answered _ => true
    | _ => false
  | .cancel _ => false
  | _ => true

/-- A request that has changed its phase is still there. -/
lemma setPhase_tasks_ne {r : ℕ} {t' : Task} {phase : Phase} (ht : s.tasks rid = some t) :
    (s.setPhase r t' phase).tasks rid ≠ none := by
  change Function.update s.tasks r _ rid ≠ none
  rw [Function.update_apply]
  split
  · exact Option.some_ne_none _
  · rw [ht]
    exact Option.some_ne_none _

/-- After a broadcast every request is still there. -/
lemma broadcast_tasks_eq {leader : ℕ} {result : Fetched} :
    (s.broadcast leader result).tasks rid = none ↔ s.tasks rid = none := by
  change (s.tasks rid).map _ = none ↔ _
  rw [Option.map_eq_none_iff]

/-- Only the request that ends leaves. -/
lemma eq_of_update_none {tasks : ℕ → Option Task} {r : ℕ} (ht : tasks rid = some t)
    (hgone : Function.update tasks r none rid = none) : rid = r := by
  by_contra hne
  rw [Function.update_of_ne hne, ht] at hgone
  cases hgone

/-- A request leaves the proxy in a step of its own, which passes a site or is one of the
actions that pass none. -/
theorem Step.gone (hI : Coalescing s) (h : Step cfg s a s') (ht : s.tasks rid = some t)
    (hgone : s'.tasks rid = none) :
    a.task = some rid ∧ ((s.report cfg a).isSome = a.counted) := by
  have hsite : ∀ {r : ℕ} {t' : Task}, s.tasks r = some t' → rid = r → a.task = some r →
      (taskReport cfg s r t' a).isSome = a.counted →
      a.task = some rid ∧ (s.report cfg a).isSome = a.counted := by
    rintro r t' ht' rfl ha hreport
    exact ⟨ha, by rw [report_of_task ha ht', hreport]⟩
  have hstays : ∀ {u : State} {r : ℕ} {t' : Task} {phase : Phase}, u.tasks = s.tasks →
      (u.setPhase r t' phase).tasks rid = none → False :=
    fun hu hnone => setPhase_tasks_ne (hu ▸ ht) hnone
  have hsame : s'.tasks = s.tasks → False := fun heq => by
    rw [heq, ht] at hgone
    cases hgone
  cases h with
  | @readBody r t' ok ht' hphase =>
    cases ok with
    | true => exact (hstays rfl hgone).elim
    | false => exact hsite ht' (eq_of_update_none ht hgone) rfl rfl
  | @respond r t' leader result ht' hphase =>
    unfold State.respond at hgone
    cases hresponse : result.response with
    | none =>
      rw [hresponse] at hgone
      refine hsite ht' (eq_of_update_none ht hgone) rfl ?_
      simp [taskReport, hphase, fetchedReport, hresponse, Action.counted]
    | some resp =>
      rw [hresponse] at hgone
      by_cases hsentinel : resp.isSentinel = true
      · simp only [hsentinel, if_true] at hgone
        exact (hstays rfl hgone).elim
      · simp only [hsentinel] at hgone
        refine hsite ht' (eq_of_update_none ht hgone) rfl ?_
        simp [taskReport, hphase, fetchedReport, hresponse, hsentinel, Action.counted]
  | streamStart => exact (hstays rfl hgone).elim
  | streamBusy ht' => exact hsite ht' (eq_of_update_none ht hgone) rfl rfl
  | @stream r t' resp ht' =>
    refine hsite ht' (eq_of_update_none ht hgone) rfl ?_
    simp [taskReport, Action.counted]
  | directStart => exact (hstays rfl hgone).elim
  | directBusy ht' => exact hsite ht' (eq_of_update_none ht hgone) rfl rfl
  | @direct r t' reply ht' =>
    refine hsite ht' (eq_of_update_none ht hgone) rfl ?_
    cases reply <;> rfl
  | @cancel r t' ht' =>
    refine hsite ht' ?_ rfl rfl
    by_contra hne
    simp only [State.cancel, Function.update_of_ne hne] at hgone
    split at hgone
    · split at hgone
      · rw [broadcast_tasks_eq] at hgone
        exact absurd (ht.symm.trans hgone) (Option.some_ne_none t)
      · exact absurd (ht.symm.trans hgone) (Option.some_ne_none t)
    · exact absurd (ht.symm.trans hgone) (Option.some_ne_none t)
  | @l1Get r t' key ht' hkey hphase =>
    unfold State.l1Get at hgone
    split at hgone
    · rename_i slot hslot
      refine hsite ht' (eq_of_update_none ht hgone) rfl ?_
      simp [taskReport, hphase, hkey, hslot, Action.counted]
    · exact (hstays rfl hgone).elim
  | @l2Get r t' key answered =>
    have htasks := (onlyStorage_attempt s (.get key false) answered).tasks
    simp only [State.l2Get] at hgone
    split at hgone
    · exact (hstays (u := s.attempt (.get key false) true) htasks hgone).elim
    · exact (hstays htasks hgone).elim
  | @promote r t' key x lookedUpAt ht' hkey hphase =>
    have hr : rid = r := by
      simp only [State.promote] at hgone
      split at hgone <;> exact eq_of_update_none ht hgone
    refine hsite ht' hr rfl ?_
    simp [taskReport, hphase, Action.counted]
  | coalesce =>
    unfold State.coalesce at hgone
    split at hgone <;> exact (hstays rfl hgone).elim
  | @permit r t' key ok =>
    cases ok <;> exact (hstays rfl hgone).elim
  | sendFailed => exact (hstays rfl hgone).elim
  | head => exact (hstays rfl hgone).elim
  | @staleLookup r t' key fetch head answered =>
    have htasks := (onlyStorage_attempt s (.get key true) answered).tasks
    simp only [State.staleLookup] at hgone
    split at hgone
    · exact (hstays (u := s.attempt (.get key true) true) htasks hgone).elim
    · exact (hstays htasks hgone).elim
  | staleDecide => exact (hstays rfl hgone).elim
  | reserve => exact (hstays rfl hgone).elim
  | @body r t' key fetch status headers body =>
    simp only [State.originBody] at hgone
    split at hgone <;> exact (hstays rfl hgone).elim
  | bodyFailed => exact (hstays rfl hgone).elim
  | @publish r t' key result =>
    change ((s.setPhase r t' (.respond r result)).leave key |>.broadcast r result).tasks rid = none at hgone
    rw [broadcast_tasks_eq] at hgone
    exact (hstays rfl hgone).elim
  | @savePut id save entry answered => cases answered <;> exact (hsame rfl).elim
  | saveInsert =>
    refine (hsame ?_).elim
    unfold State.saveInsert
    split <;> rfl
  | @arrive req =>
    have hne : rid ≠ s.nextId := (hI.taskKnown rid t ht).ne
    simp only [State.arrive] at hgone
    split at hgone
    · exact absurd (eq_of_update_none ht hgone) hne
    · split at hgone
      · exact absurd (eq_of_update_none ht hgone) hne
      · exact (hstays (u := { s with nextId := s.nextId + 1 }) rfl hgone).elim
  | purgeFinish => exact (hsame (onlyStorage_callPurge s _ _).tasks).elim
  | _ => exact (hsame rfl).elim

/-- The request that passes a site is answered in the same step. -/
theorem Step.gone_of_report (h : Step cfg s a s') (hr : s.report cfg a = some r) :
    s'.tasks r.rid = none := by
  have hgone : ∀ tasks : ℕ → Option Task, Function.update tasks r.rid none r.rid = none :=
    fun tasks => Function.update_self r.rid none tasks
  obtain ⟨ha, t, ht, -, -⟩ := of_report hr
  rw [report_of_task ha ht] at hr
  cases h with
  | @respond _ t' leader result ht' hphase =>
    obtain rfl := Option.some.inj ha
    obtain rfl := Option.some.inj (ht.symm.trans ht')
    simp only [taskReport, hphase, fetchedReport] at hr
    cases hresponse : result.response with
    | none =>
      simp only [State.respond, hresponse]
      exact hgone _
    | some resp =>
      simp only [hresponse] at hr
      split at hr
      · cases hr
      · rename_i hsentinel
        simp only [State.respond, hresponse, hsentinel]
        exact hgone _
  | @stream _ t' resp =>
    obtain rfl := Option.some.inj ha
    exact hgone _
  | @direct _ t' reply =>
    obtain rfl := Option.some.inj ha
    exact hgone _
  | @l1Get _ t' key ht' hkey hphase =>
    obtain rfl := Option.some.inj ha
    obtain rfl := Option.some.inj (ht.symm.trans ht')
    simp only [taskReport, hphase, hkey, Option.bind_some, Option.map_eq_some_iff] at hr
    obtain ⟨slot, hslot, -⟩ := hr
    unfold State.l1Get
    rw [hslot]
    exact hgone _
  | @promote _ t' key x lookedUpAt =>
    obtain rfl := Option.some.inj ha
    simp only [State.promote]
    split <;> exact hgone _
  | _ => cases hr

end SmartSchoolCdn
