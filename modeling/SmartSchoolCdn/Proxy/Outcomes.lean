import SmartSchoolCdn.Proxy.Reports

/-!
# One outcome for each request

The proxy with its domain counters.  Beside the counters the log of the calls of
`record_domain_outcome` and the hosts of the requests addressed to a configured domain are
kept as ghosts.

A request that passes a site is counted once, as a request and under one outcome.  The paths
that end a request without a site leave it out: an unreadable request body, a full origin
semaphore outside the coalescer, the failed fetch of a method that is not cached or of the
streaming path, and a client that goes away (`one_outcome_iff`).
-/

namespace SmartSchoolCdn

open Traces

/-! ## The observed proxy -/

/-- The proxy with its counters, the calls that made them, and the host of every request
addressed to a configured domain. -/
structure Observed where
  proxy : State
  counters : DomainCounters
  calls : List OutcomeCall
  addressed : ℕ → Option String

/-- The call of `record_domain_outcome` of a site, with the time that has passed. -/
def Report.call (r : Report) (elapsedMs : ℕ) : OutcomeCall :=
  { rid := r.rid
    host := r.host
    outcome := r.outcome
    bandwidth := r.bandwidth
    responseTimeMs := elapsedMs }

/-- The host of a request that arrives for a configured domain. -/
def State.addressedHost (s : State) : Action → Option String
  | .arrive req => (req.headers.getStr "host").bind fun raw =>
      (findOrigin s.domainMap (normalizeHost raw)).map fun _ => normalizeHost raw
  | _ => none

namespace Observed

/-- The start. -/
def initial (maxSizeBytes : UInt64) : Observed :=
  { proxy := State.initial maxSizeBytes
    counters := fun _ => none
    calls := []
    addressed := fun _ => none }

/-- The calls of one request. -/
def callsOf (o : Observed) (rid : ℕ) : List OutcomeCall :=
  o.calls.filter fun call => call.rid = rid

/-- The calls of the other requests. -/
def callsOfOthers (o : Observed) (rid : ℕ) : List OutcomeCall :=
  o.calls.filter fun call => !decide (call.rid = rid)

end Observed

/-- A step of the proxy, and what it records; `elapsedMs` is what the clock of the site shows. -/
def observedStep (cfg : Config) (o : Observed) (a : Action × ℕ) : Option Observed :=
  (step cfg o.proxy a.1).map fun s' =>
    let call := (o.proxy.report cfg a.1).map fun r => r.call a.2
    { proxy := s'
      counters := call.elim o.counters o.counters.recordDomainOutcome
      calls := call.toList ++ o.calls
      addressed :=
        match o.proxy.addressedHost a.1 with
        | some host => Function.update o.addressed o.proxy.nextId (some host)
        | none => o.addressed }

/-- Because of a request the counters of a host show one request more, and one more under
exactly one outcome. -/
def GrowsOnce (o : Observed) (rid : ℕ) (host : String) : Prop :=
  ∃ outcome : CacheOutcome, ∀ f, f ≠ .bandwidth → f ≠ .responseTimeSum →
    o.counters.counter host f = tally (o.callsOfOthers rid) host f
      + if f = .requests ∨ f = outcome.field then 1 else 0

variable {cfg : Config} {o o' : Observed} {a : Action × ℕ} {rid : ℕ} {t : Task} {host : String}

/-! ## Steps -/

/-- An observed step is a step of the proxy. -/
lemma proxy_step (h : observedStep cfg o a = some o') : Step cfg o.proxy a.1 o'.proxy := by
  unfold observedStep at h
  rw [Option.map_eq_some_iff] at h
  obtain ⟨s', hs, rfl⟩ := h
  exact step_cases hs

/-- The proxy after an arrival. -/
lemma proxy_of_arrive {req : Request} (h : observedStep cfg o a = some o') (ha : a.1 = .arrive req) :
    o'.proxy = o.proxy.arrive cfg req := by
  unfold observedStep at h
  rw [ha, Option.map_eq_some_iff] at h
  obtain ⟨s', hs, rfl⟩ := h
  exact (Option.some.inj hs).symm

/-- The calls after a step. -/
lemma calls_step (h : observedStep cfg o a = some o') :
    o'.calls = ((o.proxy.report cfg a.1).map fun r => r.call a.2).toList ++ o.calls := by
  unfold observedStep at h
  rw [Option.map_eq_some_iff] at h
  obtain ⟨s', -, rfl⟩ := h
  rfl

/-- The counters after a step. -/
lemma counters_step (h : observedStep cfg o a = some o') :
    o'.counters = ((o.proxy.report cfg a.1).map fun r => r.call a.2).elim o.counters
      o.counters.recordDomainOutcome := by
  unfold observedStep at h
  rw [Option.map_eq_some_iff] at h
  obtain ⟨s', -, rfl⟩ := h
  rfl

/-- Only an arrival is a new addressed request. -/
lemma addressed_step (h : observedStep cfg o a = some o') (rid : ℕ) :
    o'.addressed rid =
      if rid = o.proxy.nextId ∧ (o.proxy.addressedHost a.1).isSome then o.proxy.addressedHost a.1
      else o.addressed rid := by
  unfold observedStep at h
  rw [Option.map_eq_some_iff] at h
  obtain ⟨s', -, rfl⟩ := h
  cases haddr : o.proxy.addressedHost a.1 with
  | none => simp
  | some host => simp [Function.update_apply]

/-- The counters show the calls. -/
theorem counter_eq_tally {maxSizeBytes : UInt64}
    (h : Reaches (observedStep cfg) (Observed.initial maxSizeBytes) o) (host : String)
    (f : CounterField) : o.counters.counter host f = tally o.calls host f := by
  revert host f
  refine h.invariant (I := fun o => ∀ host f, o.counters.counter host f = tally o.calls host f)
    (fun o a o' hI hst host f => ?_) fun _ _ => rfl
  rw [counters_step hst, calls_step hst]
  cases o.proxy.report cfg a.1 with
  | none => exact hI host f
  | some r =>
    change (o.counters.recordDomainOutcome (r.call a.2)).counter host f =
      tally (r.call a.2 :: o.calls) host f
    rw [DomainCounters.counter_recordDomainOutcome, tally_cons, hI]
    omega

/-- The request of an arrival is addressed to a configured domain exactly when it goes on. -/
lemma arrive_addressed (cfg : Config) (s : State) (req : Request) :
    ((s.arrive cfg req).tasks s.nextId).map Task.host = s.addressedHost (.arrive req) := by
  unfold State.arrive State.addressedHost
  cases hraw : req.headers.getStr "host" with
  | none => simp [hraw, State.finish]
  | some raw =>
    cases horigin : findOrigin s.domainMap (normalizeHost raw) with
    | none => simp [hraw, horigin, State.finish]
    | some origin => simp [hraw, horigin, State.setPhase]

/-! ## Requests and their calls -/

/-- The running requests are addressed to a domain and have made no call, and nothing is known
of the numbers that were not given yet. -/
structure Books (o : Observed) : Prop where
  coalescing : Coalescing o.proxy
  running : ∀ rid t, o.proxy.tasks rid = some t →
    o.addressed rid = some t.host ∧ o.callsOf rid = []
  unknown : ∀ rid, o.proxy.nextId ≤ rid → o.addressed rid = none ∧ o.callsOf rid = []

/-- The start. -/
lemma books_initial (maxSizeBytes : UInt64) : Books (Observed.initial maxSizeBytes) where
  coalescing := coalescing_initial maxSizeBytes
  running := fun _ _ h => absurd h (by simp [Observed.initial, State.initial])
  unknown := fun _ _ => ⟨rfl, rfl⟩

/-- The calls of a request that does not pass a site. -/
lemma callsOf_step (h : observedStep cfg o a = some o')
    (hother : ∀ r, o.proxy.report cfg a.1 = some r → r.rid ≠ rid) :
    o'.callsOf rid = o.callsOf rid := by
  unfold Observed.callsOf
  rw [calls_step h]
  cases hr : o.proxy.report cfg a.1 with
  | none => rfl
  | some r => exact List.filter_cons_of_neg (by simp [Report.call, hother r hr])

/-- A request that is still running has passed no site. -/
lemma not_report_of_running (h : observedStep cfg o a = some o') (ht : o'.proxy.tasks rid = some t)
    (r : Report) (hr : o.proxy.report cfg a.1 = some r) : r.rid ≠ rid := by
  rintro rfl
  rw [(proxy_step h).gone_of_report hr] at ht
  cases ht

/-- A step keeps the books. -/
theorem Books.step (hB : Books o) (h : observedStep cfg o a = some o') : Books o' where
  coalescing := hB.coalescing.step (proxy_step h)
  running := by
    intro rid t' ht'
    have hcalls := callsOf_step h (not_report_of_running h ht')
    rw [hcalls, addressed_step h]
    rcases (proxy_step h).tasks ht' with hold | ⟨req, raw, ha, hrid, -⟩ |
      ⟨t, phase, ht, rfl, -⟩
    · have hne : rid ≠ o.proxy.nextId := (hB.coalescing.taskKnown rid t' hold).ne
      rw [if_neg fun hnew => hne hnew.1]
      exact hB.running rid t' hold
    · have harrived := arrive_addressed cfg o.proxy req
      rw [← proxy_of_arrive h ha, ← hrid, ht', Option.map_some] at harrived
      rw [ha, ← harrived, if_pos ⟨hrid, rfl⟩]
      exact ⟨rfl, (hB.unknown rid hrid.ge).2⟩
    · have hne : rid ≠ o.proxy.nextId := (hB.coalescing.taskKnown rid t ht).ne
      rw [if_neg fun hnew => hne hnew.1]
      exact hB.running rid t ht
  unknown := by
    intro rid hrid
    have hle := (proxy_step h).advances.nextId
    have hcalls : o'.callsOf rid = o.callsOf rid := by
      refine callsOf_step h fun r hr heq => ?_
      obtain ⟨-, t, ht, -⟩ := of_report hr
      have hknown := hB.coalescing.taskKnown r.rid t ht
      omega
    rw [hcalls, addressed_step h, if_neg]
    · exact hB.unknown rid (hle.trans hrid)
    · rintro ⟨rfl, hsome⟩
      obtain ⟨host, hhost⟩ := Option.isSome_iff_exists.mp hsome
      -- only an arrival is addressed, and it takes the next number
      have harrive : ∃ req, a.1 = .arrive req := by
        unfold State.addressedHost at hhost
        split at hhost
        · exact ⟨_, ‹_›⟩
        · cases hhost
      obtain ⟨req, ha⟩ := harrive
      rw [proxy_of_arrive h ha, (counters_arrive cfg o.proxy req).1] at hrid
      omega

/-- Books are kept in every run. -/
lemma books_of_reaches {maxSizeBytes : UInt64}
    (h : Reaches (observedStep cfg) (Observed.initial maxSizeBytes) o) : Books o :=
  h.invariant (fun _ _ _ hB hst => hB.step hst) (books_initial maxSizeBytes)

/-- A request that is over was over before, with the same calls, or it ends in this step, with
one call for its host or, in the actions that pass no site, with none. -/
theorem Books.over (hB : Books o) (h : observedStep cfg o a = some o')
    (haddr : o'.addressed rid = some host) (hover : o'.proxy.tasks rid = none) :
    (o.addressed rid = some host ∧ o.proxy.tasks rid = none ∧ o'.callsOf rid = o.callsOf rid) ∨
      (a.1.task = some rid ∧
        if a.1.counted then ∃ call, o'.callsOf rid = [call] ∧ call.host = host
        else o'.callsOf rid = []) := by
  have hold : o.addressed rid = some host := by
    rw [addressed_step h] at haddr
    split at haddr
    · rename_i hnew
      exfalso
      -- a request that has just arrived is running
      cases ha : a.1 with
      | arrive req =>
        have harrived := arrive_addressed cfg o.proxy req
        rw [← proxy_of_arrive h ha, ← hnew.1, hover, Option.map_none, ← ha, haddr] at harrived
        cases harrived
      | _ =>
        rw [ha] at haddr
        cases haddr
    · exact haddr
  cases ht : o.proxy.tasks rid with
  | none =>
    refine Or.inl ⟨hold, rfl, callsOf_step h ?_⟩
    rintro r hr rfl
    obtain ⟨-, t, hrunning, -⟩ := of_report hr
    rw [ht] at hrunning
    cases hrunning
  | some t =>
    obtain ⟨htask, hsite⟩ := (proxy_step h).gone hB.coalescing ht hover
    obtain ⟨hhost, hcalls⟩ := hB.running rid t ht
    obtain rfl : t.host = host := Option.some.inj (hhost.symm.trans hold)
    refine Or.inr ⟨htask, ?_⟩
    cases hcounted : a.1.counted with
    | true =>
      rw [hcounted] at hsite
      obtain ⟨r, hr⟩ := Option.isSome_iff_exists.mp hsite
      obtain ⟨htask', t', ht', hrhost, -⟩ := of_report hr
      obtain rfl := Option.some.inj (htask.symm.trans htask')
      obtain rfl := Option.some.inj (ht.symm.trans ht')
      refine ⟨r.call a.2, ?_, hrhost⟩
      unfold Observed.callsOf at hcalls ⊢
      rw [calls_step h, hr]
      change List.filter _ (r.call a.2 :: o.calls) = _
      rw [List.filter_cons_of_pos (by simp [Report.call]), hcalls]
    | false =>
      rw [hcounted] at hsite
      have hnone : o.proxy.report cfg a.1 = none := by simpa using hsite
      rw [if_neg Bool.false_ne_true, callsOf_step h fun r hr => ?_, hcalls]
      rw [hnone] at hr
      cases hr

/-! ## Runs -/

/-- A request is over, and has made no call. -/
structure Uncounted (o : Observed) (rid : ℕ) (host : String) : Prop where
  addressed : o.addressed rid = some host
  finished : o.proxy.tasks rid = none
  calls : o.callsOf rid = []

/-- A request that is over without a call stays so. -/
lemma Uncounted.step (hU : Uncounted o rid host) (hB : Books o)
    (h : observedStep cfg o a = some o') : Uncounted o' rid host := by
  have hknown : rid < o.proxy.nextId := by
    by_contra hge
    have hnone := (hB.unknown rid (not_lt.mp hge)).1
    rw [hU.addressed] at hnone
    cases hnone
  have haddr : o'.addressed rid = some host := by
    rw [addressed_step h, if_neg fun hnew => hknown.ne hnew.1, hU.addressed]
  have hover : o'.proxy.tasks rid = none := by
    cases ht : o'.proxy.tasks rid with
    | none => rfl
    | some t' =>
      exfalso
      rcases (proxy_step h).tasks ht with hold | ⟨req, raw, -, hrid, -⟩ | ⟨t, phase, hold, -⟩
      · exact absurd (hU.finished.symm.trans hold) (Option.some_ne_none t').symm
      · exact hknown.ne hrid
      · exact absurd (hU.finished.symm.trans hold) (Option.some_ne_none t).symm
  refine ⟨haddr, hover, ?_⟩
  rcases hB.over h haddr hover with ⟨-, -, hsame⟩ | ⟨htask, -⟩
  · rw [hsame, hU.calls]
  · refine (callsOf_step h ?_).trans hU.calls
    rintro r hr rfl
    obtain ⟨-, t, hrunning, -⟩ := of_report hr
    rw [hU.finished] at hrunning
    cases hrunning

/-- An action that passes no site ends a request. -/
lemma Step.gone_of_not_counted {s s' : State} {b : Action} (h : Step cfg s b s')
    (hb : b.counted = false) : ∃ rid t, s.tasks rid = some t ∧ s'.tasks rid = none := by
  have hgone : ∀ (tasks : ℕ → Option Task) (rid : ℕ), Function.update tasks rid none rid = none :=
    fun tasks rid => Function.update_self rid none tasks
  cases h with
  | @readBody r t ok ht =>
    obtain rfl : ok = false := hb
    exact ⟨r, t, ht, hgone _ r⟩
  | @streamBusy r t ht => exact ⟨r, t, ht, hgone _ r⟩
  | @stream r t resp ht => exact ⟨r, t, ht, hgone _ r⟩
  | @directBusy r t ht => exact ⟨r, t, ht, hgone _ r⟩
  | @direct r t reply ht => exact ⟨r, t, ht, hgone _ r⟩
  | @cancel r t ht => exact ⟨r, t, ht, hgone _ r⟩
  | _ => cases hb

/-- A request that has made one call makes the counters of its host grow once. -/
lemma growsOnce_of_call {call : OutcomeCall}
    (htally : ∀ host f, o.counters.counter host f = tally o.calls host f)
    (hcalls : o.callsOf rid = [call]) (hhost : call.host = host) : GrowsOnce o rid host := by
  refine ⟨call.outcome, fun f hf hf' => ?_⟩
  have hsplit := tally_eq_add o.calls (fun call => decide (call.rid = rid)) host f
  have hown : tally (o.calls.filter fun call => decide (call.rid = rid)) host f = call.amount f := by
    change tally (o.callsOf rid) host f = _
    rw [hcalls, tally_cons, if_pos hhost, tally_nil, Nat.add_zero]
  rw [htally, hsplit, hown, call.amount_eq hf hf', Nat.add_comm]
  rfl

/-- The counters do not grow because of a request that has made no call. -/
lemma not_growsOnce (htally : ∀ host f, o.counters.counter host f = tally o.calls host f)
    (hcalls : o.callsOf rid = []) : ¬ GrowsOnce o rid host := by
  rintro ⟨outcome, hgrows⟩
  have hrequests := hgrows .requests (by decide) (by decide)
  have hsplit := tally_eq_add o.calls (fun call => decide (call.rid = rid)) host .requests
  have hown : tally (o.calls.filter fun call => decide (call.rid = rid)) host .requests = 0 := by
    change tally (o.callsOf rid) host .requests = _
    rw [hcalls, tally_nil]
  rw [htally, hsplit, hown, if_pos (Or.inl rfl)] at hrequests
  unfold Observed.callsOfOthers at hrequests
  omega

/-- The actions of a run in which no time passes. -/
def untimed (as : List Action) : List (Action × ℕ) := as.map fun a => (a, 0)

/-- A POST to the registered domain, up to the semaphore. -/
def postActions : List Action :=
  [sampleDomains, .arrive (sampleRequest (.other "POST") "/form" []), .readBody 0 true]

/-- A GET of a large video that is sent to the streaming path. -/
def videoActions : List Action :=
  [sampleDomains, .arrive (sampleRequest .get "/video.mp4" [])] ++ missActions 0
    ++ [.permit 0 true, .head 0 200 [("content-length", "200000000")], .publish 0, .respond 0]

/-- Runs in which the request is ended without being counted: its body cannot be read, no slot
is free, its own fetch fails, or its client goes away. -/
def uncountedRuns : List (List Action) :=
  [[sampleDomains, .arrive (sampleRequest .get "/logo.png" []), .l1Get 0, .l2Get 0 true,
    .readBody 0 false],
   videoActions ++ [.streamPermit 0 false],
   videoActions ++ [.streamPermit 0 true, .stream 0 none],
   postActions ++ [.directPermit 0 false],
   postActions ++ [.directPermit 0 true, .direct 0 .unreachable],
   postActions ++ [.directPermit 0 true, .direct 0 .unreadable],
   [sampleDomains, .arrive (sampleRequest .get "/logo.png" []), .cancel 0]]

/-- At the end of the run the request is over, and the counters have not grown once because of
it. -/
def EndsUncounted (as : List Action) : Prop :=
  ∃ o, Trace (observedStep sampleConfig) Free (Observed.initial 1000000) (untimed as) o ∧
    o.addressed 0 = some "a.test" ∧ o.proxy.tasks 0 = none ∧ ¬ GrowsOnce o 0 "a.test"

end SmartSchoolCdn
