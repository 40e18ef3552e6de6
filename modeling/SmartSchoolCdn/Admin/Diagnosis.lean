import SmartSchoolCdn.Admin.EventDelivery
import SmartSchoolCdn.Proxy.Answers

/-!
# Diagnosis of a URL

`diagnoseAggregate` of `db/optimization-events-repo.ts` over the events that the proxy emits.
The aggregate counts decisions in lower case with an underscore; the proxy writes the values
of `X-Cache-Reason` and none of those, so the sample is empty whatever the traffic was
(`diagnosis_reflects_iff`).
-/

namespace SmartSchoolCdn.Events

open Admin Traces

/-! ## The aggregate -/

/-- What the aggregate uses of the runtime: `hashUrl`, and `Math.round` of a floating-point
percentage and of an average. -/
structure Aggregation where
  hashUrl : String → String
  roundedPercent : ℕ → ℕ → ℕ
  roundedMean : List ℕ → ℕ

/-- `DiagnoseAggregateRow`. -/
structure DiagnoseAggregateRow where
  sampleCount : ℕ
  hitRatioPct : Option ℕ
  bypassCount : ℕ
  error5xx : ℕ
  timeoutCount : ℕ
  originSampleCount : ℕ
  avgOriginRttMs : Option ℕ
  rangeSingleCount : ℕ
  rangeMultiCount : ℕ
  rangeNoneCount : ℕ
  deriving DecidableEq, Repr

/-- `s LIKE 'word_%'`: the letter case of ASCII does not matter, and the underscore stands
for any one character. -/
def likeWord (word s : String) : Bool :=
  Text.startsWith (Text.lower s) word && word.length < s.length

/-- The decisions counted as hits. -/
def isHitDecision (decision : String) : Bool :=
  ["served_200", "served_206", "l1_hit", "l2_hit"].contains decision

/-- The decisions counted as fetches from the origin. -/
def isOriginDecision (decision : String) : Bool :=
  decision == "stored_new" || likeWord "origin" decision

/-- `s GLOB 'bytes=*[0-9]-*[0-9]'`. -/
def globSingleRange (s : String) : Bool :=
  (Text.stripHead s "bytes=").any fun rest =>
    let cs := rest.toList
    cs.getLast?.any Char.isDigit &&
      (cs.zip cs.tail).any fun pair => pair.1.isDigit && pair.2 == '-'

/-- `diagnoseAggregate` at a time. -/
def diagnoseAggregate (env : Aggregation) (rows : List OptimizationEvent) (now : ℕ)
    (host url : String) (periodSec : ℕ) : DiagnoseAggregateRow :=
  let selected := rows.filter fun ev =>
    ev.host = host ∧ env.hashUrl ev.url = env.hashUrl url ∧ now ≤ ev.ts + periodSec
  let count (p : OptimizationEvent → Bool) := selected.countP p
  let origin := selected.filter fun ev => isOriginDecision ev.decision
  let hit := count fun ev => isHitDecision ev.decision
  let miss := origin.length
  let sample := hit + miss
  { sampleCount := sample
    hitRatioPct := if sample = 0 then none else some (env.roundedPercent hit sample)
    bypassCount := count fun ev => likeWord "bypass" ev.decision
    error5xx := count fun ev => ev.decision == "origin_error_5xx"
    timeoutCount := count fun ev => ev.decision == "origin_timeout"
    originSampleCount := miss
    avgOriginRttMs :=
      if origin.isEmpty then none else some (env.roundedMean (origin.map (·.elapsedMs)))
    rangeSingleCount := count fun ev =>
      ev.rangeHeader.any fun v => globSingleRange v && !Text.contains v ","
    rangeMultiCount := count fun ev => ev.rangeHeader.any fun v => Text.contains v ","
    rangeNoneCount := count fun ev => ev.rangeHeader.isNone }

/-! ## The traffic -/

/-- A step of the proxy, with what its event shows. -/
def workStep (cfg : Config) (s : State) (a : Action × Work) : Option State := step cfg s a.1

/-- The events of a run. -/
def emissions (cfg : Config) : State → List (Action × Work) → List Emitted
  | _, [] => []
  | s, a :: as =>
    (s.emission cfg a.1 a.2).toList ++ (workStep cfg s a).elim [] fun s' => emissions cfg s' as

/-- A request that is addressed to a configured domain. -/
structure Addressed where
  rid : ℕ
  host : String
  request : Request

/-- The request that arrives in a step. -/
def arrival (s : State) : Action → Option Addressed
  | .arrive req => (req.headers.getStr "host").bind fun raw =>
      (findOrigin s.domainMap (normalizeHost raw)).map fun _ =>
        { rid := s.nextId
          host := normalizeHost raw
          request := req }
  | _ => none

/-- The requests of a run. -/
def arrivals (cfg : Config) : State → List (Action × Work) → List Addressed
  | _, [] => []
  | s, a :: as =>
    (arrival s a.1).toList ++ (workStep cfg s a).elim [] fun s' => arrivals cfg s' as

/-- A media GET request for a URL: by its path, or by the content type of its answer. -/
def isMediaGet (t : State) (host url : String) (q : Addressed) : Bool :=
  q.request.method = .get && q.host = host && q.request.uri.toText = url &&
    (isMediaRequest q.request.uri.path none ||
      t.answers.any fun ans => ans.rid = q.rid &&
        isMediaRequest q.request.uri.path (ans.response.headers.getStr "content-type"))

/-- A request that is answered as an L1 or L2 HIT, whole or with a range. -/
def isAnsweredHit (t : State) (q : Addressed) : Bool :=
  t.answers.any fun ans => ans.rid = q.rid && ans.via.hit.isSome &&
    (ans.response.status = 200 || ans.response.status = 206)

/-- The media GET requests of a run for a URL. -/
def mediaGets (cfg : Config) (s t : State) (as : List (Action × Work)) (host url : String) :
    List Addressed :=
  (arrivals cfg s as).filter (isMediaGet t host url)

/-- The nearest whole percentage, halves up. -/
def percentOf (hits requests : ℕ) : ℕ := (200 * hits + requests) / (2 * requests)

/-- The diagnosis shows the number of requests and the share of hits. -/
structure Reflects (row : DiagnoseAggregateRow) (requests hits : ℕ) : Prop where
  sampleCount : row.sampleCount = requests
  hitRatio : row.hitRatioPct = if requests = 0 then none else some (percentOf hits requests)

/-- An event is stored, and lies in the window of a diagnosis. -/
def StoredAs (js : Runtime) (now periodSec : ℕ) (e : Emitted) (row : OptimizationEvent) : Prop :=
  ∃ clock : Clock, row = ((recordInput e.record).parsed js).row clock ∧ now ≤ row.ts + periodSec

variable {cfg : Config} {env : Aggregation} {js : Runtime} {s : State}

/-! ## Nothing is counted -/

/-- No value of `X-Cache-Reason` is counted, with any ending. -/
lemma asHeader_not_counted (outcome : CacheOutcome) : ∀ suffix ∈ rangeSuffixes,
    isHitDecision (outcome.asHeader ++ suffix) = false ∧
      isOriginDecision (outcome.asHeader ++ suffix) = false := by
  cases outcome <;> decide

/-- No decision about a save is counted. -/
lemma saveDecisions_not_counted : ∀ decision ∈ saveDecisions,
    isHitDecision decision = false ∧ isOriginDecision decision = false := by
  decide

/-- The decision about an answer served stale is not counted. -/
lemma stale_not_counted : isHitDecision "served_stale_if_error" = false ∧
    isOriginDecision "served_stale_if_error" = false := by
  decide

/-- No event of the proxy is counted. -/
lemma not_counted_of_genuine {e : Emitted} (h : e.Genuine cfg) :
    isHitDecision e.record.decision = false ∧ isOriginDecision e.record.decision = false := by
  obtain ⟨source, record⟩ := e
  cases source with
  | answered r =>
    obtain ⟨⟨outcome, suffix, hmem, hdecision⟩, elapsedMs, hevent⟩ := h
    unfold Report.event at hevent
    split at hevent
    · obtain rfl := Option.some.inj hevent
      exact stale_not_counted
    · split at hevent
      · obtain rfl := Option.some.inj hevent
        change isHitDecision r.decision = false ∧ isOriginDecision r.decision = false
        rw [hdecision]
        exact asHeader_not_counted outcome suffix hmem
      · cases hevent
  | saved x =>
    obtain ⟨optimized, w, hevent⟩ := h
    exact saveDecisions_not_counted _ (saveEvent_spec hevent).2.2.2

/-- The events of a run come from the sites of the proxy. -/
lemma genuine_of_emissions (as : List (Action × Work)) :
    ∀ s, ∀ e ∈ emissions cfg s as, e.Genuine cfg := by
  induction as with
  | nil => exact fun _ => List.forall_mem_nil _
  | cons a as ih =>
    intro s e he
    rcases List.mem_append.mp he with he | he
    · exact genuine_of_emission (Option.mem_toList.mp he)
    · cases hst : workStep cfg s a with
      | none =>
        rw [hst] at he
        exact absurd he List.not_mem_nil
      | some s' =>
        rw [hst] at he
        exact ih s' e he

/-- The rows of such events are not counted. -/
lemma not_counted_of_stored {es : List Emitted} {rows : List OptimizationEvent} {now periodSec : ℕ}
    (hrows : List.Forall₂ (StoredAs js now periodSec) es rows) (hgenuine : ∀ e ∈ es, e.Genuine cfg) :
    ∀ row ∈ rows, isHitDecision row.decision = false ∧ isOriginDecision row.decision = false := by
  induction hrows with
  | nil => exact List.forall_mem_nil _
  | cons hstored _ ih =>
    obtain ⟨clock, rfl, -⟩ := hstored
    rw [List.forall_mem_cons] at hgenuine ⊢
    exact ⟨not_counted_of_genuine hgenuine.1, ih hgenuine.2⟩

/-- Without rows that count the sample is empty. -/
lemma sampleCount_eq_zero (env : Aggregation) {rows : List OptimizationEvent} (now : ℕ) (host url : String)
    (periodSec : ℕ) (hrows : ∀ row ∈ rows,
      isHitDecision row.decision = false ∧ isOriginDecision row.decision = false) :
    (diagnoseAggregate env rows now host url periodSec).sampleCount = 0 ∧
      (diagnoseAggregate env rows now host url periodSec).hitRatioPct = none := by
  suffices h : (diagnoseAggregate env rows now host url periodSec).sampleCount = 0 from
    ⟨h, if_pos h⟩
  refine Nat.add_eq_zero_iff.mpr ⟨?_, ?_⟩
  · refine List.countP_eq_zero.mpr fun row hrow => ?_
    rw [(hrows row (List.mem_filter.mp hrow).1).1]
    exact Bool.false_ne_true
  · refine List.length_eq_zero_iff.mpr (List.filter_eq_nil_iff.mpr fun row hrow => ?_)
    rw [(hrows row (List.mem_filter.mp hrow).1).2]
    exact Bool.false_ne_true

/-- In every run of the proxy whose events are all stored, the diagnosis of a URL shows the
media GET requests for it and the share of hits only if there were no such requests. -/
theorem diagnosis_reflects_iff (cfg : Config) (env : Aggregation) (js : Runtime)
    (maxSizeBytes : UInt64) (as : List (Action × Work)) (t : State) (rows : List OptimizationEvent)
    (now periodSec : ℕ) (host url : String)
    (_h : Trace (workStep cfg) Free (State.initial maxSizeBytes) as t)
    (hrows : List.Forall₂ (StoredAs js now periodSec)
      (emissions cfg (State.initial maxSizeBytes) as) rows) :
    Reflects (diagnoseAggregate env rows now host url periodSec)
        (mediaGets cfg (State.initial maxSizeBytes) t as host url).length
        ((mediaGets cfg (State.initial maxSizeBytes) t as host url).countP (isAnsweredHit t)) ↔
      mediaGets cfg (State.initial maxSizeBytes) t as host url = [] := by
  have hcounted := not_counted_of_stored hrows
    (genuine_of_emissions as (State.initial maxSizeBytes))
  obtain ⟨hsample, hratio⟩ := sampleCount_eq_zero env now host url periodSec hcounted
  rw [← List.length_eq_zero_iff]
  constructor
  · intro h
    exact h.sampleCount.symm.trans hsample
  · intro h
    exact ⟨hsample.trans h.symm, hratio.trans (if_pos h).symm⟩

/-! ## Sample runs -/

/-- A runtime of the aggregate without collisions. -/
def sampleAggregation : Aggregation :=
  { hashUrl := id
    roundedPercent := percentOf
    roundedMean := fun elapsed => elapsed.foldr (· + ·) 0 / elapsed.length }

/-- The actions with three milliseconds each. -/
def worked (as : List Action) : List (Action × Work) := as.map fun a => (a, { elapsedMs := 3 })

/-- The rows of events that are stored at once. -/
def storedRows (es : List Emitted) : List OptimizationEvent :=
  es.map fun e => ((recordInput e.record).parsed sampleRuntime).row sampleClock

/-- These are the rows of the events. -/
lemma storedAs_storedRows (es : List Emitted) :
    List.Forall₂ (StoredAs sampleRuntime sampleClock.now 3600) es (storedRows es) := by
  refine List.forall₂_map_right_iff.mpr (List.forall₂_same.mpr fun e _ => ?_)
  exact ⟨sampleClock, rfl, Nat.le_add_right _ _⟩

/-- The video is requested twice: a MISS with its background save, and an L1 HIT. -/
def watchedTwice : List Action :=
  clipActions ++ saveActions 1 ++ [.arrive (sampleRequest .get "/clip.mp4" []), .l1Get 2]

/-- The diagnosis of the video shows no sample instead of two requests with one hit. -/
theorem watched_video_not_sampled :
    ∃ t, Trace (workStep sampleConfig) Free (State.initial 1000000) (worked watchedTwice) t ∧
      (mediaGets sampleConfig (State.initial 1000000) t (worked watchedTwice) "a.test"
        "/clip.mp4").length = 2 ∧
      (mediaGets sampleConfig (State.initial 1000000) t (worked watchedTwice) "a.test"
        "/clip.mp4").countP (isAnsweredHit t) = 1 ∧
      ¬ Reflects (diagnoseAggregate sampleAggregation
        (storedRows (emissions sampleConfig (State.initial 1000000) (worked watchedTwice)))
        sampleClock.now "a.test" "/clip.mp4" 3600) 2 1 := by
  have hrun : ((run (workStep sampleConfig) (State.initial 1000000) (worked watchedTwice)).any
      fun t =>
        let gets := mediaGets sampleConfig (State.initial 1000000) t (worked watchedTwice) "a.test"
          "/clip.mp4"
        gets.length == 2 && gets.countP (isAnsweredHit t) == 1) = true := by
    decide +kernel
  have hsample : (diagnoseAggregate sampleAggregation
      (storedRows (emissions sampleConfig (State.initial 1000000) (worked watchedTwice)))
      sampleClock.now "a.test" "/clip.mp4" 3600).sampleCount = 0 := by
    decide +kernel
  obtain ⟨t, ht, hrun⟩ := exists_trace_of_run hrun
  simp only [Bool.and_eq_true, beq_iff_eq] at hrun
  refine ⟨t, ht, hrun.1, hrun.2, fun h => ?_⟩
  rw [h.sampleCount] at hsample
  cases hsample

/-- Nobody has requested the video. -/
theorem unwatched_video_diagnosed :
    ∃ t, Trace (workStep sampleConfig) Free (State.initial 1000000) (worked styleActions) t ∧
      Reflects (diagnoseAggregate sampleAggregation
        (storedRows (emissions sampleConfig (State.initial 1000000) (worked styleActions)))
        sampleClock.now "a.test" "/clip.mp4" 3600) 0 0 := by
  have hrun : ((run (workStep sampleConfig) (State.initial 1000000) (worked styleActions)).any
      fun t => (mediaGets sampleConfig (State.initial 1000000) t (worked styleActions) "a.test"
        "/clip.mp4").isEmpty) = true := by
    decide +kernel
  obtain ⟨t, ht, hnone⟩ := exists_trace_of_run hrun
  have hgets := List.isEmpty_iff.mp hnone
  have hiff := diagnosis_reflects_iff sampleConfig sampleAggregation sampleRuntime 1000000
    (worked styleActions) t _ sampleClock.now 3600 "a.test" "/clip.mp4" ht (storedAs_storedRows _)
  have hreflects := hiff.mpr hgets
  rw [hgets] at hreflects
  exact ⟨t, ht, hreflects⟩

end SmartSchoolCdn.Events
