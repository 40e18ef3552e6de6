import SmartSchoolCdn.Admin.Diagnosis
import SmartSchoolCdn.Admin.Orphans
import SmartSchoolCdn.Admin.UserPages
import SmartSchoolCdn.Foundation.Grouping
import Mathlib.Order.WithBot

/-!
# Views of the optimization events

The queries of `db/optimization-events-repo.ts`: the list of events, the figures by decision, the
figures by URL, the diagnosis of a URL, and the hosts with a recent decision.

The pruner deletes events at times of its own, by age and by host.  As long as a host stays registered
and a query looks back no further than the pruner keeps, its answer is the one over all events that have
ever been posted (`pruning_unseen`).  The figures by URL and those by decision are of the same events
(`views_agree`); they differ in the bytes that have gone out, where only the former take an event
without such a size as sent as it was.
-/

namespace SmartSchoolCdn.EventViews

open Admin Tables Grouping Ranking Traces

/-! ## The queries -/

/-- What the queries leave to the database and to floating-point numbers: the order of a sorted answer,
which is the same for all pages, the order of the distinct values of `GROUP_CONCAT`, `1 - out / orig`,
and a rounded mean. -/
structure Engine where
  rank : {α : Type} → Comparison α → List α → List α
  distinct : List String → List String
  savings : ℕ → ℕ → ℚ
  roundedMean : List ℕ → ℕ

/-- A sorted answer has the rows that it should have, ties in any order. -/
def Engine.Sorts (engine : Engine) : Prop :=
  ∀ {α : Type} (c : Comparison α) (rows : List α), c.IsRanking rows (engine.rank c rows)

/-- `clampInt`; a number that is no finite one has been taken for none. -/
def clampInt (least most fallback : ℕ) (raw : Option ℚ) : ℕ :=
  min (max (raw.elim fallback fun n => n.floor.toNat) least) most

/-- `clampOffset`. -/
def clampOffset (raw : Option ℚ) : ℕ := clampInt 0 1000000 0 raw

/-- A condition on a column, which an absent or empty value does not put. -/
def wants (wanted : Option String) (value : String) : Bool := (wanted.filter (· != "")).all (· == value)

/-- `EventsQuery`. -/
structure EventsQuery where
  eventType : Option String := none
  host : Option String := none
  decision : Option String := none
  since : Option String := none
  limit : Option ℚ := none

/-- The condition `WHERE` of `query`. -/
def EventsQuery.selects (q : EventsQuery) (clock : Clock) (ev : OptimizationEvent) : Bool :=
  wants q.eventType ev.eventType && wants q.host ev.host && wants q.decision ev.decision &&
    (q.since.filter (· != "")).all fun since => decide (clock.toUnixSecInput (some since) ≤ ev.ts)

/-- `ORDER BY ts DESC`. -/
def newestFirst : Comparison OptimizationEvent := (Comparison.column OptimizationEvent.ts).descending

/-- `query`. -/
def query (engine : Engine) (clock : Clock) (rows : List OptimizationEvent) (q : EventsQuery) :
    List OptimizationEvent :=
  (engine.rank newestFirst (rows.filter (q.selects clock))).take (clampInt 1 1000 100 q.limit)

/-- `StatsQuery`. -/
structure StatsQuery where
  eventType : Option String := none
  host : Option String := none
  periodSec : Option ℕ := none

/-- The condition `WHERE` of `statsByDecision`. -/
def StatsQuery.selects (q : StatsQuery) (now : ℕ) (ev : OptimizationEvent) : Bool :=
  decide (now ≤ ev.ts + q.periodSec.getD 86400) && wants q.eventType ev.eventType && wants q.host ev.host

/-- `DecisionStatsRow`. -/
structure DecisionStatsRow where
  decision : String
  count : ℕ
  totalOrig : ℕ
  totalOut : ℕ
  avgElapsedMs : ℕ
  deriving DecidableEq, Repr

/-- `SUM`, which is `NULL` where no value is. -/
def sumOf (column : OptimizationEvent → Option ℕ) (rows : List OptimizationEvent) : Option ℕ :=
  if rows.all fun ev => (column ev).isNone then none else some (total (fun ev => (column ev).getD 0) rows)

/-- The aggregates of a decision. -/
def decisionStats (engine : Engine) (decision : String) (rows : List OptimizationEvent) :
    DecisionStatsRow where
  decision := decision
  count := rows.length
  totalOrig := (sumOf (·.origSize) rows).getD 0
  totalOut := (sumOf (·.outSize) rows).getD 0
  avgElapsedMs := engine.roundedMean (rows.map (·.elapsedMs))

/-- `ORDER BY count DESC`. -/
def mostFrequent : Comparison DecisionStatsRow := (Comparison.column DecisionStatsRow.count).descending

/-- `statsByDecision`. -/
def statsByDecision (engine : Engine) (now : ℕ) (rows : List OptimizationEvent) (q : StatsQuery) :
    List DecisionStatsRow :=
  engine.rank mostFrequent
    (groupBy OptimizationEvent.decision (decisionStats engine) (rows.filter (q.selects now)))

/-- The orders of `urlBreakdown`. -/
inductive BreakdownSort
  | savings
  | origSize
  | events
  deriving DecidableEq, Repr

/-- The parameters of `urlBreakdown`. -/
structure BreakdownQuery where
  host : String
  periodSec : Option ℕ := none
  sort : Option BreakdownSort := none
  decision : Option String := none
  search : Option String := none
  limit : Option ℚ := none
  offset : Option ℚ := none

/-- The condition `WHERE` of `urlBreakdown`. -/
def BreakdownQuery.selects (q : BreakdownQuery) (now : ℕ) (ev : OptimizationEvent) : Bool :=
  ev.host == q.host && decide (now ≤ ev.ts + q.periodSec.getD 86400) && wants q.decision ev.decision &&
    (q.search.filter (· != "")).all (columnLike ev.url)

/-- The aggregates of a URL. -/
structure UrlGroup where
  url : String
  events : ℕ
  sumOrig : Option ℕ
  sumOut : Option ℕ
  decisions : String
  deriving DecidableEq, Repr

/-- `COALESCE(out_size, orig_size)`. -/
def effectiveOut (ev : OptimizationEvent) : Option ℕ := ev.outSize.or ev.origSize

/-- The group of a URL. -/
def urlGroup (engine : Engine) (url : String) (rows : List OptimizationEvent) : UrlGroup where
  url := url
  events := rows.length
  sumOrig := sumOf (·.origSize) rows
  sumOut := sumOf effectiveOut rows
  decisions := ",".intercalate (engine.distinct (rows.map (·.decision)))

/-- A value of a column, with `NULL` below all others. -/
def asColumn {α : Type} (value : Option α) : WithBot α := value.elim ⊥ fun a => (a : WithBot α)

/-- The share that is saved, which is `NULL` where nothing was there to be saved. -/
def savingsColumn (engine : Engine) (g : UrlGroup) : Option ℚ :=
  (g.sumOrig.filter (· != 0)).map fun orig => engine.savings (g.sumOut.getD 0) orig

/-- `ORDER BY` of `urlBreakdown`; `NULL` comes last. -/
def breakdownOrder (engine : Engine) : BreakdownSort → Comparison UrlGroup
  | .savings => (Comparison.column fun g => asColumn (savingsColumn engine g)).descending
  | .origSize => (Comparison.column fun g : UrlGroup => asColumn g.sumOrig).descending
  | .events => (Comparison.column UrlGroup.events).descending

/-- An item of the answer of `urlBreakdown`. -/
structure UrlItem where
  url : String
  events : ℕ
  totalOrig : ℕ
  totalOut : ℕ
  savingsRatio : ℚ
  decisions : String
  deriving DecidableEq

/-- The item of a group. -/
def UrlGroup.item (engine : Engine) (g : UrlGroup) : UrlItem :=
  let totalOrig := g.sumOrig.getD 0
  let totalOut := g.sumOut.getD 0
  { url := g.url
    events := g.events
    totalOrig := totalOrig
    totalOut := totalOut
    savingsRatio := if 0 < totalOrig then engine.savings totalOut totalOrig else 0
    decisions := g.decisions }

/-- The items of `urlBreakdown` without `LIMIT` and `OFFSET`. -/
def breakdownItems (engine : Engine) (now : ℕ) (rows : List OptimizationEvent) (q : BreakdownQuery) :
    List UrlItem :=
  (engine.rank (breakdownOrder engine (q.sort.getD .savings))
    (groupBy OptimizationEvent.url (urlGroup engine) (rows.filter (q.selects now)))).map (UrlGroup.item engine)

/-- `urlBreakdown`: the number of all URLs, and a page of them. -/
def urlBreakdown (engine : Engine) (now : ℕ) (rows : List OptimizationEvent) (q : BreakdownQuery) :
    ℕ × List UrlItem :=
  ((keys OptimizationEvent.url (rows.filter (q.selects now))).length,
    page (clampInt 1 500 50 q.limit) (clampOffset q.offset) (breakdownItems engine now rows q))

/-- `findHostsWithRecentDecision`. -/
def findHostsWithRecentDecision (rows : List OptimizationEvent) (decision : String) (since : ℕ) :
    List String :=
  (keys OptimizationEvent.host (rows.filter fun ev => ev.decision = decision ∧ since ≤ ev.ts)).insertionSort
    (· ≤ ·)

/-! ## The table -/

/-- The database, the transaction of a handler that has not ended, and the time in milliseconds. -/
structure State where
  db : Database
  opened : Option Database := none
  nowMs : ℕ := 0

/-- The second of the clock. -/
def State.now (s : State) : ℕ := s.nowMs / 1000

/-- What happens to the table: a statement of any handler on the connection, the beginning and the end of
a transaction, a batch of events, a round of the pruner, and the passage of time. -/
inductive Action
  | statement (w : Statement)
  | begin_
  | commit
  | rollback
  | ingest (contentLength : ℕ) (events : List EventInput)
  | tick (pruneOk reconcileOk : Bool)
  | pass (ms : ℕ)

/-- What the table depends on: the runtime, `Date.parse`, and how long the pruner keeps events. -/
structure Setting where
  js : Runtime
  parseSeconds : String → Option ℕ
  retentionMs : ℕ

variable (cfg : Setting)

/-- The clock at a time. -/
def State.clock (s : State) : Clock := ⟨s.now, cfg.parseSeconds⟩

/-- A step. -/
def step (s : State) : Action → Option State
  | .statement w => some { s with db := s.db.exec w }
  | .begin_ => if s.opened.isSome then none else some { s with opened := some s.db }
  | .commit => s.opened.map fun _ => { s with opened := none }
  | .rollback => s.opened.map fun db => { s with db := db, opened := none }
  | .ingest contentLength events =>
    some { s with db := (ingest cfg.js (s.clock cfg) s.db contentLength events).2 }
  | .tick pruneOk reconcileOk =>
    some { s with db := (prunerTick s.db s.nowMs cfg.retentionMs pruneOk reconcileOk).2 }
  | .pass ms => some { s with nowMs := s.nowMs + ms }

/-- The rows that a step posts: those of a batch that is accepted. -/
def State.posts (s : State) : Action → List OptimizationEvent
  | .statement (.insertEvents rows) => rows
  | .ingest contentLength events =>
    match (ingest cfg.js (s.clock cfg) s.db contentLength events).1 with
    | .inserted _ => events.map fun ev => (ev.parsed cfg.js).row (s.clock cfg)
    | _ => []
  | _ => []

/-- The rows that a run posts. -/
def postings : State → List Action → List OptimizationEvent
  | _, [] => []
  | s, a :: as => s.posts cfg a ++ (step cfg s a).elim [] fun s' => postings s' as

/-- The host is registered whenever the pruner looks, nobody deletes its events, and nothing is rolled
back. -/
def Spares (host : String) (s : State) : Action → Prop
  | .statement (.deleteEvents hosts) => host ∉ hosts
  | .tick _ _ => isDomain s.db host = true
  | .rollback => False
  | _ => True

/-! ## Runs -/

variable {cfg : Setting} {s s' t : State} {a : Action} {as : List Action} {host : String} {period now : ℕ}

/-- An event of a host that a query can still see. -/
def isRecent (host : String) (period now : ℕ) (ev : OptimizationEvent) : Bool :=
  ev.host == host && decide (now ≤ ev.ts + period)

lemma isRecent_iff {ev : OptimizationEvent} :
    isRecent host period now ev = true ↔ ev.host = host ∧ now ≤ ev.ts + period := by
  rw [isRecent, Bool.and_eq_true, beq_iff_eq, decide_eq_true_iff]

/-- A condition that implies another selects from the rows that meet the other. -/
lemma filter_eq_of_implies {α : Type} {l l' : List α} {p q : α → Bool} (h : l.filter q = l'.filter q)
    (hpq : ∀ x, p x = true → q x = true) : l.filter p = l'.filter p := by
  have hboth : ∀ l : List α, l.filter p = (l.filter q).filter p := by
    intro l
    rw [List.filter_filter]
    refine List.filter_congr fun x _ => ?_
    cases hx : p x with
    | false => rfl
    | true => rw [hpq x hx, Bool.and_true]
  rw [hboth l, hboth l', h]

/-- A condition that all recent events of the host meet removes none of them. -/
lemma filter_recent {rows : List OptimizationEvent} {p : OptimizationEvent → Bool}
    (hp : ∀ ev, isRecent host period now ev = true → p ev = true) :
    (rows.filter p).filter (isRecent host period now) = rows.filter (isRecent host period now) := by
  rw [List.filter_filter]
  refine List.filter_congr fun ev _ => ?_
  cases hev : isRecent host period now ev with
  | false => rfl
  | true => rw [hp ev hev, Bool.true_and]

/-- A batch adds its rows where it is accepted. -/
lemma events_ingest (js : Runtime) (clock : Clock) (db : Database) (contentLength : ℕ)
    (events : List EventInput) :
    (ingest js clock db contentLength events).2.optimizationEvents = db.optimizationEvents ++
      match (ingest js clock db contentLength events).1 with
      | .inserted _ => events.map fun ev => (ev.parsed js).row clock
      | _ => [] := by
  unfold ingest
  split
  · exact (List.append_nil _).symm
  · unfold eventBatchSchema
    split
    · rename_i hparsed
      exact (List.append_nil _).symm
    · rename_i parsed hparsed
      split at hparsed
      · obtain rfl := Option.some.inj hparsed
        change db.optimizationEvents ++ (events.map _).map _ = _
        rw [List.map_map]
        rfl
      · cases hparsed

/-- A statement that does not delete events of the host adds what it posts. -/
lemma recent_exec {w : Statement} (hspares : ∀ hosts, w = .deleteEvents hosts → host ∉ hosts) (s : State) :
    (s.db.exec w).optimizationEvents.filter (isRecent host period now) =
      (s.db.optimizationEvents ++ s.posts cfg (.statement w)).filter (isRecent host period now) := by
  cases w with
  | insertEvents rows => rfl
  | deleteEvents hosts =>
    refine (filter_recent fun ev hev => ?_).trans (congrArg _ (List.append_nil _).symm)
    rw [(isRecent_iff.mp hev).1]
    simpa using hspares hosts rfl
  | insertStats row =>
    refine congrArg _ (Eq.trans ?_ (List.append_nil _).symm)
    simp only [Database.exec, Database.run, Database.insertStats]
    split <;> rfl
  | changeUser change now =>
    refine congrArg _ (Eq.trans ?_ (List.append_nil _).symm)
    simp only [Database.exec, Database.run]
    cases change with
    | create username hash =>
      simp only [Database.changeUser]
      split <;> rfl
    | _ => rfl
  | _ => exact congrArg _ (List.append_nil _).symm

/-- A round of the pruner leaves the recent events of a host that is registered, for a period that is
not longer than the retention and ends at the same time or later. -/
lemma recent_prunerTick {db : Database} {nowMs laterMs retentionMs : ℕ} (hdomain : isDomain db host = true)
    (hperiod : period * 1000 ≤ retentionMs) (hlater : nowMs ≤ laterMs) (pruneOk reconcileOk : Bool) :
    (prunerTick db nowMs retentionMs pruneOk reconcileOk).2.optimizationEvents.filter
        (isRecent host period (laterMs / 1000)) =
      db.optimizationEvents.filter (isRecent host period (laterMs / 1000)) := by
  have hprune : ∀ ev, isRecent host period (laterMs / 1000) ev = true →
      decide (((nowMs : ℤ) - retentionMs) / 1000 ≤ ev.ts) = true := by
    intro ev hev
    have hage := (isRecent_iff.mp hev).2
    rw [decide_eq_true_iff]
    omega
  have hreconcile : ∀ ev, isRecent host period (laterMs / 1000) ev = true → isDomain db ev.host = true := by
    intro ev hev
    rw [(isRecent_iff.mp hev).1, hdomain]
  have hpruned : (if pruneOk then pruneEvents db (((nowMs : ℤ) - retentionMs) / 1000)
        else (0, db)).2.optimizationEvents.filter (isRecent host period (laterMs / 1000)) =
      db.optimizationEvents.filter (isRecent host period (laterMs / 1000)) := by
    cases pruneOk with
    | true => exact filter_recent hprune
    | false => rfl
  rw [prunerTick]
  cases reconcileOk with
  | false => exact hpruned
  | true =>
    refine Eq.trans (filter_recent fun ev hev => ?_) hpruned
    cases pruneOk with
    | true => exact hreconcile ev hev
    | false => exact hreconcile ev hev

/-- What a step does to the recent events of a host that is spared: those that it posts are added. -/
lemma recent_step (hspares : Spares host s a) (h : step cfg s a = some s')
    (hperiod : period * 1000 ≤ cfg.retentionMs) {laterMs : ℕ} (hlater : s.nowMs ≤ laterMs) :
    s'.db.optimizationEvents.filter (isRecent host period (laterMs / 1000)) =
      (s.db.optimizationEvents ++ s.posts cfg a).filter (isRecent host period (laterMs / 1000)) := by
  have hnothing : ∀ rows : List OptimizationEvent, rows = rows ++ [] := fun rows => (List.append_nil rows).symm
  cases a with
  | statement w =>
    obtain rfl := Option.some.inj h
    refine recent_exec (fun hosts hw => ?_) s
    subst hw
    exact hspares
  | begin_ =>
    simp only [step] at h
    split at h
    · cases h
    · obtain rfl := Option.some.inj h
      exact congrArg _ (hnothing _)
  | commit =>
    obtain ⟨db, -, rfl⟩ := Option.map_eq_some_iff.mp h
    exact congrArg _ (hnothing _)
  | rollback => exact hspares.elim
  | ingest contentLength events =>
    obtain rfl := Option.some.inj h
    exact congrArg _ (events_ingest cfg.js (s.clock cfg) s.db contentLength events)
  | tick pruneOk reconcileOk =>
    obtain rfl := Option.some.inj h
    refine (recent_prunerTick hspares hperiod hlater pruneOk reconcileOk).trans ?_
    exact congrArg _ (hnothing _)
  | pass ms =>
    obtain rfl := Option.some.inj h
    exact congrArg _ (hnothing _)

/-- Time does not run backwards. -/
lemma nowMs_step (h : step cfg s a = some s') : s.nowMs ≤ s'.nowMs := by
  cases a with
  | begin_ =>
    simp only [step] at h
    split at h
    · cases h
    · obtain rfl := Option.some.inj h
      exact le_rfl
  | commit =>
    obtain ⟨db, -, rfl⟩ := Option.map_eq_some_iff.mp h
    exact le_rfl
  | rollback =>
    obtain ⟨db, -, rfl⟩ := Option.map_eq_some_iff.mp h
    exact le_rfl
  | pass ms =>
    obtain rfl := Option.some.inj h
    exact Nat.le_add_right _ _
  | _ =>
    obtain rfl := Option.some.inj h
    exact le_rfl

lemma nowMs_trace {C : State → Action → Prop} (h : Trace (step cfg) C s as t) : s.nowMs ≤ t.nowMs := by
  induction h with
  | nil _ => exact le_rfl
  | cons _ hs _ ih => exact (nowMs_step hs).trans ih

/-- After a run, the recent events of a host that has been spared are those that were there and those that
the run has posted. -/
theorem recent_trace (h : Trace (step cfg) (Spares host) s as t) (hperiod : period * 1000 ≤ cfg.retentionMs) :
    t.db.optimizationEvents.filter (isRecent host period t.now) =
      (s.db.optimizationEvents ++ postings cfg s as).filter (isRecent host period t.now) := by
  induction h with
  | nil s => rw [postings, List.append_nil]
  | @cons s s' t a as hspares hs hrest ih =>
    have hfirst := recent_step hspares hs hperiod ((nowMs_step hs).trans (nowMs_trace hrest))
    rw [ih, postings, hs, Option.elim_some, ← List.append_assoc, List.filter_append, List.filter_append,
      State.now, hfirst]

/-! ## What the pruner cannot be seen to do -/

lemma wants_some (hhost : host ≠ "") (value : String) : wants (some host) value = (value == host) := by
  rw [wants, Option.filter_some, if_pos (bne_iff_ne.mpr hhost), Option.all_some]
  exact BEq.comm

/-- `Spares`, computed. -/
def spares (host : String) (s : State) : Action → Bool
  | .statement (.deleteEvents hosts) => !hosts.contains host
  | .tick _ _ => isDomain s.db host
  | .rollback => false
  | _ => true

lemma spares_of_check (h : spares host s a = true) : Spares host s a := by
  cases a with
  | statement w =>
    cases w with
    | deleteEvents hosts => simpa [spares, Spares] using h
    | _ => trivial
  | tick pruneOk reconcileOk => exact h
  | rollback => cases h
  | _ => trivial

/-- A domain with an event of the first second. -/
def sampleState : State where
  db :=
    { Database.ofDomains (Table.empty.insertNew
        { host := "v.example", origin := "http://origin", createdAt := 0, updatedAt := 0 }) with
      optimizationEvents :=
        [{ ts := 0, eventType := "media_cache", host := "v.example", url := "/v.mp4"
           decision := "stored_new", elapsedMs := 9 }] }

/-- One day of retention. -/
def sampleSetting : Setting where
  js := ⟨id, id, fun _ => none⟩
  parseSeconds := Text.parseU64
  retentionMs := 86400000

/-- A day later an event comes in, and another day later it is looked for; the pruner works after each. -/
def sampleActions : List Action :=
  [.pass 90000000,
   .ingest 200 [{ ts := some "90000", eventType := "media_cache", host := "v.example", url := "/v.mp4"
                  decision := "served_200", origSize := some 10, outSize := some 10, rangeHeader := none
                  contentType := none, elapsedMs := 3 }],
   .tick true true, .pass 86400000, .tick true true]

/-- Texts as their own hashes, and figures rounded to the nearest. -/
def sampleAggregation : Events.Aggregation where
  hashUrl := id
  roundedPercent := Events.percentOf
  roundedMean times := (2 * times.sum + times.length) / (2 * times.length)

section Views

variable {engine : Engine} {rows : List OptimizationEvent}

/-- `COALESCE(SUM(…), 0)`. -/
lemma getD_sumOf (column : OptimizationEvent → Option ℕ) (rows : List OptimizationEvent) :
    (sumOf column rows).getD 0 = total (fun ev => (column ev).getD 0) rows := by
  rw [sumOf]
  split
  · rename_i hnone
    refine (total_eq_zero fun ev hev => ?_).symm
    rw [Option.isNone_iff_eq_none.mp (List.all_eq_true.mp hnone ev hev), Option.getD_none]
  · rfl

/-- The bytes that have gone out, with the events that have no such size as sent as they were. -/
lemma total_effectiveOut (rows : List OptimizationEvent) :
    total (fun ev => (effectiveOut ev).getD 0) rows =
      total (fun ev => (ev.outSize).getD 0) rows +
        total (fun ev => (ev.origSize).getD 0) (rows.filter fun ev => ev.outSize = none) := by
  rw [total_filter, ← total_add]
  refine total_congr fun ev _ => ?_
  cases hout : ev.outSize with
  | none => simp [effectiveOut, hout]
  | some out => simp [effectiveOut, hout]

/-- The items have the groups of the URLs. -/
lemma breakdownItems_perm (hsorts : engine.Sorts) (now : ℕ) (rows : List OptimizationEvent)
    (q : BreakdownQuery) :
    (breakdownItems engine now rows q).Perm
      (groupBy OptimizationEvent.url (fun url l => (urlGroup engine url l).item engine)
        (rows.filter (q.selects now))) := by
  refine ((hsorts _ _).1.map _).trans (List.Perm.of_eq ?_)
  rw [groupBy, groupBy, List.map_map]
  rfl

/-- The answers by decision are the groups of the decisions. -/
lemma statsByDecision_perm (hsorts : engine.Sorts) (now : ℕ) (rows : List OptimizationEvent)
    (q : StatsQuery) :
    (statsByDecision engine now rows q).Perm
      (groupBy OptimizationEvent.decision (decisionStats engine) (rows.filter (q.selects now))) :=
  (hsorts _ _).1

/-- The items of a breakdown add up to the events that it selects. -/
lemma total_breakdownItems (hsorts : engine.Sorts) (now : ℕ) (rows : List OptimizationEvent)
    (q : BreakdownQuery) :
    total UrlItem.events (breakdownItems engine now rows q) = (rows.filter (q.selects now)).length ∧
      total UrlItem.totalOrig (breakdownItems engine now rows q) =
        total (fun ev => (ev.origSize).getD 0) (rows.filter (q.selects now)) ∧
      total UrlItem.totalOut (breakdownItems engine now rows q) =
        total (fun ev => (effectiveOut ev).getD 0) (rows.filter (q.selects now)) := by
  have hperm := breakdownItems_perm hsorts now rows q
  have hlength : ∀ (url : String) (l : List OptimizationEvent),
      ((urlGroup engine url l).item engine).events = total (fun _ => 1) l := fun _ l => (total_one l).symm
  rw [total_perm hperm, total_perm hperm, total_perm hperm]
  exact ⟨(total_groupBy hlength).trans (total_one _), total_groupBy fun url l => getD_sumOf _ l,
    total_groupBy fun url l => getD_sumOf _ l⟩

/-- A whole number is at most cut off above. -/
lemma clampInt_natCast {least most fallback n : ℕ} (h : least ≤ n) :
    clampInt least most fallback (some (n : ℚ)) = min n most := by
  rw [clampInt, Option.elim_some, floor_natCast, Nat.max_eq_left h]

/-- A page of a breakdown of at most a million URLs. -/
lemma urlBreakdown_page (hsorts : engine.Sorts) {now : ℕ} {q : BreakdownQuery}
    (hfits : (breakdownItems engine now rows q).length ≤ 1000000) {size offset : ℕ}
    (hpos : 1 ≤ size) (hle : size ≤ 500) :
    urlBreakdown engine now rows { q with limit := some (size : ℚ), offset := some (offset : ℚ) } =
      ((breakdownItems engine now rows q).length, page size offset (breakdownItems engine now rows q)) := by
  have hlength : (keys OptimizationEvent.url (rows.filter (q.selects now))).length =
      (breakdownItems engine now rows q).length := by
    rw [(breakdownItems_perm hsorts now rows q).length_eq, groupBy, List.length_map]
  have hlimit : clampInt 1 500 50 (some (size : ℚ)) = size :=
    (clampInt_natCast hpos).trans (Nat.min_eq_left hle)
  have hoffset : clampOffset (some (offset : ℚ)) = min offset 1000000 := clampInt_natCast (Nat.zero_le _)
  have hpage : page size (min offset 1000000) (breakdownItems engine now rows q) =
      page size offset (breakdownItems engine now rows q) := by
    rcases Nat.le_total offset 1000000 with hoff | hoff
    · rw [Nat.min_eq_left hoff]
    · rw [Nat.min_eq_right hoff, (page_eq_nil_iff hpos _ _).mpr (by omega),
        (page_eq_nil_iff hpos _ _).mpr (by omega)]
  have hselects : BreakdownQuery.selects { q with limit := some (size : ℚ), offset := some (offset : ℚ) } =
      q.selects := rfl
  rw [urlBreakdown, hlimit, hoffset, hselects, hlength]
  exact congrArg (Prod.mk _) hpage

/-- The order of two items of a breakdown; those of which nothing could be saved come last. -/
def InOrder : BreakdownSort → UrlItem → UrlItem → Prop
  | .savings, a, b => 0 < b.totalOrig → 0 < a.totalOrig ∧ b.savingsRatio ≤ a.savingsRatio
  | .origSize, a, b => b.totalOrig ≤ a.totalOrig
  | .events, a, b => b.events ≤ a.events

lemma getD_le_of_asColumn {x y : Option ℕ} (h : asColumn x ≤ asColumn y) : x.getD 0 ≤ y.getD 0 := by
  cases x with
  | none => exact Nat.zero_le _
  | some a =>
    cases y with
    | none => exact absurd h (WithBot.not_coe_le_bot a)
    | some b => exact WithBot.coe_le_coe.mp h

/-- A group that has something to save has a share. -/
lemma savingsColumn_eq {g : UrlGroup} (h : 0 < (g.item engine).totalOrig) :
    savingsColumn engine g = some (g.item engine).savingsRatio := by
  have hpos : 0 < g.sumOrig.getD 0 := h
  cases hsum : g.sumOrig with
  | none => rw [hsum] at hpos; exact absurd hpos (lt_irrefl _)
  | some orig =>
    rw [hsum, Option.getD_some] at hpos
    simp [savingsColumn, UrlGroup.item, hsum, hpos, hpos.ne']

lemma inOrder_item {sort : BreakdownSort} {a b : UrlGroup} (h : (breakdownOrder engine sort).le a b = true) :
    InOrder sort (a.item engine) (b.item engine) := by
  cases sort with
  | savings =>
    intro hb
    have hle : asColumn (savingsColumn engine b) ≤ asColumn (savingsColumn engine a) := of_decide_eq_true h
    rw [savingsColumn_eq hb] at hle
    by_cases ha : 0 < (a.item engine).totalOrig
    · rw [savingsColumn_eq ha] at hle
      exact ⟨ha, WithBot.coe_le_coe.mp hle⟩
    · have hnone : savingsColumn engine a = none := by
        have hzero : a.sumOrig.getD 0 = 0 := Nat.eq_zero_of_not_pos ha
        cases hsum : a.sumOrig with
        | none => simp [savingsColumn, hsum]
        | some orig =>
          rw [hsum, Option.getD_some] at hzero
          simp [savingsColumn, hsum, hzero]
      rw [hnone] at hle
      exact absurd hle (WithBot.not_coe_le_bot _)
  | origSize => exact getD_le_of_asColumn (of_decide_eq_true h)
  | events =>
    have hle : b.events ≤ a.events := of_decide_eq_true h
    exact hle

/-- What the figures by URL and those by decision have in common, for the events of a host in a period. -/
structure ViewsAgree (engine : Engine) (now : ℕ) (rows : List OptimizationEvent) (host : String)
    (period : ℕ) : Prop where
  /-- Every decision has one row, and the rows count all events. -/
  once : ((statsByDecision engine now rows { host := some host, periodSec := some period }).map
    DecisionStatsRow.decision).Nodup
  whole : ∀ sort, total UrlItem.events
      (breakdownItems engine now rows { host := host, periodSec := some period, sort := sort }) =
    total DecisionStatsRow.count
      (statsByDecision engine now rows { host := some host, periodSec := some period })
  /-- The URLs with a decision add up to its row; of the bytes out, only they have those of the events
  without such a size. -/
  decision : ∀ row ∈ statsByDecision engine now rows { host := some host, periodSec := some period },
    row.decision ≠ "" → ∀ sort,
      let q : BreakdownQuery :=
        { host := host, periodSec := some period, sort := sort, decision := some row.decision }
      total UrlItem.events (breakdownItems engine now rows q) = row.count ∧
        total UrlItem.totalOrig (breakdownItems engine now rows q) = row.totalOrig ∧
        total UrlItem.totalOut (breakdownItems engine now rows q) =
          row.totalOut + total (fun ev => (ev.origSize).getD 0)
            ((rows.filter (q.selects now)).filter fun ev => ev.outSize = none)
  /-- A decision without a row has no URL. -/
  absent : ∀ d ≠ "", d ∉ (statsByDecision engine now rows
      { host := some host, periodSec := some period }).map DecisionStatsRow.decision →
    ∀ sort, breakdownItems engine now rows
      { host := host, periodSec := some period, sort := sort, decision := some d } = []
  /-- The URLs that are searched for are those that match, with the same figures. -/
  search : ∀ q : BreakdownQuery, ∀ text ≠ "",
    (breakdownItems engine now rows { q with search := some text }).Perm
      ((breakdownItems engine now rows { q with search := none }).filter fun item =>
        columnLike item.url text)
  /-- Every URL is listed once, in the order that is asked for. -/
  urls : ∀ q : BreakdownQuery, ((breakdownItems engine now rows q).map UrlItem.url).Nodup ∧
    (breakdownItems engine now rows q).Pairwise (InOrder (q.sort.getD .savings)) ∧
    ∀ url, url ∈ (breakdownItems engine now rows q).map UrlItem.url ↔
      ∃ ev ∈ rows, q.selects now ev = true ∧ ev.url = url
  /-- The pages of a size, up to the first empty one, are the list, and say how long it is. -/
  pages : ∀ (q : BreakdownQuery) (size : ℕ), 1 ≤ size → size ≤ 500 →
    (breakdownItems engine now rows q).length ≤ 1000000 →
    let answer (k : ℕ) := urlBreakdown engine now rows
      { q with limit := some (size : ℚ), offset := some ((k * size : ℕ) : ℚ) }
    ∃ n, (answer n).2 = [] ∧ (∀ k < n, (answer k).2 ≠ []) ∧
      ((List.range n).flatMap fun k => (answer k).2) = breakdownItems engine now rows q ∧
      ∀ k, (answer k).1 = (breakdownItems engine now rows q).length

/-- The events with a decision are those that the figures by decision put in its row. -/
lemma filter_decision (hhost : host ≠ "") {d : String} (hd : d ≠ "") (sort : Option BreakdownSort)
    (rows : List OptimizationEvent) :
    rows.filter (BreakdownQuery.selects
        { host := host, periodSec := some period, sort := sort, decision := some d } now) =
      rowsOf OptimizationEvent.decision d
        (rows.filter (StatsQuery.selects { host := some host, periodSec := some period } now)) := by
  rw [rowsOf, List.filter_filter]
  refine List.filter_congr fun ev _ => ?_
  rw [BreakdownQuery.selects, StatsQuery.selects, wants_some hhost, wants_some hd]
  simp [wants, beq_eq_decide, Bool.and_comm]

lemma filter_host (hhost : host ≠ "") (sort : Option BreakdownSort) (rows : List OptimizationEvent) :
    rows.filter (BreakdownQuery.selects { host := host, periodSec := some period, sort := sort } now) =
      rows.filter (StatsQuery.selects { host := some host, periodSec := some period } now) := by
  refine List.filter_congr fun ev _ => ?_
  rw [BreakdownQuery.selects, StatsQuery.selects, wants_some hhost]
  simp [wants, Bool.and_comm]

/-- What the URLs are, and in which order. -/
lemma urls_breakdownItems (hsorts : engine.Sorts) (now : ℕ) (rows : List OptimizationEvent)
    (q : BreakdownQuery) :
    ((breakdownItems engine now rows q).map UrlItem.url).Nodup ∧
      (breakdownItems engine now rows q).Pairwise (InOrder (q.sort.getD .savings)) ∧
      ∀ url, url ∈ (breakdownItems engine now rows q).map UrlItem.url ↔
        ∃ ev ∈ rows, q.selects now ev = true ∧ ev.url = url := by
  have hurls : ((breakdownItems engine now rows q).map UrlItem.url).Perm
      (keys OptimizationEvent.url (rows.filter (q.selects now))) := by
    refine ((breakdownItems_perm hsorts now rows q).map _).trans (List.Perm.of_eq ?_)
    rw [groupBy, List.map_map]
    exact List.map_id _
  refine ⟨hurls.nodup_iff.mpr nodup_keys, ?_, fun url => ?_⟩
  · exact List.pairwise_map.mpr ((hsorts _ _).2.imp fun h => inOrder_item h)
  · rw [hurls.mem_iff, mem_keys]
    exact exists_congr fun ev => by rw [List.mem_filter, and_assoc]

/-- A search may be made among the events or among the URLs. -/
lemma search_breakdownItems (hsorts : engine.Sorts) (now : ℕ) (rows : List OptimizationEvent)
    (q : BreakdownQuery) {text : String} (htext : text ≠ "") :
    (breakdownItems engine now rows { q with search := some text }).Perm
      ((breakdownItems engine now rows { q with search := none }).filter fun item =>
        columnLike item.url text) := by
  refine (breakdownItems_perm hsorts now rows _).trans ?_
  refine List.Perm.trans ?_ ((breakdownItems_perm hsorts now rows _).filter _).symm
  have hrows : rows.filter (BreakdownQuery.selects { q with search := some text } now) =
      (rows.filter (BreakdownQuery.selects { q with search := none } now)).filter fun ev =>
        columnLike ev.url text := by
    rw [List.filter_filter]
    refine List.filter_congr fun ev _ => ?_
    simp only [BreakdownQuery.selects, Option.filter_some, bne_iff_ne, ne_eq, htext, not_false_eq_true,
      if_true, Option.filter_none, Option.all_some, Option.all_none, Bool.and_true]
    exact Bool.and_comm _ _
  rw [hrows]
  exact groupBy_filter_key (fun _ _ => rfl) (columnLike · text) _

/-- The pages of a list of at most a million URLs. -/
lemma pages_breakdownItems (hsorts : engine.Sorts) (now : ℕ) (rows : List OptimizationEvent)
    (q : BreakdownQuery) {size : ℕ} (hpos : 1 ≤ size) (hle : size ≤ 500)
    (hfits : (breakdownItems engine now rows q).length ≤ 1000000) :
    let answer (k : ℕ) := urlBreakdown engine now rows
      { q with limit := some (size : ℚ), offset := some ((k * size : ℕ) : ℚ) }
    ∃ n, (answer n).2 = [] ∧ (∀ k < n, (answer k).2 ≠ []) ∧
      ((List.range n).flatMap fun k => (answer k).2) = breakdownItems engine now rows q ∧
      ∀ k, (answer k).1 = (breakdownItems engine now rows q).length := by
  have hanswer : ∀ k : ℕ, urlBreakdown engine now rows
      { q with limit := some (size : ℚ), offset := some ((k * size : ℕ) : ℚ) } =
        ((breakdownItems engine now rows q).length,
          page size (k * size) (breakdownItems engine now rows q)) :=
    fun k => urlBreakdown_page hsorts hfits hpos hle
  simp only [hanswer]
  obtain ⟨n, hlast, hfirst, hall⟩ := exists_first_empty_page hpos (breakdownItems engine now rows q)
  exact ⟨n, hlast, hfirst, hall, fun _ => trivial⟩

/-- For every table and every host, the figures by URL and the figures by decision are of the same events. -/
theorem views_agree (engine : Engine) (hsorts : engine.Sorts) (now : ℕ) (rows : List OptimizationEvent)
    (host : String) (hhost : host ≠ "") (period : ℕ) : ViewsAgree engine now rows host period := by
  set q₀ : StatsQuery := { host := some host, periodSec := some period } with hq₀
  have hstats := statsByDecision_perm hsorts now rows q₀
  have hrow : ∀ row ∈ statsByDecision engine now rows q₀, ∃ d ∈ keys OptimizationEvent.decision
      (rows.filter (q₀.selects now)), decisionStats engine d
        (rowsOf OptimizationEvent.decision d (rows.filter (q₀.selects now))) = row :=
    fun row hrow => mem_groupBy.mp (hstats.mem_iff.mp hrow)
  refine ⟨?_, fun sort => ?_, fun row hmem hne sort => ?_, fun d hd habsent sort => ?_,
    fun q text htext => search_breakdownItems hsorts now rows q htext,
    fun q => urls_breakdownItems hsorts now rows q,
    fun q size hpos hle hfits => pages_breakdownItems hsorts now rows q hpos hle hfits⟩
  · refine ((hstats.map _).nodup_iff).mpr ?_
    rw [groupBy, List.map_map]
    exact (List.map_id _).symm ▸ nodup_keys
  · rw [(total_breakdownItems hsorts now rows _).1, filter_host hhost, total_perm hstats]
    have hlength : ∀ (d : String) (l : List OptimizationEvent),
        (decisionStats engine d l).count = total (fun _ => 1) l := fun _ l => (total_one l).symm
    exact ((total_groupBy hlength).trans (total_one _)).symm
  · intro q
    obtain ⟨d, -, rfl⟩ := hrow row hmem
    have hselected : rows.filter (q.selects now) =
        rowsOf OptimizationEvent.decision d (rows.filter (q₀.selects now)) := filter_decision hhost hne sort rows
    obtain ⟨hevents, horig, hout⟩ := total_breakdownItems hsorts now rows q
    rw [hevents, horig, hout, total_effectiveOut, hselected]
    exact ⟨rfl, (getD_sumOf _ _).symm, congrArg (· + _) (getD_sumOf _ _).symm⟩
  · have hnone : d ∉ keys OptimizationEvent.decision (rows.filter (q₀.selects now)) := by
      intro hkey
      refine habsent (List.mem_map.mpr ⟨_, hstats.mem_iff.mpr (mem_groupBy.mpr ⟨d, hkey, rfl⟩), rfl⟩)
    have hperm := breakdownItems_perm hsorts now rows
      { host := host, periodSec := some period, sort := sort, decision := some d }
    rw [filter_decision hhost hd, rowsOf_eq_nil hnone] at hperm
    exact List.perm_nil.mp hperm

/-- Sorted as it was, with exact shares. -/
def sampleEngine : Engine where
  rank := Comparison.sort
  distinct := List.dedup
  savings out orig := 1 - out / orig
  roundedMean times := (2 * times.sum + times.length) / (2 * times.length)

/-- An image that has become smaller, one that was left as it was, and the first one from the cache. -/
def sampleRows : List OptimizationEvent :=
  [{ ts := 10, eventType := "image_optimize", host := "v.example", url := "/a.jpg", decision := "optimized"
     origSize := some 100, outSize := some 40, elapsedMs := 5 },
   { ts := 11, eventType := "image_optimize", host := "v.example", url := "/b.jpg"
     decision := "bypass_size", origSize := some 60, elapsedMs := 1 },
   { ts := 12, eventType := "image_optimize", host := "v.example", url := "/a.jpg", decision := "optimized"
     origSize := some 100, outSize := some 40, elapsedMs := 7 }]

/-- The image that was left as it was counts as sent whole by its URL, and as nothing by its decision. -/
theorem views_agree_images :
    total UrlItem.totalOut (breakdownItems sampleEngine 20 sampleRows
        { host := "v.example", periodSec := some 3600, decision := some "bypass_size" }) =
      0 + total (fun ev : OptimizationEvent => (ev.origSize).getD 0)
        ((sampleRows.filter (BreakdownQuery.selects
          { host := "v.example", periodSec := some 3600, decision := some "bypass_size" } 20)).filter
            fun ev => ev.outSize = none) :=
  ((views_agree sampleEngine (fun _ _ => Comparison.isRanking_sort) 20 sampleRows "v.example" (by decide)
    3600).decision ⟨"bypass_size", 1, 60, 0, 1⟩ (by decide +kernel) (by decide) none).2.2

end Views

end SmartSchoolCdn.EventViews
