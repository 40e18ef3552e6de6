import SmartSchoolCdn.Admin.DomainStats
import SmartSchoolCdn.Admin.StatsCollector

/-!
# From the counters to the statistics page

The counters of the proxy, the collector and `getStats` one after another.  A request adds to the
counters of its host, a poll takes the counters, the collector inserts what it has taken, and the query
sums the rows of a period.  Where no count is passed over on the way, the figures of the query and what
is still in the counters and in unfinished polls make up what has been recorded (`recorded_shown`).
-/

namespace SmartSchoolCdn.Stats

open Tables Traces DomainStats Summaries

/-! ## The rows that the collector inserts -/

/-- A row that an answer to a poll has come to. -/
structure Collected (w : Window) (row : DomainStatsRow) : Prop where
  cacheHits : row.cacheHits = row.l1Hits + row.l2Hits
  since_le : w.since ≤ (row.timestamp : ℚ)
  lt_til : (row.timestamp : ℚ) < w.til

/-- The answer to a poll comes in the period, and every row with some of a count is inserted. -/
def KeptWithin (w : Window) (host : String) (s : State) (a : Action) : Prop :=
  (∀ f, f ≠ .responseTimeSum → Kept host f s a) ∧
    ∀ i now, a = .collect i now → w.since ≤ (now : ℚ) ∧ (now : ℚ) < w.til

variable {w : Window} {db : Database}

/-- The row of an object of an answer. -/
lemma collected_row {tick : Tick} {stat : ProxyStat} {now : ℕ} (hstat : stat ∈ tick.rows)
    (hsince : w.since ≤ (now : ℚ)) (htil : (now : ℚ) < w.til) : Collected w (stat.row now) := by
  obtain ⟨host, -, rfl⟩ := List.mem_map.mp hstat
  exact ⟨rfl, hsince, htil⟩

/-- Rows that are added to one another. -/
lemma Collected.accumulate {row old : DomainStatsRow} (hrow : Collected w row) (hold : Collected w old) :
    Collected w (Database.accumulate row old) where
  cacheHits := by
    have hnew := hrow.cacheHits
    have hsum := hold.cacheHits
    simp only [Database.accumulate]
    omega
  since_le := hold.since_le
  lt_til := hold.lt_til

/-- An insertion. -/
lemma collected_insertStats {db' : Database} {row : DomainStatsRow} (hrow : Collected w row)
    (hdb : ∀ r ∈ db.domainStats.rows, Collected w r) (h : db.insertStats row = some db') :
    ∀ r ∈ db'.domainStats.rows, Collected w r := by
  unfold Database.insertStats at h
  split at h
  · obtain rfl := Option.some.inj h
    intro r hr
    rcases Table.mem_rows_upsert _ hr with hold | rfl | ⟨old, hold, rfl⟩
    · exact hdb r hold
    · exact hrow
    · exact hrow.accumulate (hdb old hold)
  · cases h

/-- The loop over an answer. -/
lemma collected_collectStats {now : ℕ} {rows : List ProxyStat}
    (hrows : ∀ stat ∈ rows, Collected w (stat.row now)) (hdb : ∀ r ∈ db.domainStats.rows, Collected w r) :
    ∀ r ∈ (collectStats now rows db).domainStats.rows, Collected w r := by
  induction rows generalizing db with
  | nil => exact hdb
  | cons stat rest ih =>
    have hrest := fun stat hstat => hrows stat (List.mem_cons_of_mem _ hstat)
    unfold collectStats
    split
    · exact ih hrest hdb
    · split
      · exact ih hrest (collected_insertStats (hrows stat List.mem_cons_self) hdb ‹_›)
      · exact hdb

/-- A step of the system. -/
lemma collected_step {s s' : State} {a : Action} {host : String} (hkept : KeptWithin w host s a)
    (hs : ∀ r ∈ s.db.domainStats.rows, Collected w r) (h : step s a = some s') :
    ∀ r ∈ s'.db.domainStats.rows, Collected w r := by
  cases step_effect h with
  | collect i now tick htick =>
    obtain ⟨hsince, htil⟩ := hkept.2 i now rfl
    exact collected_collectStats (fun stat hstat => collected_row hstat hsince htil) hs
  | _ => exact hs

/-- No count of a host is lost in a run that keeps it. -/
lemma held_eq_recorded {start : Database} {as : List Action} {s : State} {host : String}
    {f : CounterField} (hf : f ≠ .responseTimeSum)
    (h : Trace step (KeptWithin w host) (State.start start) as s) : s.held host f = s.recorded host f := by
  refine (h.invariant (I := fun s => Inv s ∧ s.held host f = s.recorded host f) ?_
    ⟨inv_start start, rfl⟩).2
  rintro s a s' ⟨hinv, heq⟩ hkept hst
  have hbalance := step_balance host hf hinv hst
  have hlost := lost_eq_zero.mpr (hkept.1 f hf)
  exact ⟨inv_step hinv hst, by omega⟩

/-! ## What the query shows -/

/-- The rows of a host in a period that has them all. -/
lemma total_rowsIn_collected {rows : List DomainStatsRow} (hrows : ∀ r ∈ rows, Collected w r)
    (host : String) (g : DomainStatsRow → ℕ) :
    total g (rowsIn host w.since w.til rows) = total (fun r => if r.host = host then g r else 0) rows := by
  have hfilter : rowsIn host w.since w.til rows = rows.filter fun r => r.host = host :=
    List.filter_congr fun r hr => by simp [(hrows r hr).since_le, (hrows r hr).lt_til]
  rw [hfilter, total_filter]

variable {β ν : Type} [LinearOrder β] (num : SeriesNumbers ν) (bucket : ℕ → ℕ → β)

/-- What the proxy counts for a host is what its statistics show.  In every run from an empty table in
which the answers to the polls come in a period and no row with a count of the host is passed over,
requests, hits, misses and bytes of the period together with those still in the counters and in
unfinished polls are the recorded ones, whatever is recorded, polled and collected at the same time. -/
theorem recorded_shown (db : Database) (hempty : db.domainStats = .empty) (host : String)
    (period : StatsPeriod) (range : Option (ℚ × ℚ)) (now : ℕ) (w : Window)
    (hw : window now period range = some w) (as : List Action) (s : State)
    (h : Trace step (KeptWithin w host) (State.start db) as s) :
    ∃ result, getStats num bucket s.db.domainStats host period range now = some result ∧
      result.summary.totalRequests + s.counters host .requests + s.unfinished host .requests =
        s.recorded host .requests ∧
      result.summary.totalCacheHits + (s.counters host .l1Hits + s.counters host .l2Hits) +
          (s.unfinished host .l1Hits + s.unfinished host .l2Hits) =
        s.recorded host .l1Hits + s.recorded host .l2Hits ∧
      result.summary.totalCacheMisses + s.counters host .cacheMisses + s.unfinished host .cacheMisses =
        s.recorded host .cacheMisses ∧
      result.summary.totalBandwidth + s.counters host .bandwidth + s.unfinished host .bandwidth =
        s.recorded host .bandwidth := by
  have hrows : ∀ r ∈ s.db.domainStats.rows, Collected w r := by
    refine h.invariant (I := fun s => ∀ r ∈ s.db.domainStats.rows, Collected w r) ?_ ?_
    · exact fun _ _ _ hs hkept hst => collected_step hkept hs hst
    · simp [State.start, hempty, Table.empty]
  have hheld : ∀ f, f ≠ .responseTimeSum →
      stored s.db host f + s.counters host f + s.unfinished host f = s.recorded host f :=
    fun f hf => held_eq_recorded hf h
  have hshown : ∀ (column : Sums → ℕ) {g : DomainStatsRow → ℕ}, (∀ l, column (Sums.of l) = total g l) →
      total (fun r => column r.toSums)
        (seriesRows num bucket w (rowsIn host w.since w.til s.db.domainStats.rows)) =
          total (fun r => if r.host = host then g r else 0) s.db.domainStats.rows := by
    intro column g hsums
    rw [total_seriesRows num bucket w _ hsums, total_rowsIn_collected hrows]
  have hhits : total (fun r => if r.host = host then r.cacheHits else 0) s.db.domainStats.rows =
      stored s.db host .l1Hits + stored s.db host .l2Hits := by
    rw [stored, stored, ← total_add]
    refine total_congr fun r hr => ?_
    unfold rowShare
    split
    · exact (hrows r hr).cacheHits
    · rfl
  refine ⟨_, by rw [getStats, hw, Option.map_some], ?_, ?_, ?_, ?_⟩
  · exact (congrArg (· + _ + _) (hshown Sums.requests fun _ => rfl)).trans (hheld .requests (by simp))
  · have hl1 := hheld .l1Hits (by simp)
    have hl2 := hheld .l2Hits (by simp)
    have htotal := (hshown Sums.cacheHits fun _ => rfl).trans hhits
    dsimp only
    omega
  · exact (congrArg (· + _ + _) (hshown Sums.cacheMisses fun _ => rfl)).trans
      (hheld .cacheMisses (by simp))
  · exact (congrArg (· + _ + _) (hshown Sums.bandwidth fun _ => rfl)).trans
      (hheld .bandwidth (by simp))

/-- The period that the sample run falls in. -/
def sampleWindow : Window := ⟨(100 : ℕ) - 3600, (100 : ℕ), 60⟩

/-- Whether an answer comes in that period and nothing of it is passed over. -/
def keptWithin (s : State) : Action → Bool
  | .collect i now => decide (now < 100) && takeFields.all fun f => lost s "a.kr" f (.collect i now) == 0
  | _ => true

/-- The check is right. -/
lemma keptWithin_of_check {s : State} {a : Action} (h : keptWithin s a = true) :
    KeptWithin sampleWindow "a.kr" s a := by
  cases a with
  | collect i now =>
    rw [keptWithin, Bool.and_eq_true, List.all_eq_true] at h
    obtain ⟨hnow, hlost⟩ := h
    refine ⟨fun f _ => lost_eq_zero.mp (by simpa using hlost f (by cases f <;> decide)), ?_⟩
    rintro i' now' heq
    obtain ⟨-, rfl⟩ := Action.collect.inj heq
    have htil : (now : ℚ) < (100 : ℕ) := by exact_mod_cast of_decide_eq_true hnow
    have hsince : sampleWindow.since ≤ 0 := sub_nonpos.mpr (by decide)
    exact ⟨hsince.trans (Nat.cast_nonneg now), htil⟩
  | _ => exact ⟨fun f _ => lost_eq_zero.mp rfl, fun _ _ h => by cases h⟩

/-- Two requests of a domain are polled, collected and shown. -/
theorem recorded_shown_plain :
    ∃ s, Trace step (KeptWithin sampleWindow "a.kr") (State.start sampleDb) plainRun s ∧
      ∃ result, getStats wholeNumbers (fun size timestamp => timestamp / size * size) s.db.domainStats
          "a.kr" .hour none 100 = some result ∧ result.summary.totalRequests = 2 := by
  have hrun : ((checkedRun step keptWithin (State.start sampleDb) plainRun).any fun s =>
      decide (s.counters "a.kr" .requests = 0 ∧ s.unfinished "a.kr" .requests = 0 ∧
        s.recorded "a.kr" .requests = 2)) = true := by
    decide +kernel
  obtain ⟨s, hs, hp⟩ := exists_trace_of_checkedRun (I := fun _ => True) (fun _ _ _ _ _ => trivial)
    (fun _ _ _ hc => keptWithin_of_check hc) trivial hrun
  obtain ⟨hcounters, hunfinished, hrecorded⟩ := of_decide_eq_true hp
  obtain ⟨result, hresult, hrequests, -⟩ :=
    recorded_shown wholeNumbers (fun size timestamp => timestamp / size * size) sampleDb rfl "a.kr"
      .hour none 100 sampleWindow rfl plainRun s hs
  exact ⟨s, hs, result, hresult, by omega⟩

end SmartSchoolCdn.Stats
