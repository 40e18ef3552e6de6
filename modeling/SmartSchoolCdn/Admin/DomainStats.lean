import SmartSchoolCdn.Admin.Summaries
import Mathlib.Data.Rat.Cast.Order
import Mathlib.Data.Rat.Defs

/-!
# The statistics of a domain

`getStats` of `db/domain-stats-repo.ts` over the life of the table.  The collector adds rows, several to
one row where host and second agree; `DomainStatsPruner` deletes the old rows, and the deletion of a
domain takes its rows along.  What `getStats` answers is nevertheless what has been collected and not
been deleted: the table holds the sums of a ledger of all collected rows (`Conserves`), and the windows
and buckets of the query are sums of that ledger (`stats_conserved`).
-/

namespace SmartSchoolCdn.DomainStats

open Tables Grouping Ranking Summaries

/-! ## The query -/

/-- `StatsPeriod`. -/
inductive StatsPeriod
  | hour
  | day
  | week
  | month
  | custom
  deriving DecidableEq, Repr

/-- The times and the bucket size that a query works with. -/
structure Window where
  since : ℚ
  til : ℚ
  bucketSize : ℕ

/-- The window of a period, or none where `validateRange` throws. -/
def window (now : ℕ) (period : StatsPeriod) (range : Option (ℚ × ℚ)) : Option Window :=
  match period with
  | .custom =>
    match range with
    | none => none
    | some (fromSec, toSec) =>
      if toSec ≤ fromSec then none
      else
        let span := toSec - fromSec
        some ⟨fromSec, toSec, if span ≤ 3600 then 60 else if span ≤ 86400 then 3600 else 86400⟩
  | .hour => some ⟨(now : ℚ) - 3600, now, 60⟩
  | .day => some ⟨(now : ℚ) - 86400, now, 3600⟩
  | .week => some ⟨(now : ℚ) - 604800, now, 86400⟩
  | .month => some ⟨(now : ℚ) - 2592000, now, 86400⟩

/-- The columns that add up. -/
structure Sums where
  requests : ℕ
  cacheHits : ℕ
  cacheMisses : ℕ
  bandwidth : ℕ
  l1Hits : ℕ
  l2Hits : ℕ
  bypassMethod : ℕ
  bypassNocache : ℕ
  bypassSize : ℕ
  bypassOther : ℕ
  deriving DecidableEq, Repr

/-- The sums of rows. -/
def Sums.of (rows : List DomainStatsRow) : Sums where
  requests := total DomainStatsRow.requests rows
  cacheHits := total DomainStatsRow.cacheHits rows
  cacheMisses := total DomainStatsRow.cacheMisses rows
  bandwidth := total DomainStatsRow.bandwidth rows
  l1Hits := total DomainStatsRow.l1Hits rows
  l2Hits := total DomainStatsRow.l2Hits rows
  bypassMethod := total DomainStatsRow.bypassMethod rows
  bypassNocache := total DomainStatsRow.bypassNocache rows
  bypassSize := total DomainStatsRow.bypassSize rows
  bypassOther := total DomainStatsRow.bypassOther rows

/-- The numbers of the runtime and of the database, with sums. -/
structure SeriesNumbers (ν : Type) extends Numbers ν where
  add : ν → ν → ν

/-- A row of the series. -/
structure TimeseriesRow (β ν : Type) extends Sums where
  bucket : β
  avgResponseTime : ν

/-- The summary of a period. -/
structure StatsSummary (ν : Type) where
  totalRequests : ℕ
  totalCacheHits : ℕ
  totalCacheMisses : ℕ
  totalBandwidth : ℕ
  avgResponseTime : ν
  hitRate : ν
  requestsDelta : ν
  hitRateDelta : ν
  responseTimeDelta : ν

/-- `DomainStatsResult`. -/
structure DomainStatsResult (β ν : Type) where
  summary : StatsSummary ν
  timeseries : List (TimeseriesRow β ν)

section Query

variable {β ν : Type} [LinearOrder β] (num : SeriesNumbers ν) (bucket : ℕ → ℕ → β)

/-- The rows of a host in a time. -/
def rowsIn (host : String) (since til : ℚ) (rows : List DomainStatsRow) : List DomainStatsRow :=
  rows.filter fun r => r.host = host ∧ since ≤ (r.timestamp : ℚ) ∧ (r.timestamp : ℚ) < til

/-- `AVG(avg_response_time)`, which is `NULL` over no rows. -/
def avgResponseTime (rows : List DomainStatsRow) : Option ν :=
  if rows.length = 0 then none
  else some (num.div (num.ofNat (total DomainStatsRow.avgResponseTime rows)) (num.ofNat rows.length))

/-- `ORDER BY bucket ASC`. -/
def bySeries : Comparison (TimeseriesRow β ν) := .column fun r => r.bucket

/-- The rows by the bucket, with `bucket size timestamp` for the value of
`(timestamp / size) * size` in the database. -/
def seriesRows (w : Window) (rows : List DomainStatsRow) : List (TimeseriesRow β ν) :=
  bySeries.sort (groupBy (fun r => bucket w.bucketSize r.timestamp)
    (fun b group =>
      { Sums.of group with
        bucket := b
        avgResponseTime := (avgResponseTime num group).getD (num.ofNat 0) })
    rows)

/-- `getStats`; it throws where the range of a custom period is missing or empty. -/
def getStats (stats : Table DomainStatsRow.key) (host : String) (period : StatsPeriod)
    (range : Option (ℚ × ℚ)) (now : ℕ) : Option (DomainStatsResult β ν) :=
  (window now period range).map fun w =>
    let rows := seriesRows num bucket w (rowsIn host w.since w.til stats.rows)
    let totalRequests := total (fun r => r.requests) rows
    let totalCacheHits := total (fun r => r.cacheHits) rows
    let average :=
      if 0 < rows.length then
        num.round (num.div (rows.foldl (fun sum r => num.add sum r.avgResponseTime) (num.ofNat 0))
          (num.ofNat rows.length))
      else num.ofNat 0
    let hitRate := num.ratio totalCacheHits totalRequests
    let prevRows := rowsIn host (w.since - (w.til - w.since)) w.since stats.rows
    let prevRequests := total DomainStatsRow.requests prevRows
    let prevHitRate := num.ratio (total DomainStatsRow.cacheHits prevRows) prevRequests
    let prevResponseTime := (avgResponseTime num prevRows).getD (num.ofNat 0)
    { summary :=
        { totalRequests := totalRequests
          totalCacheHits := totalCacheHits
          totalCacheMisses := total (fun r => r.cacheMisses) rows
          totalBandwidth := total (fun r => r.bandwidth) rows
          avgResponseTime := average
          hitRate := hitRate
          requestsDelta := num.getDelta (num.ofNat totalRequests) (num.ofNat prevRequests)
          hitRateDelta := num.getDelta hitRate prevHitRate
          responseTimeDelta := num.getDelta average prevResponseTime }
      timeseries := rows.map fun r => { r with avgResponseTime := num.round r.avgResponseTime } }

end Query

/-! ## The life of the table -/

/-- `pruneBefore`. -/
def pruneBefore (cutoffSec : ℤ) (stats : Table DomainStatsRow.key) : Table DomainStatsRow.key :=
  stats.eraseWhere fun key => (key.2 : ℤ) < cutoffSec

/-- A statement of the repositories, or a tick of `DomainStatsPruner` at a time in milliseconds, whose
deletion may fail. -/
inductive Action
  | statement (w : Statement)
  | tick (now retentionDays : ℕ) (executes : Bool)

/-- The cutoff of a tick. -/
def cutoff (now retentionDays : ℕ) : ℤ := (now / 1000 : ℕ) - (retentionDays * 24 * 60 * 60 : ℕ)

/-- The database with the ledger of the collected rows that have not been deleted. -/
structure State where
  db : Database
  ledger : List DomainStatsRow

/-- What a statement does to the ledger: an insertion that succeeds is entered, and the deletion of
domains strikes out their rows. -/
def State.entered (s : State) : Statement → List DomainStatsRow
  | .insertStats row => if (s.db.domains.find row.host).isSome then s.ledger ++ [row] else s.ledger
  | .deleteDomains hosts => s.ledger.filter fun r => !hosts.contains r.host
  | _ => s.ledger

/-- One action. -/
def State.step (s : State) : Action → State
  | .statement w => { db := s.db.exec w, ledger := s.entered w }
  | .tick now retentionDays executes =>
    if executes then
      { db := { s.db with domainStats := pruneBefore (cutoff now retentionDays) s.db.domainStats }
        ledger := s.ledger.filter fun r => !decide ((r.timestamp : ℤ) < cutoff now retentionDays) }
    else s

/-- A database without statistics. -/
def State.start (db : Database) : State := { db := { db with domainStats := .empty }, ledger := [] }

/-- The state after actions. -/
def State.run (s : State) (as : List Action) : State := as.foldl State.step s

/-! ## The table holds the sums of the ledger -/

/-- A column that an insertion adds to. -/
def Adds (g : DomainStatsRow → ℕ) : Prop :=
  ∀ row old, g (Database.accumulate row old) = g old + g row

/-- Under every condition on the keys, the rows of the table add up to what those of the ledger do, and
they have the same keys. -/
structure Conserves (ledger : List DomainStatsRow) (stats : Table DomainStatsRow.key) : Prop where
  totals : ∀ (p : String × ℕ → Prop) [DecidablePred p] (g : DomainStatsRow → ℕ), Adds g →
    total g (stats.rows.filter fun r => p r.key) = total g (ledger.filter fun r => p r.key)
  keys : ∀ k, k ∈ stats.rows.map DomainStatsRow.key ↔ k ∈ ledger.map DomainStatsRow.key

variable {ledger : List DomainStatsRow} {stats : Table DomainStatsRow.key}

lemma key_accumulate (row old : DomainStatsRow) : (Database.accumulate row old).key = old.key := rfl

/-- An insertion is an entry. -/
lemma Conserves.insert (h : Conserves ledger stats) (row : DomainStatsRow) :
    Conserves (ledger ++ [row]) (stats.upsert row (Database.accumulate row) (key_accumulate row)) where
  totals := by
    intro p _ g hg
    have hmeasure : ∀ l : List DomainStatsRow,
        total g (l.filter fun r => p r.key) = total (fun r => if p r.key then g r else 0) l :=
      fun l => total_filter fun r : DomainStatsRow => p r.key
    rw [hmeasure, hmeasure, total_append, total_cons, total_nil, Nat.add_zero, ← hmeasure ledger,
      ← h.totals p g hg, hmeasure]
    refine total_upsert _ fun old hkey => ?_
    rw [key_accumulate, hkey, hg row old]
    split <;> rfl
  keys := by
    intro k
    rw [List.map_append, List.mem_append, ← h.keys k]
    have hfind : ∀ t : Table DomainStatsRow.key, k ∈ t.rows.map DomainStatsRow.key ↔ (t.find k).isSome = true :=
      fun t => by rw [Table.isSome_find_iff, List.mem_map]
    rw [hfind, hfind]
    by_cases hk : row.key = k
    · subst hk
      rw [Table.find_upsert_self]
      simp
    · rw [Table.find_upsert_ne _ hk]
      simp [Ne.symm hk]

/-- A deletion by the keys strikes out the same entries. -/
lemma Conserves.erase (h : Conserves ledger stats) (p : String × ℕ → Bool) :
    Conserves (ledger.filter fun r => !p r.key) (stats.eraseWhere p) where
  totals := by
    intro q _ g hg
    have hboth : ∀ l : List DomainStatsRow, (l.filter fun r => !p r.key).filter (fun r => decide (q r.key)) =
        l.filter fun r => decide (q r.key ∧ p r.key = false) := by
      intro l
      rw [List.filter_filter]
      refine List.filter_congr fun r _ => ?_
      cases p r.key <;> simp
    rw [Table.rows_eraseWhere, hboth, hboth]
    exact h.totals (fun k => q k ∧ p k = false) g hg
  keys := by
    intro k
    have hkept : ∀ l : List DomainStatsRow, k ∈ (l.filter fun r => !p r.key).map DomainStatsRow.key ↔
        k ∈ l.map DomainStatsRow.key ∧ p k = false := by
      intro l
      simp only [List.mem_map, List.mem_filter, Bool.not_eq_true']
      constructor
      · rintro ⟨r, ⟨hr, hp⟩, rfl⟩
        exact ⟨⟨r, hr, rfl⟩, hp⟩
      · rintro ⟨⟨r, hr, rfl⟩, hp⟩
        exact ⟨r, ⟨hr, hp⟩, rfl⟩
    rw [Table.rows_eraseWhere, hkept, hkept, h.keys k]

/-- An action keeps the ledger. -/
lemma Conserves.step {s : State} (h : Conserves s.ledger s.db.domainStats) (a : Action) :
    Conserves (s.step a).ledger (s.step a).db.domainStats := by
  cases a with
  | tick now retentionDays executes =>
    cases executes with
    | false => exact h
    | true => exact h.erase fun key => (key.2 : ℤ) < cutoff now retentionDays
  | statement w =>
    cases w with
    | insertStats row =>
      simp only [State.step, State.entered, Database.exec, Database.run, Database.insertStats]
      split
      · exact h.insert row
      · exact h
    | deleteDomains hosts => exact h.erase fun key => hosts.contains key.1
    | changeUser change now =>
      cases change with
      | create username passwordHash =>
        simp only [State.step, State.entered, Database.exec, Database.run, Database.changeUser]
        split <;> exact h
      | _ => exact h
    | _ => exact h

/-- All actions keep it. -/
lemma conserves_run (db : Database) (as : List Action) :
    Conserves ((State.start db).run as).ledger ((State.start db).run as).db.domainStats := by
  have hall : ∀ s : State, Conserves s.ledger s.db.domainStats →
      Conserves (s.run as).ledger (s.run as).db.domainStats := by
    induction as with
    | nil => exact fun _ h => h
    | cons a as ih => exact fun s h => ih (s.step a) (h.step a)
  refine hall _ ⟨fun _ _ _ _ => rfl, fun _ => Iff.rfl⟩

/-! ## What the query answers -/

/-- The rows of a host in a time add up in the table to what they do in the ledger. -/
lemma Conserves.total_rowsIn (h : Conserves ledger stats) {g : DomainStatsRow → ℕ} (hg : Adds g)
    (host : String) (since til : ℚ) :
    total g (rowsIn host since til stats.rows) = total g (rowsIn host since til ledger) :=
  h.totals (fun k => k.1 = host ∧ since ≤ (k.2 : ℚ) ∧ (k.2 : ℚ) < til) g hg

section Answers

variable {β ν : Type} [LinearOrder β] {num : SeriesNumbers ν} {bucket : ℕ → ℕ → β}
  {host : String} {since til : ℚ}

/-- So do those of a bucket. -/
lemma Conserves.sums_group (h : Conserves ledger stats) (size : ℕ) (b : β) :
    Sums.of (rowsOf (fun r => bucket size r.timestamp) b (rowsIn host since til stats.rows)) =
      Sums.of (rowsOf (fun r => bucket size r.timestamp) b (rowsIn host since til ledger)) := by
  have hcolumn : ∀ g, Adds g →
      total g (rowsOf (fun r => bucket size r.timestamp) b (rowsIn host since til stats.rows)) =
        total g (rowsOf (fun r => bucket size r.timestamp) b (rowsIn host since til ledger)) := by
    intro g hg
    have hboth : ∀ l : List DomainStatsRow,
        rowsOf (fun r => bucket size r.timestamp) b (rowsIn host since til l) =
          l.filter fun r => decide (bucket size r.key.2 = b ∧ r.key.1 = host ∧ since ≤ (r.key.2 : ℚ) ∧
            (r.key.2 : ℚ) < til) := by
      intro l
      rw [rowsOf, rowsIn, List.filter_filter]
      refine List.filter_congr fun r _ => ?_
      rw [Bool.eq_iff_iff, Bool.and_eq_true, decide_eq_true_iff, decide_eq_true_iff, decide_eq_true_iff]
      exact Iff.rfl
    rw [hboth, hboth]
    exact h.totals (fun k => bucket size k.2 = b ∧ k.1 = host ∧ since ≤ (k.2 : ℚ) ∧ (k.2 : ℚ) < til) g hg
  simp only [Sums.of, Sums.mk.injEq]
  exact ⟨hcolumn _ fun _ _ => rfl, hcolumn _ fun _ _ => rfl, hcolumn _ fun _ _ => rfl,
    hcolumn _ fun _ _ => rfl, hcolumn _ fun _ _ => rfl, hcolumn _ fun _ _ => rfl,
    hcolumn _ fun _ _ => rfl, hcolumn _ fun _ _ => rfl, hcolumn _ fun _ _ => rfl, hcolumn _ fun _ _ => rfl⟩

omit [LinearOrder β] in
/-- A bucket has rows in the table when it has entries in the ledger. -/
lemma Conserves.exists_bucket (h : Conserves ledger stats) (size : ℕ) (b : β) :
    (∃ row ∈ rowsIn host since til stats.rows, bucket size row.timestamp = b) ↔
      ∃ row ∈ rowsIn host since til ledger, bucket size row.timestamp = b := by
  have hkeys : ∀ l : List DomainStatsRow, (∃ row ∈ rowsIn host since til l, bucket size row.timestamp = b) ↔
      ∃ k ∈ l.map DomainStatsRow.key,
        (k.1 = host ∧ since ≤ (k.2 : ℚ) ∧ (k.2 : ℚ) < til) ∧ bucket size k.2 = b := by
    intro l
    simp [rowsIn, DomainStatsRow.key, and_assoc]
  rw [hkeys, hkeys]
  simp only [h.keys]

variable (num bucket)

/-- The buckets of the series are those of the rows, each once and in order. -/
lemma bucket_seriesRows (w : Window) (rows : List DomainStatsRow) :
    ((seriesRows num bucket w rows).map TimeseriesRow.bucket).Pairwise (· < ·) ∧
      ∀ b, b ∈ (seriesRows num bucket w rows).map TimeseriesRow.bucket ↔
        ∃ row ∈ rows, bucket w.bucketSize row.timestamp = b := by
  have hsort := @Comparison.isRanking_sort _ (bySeries (β := β) (ν := ν)) (groupBy
    (fun r => bucket w.bucketSize r.timestamp) (fun b group =>
      { Sums.of group with
        bucket := b
        avgResponseTime := (avgResponseTime num group).getD (num.ofNat 0) }) rows)
  have hkeys : ((seriesRows num bucket w rows).map TimeseriesRow.bucket).Perm
      (keys (fun r => bucket w.bucketSize r.timestamp) rows) := by
    refine (hsort.1.map TimeseriesRow.bucket).trans (List.Perm.of_eq ?_)
    rw [groupBy, List.map_map]
    exact List.map_id _
  refine ⟨?_, fun b => hkeys.mem_iff.trans mem_keys⟩
  have hle : ((seriesRows num bucket w rows).map TimeseriesRow.bucket).Pairwise (· ≤ ·) :=
    List.pairwise_map.mpr (hsort.2.imp fun h => of_decide_eq_true h)
  have hne : ((seriesRows num bucket w rows).map TimeseriesRow.bucket).Nodup :=
    hkeys.nodup_iff.mpr nodup_keys
  exact (hle.and hne).imp fun h => lt_of_le_of_ne h.1 h.2

/-- A row of the series has the sums of its bucket. -/
lemma sums_seriesRows {w : Window} {rows : List DomainStatsRow} {point : TimeseriesRow β ν}
    (h : point ∈ seriesRows num bucket w rows) :
    point.toSums = Sums.of (rowsOf (fun r => bucket w.bucketSize r.timestamp) point.bucket rows) := by
  obtain ⟨b, -, rfl⟩ := mem_groupBy.mp (Comparison.isRanking_sort.1.mem_iff.mp h)
  rfl

/-- A column of the series adds up to that of the rows. -/
lemma total_seriesRows (w : Window) (rows : List DomainStatsRow) {column : Sums → ℕ}
    {g : DomainStatsRow → ℕ} (hcolumn : ∀ l, column (Sums.of l) = total g l) :
    total (fun r => column r.toSums) (seriesRows num bucket w rows) = total g rows := by
  have hperm := @Comparison.isRanking_sort _ (bySeries (β := β) (ν := ν)) (groupBy
    (fun r => bucket w.bucketSize r.timestamp) (fun b group =>
      { Sums.of group with
        bucket := b
        avgResponseTime := (avgResponseTime num group).getD (num.ofNat 0) }) rows)
  exact (total_perm hperm.1).trans (total_groupBy fun b group => hcolumn group)

/-- `getStats` answers what has been collected.  After any statements and ticks of the pruner, in any
order, the counts of a period are those of the collected rows that no tick and no deletion of their domain
has removed; the series has a row for every bucket with such rows, the buckets in ascending order, and
each has their sums; and the change against the period before is that of the collected rows. -/
theorem stats_conserved (db : Database) (as : List Action) (host : String) (period : StatsPeriod)
    (range : Option (ℚ × ℚ)) (now : ℕ) (w : Window) (hw : window now period range = some w) :
    let s := (State.start db).run as
    let rows := rowsIn host w.since w.til s.ledger
    let before := rowsIn host (w.since - (w.til - w.since)) w.since s.ledger
    ∃ result, getStats num bucket s.db.domainStats host period range now = some result ∧
      (result.summary.totalRequests = total DomainStatsRow.requests rows ∧
        result.summary.totalCacheHits = total DomainStatsRow.cacheHits rows ∧
        result.summary.totalCacheMisses = total DomainStatsRow.cacheMisses rows ∧
        result.summary.totalBandwidth = total DomainStatsRow.bandwidth rows) ∧
      result.summary.requestsDelta =
        num.getDelta (num.ofNat (total DomainStatsRow.requests rows))
          (num.ofNat (total DomainStatsRow.requests before)) ∧
      (result.timeseries.map TimeseriesRow.bucket).Pairwise (· < ·) ∧
      (∀ b, b ∈ result.timeseries.map TimeseriesRow.bucket ↔
        ∃ row ∈ rows, bucket w.bucketSize row.timestamp = b) ∧
      ∀ point ∈ result.timeseries,
        point.toSums = Sums.of (rows.filter fun r => bucket w.bucketSize r.timestamp = point.bucket) := by
  intro s rows before
  have hconserves : Conserves s.ledger s.db.domainStats := conserves_run db as
  have hcolumn : ∀ (column : Sums → ℕ) {g : DomainStatsRow → ℕ},
      (∀ l, column (Sums.of l) = total g l) → Adds g → total (fun r => column r.toSums)
        (seriesRows num bucket w (rowsIn host w.since w.til s.db.domainStats.rows)) = total g rows := by
    intro column g hsums hg
    rw [total_seriesRows num bucket w _ hsums, hconserves.total_rowsIn hg]
  have hrequests := hcolumn Sums.requests (fun _ => rfl) fun _ _ => rfl
  have hbefore : total DomainStatsRow.requests
      (rowsIn host (w.since - (w.til - w.since)) w.since s.db.domainStats.rows) =
        total DomainStatsRow.requests before :=
    hconserves.total_rowsIn (fun _ _ => rfl) host _ _
  have hseries := bucket_seriesRows num bucket w (rowsIn host w.since w.til s.db.domainStats.rows)
  have hbuckets : ∀ l : List (TimeseriesRow β ν),
      (l.map fun r => { r with avgResponseTime := num.round r.avgResponseTime }).map TimeseriesRow.bucket =
        l.map TimeseriesRow.bucket := by
    intro l
    rw [List.map_map]
    rfl
  refine ⟨_, by rw [getStats, hw, Option.map_some], ⟨hrequests, ?_, ?_, ?_⟩, ?_, ?_, fun b => ?_, ?_⟩
  · exact hcolumn Sums.cacheHits (fun _ => rfl) fun _ _ => rfl
  · exact hcolumn Sums.cacheMisses (fun _ => rfl) fun _ _ => rfl
  · exact hcolumn Sums.bandwidth (fun _ => rfl) fun _ _ => rfl
  · exact congrArg₂ (fun m n => num.getDelta (num.ofNat m) (num.ofNat n)) hrequests hbefore
  · exact (hbuckets _).symm ▸ hseries.1
  · exact (hbuckets _).symm ▸ (hseries.2 b).trans (hconserves.exists_bucket w.bucketSize b)
  · intro point hpoint
    obtain ⟨r, hr, rfl⟩ := List.mem_map.mp hpoint
    exact (sums_seriesRows num bucket hr).trans (hconserves.sums_group w.bucketSize r.bucket)

end Answers

/-- Whole numbers. -/
def wholeNumbers : SeriesNumbers ℕ where
  ofNat := id
  sub := (· - ·)
  mul := (· * ·)
  div := (· / ·)
  round := id
  isZero := (· == 0)
  add := (· + ·)

/-- A row with requests and their time. -/
def requestsAt (timestamp requests : ℕ) : DomainStatsRow :=
  ⟨"a.test", timestamp, requests, 0, requests, 0, 20, 0, 0, 0, 0, 0, 0⟩

/-- Two rows of one second, one of another hour, and one that the pruner removes after 30 days. -/
def sampleActions : List Action :=
  [.statement (.insertStats (requestsAt 5000 7)), .statement (.insertStats (requestsAt 2670000 1)),
    .statement (.insertStats (requestsAt 2670000 4)), .tick 2680000000 30 true,
    .statement (.insertStats (requestsAt 2676000 2))]

/-- The statistics of a day. -/
theorem stats_conserved_day :
    let s := (State.start (Database.ofDomains (Table.empty.insertNew
      { host := "a.test", origin := "http://10.0.0.1", createdAt := 1, updatedAt := 1 }))).run sampleActions
    ∃ result, getStats wholeNumbers (fun size timestamp => timestamp / size * size) s.db.domainStats "a.test"
        .day none 2680000 = some result ∧
      result.summary.totalRequests = 7 ∧
      ∀ b, b ∈ result.timeseries.map TimeseriesRow.bucket ↔ b = 2667600 ∨ b = 2674800 := by
  intro s
  obtain ⟨result, hresult, ⟨hrequests, -⟩, -, -, hbuckets, -⟩ :=
    stats_conserved wholeNumbers (fun size timestamp => timestamp / size * size) (Database.ofDomains
      (Table.empty.insertNew { host := "a.test", origin := "http://10.0.0.1", createdAt := 1, updatedAt := 1 }))
      sampleActions "a.test" .day none 2680000 ⟨(2680000 : ℕ) - 86400, (2680000 : ℕ), 3600⟩ rfl
  have hrows : rowsIn "a.test" ((2680000 : ℕ) - 86400) (2680000 : ℕ) s.ledger =
      [requestsAt 2670000 1, requestsAt 2670000 4, requestsAt 2676000 2] := by
    decide +kernel
  refine ⟨result, hresult, hrequests.trans (congrArg (total DomainStatsRow.requests) hrows), fun b => ?_⟩
  refine (hbuckets b).trans ?_
  change (∃ row ∈ rowsIn "a.test" ((2680000 : ℕ) - 86400) (2680000 : ℕ) s.ledger, _) ↔ _
  rw [hrows]
  simp [requestsAt, eq_comm]

end SmartSchoolCdn.DomainStats
