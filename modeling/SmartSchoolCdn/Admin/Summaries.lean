import SmartSchoolCdn.Admin.Database
import SmartSchoolCdn.Foundation.Grouping
import Mathlib.Data.List.Lex
import Mathlib.Data.Prod.Lex

/-!
# Summaries of the statistics

`getSummaryAll` and `getSummaryForHost` of `db/domain-stats-repo.ts`: the counts of a host since
midnight, how they compare with the day before, and the counts of the last 24 hours by the hour.
The first groups the rows of all hosts, the second asks for the rows of one.

Ratios and deltas are numbers of the runtime, with the operations that the formulas use as
parameters (`Numbers`).
-/

namespace SmartSchoolCdn.Summaries

open Tables Grouping Ranking

/-! ## Numbers -/

/-- The numbers of the runtime. -/
structure Numbers (ν : Type) where
  ofNat : ℕ → ν
  sub : ν → ν → ν
  mul : ν → ν → ν
  div : ν → ν → ν
  round : ν → ν
  isZero : ν → Bool

variable {ν : Type} (num : Numbers ν)

/-- `getDelta`: the change in percent with one decimal, zero where there was nothing before. -/
def Numbers.getDelta (todayValue yesterdayValue : ν) : ν :=
  if num.isZero yesterdayValue then num.ofNat 0
  else
    num.div (num.round (num.mul (num.div (num.sub todayValue yesterdayValue) yesterdayValue)
      (num.ofNat 1000))) (num.ofNat 10)

/-- `total > 0 ? part / total : 0`. -/
def Numbers.ratio (part total : ℕ) : ν :=
  if 0 < total then num.div (num.ofNat part) (num.ofNat total) else num.ofNat 0

/-! ## The queries -/

/-- `DomainSummary`. -/
structure DomainSummary (ν : Type) where
  host : String
  todayRequests : ℕ
  todayCacheHits : ℕ
  todayBandwidth : ℕ
  hitRate : ν
  hourly : List ℕ
  hourlyCacheHits : List ℕ
  hourlyBandwidth : List ℕ
  todayRequestsDelta : ν
  hitRateDelta : ν
  todayL1HitRate : ν
  todayEdgeHitRate : ν
  todayBypassRate : ν

/-- The last midnight. -/
def todayStart (now : ℕ) : ℕ := now - now % 86400

/-- The midnight before. -/
def yesterdayStart (now : ℕ) : ℕ := todayStart now - 86400

/-- A day ago. -/
def since24h (now : ℕ) : ℕ := now - 86400

/-- `(timestamp / 3600) * 3600`. -/
def bucket (row : DomainStatsRow) : ℕ := row.timestamp / 3600 * 3600

/-- The sums of a day; a sum over no rows is zero. -/
structure DayRow where
  host : String
  requests : ℕ
  cacheHits : ℕ
  bandwidth : ℕ
  l1Hits : ℕ
  l2Hits : ℕ
  bypassTotal : ℕ

/-- The sums of the rows of a host. -/
def DayRow.of (host : String) (rows : List DomainStatsRow) : DayRow where
  host := host
  requests := total DomainStatsRow.requests rows
  cacheHits := total DomainStatsRow.cacheHits rows
  bandwidth := total DomainStatsRow.bandwidth rows
  l1Hits := total DomainStatsRow.l1Hits rows
  l2Hits := total DomainStatsRow.l2Hits rows
  bypassTotal := total (fun r => r.bypassMethod + r.bypassNocache + r.bypassSize + r.bypassOther) rows

/-- The sums of an hour. -/
structure HourRow where
  bucket : ℕ
  requests : ℕ
  cacheHits : ℕ
  bandwidth : ℕ

/-- The sums of the rows of a bucket. -/
def HourRow.of (bucket : ℕ) (rows : List DomainStatsRow) : HourRow where
  bucket := bucket
  requests := total DomainStatsRow.requests rows
  cacheHits := total DomainStatsRow.cacheHits rows
  bandwidth := total DomainStatsRow.bandwidth rows

/-- The sums of an hour with their host. -/
structure HourlyRow where
  host : String
  hour : HourRow

section Queries

variable (now : ℕ) (stats : Table DomainStatsRow.key)

/-- The rows from a time on. -/
def rowsSince (start : ℕ) : List DomainStatsRow := stats.rows.filter fun r => start ≤ r.timestamp

/-- The rows of the day before. -/
def rowsYesterday : List DomainStatsRow :=
  stats.rows.filter fun r => yesterdayStart now ≤ r.timestamp && r.timestamp < todayStart now

/-- `todayRows`. -/
def todayRows : List DayRow := groupBy DomainStatsRow.host DayRow.of (rowsSince stats (todayStart now))

/-- `yesterdayRows`; the columns that the query does not ask for are not read. -/
def yesterdayRows : List DayRow := groupBy DomainStatsRow.host DayRow.of (rowsYesterday now stats)

/-- `ORDER BY bucket ASC`. -/
def byBucket : Comparison HourRow := .column HourRow.bucket

/-- `ORDER BY host, bucket ASC`. -/
def byHostAndBucket : Comparison HourlyRow :=
  (Comparison.column fun r : HourlyRow => r.host.toList.map Char.toNat).thenBy
    (.column fun r => r.hour.bucket)

/-- `hourlyRows`. -/
def hourlyRows : List HourlyRow :=
  byHostAndBucket.sort (groupBy (fun r => (r.host, bucket r))
    (fun k rows => ⟨k.1, HourRow.of k.2 rows⟩) (rowsSince stats (since24h now)))

/-- One of the maps from a host to its values by the hour. -/
def hourlyMap (value : HourRow → ℕ) : String → Option (List ℕ) :=
  (hourlyRows now stats).foldl (pushTo HourlyRow.host fun r => value r.hour) fun _ => none

/-- `getSummaryAll`. -/
def getSummaryAll : List (DomainSummary ν) :=
  (todayRows now stats).map fun r =>
    let yesterday := (yesterdayRows now stats).find? fun y => y.host = r.host
    let yesterdayRequests := (yesterday.map DayRow.requests).getD 0
    let yesterdayHitRate :=
      num.ratio ((yesterday.map DayRow.cacheHits).getD 0) yesterdayRequests
    let todayHitRate := num.ratio r.cacheHits r.requests
    { host := r.host
      todayRequests := r.requests
      todayCacheHits := r.cacheHits
      todayBandwidth := r.bandwidth
      hitRate := todayHitRate
      hourly := (hourlyMap now stats HourRow.requests r.host).getD []
      hourlyCacheHits := (hourlyMap now stats HourRow.cacheHits r.host).getD []
      hourlyBandwidth := (hourlyMap now stats HourRow.bandwidth r.host).getD []
      todayRequestsDelta := num.getDelta (num.ofNat r.requests) (num.ofNat yesterdayRequests)
      hitRateDelta := num.getDelta todayHitRate yesterdayHitRate
      todayL1HitRate := num.ratio r.l1Hits r.requests
      todayEdgeHitRate := num.ratio (r.l1Hits + r.l2Hits) r.requests
      todayBypassRate := num.ratio r.bypassTotal r.requests }

variable (host : String)

/-- The hours of one host. -/
def hourlyRowsForHost : List HourRow :=
  byBucket.sort (groupBy bucket HourRow.of
    (stats.rows.filter fun r => r.host = host && since24h now ≤ r.timestamp))

/-- `getSummaryForHost`: nothing for a host without a row since midnight. -/
def getSummaryForHost : Option (DomainSummary ν) :=
  let today := stats.rows.filter fun r => r.host = host && todayStart now ≤ r.timestamp
  let todayRow := DayRow.of host today
  if today.length = 0 then none
  else
    let yesterdayRow := DayRow.of host (stats.rows.filter fun r =>
      r.host = host && (yesterdayStart now ≤ r.timestamp && r.timestamp < todayStart now))
    let hourlyRows := hourlyRowsForHost now stats host
    let todayHitRate := num.ratio todayRow.cacheHits todayRow.requests
    let yesterdayHitRate := num.ratio yesterdayRow.cacheHits yesterdayRow.requests
    some
      { host := host
        todayRequests := todayRow.requests
        todayCacheHits := todayRow.cacheHits
        todayBandwidth := todayRow.bandwidth
        hitRate := todayHitRate
        hourly := hourlyRows.map HourRow.requests
        hourlyCacheHits := hourlyRows.map HourRow.cacheHits
        hourlyBandwidth := hourlyRows.map HourRow.bandwidth
        todayRequestsDelta := num.getDelta (num.ofNat todayRow.requests) (num.ofNat yesterdayRow.requests)
        hitRateDelta := num.getDelta todayHitRate yesterdayHitRate
        todayL1HitRate := num.ratio todayRow.l1Hits todayRow.requests
        todayEdgeHitRate := num.ratio (todayRow.l1Hits + todayRow.l2Hits) todayRow.requests
        todayBypassRate := num.ratio todayRow.bypassTotal todayRow.requests }

end Queries

/-! ## The queries of one host -/

variable {num} {now : ℕ} {stats : Table DomainStatsRow.key} {host : String}

/-- The rows of a host from a time on. -/
lemma rowsOf_rowsSince (start : ℕ) :
    rowsOf DomainStatsRow.host host (rowsSince stats start) =
      stats.rows.filter fun r => r.host = host && start ≤ r.timestamp := by
  rw [rowsOf, rowsSince, List.filter_filter]

lemma rowsOf_rowsYesterday :
    rowsOf DomainStatsRow.host host (rowsYesterday now stats) = stats.rows.filter fun r =>
      r.host = host && (yesterdayStart now ≤ r.timestamp && r.timestamp < todayStart now) := by
  rw [rowsOf, rowsYesterday, List.filter_filter]

/-- The hours of a host in the query of all hosts are those of the query of the host. -/
lemma hours_eq (now : ℕ) (stats : Table DomainStatsRow.key) (host : String) :
    (rowsOf HourlyRow.host host (hourlyRows now stats)).map HourlyRow.hour =
      hourlyRowsForHost now stats host := by
  let agg : String × ℕ → List DomainStatsRow → HourlyRow := fun k rows => ⟨k.1, HourRow.of k.2 rows⟩
  have hproj : ∀ k l, (agg k l).host = k.1 := fun _ _ => rfl
  have hgroups := @groupBy_filter_perm _ _ _ _ DomainStatsRow.host _ _ bucket agg _ hproj host
    (rowsSince stats (since24h now))
  have hperm := hgroups.map HourlyRow.hour
  have hone : (groupBy bucket (fun b rows => (⟨host, HourRow.of b rows⟩ : HourlyRow))
      (rowsOf DomainStatsRow.host host (rowsSince stats (since24h now)))).map HourlyRow.hour =
      groupBy bucket HourRow.of (stats.rows.filter fun r => r.host = host && since24h now ≤ r.timestamp) := by
    rw [groupBy, List.map_map, rowsOf_rowsSince]
    rfl
  rw [hone] at hperm
  have hsort : byHostAndBucket.IsRanking (groupBy (fun r => (r.host, bucket r)) agg
      (rowsSince stats (since24h now))) (hourlyRows now stats) := Comparison.isRanking_sort
  have hall := hsort.filter fun r => r.host = host
  have hrank := hall.map (d := byBucket) (f := HourlyRow.hour) (by
    intro a ha b hb hab
    have hhosts : a.host = b.host :=
      (of_decide_eq_true (List.mem_filter.mp ha).2).trans (of_decide_eq_true (List.mem_filter.mp hb).2).symm
    simp only [byHostAndBucket, Comparison.thenBy, Comparison.column, hhosts, le_refl, decide_true,
      Bool.not_true, Bool.false_or, Bool.true_and] at hab
    exact hab)
  refine Comparison.IsRanking.unique ?_ ⟨hrank.1.trans hperm, hrank.2⟩ Comparison.isRanking_sort
  intro a ha b hb hab hba
  obtain ⟨ka, -, rfl⟩ := mem_groupBy.mp ha
  obtain ⟨kb, -, rfl⟩ := mem_groupBy.mp hb
  have hkeys : ka = kb := Comparison.tie_column hab hba
  rw [hkeys]

/-- The values by the hour that the summary of all hosts has for a host. -/
lemma getD_hourlyMap (value : HourRow → ℕ) :
    (hourlyMap now stats value host).getD [] = (hourlyRowsForHost now stats host).map value := by
  rw [hourlyMap, getD_foldl_pushTo, ← hours_eq, List.map_map]
  rfl

/-- The sums of yesterday, which are zero for a host without rows. -/
lemma yesterday_getD {value : DayRow → ℕ} (hzero : value (DayRow.of host []) = 0) :
    (((yesterdayRows now stats).find? fun y => y.host = host).map value).getD 0 =
      value (DayRow.of host (stats.rows.filter fun r =>
        r.host = host && (yesterdayStart now ≤ r.timestamp && r.timestamp < todayStart now))) := by
  rw [yesterdayRows, find_groupBy fun _ _ => rfl, ← rowsOf_rowsYesterday]
  split
  · rfl
  · next hk => rw [rowsOf_eq_nil hk, hzero]; rfl

/-- The hosts of the summary of all hosts are those with a row since midnight. -/
lemma map_host_getSummaryAll (num : Numbers ν) (now : ℕ) (stats : Table DomainStatsRow.key) :
    (getSummaryAll num now stats).map DomainSummary.host =
      keys DomainStatsRow.host (rowsSince stats (todayStart now)) := by
  rw [getSummaryAll, todayRows, groupBy, List.map_map, List.map_map]
  exact List.map_id _

/-- The summary of one host agrees with the bulk one, in every field: it is the element of that
host, which is the only one, and there is none where there is no such element. -/
theorem summary_agrees (num : Numbers ν) (now : ℕ) (stats : Table DomainStatsRow.key) (host : String) :
    getSummaryForHost num now stats host =
      (getSummaryAll num now stats).find? (fun summary => summary.host = host) ∧
    ((getSummaryAll num now stats).map DomainSummary.host).Nodup := by
  refine ⟨?_, map_host_getSummaryAll num now stats ▸ nodup_keys⟩
  have hempty : (stats.rows.filter fun r => r.host = host && todayStart now ≤ r.timestamp).length = 0 ↔
      host ∉ keys DomainStatsRow.host (rowsSince stats (todayStart now)) := by
    rw [← rowsOf_rowsSince, List.length_eq_zero_iff]
    constructor
    · intro hnil hk
      obtain ⟨r, hr, hhost⟩ := mem_keys.mp hk
      exact List.filter_eq_nil_iff.mp hnil r hr (decide_eq_true hhost)
    · exact rowsOf_eq_nil
  rw [getSummaryAll, List.find?_map]
  have hcomp : ((todayRows now stats).find? fun r => r.host = host) =
      if host ∈ keys DomainStatsRow.host (rowsSince stats (todayStart now)) then
        some (DayRow.of host (stats.rows.filter fun r => r.host = host && todayStart now ≤ r.timestamp))
      else none := by
    rw [todayRows, find_groupBy fun _ _ => rfl, rowsOf_rowsSince]
  refine Eq.trans ?_ (congrArg (Option.map _) hcomp.symm)
  by_cases hk : host ∈ keys DomainStatsRow.host (rowsSince stats (todayStart now))
  · rw [getSummaryForHost, if_neg (mt hempty.mp (not_not.mpr hk)), if_pos hk, Option.map_some]
    have hrequests := fun h => @yesterday_getD now stats h DayRow.requests rfl
    have hhits := fun h => @yesterday_getD now stats h DayRow.cacheHits rfl
    simp only [getD_hourlyMap, hrequests, hhits]
    rfl
  · rw [getSummaryForHost, if_pos (hempty.mpr hk), if_neg hk, Option.map_none]

end SmartSchoolCdn.Summaries
