import SmartSchoolCdn.Admin.Summaries
import Mathlib.Data.List.GetD

/-!
# The series of the dashboard

`GET /api/domains/summary` adds up the values by the hour of all hosts.  The lists that it adds
have an entry for each hour with a row, the last hour last, and it aligns them at their ends:
an hour without a row shifts the ones before it, and a host without a row since midnight is left
out.

A row is in place when the position at which it is counted is that of its hour.  The series are
right when the counts out of place make up for those that are missing, and right for every count
exactly when all rows are in place (`aligned_iff`).
-/

namespace SmartSchoolCdn.Summaries

open Tables Grouping Ranking

/-- The three counts of the series. -/
inductive Metric
  | requests
  | cacheHits
  | bandwidth
  deriving DecidableEq, Repr

namespace Metric

/-- The count of a row of the table. -/
def ofRow : Metric → DomainStatsRow → ℕ
  | requests => DomainStatsRow.requests
  | cacheHits => DomainStatsRow.cacheHits
  | bandwidth => DomainStatsRow.bandwidth

/-- The count of an hour. -/
def ofHour : Metric → HourRow → ℕ
  | requests => HourRow.requests
  | cacheHits => HourRow.cacheHits
  | bandwidth => HourRow.bandwidth

/-- The list of a summary. -/
def ofSummary {ν : Type} : Metric → DomainSummary ν → List ℕ
  | requests => DomainSummary.hourly
  | cacheHits => DomainSummary.hourlyCacheHits
  | bandwidth => DomainSummary.hourlyBandwidth

end Metric

/-! ## The route -/

/-- `values.slice(-24)`. -/
def lastBuckets (values : List ℕ) : List ℕ := values.drop (values.length - 24)

/-- The loop over the buckets of a host for one of the three arrays. -/
def addBuckets (offset n : ℕ) (values series : List ℕ) : List ℕ :=
  (List.range n).foldl (fun series i => series.modify (offset + i) (· + values.getD i 0)) series

/-- A host is added to the three arrays; the offset is that of its requests. -/
def addHost {ν : Type} (series : Metric → List ℕ) (r : DomainSummary ν) : Metric → List ℕ := fun m =>
  let buckets := lastBuckets r.hourly
  addBuckets (24 - buckets.length) buckets.length (lastBuckets (m.ofSummary r)) (series m)

/-- `hourlyRequests`, `hourlyCacheHits` and `hourlyBandwidth`. -/
def hourlySeries {ν : Type} (num : Numbers ν) (now : ℕ) (stats : Table DomainStatsRow.key) :
    Metric → List ℕ :=
  (getSummaryAll num now stats).foldl addHost fun _ => List.replicate 24 0

/-! ## What the series should be -/

/-- What all hosts have counted in the hour at a position of the window, whose last hour is the
current one. -/
def hourTotal (now : ℕ) (stats : Table DomainStatsRow.key) (m : Metric) (i : ℕ) : ℕ :=
  total m.ofRow (stats.rows.filter fun r => r.timestamp / 3600 + 23 = now / 3600 + i)

/-- The series have at each position what all hosts have counted in its hour. -/
def Aligned {ν : Type} (num : Numbers ν) (now : ℕ) (stats : Table DomainStatsRow.key) : Prop :=
  ∀ m, hourlySeries num now stats m = (List.range 24).map (hourTotal now stats m)

/-! ## Places -/

/-- The hours of the last day in which a host has a row. -/
def hoursOf (now : ℕ) (ks : List (String × ℕ)) (host : String) : List ℕ :=
  ((ks.filter fun k => k.1 = host && since24h now ≤ k.2).map fun k => k.2 / 3600 * 3600).dedup

/-- The position at which a row is counted: its host has a row since midnight, and as many hours of
the host come behind its hour as positions do. -/
def place (now : ℕ) (ks : List (String × ℕ)) (k : String × ℕ) : Option ℕ :=
  let later := (hoursOf now ks k.1).countP fun b => k.2 / 3600 * 3600 < b
  if since24h now ≤ k.2 ∧ (∃ k' ∈ ks, k'.1 = k.1 ∧ todayStart now ≤ k'.2) ∧ later < 24 then some (23 - later)
  else none

/-- The position of the hour of a row. -/
def hourOf (now : ℕ) (k : String × ℕ) : Option ℕ :=
  if now / 3600 ≤ k.2 / 3600 + 23 ∧ k.2 / 3600 ≤ now / 3600 then some (k.2 / 3600 + 23 - now / 3600)
  else none

/-- Every row is counted in its hour, or is of no hour of the window and not counted. -/
def InPlace (now : ℕ) (ks : List (String × ℕ)) : Prop := ∀ k ∈ ks, place now ks k = hourOf now k

/-- At each position, the counts of rows that belong elsewhere add up to those of the rows that
belong there and are not. -/
def Balanced (now : ℕ) (stats : Table DomainStatsRow.key) : Prop :=
  let ks := stats.rows.map DomainStatsRow.key
  ∀ m : Metric, ∀ i < 24,
    total m.ofRow (stats.rows.filter fun r => place now ks r.key = some i ∧ hourOf now r.key ≠ some i) =
      total m.ofRow (stats.rows.filter fun r => hourOf now r.key = some i ∧ place now ks r.key ≠ some i)

/-! ## The series by places -/

variable {ν : Type} {num : Numbers ν} {now : ℕ} {stats : Table DomainStatsRow.key} {m : Metric} {i : ℕ}

lemma length_addBuckets (offset n : ℕ) (values series : List ℕ) :
    (addBuckets offset n values series).length = series.length := by
  induction n with
  | zero => rfl
  | succ n ih => rw [addBuckets, List.range_succ, List.foldl_append, List.foldl_cons, List.foldl_nil,
      List.length_modify, ← addBuckets, ih]

/-- What the loop adds at a position. -/
lemma getD_addBuckets {offset n : ℕ} {values series : List ℕ} (hi : i < series.length) :
    (addBuckets offset n values series).getD i 0 =
      series.getD i 0 + if offset ≤ i ∧ i < offset + n then values.getD (i - offset) 0 else 0 := by
  induction n with
  | zero =>
    rw [if_neg (by omega)]
    rfl
  | succ n ih =>
    have hstep : addBuckets offset (n + 1) values series =
        (addBuckets offset n values series).modify (offset + n) (· + values.getD n 0) := by
      rw [addBuckets, List.range_succ, List.foldl_append]
      rfl
    have hlt : i < (addBuckets offset n values series).length := by rwa [length_addBuckets]
    rw [hstep, List.getD_eq_getElem?_getD, List.getElem?_modify, List.getElem?_eq_getElem hlt]
    rw [List.getD_eq_getElem?_getD, List.getElem?_eq_getElem hlt, Option.getD_some] at ih
    simp only [Option.map_eq_map, Option.map_some, Option.getD_some, ih]
    by_cases hn : offset + n = i
    · subst hn
      simp
    · rw [if_neg hn]
      congr 1
      by_cases hin : offset ≤ i ∧ i < offset + n
      · rw [if_pos hin, if_pos (by omega)]
      · rw [if_neg hin, if_neg (by omega)]

/-- From the right, the buckets that are added are the last ones. -/
lemma getD_lastBuckets {l : List ℕ} (hi : i < 24) :
    (if 24 - (lastBuckets l).length ≤ i ∧ i < 24 - (lastBuckets l).length + (lastBuckets l).length then
      (lastBuckets l).getD (i - (24 - (lastBuckets l).length)) 0 else 0) = l.reverse.getD (23 - i) 0 := by
  have hlength : (lastBuckets l).length = min 24 l.length := by
    rw [lastBuckets, List.length_drop]
    omega
  rw [hlength]
  by_cases hin : 24 - min 24 l.length ≤ i
  · have hlt : 23 - i < l.length := by omega
    rw [if_pos ⟨hin, by omega⟩, lastBuckets, List.getD_eq_getElem?_getD, List.getD_eq_getElem?_getD,
      List.getElem?_drop, List.getElem?_reverse hlt]
    congr 2
    omega
  · rw [if_neg (fun h => hin h.1), List.getD_eq_default]
    rw [List.length_reverse]
    omega

/-- What a host adds at a position of the series. -/
def atPosition (i : ℕ) (l : List ℕ) : ℕ := l.reverse.getD (23 - i) 0

lemma addHost_getD {series : Metric → List ℕ} {r : DomainSummary ν} (hi : i < 24)
    (hseries : (series m).length = 24) (hr : (m.ofSummary r).length = r.hourly.length) :
    (addHost series r m).length = 24 ∧
      (addHost series r m).getD i 0 = (series m).getD i 0 + atPosition i (m.ofSummary r) := by
  have hlength : (lastBuckets r.hourly).length = (lastBuckets (m.ofSummary r)).length := by
    rw [lastBuckets, lastBuckets, List.length_drop, List.length_drop, hr]
  refine ⟨?_, ?_⟩
  · rw [addHost, length_addBuckets, hseries]
  · rw [addHost, getD_addBuckets (hi.trans_eq hseries.symm), hlength, getD_lastBuckets hi, atPosition]

/-- The series have at each position what the hosts add there. -/
lemma foldl_addHost_getD {summaries : List (DomainSummary ν)} (hi : i < 24)
    (hsummaries : ∀ r ∈ summaries, (m.ofSummary r).length = r.hourly.length) (series : Metric → List ℕ)
    (hseries : (series m).length = 24) :
    (summaries.foldl addHost series m).length = 24 ∧
      (summaries.foldl addHost series m).getD i 0 =
        (series m).getD i 0 + total (fun r => atPosition i (m.ofSummary r)) summaries := by
  induction summaries generalizing series with
  | nil => exact ⟨hseries, rfl⟩
  | cons r summaries ih =>
    obtain ⟨hlength, hget⟩ := addHost_getD (i := i) hi hseries (hsummaries r List.mem_cons_self)
    have hrest := ih (fun r' hr' => hsummaries r' (List.mem_cons_of_mem r hr')) (addHost series r) hlength
    rw [List.foldl_cons, total_cons, hrest.2, hget, Nat.add_assoc]
    exact ⟨hrest.1, rfl⟩

/-- The rows of the last day of a host. -/
def dayOf (now : ℕ) (stats : Table DomainStatsRow.key) (host : String) : List DomainStatsRow :=
  rowsOf DomainStatsRow.host host (rowsSince stats (since24h now))

/-- The lists of a summary are the hours of its host. -/
lemma ofSummary_getSummaryAll {r : DomainSummary ν} (hr : r ∈ getSummaryAll num now stats) :
    m.ofSummary r = (hourlyRowsForHost now stats r.host).map m.ofHour := by
  obtain ⟨row, -, rfl⟩ := List.mem_map.mp hr
  cases m <;> exact getD_hourlyMap _

lemma hoursOf_keys (host : String) :
    hoursOf now (stats.rows.map DomainStatsRow.key) host = keys bucket (dayOf now stats host) := by
  rw [hoursOf, List.filter_map, List.map_map, dayOf, rowsOf_rowsSince]
  rfl

/-- The hours of a host come in order, each once, with the sums of its rows. -/
lemma hourlyRowsForHost_spec (host : String) :
    ((hourlyRowsForHost now stats host).map HourRow.bucket).reverse.Pairwise (· > ·) ∧
      ((hourlyRowsForHost now stats host).map HourRow.bucket).reverse.Perm
        (keys bucket (dayOf now stats host)) ∧
      ∀ r ∈ hourlyRowsForHost now stats host,
        r = HourRow.of r.bucket (rowsOf bucket r.bucket (dayOf now stats host)) := by
  have hrank : byBucket.IsRanking (groupBy bucket HourRow.of (dayOf now stats host))
      (hourlyRowsForHost now stats host) := by
    rw [hourlyRowsForHost, dayOf, rowsOf_rowsSince]
    exact Comparison.isRanking_sort
  have hbuckets : (groupBy bucket HourRow.of (dayOf now stats host)).map HourRow.bucket =
      keys bucket (dayOf now stats host) := by
    rw [groupBy, List.map_map]
    exact List.map_id _
  have hperm := hbuckets ▸ hrank.1.map HourRow.bucket
  refine ⟨?_, (List.reverse_perm _).trans hperm, fun r hr => ?_⟩
  · rw [List.pairwise_reverse]
    have hle : ((hourlyRowsForHost now stats host).map HourRow.bucket).Pairwise (· ≤ ·) :=
      List.pairwise_map.mpr (hrank.2.imp of_decide_eq_true)
    exact (hle.and (hperm.nodup_iff.mpr nodup_keys)).imp fun h => lt_of_le_of_ne h.1 h.2
  · obtain ⟨b, -, rfl⟩ := mem_groupBy.mp (hrank.1.mem_iff.mp hr)
    rfl

/-- What a host adds at a position is what its rows there add up to. -/
lemma atPosition_hours (host : String) (i : ℕ) :
    atPosition i ((hourlyRowsForHost now stats host).map m.ofHour) =
      total (fun r => if ((hoursOf now (stats.rows.map DomainStatsRow.key) host).countP
        fun b => bucket r < b) = 23 - i then m.ofRow r else 0) (dayOf now stats host) := by
  obtain ⟨hdesc, hperm, hrow⟩ := @hourlyRowsForHost_spec now stats host
  have hvalues : (hourlyRowsForHost now stats host).map m.ofHour =
      ((hourlyRowsForHost now stats host).map HourRow.bucket).map fun b =>
        total m.ofRow (rowsOf bucket b (dayOf now stats host)) := by
    rw [List.map_map]
    refine List.map_congr_left fun r hr => ?_
    rw [hrow r hr]
    cases m <;> rfl
  rw [atPosition, hvalues, ← List.map_reverse, getD_descending hdesc, total_perm hperm, hoursOf_keys]
  have hgroups := @total_groups _ _ _ bucket
    (fun r => if ((keys bucket (dayOf now stats host)).countP fun b => bucket r < b) = 23 - i then
      m.ofRow r else 0) (keys bucket (dayOf now stats host)) nodup_keys
    (dayOf now stats host)
  refine Eq.trans (total_congr fun b _ => ?_) (hgroups.trans (total_congr fun r hr => ?_))
  · rw [hperm.countP_eq]
    by_cases hb : ((keys bucket (dayOf now stats host)).countP fun b' => b < b') = 23 - i
    · rw [if_pos hb]
      refine total_congr fun r hr => ?_
      rw [of_decide_eq_true (List.mem_filter.mp hr).2, if_pos hb]
    · rw [if_neg hb]
      refine (total_eq_zero fun r hr => ?_).symm
      rw [of_decide_eq_true (List.mem_filter.mp hr).2, if_neg hb]
  · rw [if_pos (mem_keys.mpr ⟨r, hr, rfl⟩)]

lemma place_eq_some_iff {ks : List (String × ℕ)} {k : String × ℕ} (hi : i < 24) :
    place now ks k = some i ↔ since24h now ≤ k.2 ∧ (∃ k' ∈ ks, k'.1 = k.1 ∧ todayStart now ≤ k'.2) ∧
      ((hoursOf now ks k.1).countP fun b => k.2 / 3600 * 3600 < b) = 23 - i := by
  rw [place]
  split
  · next h =>
    rw [Option.some_inj]
    constructor
    · exact fun heq => ⟨h.1, h.2.1, by omega⟩
    · exact fun ⟨_, _, heq⟩ => by omega
  · next h =>
    refine ⟨nofun, fun ⟨hday, htoday, heq⟩ => absurd ⟨hday, htoday, ?_⟩ h⟩
    omega

/-- The rows that are counted at a position. -/
def placedAt (now : ℕ) (stats : Table DomainStatsRow.key) (i : ℕ) : List DomainStatsRow :=
  stats.rows.filter fun r => place now (stats.rows.map DomainStatsRow.key) r.key = some i

/-- The rows that belong at a position. -/
def belongingAt (now : ℕ) (stats : Table DomainStatsRow.key) (i : ℕ) : List DomainStatsRow :=
  stats.rows.filter fun r => hourOf now r.key = some i

/-- The lists of a summary are of one length. -/
lemma length_ofSummary {r : DomainSummary ν} (hr : r ∈ getSummaryAll num now stats) :
    (m.ofSummary r).length = r.hourly.length := by
  have hrequests : Metric.requests.ofSummary r = _ := ofSummary_getSummaryAll hr
  change r.hourly = _ at hrequests
  rw [ofSummary_getSummaryAll hr, hrequests, List.length_map, List.length_map]

/-- The summaries have the hosts with a row since midnight, each once. -/
lemma total_getSummaryAll (num : Numbers ν) (i : ℕ) :
    total (fun r => atPosition i (m.ofSummary r)) (getSummaryAll num now stats) =
      total (fun host => atPosition i ((hourlyRowsForHost now stats host).map m.ofHour))
        (keys DomainStatsRow.host (rowsSince stats (todayStart now))) := by
  rw [← map_host_getSummaryAll num, total, total, List.map_map]
  refine congrArg List.sum (List.map_congr_left fun r hr => ?_)
  rw [ofSummary_getSummaryAll hr, Function.comp_apply]

lemma exists_today_iff {host : String} :
    (∃ k ∈ stats.rows.map DomainStatsRow.key, k.1 = host ∧ todayStart now ≤ k.2) ↔
      host ∈ keys DomainStatsRow.host (rowsSince stats (todayStart now)) := by
  rw [mem_keys]
  constructor
  · rintro ⟨_, hk, hhost, hday⟩
    obtain ⟨r, hr, rfl⟩ := List.mem_map.mp hk
    exact ⟨r, List.mem_filter.mpr ⟨hr, decide_eq_true hday⟩, hhost⟩
  · rintro ⟨r, hr, hhost⟩
    obtain ⟨hr, hday⟩ := List.mem_filter.mp hr
    exact ⟨_, List.mem_map_of_mem hr, hhost, of_decide_eq_true hday⟩

/-- The series have at each position what the hosts add there. -/
lemma hourlySeries_hosts (num : Numbers ν) (hi : i < 24) :
    (hourlySeries num now stats m).length = 24 ∧
      (hourlySeries num now stats m).getD i 0 =
        total (fun host => atPosition i ((hourlyRowsForHost now stats host).map m.ofHour))
          (keys DomainStatsRow.host (rowsSince stats (todayStart now))) := by
  obtain ⟨hlength, hget⟩ := foldl_addHost_getD hi (fun _ hr => length_ofSummary hr)
    (fun _ => List.replicate 24 0) List.length_replicate
  have hzero : (List.replicate 24 0).getD i 0 = 0 := by
    rw [List.getD_eq_getElem?_getD, List.getElem?_replicate]
    split <;> rfl
  refine ⟨hlength, ?_⟩
  rw [hourlySeries, hget, hzero, Nat.zero_add, total_getSummaryAll]

/-- The series have at each position what the rows that are counted there add up to. -/
lemma hourlySeries_getD (num : Numbers ν) (hi : i < 24) :
    (hourlySeries num now stats m).getD i 0 = total m.ofRow (placedAt now stats i) := by
  let ks := stats.rows.map DomainStatsRow.key
  let g : DomainStatsRow → ℕ := fun r =>
    if ((hoursOf now ks r.host).countP fun b => bucket r < b) = 23 - i then m.ofRow r else 0
  have hrows : ∀ host, atPosition i ((hourlyRowsForHost now stats host).map m.ofHour) =
      total g (rowsOf DomainStatsRow.host host (rowsSince stats (since24h now))) := by
    intro host
    rw [atPosition_hours]
    refine total_congr fun r hr => ?_
    simp only [g]
    rw [of_decide_eq_true (List.mem_filter.mp hr).2]
  have hsince : ∀ g : DomainStatsRow → ℕ, total g (rowsSince stats (since24h now)) =
      total (fun r => if since24h now ≤ r.timestamp then g r else 0) stats.rows := fun _ => total_filter _
  rw [(hourlySeries_hosts num hi).2, total_congr fun host _ => hrows host, total_groups nodup_keys, hsince,
    placedAt, total_filter]
  refine total_congr fun r _ => ?_
  change (if since24h now ≤ r.key.2 then _ else 0) = _
  have htoday : (∃ k ∈ ks, k.1 = r.host ∧ todayStart now ≤ k.2) ↔
      r.host ∈ keys DomainStatsRow.host (rowsSince stats (todayStart now)) := exists_today_iff
  by_cases hplace : place now ks r.key = some i
  · obtain ⟨hday, hhost, hlater⟩ := (place_eq_some_iff hi).mp hplace
    rw [if_pos hplace, if_pos hday, if_pos (htoday.mp hhost)]
    exact if_pos hlater
  · rw [if_neg hplace]
    split
    · next hday =>
      split
      · next hhost =>
        exact if_neg fun hlater => hplace ((place_eq_some_iff hi).mpr ⟨hday, htoday.mpr hhost, hlater⟩)
      · rfl
    · rfl

lemma hourTotal_eq (hi : i < 24) :
    hourTotal now stats m i = total m.ofRow (belongingAt now stats i) := by
  have hsame : ∀ r : DomainStatsRow,
      r.timestamp / 3600 + 23 = now / 3600 + i ↔ hourOf now r.key = some i := by
    intro r
    rw [hourOf, DomainStatsRow.key]
    split
    · rw [Option.some_inj]
      omega
    · refine ⟨fun heq => ?_, nofun⟩
      omega
  rw [hourTotal, belongingAt, List.filter_congr fun r _ => decide_eq_decide.mpr (hsame r)]

/-- The series are right when the rows counted at each position add up to those that belong
there. -/
lemma aligned_iff_totals (num : Numbers ν) :
    Aligned num now stats ↔
      ∀ m : Metric, ∀ i < 24,
        total m.ofRow (placedAt now stats i) = total m.ofRow (belongingAt now stats i) := by
  refine forall_congr' fun m => ?_
  have hlength : (hourlySeries num now stats m).length = 24 := (hourlySeries_hosts num (Nat.zero_lt_succ 23)).1
  constructor
  · intro heq i hi
    rw [← hourlySeries_getD num hi, ← hourTotal_eq hi, heq, List.getD_eq_getElem?_getD,
      List.getElem?_map, List.getElem?_range hi]
    rfl
  · intro h
    refine List.ext_getElem (by simp [hlength]) fun i hi hi' => ?_
    have hi24 : i < 24 := hlength ▸ hi
    have hget : (hourlySeries num now stats m).getD i 0 = _ := hourlySeries_getD num hi24
    rw [List.getD_eq_getElem?_getD, List.getElem?_eq_getElem hi, Option.getD_some] at hget
    rw [hget, h i hi24, ← hourTotal_eq hi24, List.getElem_map, List.getElem_range]

lemma balanced_iff_totals :
    Balanced now stats ↔
      ∀ m : Metric, ∀ i < 24,
        total m.ofRow (placedAt now stats i) = total m.ofRow (belongingAt now stats i) := by
  refine forall_congr' fun m => forall₂_congr fun i _ => ?_
  let ks := stats.rows.map DomainStatsRow.key
  have hplaced : total m.ofRow (placedAt now stats i) = _ :=
    total_filter_split (fun r : DomainStatsRow => place now ks r.key = some i)
      fun r => hourOf now r.key = some i
  have hbelonging : total m.ofRow (belongingAt now stats i) = _ :=
    total_filter_split (fun r : DomainStatsRow => hourOf now r.key = some i)
      fun r => place now ks r.key = some i
  have hboth : (stats.rows.filter fun r => hourOf now r.key = some i ∧ place now ks r.key = some i) =
      stats.rows.filter fun r => place now ks r.key = some i ∧ hourOf now r.key = some i :=
    List.filter_congr fun r _ => decide_eq_decide.mpr and_comm
  rw [hplaced, hbelonging, hboth, Nat.add_left_cancel_iff]

/-- A row with a position is in the window. -/
lemma lt_of_hourOf {k : String × ℕ} (h : hourOf now k = some i) : i < 24 := by
  rw [hourOf] at h
  split at h
  · next hk =>
    have heq := Option.some_inj.mp h
    omega
  · cases h

lemma lt_of_place {ks : List (String × ℕ)} {k : String × ℕ} (h : place now ks k = some i) : i < 24 := by
  simp only [place] at h
  split at h
  · have heq := Option.some_inj.mp h
    omega
  · cases h

/-- The table with one request in the row of a key and nothing else. -/
def oneRequest (stats : Table DomainStatsRow.key) (k : String × ℕ) : Table DomainStatsRow.key where
  rows := stats.rows.map fun r => { r with requests := if r.key = k then 1 else 0 }
  keys_nodup := by
    rw [List.map_map]
    exact stats.keys_nodup

lemma keys_oneRequest (k : String × ℕ) :
    (oneRequest stats k).rows.map DomainStatsRow.key = stats.rows.map DomainStatsRow.key := by
  rw [oneRequest, List.map_map]
  rfl

/-- The one request is where its row is. -/
lemma total_oneRequest {k : String × ℕ} (hk : k ∈ stats.rows.map DomainStatsRow.key) (p : String × ℕ → Prop)
    [DecidablePred p] :
    total DomainStatsRow.requests ((oneRequest stats k).rows.filter fun r => p r.key) =
      if p k then 1 else 0 := by
  have hkeys : total DomainStatsRow.requests ((oneRequest stats k).rows.filter fun r => p r.key) =
      total (fun k' => if k' = k then (if p k then 1 else 0) else 0) (stats.rows.map DomainStatsRow.key) := by
    rw [total_filter, oneRequest, total, total, List.map_map, List.map_map]
    refine congrArg List.sum (List.map_congr_left fun r _ => ?_)
    change (if p r.key then (if r.key = k then 1 else 0) else 0) =
      if r.key = k then (if p k then 1 else 0) else 0
    by_cases hr : r.key = k
    · subst hr
      rw [if_pos rfl, if_pos rfl]
    · rw [if_neg hr, if_neg hr, ite_self]
  rw [hkeys, total_ite_eq stats.keys_nodup, if_pos hk]

/-- The series are right exactly when the counts out of place make up for those that are missing,
and they are right whatever the rows of the hosts and times have counted exactly when each of these
is in place. -/
theorem aligned_iff (num : Numbers ν) (now : ℕ) (stats : Table DomainStatsRow.key) :
    (Aligned num now stats ↔ Balanced now stats) ∧
    (InPlace now (stats.rows.map DomainStatsRow.key) ↔
      ∀ stats' : Table DomainStatsRow.key,
        stats'.rows.map DomainStatsRow.key = stats.rows.map DomainStatsRow.key →
          Aligned num now stats') := by
  refine ⟨(aligned_iff_totals num).trans balanced_iff_totals.symm, ?_, ?_⟩
  · intro hplace stats' hkeys
    rw [aligned_iff_totals]
    intro m i _
    rw [placedAt, belongingAt, hkeys]
    refine congrArg (total m.ofRow) (List.filter_congr fun r hr => ?_)
    rw [hplace r.key (hkeys ▸ List.mem_map_of_mem hr)]
  · intro haligned k hk
    have hone := (aligned_iff_totals num).mp (haligned _ (keys_oneRequest k)) .requests
    have hsame : ∀ i < 24, place now (stats.rows.map DomainStatsRow.key) k = some i ↔
        hourOf now k = some i := by
      intro i hi
      have hi' := hone i hi
      rw [placedAt, belongingAt, keys_oneRequest] at hi'
      have hplaced := total_oneRequest hk fun k => place now (stats.rows.map DomainStatsRow.key) k = some i
      have hbelonging := total_oneRequest hk fun k => hourOf now k = some i
      have heq := hplaced.symm.trans (hi'.trans hbelonging)
      by_cases hp : place now (stats.rows.map DomainStatsRow.key) k = some i <;>
        by_cases hb : hourOf now k = some i <;> simp_all
    refine Option.ext fun i => ⟨fun h => (hsame i (lt_of_place h)).mp h, fun h => ?_⟩
    exact (hsame i (lt_of_hourOf h)).mpr h

/-- A row with nothing but requests. -/
def requestsRow (host : String) (timestamp requests : ℕ) : DomainStatsRow :=
  ⟨host, timestamp, requests, 0, 0, 0, 0, 0, 0, 0, 0, 0, 0⟩

/-- Five requests before an hour without a row, and one after it. -/
def gapTable : Table DomainStatsRow.key where
  rows := [requestsRow "a.test" 864000 5, requestsRow "a.test" 871200 1]
  keys_nodup := by decide

/-- The five requests of the first hour after midnight are counted an hour later. -/
theorem gap_misaligned : ¬∀ (num : Numbers ℕ) (now : ℕ) (stats : Table DomainStatsRow.key),
    Aligned num now stats := by
  intro h
  have hright := (aligned_iff_totals ⟨id, Nat.sub, Nat.mul, Nat.div, id, fun n => n = 0⟩).mp
    (h _ 871300 gapTable) .requests 21 (by decide)
  have hplaced : total DomainStatsRow.requests (placedAt 871300 gapTable 21) = 0 := by decide
  have hbelonging : total DomainStatsRow.requests (belongingAt 871300 gapTable 21) = 5 := by decide
  change total DomainStatsRow.requests _ = total DomainStatsRow.requests _ at hright
  omega

end SmartSchoolCdn.Summaries
