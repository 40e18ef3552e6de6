import Mathlib.Algebra.BigOperators.Group.List.Basic
import Mathlib.Algebra.GroupWithZero.Nat
import Mathlib.Algebra.Ring.Int.Defs
import Mathlib.Data.Fintype.Defs
import Mathlib.Data.Finset.Insert
import SmartSchoolCdn.Foundation.Table
import SmartSchoolCdn.Foundation.Trace

/-!
# The metrics of dns-service, by the minute

Every five seconds `DnsMetricsCollector` asks `dns-service` for its counters and stores what they have
grown by.  A total that is smaller than before is taken for a restart, after which the counters have
begun at zero.  Ticks may overlap, and their replies come in any order.

The collector is right about a reply when it is the next one of the same lifetime of the service, or
shows a restart by its total.  In exactly the runs in which it is right about all replies, no delta
has a negative component and the deltas of every lifetime add up (`deltas_conserved_iff`).
-/

namespace SmartSchoolCdn.Admin

open Tables Traces

/-! ## Counters -/

/-- The counters of `dns-service`, which are also the columns of `dns_metrics_minute`. -/
inductive Counter
  | total
  | matched
  | nxdomain
  | forwarded
  deriving DecidableEq, Repr

instance : Fintype Counter where
  elems := {.total, .matched, .nxdomain, .forwarded}
  complete k := by cases k <;> decide

/-- The values of the counters. -/
abbrev Snapshot := Counter → ℕ

/-- `MetricDelta`, of two snapshots. -/
abbrev MetricDelta := Counter → ℤ

/-- `computeDelta`. -/
def computeDelta (prev curr : Snapshot) : MetricDelta :=
  if curr .total < prev .total then fun k => curr k else fun k => curr k - prev k

/-- A row of `dns_metrics_minute`. -/
structure MetricBucket where
  bucketTs : ℤ
  values : MetricDelta

/-- The table `dns_metrics_minute`. -/
abbrev MetricsTable := Table MetricBucket.bucketTs

/-- `upsertDelta`. -/
def upsertDelta (t : MetricsTable) (bucketTs : ℤ) (d : MetricDelta) : MetricsTable :=
  t.upsert ⟨bucketTs, d⟩ (fun old => { old with values := old.values + d }) fun _ => rfl

/-- `prune`. -/
def pruneBuckets (t : MetricsTable) (beforeMs : ℤ) : MetricsTable :=
  t.eraseWhere fun ts => ts < beforeMs

/-! ## The collector -/

/-- `BUCKET_MS`. -/
def bucketMs : ℤ := 60000

/-- `RETENTION_MS`. -/
def retentionMs : ℤ := 24 * 60 * 60 * 1000

/-- `DnsMetricsCollector`, with its table. -/
structure Collector where
  lastSnapshot : Option Snapshot
  table : MetricsTable

/-- Whether a delta is stored. -/
def isStored (d : MetricDelta) : Bool :=
  0 < d .total || 0 < d .matched || 0 < d .nxdomain || 0 < d .forwarded

/-- The rest of `tick` after the reply, in milliseconds, with the delta that it stores. -/
def Collector.tick (c : Collector) (current : Snapshot) (now : ℤ) : Collector × Option MetricDelta :=
  match c.lastSnapshot with
  | none => (⟨some current, pruneBuckets c.table (now - retentionMs)⟩, none)
  | some prev =>
    let delta := computeDelta prev current
    let bucketTs := now / bucketMs * bucketMs
    if isStored delta then
      (⟨some current, pruneBuckets (upsertDelta c.table bucketTs delta) (now - retentionMs)⟩, some delta)
    else (⟨some current, pruneBuckets c.table (now - retentionMs)⟩, none)

/-! ## Service and ticks -/

/-- A tick: its request is under way, has arrived in a lifetime of the service, which then had these
counters, or has been answered; or the tick has ended. -/
inductive Tick
  | sent
  | arrived (lifetime : ℕ) (floor : Snapshot)
  | answered (lifetime : ℕ) (snap : Snapshot)
  | ended
  deriving DecidableEq

/-- The service and the collector.  The ghosts are the deltas that have been stored, with the lifetimes
of their replies, and for each lifetime the last reply that has been handled and the one that the
collector has begun with. -/
structure Metering where
  lifetime : ℕ
  counters : Snapshot
  ticks : List Tick
  collector : Collector
  stored : List (ℕ × MetricDelta)
  seen : ℕ → Snapshot
  base : ℕ → Snapshot

/-- The service counts, or restarts; a tick starts, its request arrives, the counters are read, the
reply is handled, or the request fails. -/
inductive MeterAction
  | count (grown : Snapshot)
  | restart
  | tick
  | arrive (i : ℕ)
  | read (i : ℕ) (snap : Snapshot)
  | reply (i : ℕ) (now : ℤ)
  | fail (i : ℕ)
  deriving DecidableEq

namespace Metering

variable (s : Metering)

/-- The start of the collector. -/
def start (counters : Snapshot) (table : MetricsTable) : Metering :=
  ⟨0, counters, [], ⟨none, table⟩, [], 0, 0⟩

/-- A reply is handled. -/
def reply (i : ℕ) (lifetime : ℕ) (snap : Snapshot) (now : ℤ) : Metering :=
  { s with
    ticks := s.ticks.set i .ended
    collector := (s.collector.tick snap now).1
    stored := (s.collector.tick snap now).2.toList.map (Prod.mk lifetime) ++ s.stored
    seen := Function.update s.seen lifetime snap
    base := if s.collector.lastSnapshot.isNone then Function.update s.base lifetime snap else s.base }

end Metering

/-- One step.  The counters of a reply are read one after the other while others count. -/
def meterStep (s : Metering) : MeterAction → Option Metering
  | .count grown => some { s with counters := s.counters + grown }
  | .restart => some { s with lifetime := s.lifetime + 1, counters := 0 }
  | .tick => some { s with ticks := s.ticks ++ [.sent] }
  | .arrive i =>
    match s.ticks[i]? with
    | some .sent => some { s with ticks := s.ticks.set i (.arrived s.lifetime s.counters) }
    | _ => none
  | .read i snap =>
    match s.ticks[i]? with
    | some (.arrived lifetime floor) =>
      if lifetime = s.lifetime ∧ ∀ k, floor k ≤ snap k ∧ snap k ≤ s.counters k then
        some { s with ticks := s.ticks.set i (.answered lifetime snap) }
      else none
    | _ => none
  | .reply i now =>
    match s.ticks[i]? with
    | some (.answered lifetime snap) => some (s.reply i lifetime snap now)
    | _ => none
  | .fail i =>
    match s.ticks[i]? with
    | some .ended | none => none
    | some _ => some { s with ticks := s.ticks.set i .ended }

/-! ## Conservation -/

/-- What has been stored for a lifetime. -/
def counted (stored : List (ℕ × MetricDelta)) (lifetime : ℕ) (k : Counter) : ℤ :=
  ((stored.filter fun p => p.1 = lifetime).map fun p => p.2 k).sum

/-- No component of a delta is negative, and the deltas of every lifetime add up to its last counters
without those that the collector has begun with. -/
structure Conserved (s : Metering) : Prop where
  nonneg : ∀ p ∈ s.stored, ∀ k, 0 ≤ p.2 k
  counted : ∀ lifetime k, counted s.stored lifetime k = s.seen lifetime k - s.base lifetime k

/-- The collector is right about a reply.  Either the total is smaller than before, and nothing else is
known of the lifetime; or it is not, and the counters before were the last ones of the same lifetime and
none of them is greater, or the reply is the last one again. -/
def Recognized (s : Metering) : MeterAction → Prop
  | .reply i _ => ∀ lifetime snap, s.ticks[i]? = some (.answered lifetime snap) →
      ∀ prev, s.collector.lastSnapshot = some prev →
        (snap .total < prev .total ∧ s.seen lifetime = 0) ∨
        (prev .total ≤ snap .total ∧
          ((prev = s.seen lifetime ∧ ∀ k, prev k ≤ snap k) ∨
            (snap = s.seen lifetime ∧ ∀ k, snap k ≤ prev k)))
  | _ => True

variable {s s' : Metering} {a : MeterAction} {i lifetime : ℕ} {snap prev seen counters : Snapshot}
  {now : ℤ} {d : MetricDelta} {k : Counter} {table : MetricsTable}

/-! ## One reply -/

lemma isStored_iff : isStored d = true ↔ ∃ k, 0 < d k := by
  simp only [isStored, Bool.or_eq_true, decide_eq_true_eq]
  constructor
  · rintro (((h | h) | h) | h)
    · exact ⟨.total, h⟩
    · exact ⟨.matched, h⟩
    · exact ⟨.nxdomain, h⟩
    · exact ⟨.forwarded, h⟩
  · rintro ⟨k, hk⟩
    cases k with
    | total => exact .inl (.inl (.inl hk))
    | matched => exact .inl (.inl (.inr hk))
    | nxdomain => exact .inl (.inr hk)
    | forwarded => exact .inr hk

/-- What a reply adds to what has been stored. -/
def gain (prev curr : Snapshot) : MetricDelta :=
  if isStored (computeDelta prev curr) then computeDelta prev curr else 0

/-- A smaller total gains all counters. -/
lemma gain_of_lt (h : snap .total < prev .total) (k : Counter) : gain prev snap k = snap k := by
  unfold gain computeDelta
  rw [if_pos h]
  split
  · rfl
  · rename_i hnot
    rw [isStored_iff, not_exists] at hnot
    have hk := hnot k
    change (0 : ℤ) = snap k
    omega

/-- Otherwise the gain is the difference, or nothing when no counter has grown. -/
lemma gain_of_le (h : prev .total ≤ snap .total) :
    ((∃ k, prev k < snap k) ∧ ∀ k, gain prev snap k = snap k - prev k) ∨
      (∀ k, snap k ≤ prev k) ∧ ∀ k, gain prev snap k = 0 := by
  unfold gain computeDelta
  rw [if_neg (not_lt.mpr h)]
  split
  · rename_i hstored
    obtain ⟨k, hk⟩ := isStored_iff.mp hstored
    exact .inl ⟨⟨k, by omega⟩, fun _ => rfl⟩
  · rename_i hnot
    rw [isStored_iff, not_exists] at hnot
    refine .inr ⟨fun k => ?_, fun _ => rfl⟩
    have hk := hnot k
    omega

/-- The gain is what a reply is past the last one of its lifetime, and not negative, if and only if the
collector is right about the reply. -/
lemma gain_iff : ((∀ k, 0 ≤ gain prev snap k) ∧ ∀ k, gain prev snap k = snap k - seen k) ↔
    (snap .total < prev .total ∧ seen = 0) ∨
      (prev .total ≤ snap .total ∧
        ((prev = seen ∧ ∀ k, prev k ≤ snap k) ∨ (snap = seen ∧ ∀ k, snap k ≤ prev k))) := by
  by_cases htotal : snap .total < prev .total
  · have hnot : ¬ prev .total ≤ snap .total := not_le.mpr htotal
    simp only [gain_of_lt htotal, htotal, hnot, true_and, false_and, or_false]
    constructor
    · rintro ⟨-, hgain⟩
      funext k
      have hk := hgain k
      change seen k = 0
      omega
    · rintro rfl
      refine ⟨fun k => Int.natCast_nonneg _, fun k => ?_⟩
      simp
  · have hle := not_lt.mp htotal
    simp only [htotal, hle, true_and, false_and, false_or]
    rcases gain_of_le hle with ⟨⟨k₀, hk₀⟩, hgain⟩ | ⟨hless, hgain⟩
    · simp only [hgain]
      constructor
      · rintro ⟨hnonneg, heq⟩
        refine .inl ⟨funext fun k => ?_, fun k => ?_⟩
        · have hk := heq k
          omega
        · have hk := hnonneg k
          omega
      · rintro (⟨rfl, hgrown⟩ | ⟨-, hless⟩)
        · refine ⟨fun k => ?_, fun k => rfl⟩
          have hk := hgrown k
          omega
        · exact absurd (hless k₀) (not_le.mpr hk₀)
    · simp only [hgain]
      constructor
      · rintro ⟨-, heq⟩
        refine .inr ⟨funext fun k => ?_, hless⟩
        have hk := heq k
        omega
      · rintro (⟨rfl, hgrown⟩ | ⟨rfl, -⟩)
        · refine ⟨fun k => le_refl 0, fun k => ?_⟩
          have hk := hgrown k
          have hk' := hless k
          omega
        · exact ⟨fun k => le_refl 0, fun k => by omega⟩

/-! ## Steps -/

lemma counted_cons (p : ℕ × MetricDelta) (stored : List (ℕ × MetricDelta)) :
    counted (p :: stored) lifetime k =
      (if p.1 = lifetime then p.2 k else 0) + counted stored lifetime k := by
  unfold counted
  rw [List.filter_cons]
  by_cases h : p.1 = lifetime
  · simp [h]
  · simp [h]

/-- What is stored when a reply is handled. -/
lemma tick_of_some (hprev : s.collector.lastSnapshot = some prev) : (s.collector.tick snap now).2 =
    if isStored (computeDelta prev snap) then some (computeDelta prev snap) else none := by
  unfold Collector.tick
  rw [hprev]
  dsimp only
  split <;> rfl

/-- The deltas after a reply. -/
lemma stored_reply (i lifetime : ℕ) (snap : Snapshot) (now : ℤ)
    (hprev : s.collector.lastSnapshot = some prev) :
    ((∀ p ∈ (s.reply i lifetime snap now).stored, ∀ k, 0 ≤ p.2 k) ↔
      (∀ p ∈ s.stored, ∀ k, 0 ≤ p.2 k) ∧ ∀ k, 0 ≤ gain prev snap k) ∧
    ∀ l k, counted (s.reply i lifetime snap now).stored l k =
      (if lifetime = l then gain prev snap k else 0) + counted s.stored l k := by
  unfold Metering.reply gain
  dsimp only
  rw [tick_of_some hprev]
  split
  · refine ⟨?_, fun l k => counted_cons _ _⟩
    simp [and_comm]
  · refine ⟨?_, fun l k => ?_⟩
    · simp
    · simp

/-- A reply that is not the first one. -/
lemma conserved_reply_iff (hs : Conserved s) (hprev : s.collector.lastSnapshot = some prev) :
    Conserved (s.reply i lifetime snap now) ↔
      (∀ k, 0 ≤ gain prev snap k) ∧ ∀ k, gain prev snap k = snap k - s.seen lifetime k := by
  obtain ⟨hnonneg, hcounted⟩ := stored_reply i lifetime snap now hprev
  have hbase : (s.reply i lifetime snap now).base = s.base := by
    rw [Metering.reply, hprev]
    rfl
  constructor
  · intro hs'
    refine ⟨(hnonneg.mp hs'.nonneg).2, fun k => ?_⟩
    have hsum := hs'.counted lifetime k
    rw [hcounted, if_pos rfl, hs.counted, hbase] at hsum
    have hseen : (s.reply i lifetime snap now).seen lifetime = snap := Function.update_self _ _ _
    rw [hseen] at hsum
    omega
  · rintro ⟨hpos, hgain⟩
    refine ⟨hnonneg.mpr ⟨hs.nonneg, hpos⟩, fun l k => ?_⟩
    rw [hcounted, hs.counted, hbase]
    by_cases hl : lifetime = l
    · subst hl
      have hseen : (s.reply i lifetime snap now).seen lifetime = snap := Function.update_self _ _ _
      rw [if_pos rfl, hgain, hseen]
      omega
    · have hseen : (s.reply i lifetime snap now).seen l = s.seen l :=
        Function.update_of_ne (Ne.symm hl) _ _
      rw [if_neg hl, hseen, zero_add]

/-- Before the first reply nothing has been stored. -/
def Fresh (s : Metering) : Prop := s.collector.lastSnapshot = none → s.stored = []

/-- The first reply is where the collector begins. -/
lemma conserved_first (hs : Conserved s) (hfresh : s.stored = [])
    (hfirst : s.collector.lastSnapshot = none) : Conserved (s.reply i lifetime snap now) := by
  have hstored : (s.reply i lifetime snap now).stored = s.stored := by
    unfold Metering.reply Collector.tick
    rw [hfirst]
    rfl
  have hbase : (s.reply i lifetime snap now).base = Function.update s.base lifetime snap := by
    rw [Metering.reply, hfirst]
    rfl
  constructor
  · rw [hstored]
    exact hs.nonneg
  · intro l k
    rw [hstored, hbase]
    by_cases hl : l = lifetime
    · subst hl
      have hseen : (s.reply i l snap now).seen l = snap := Function.update_self _ _ _
      rw [hfresh, hseen, Function.update_self, sub_self]
      rfl
    · have hseen : (s.reply i lifetime snap now).seen l = s.seen l := Function.update_of_ne hl _ _
      rw [hs.counted, hseen, Function.update_of_ne hl]

/-- A step handles a reply, or leaves the collector and what it has stored alone. -/
lemma reply_or_same (h : meterStep s a = some s') :
    (∃ i now lifetime snap, a = .reply i now ∧ s.ticks[i]? = some (.answered lifetime snap) ∧
      s' = s.reply i lifetime snap now) ∨
    (∀ i now, a ≠ .reply i now) ∧ s'.collector = s.collector ∧ s'.stored = s.stored ∧
      s'.seen = s.seen ∧ s'.base = s.base := by
  cases a with
  | reply i now =>
    simp only [meterStep] at h
    split at h
    · rename_i lifetime snap hi
      exact .inl ⟨i, now, lifetime, snap, rfl, hi, (Option.some.inj h).symm⟩
    · cases h
  | count grown =>
    obtain rfl := Option.some.inj h
    exact .inr ⟨nofun, rfl, rfl, rfl, rfl⟩
  | restart =>
    obtain rfl := Option.some.inj h
    exact .inr ⟨nofun, rfl, rfl, rfl, rfl⟩
  | tick =>
    obtain rfl := Option.some.inj h
    exact .inr ⟨nofun, rfl, rfl, rfl, rfl⟩
  | arrive i =>
    simp only [meterStep] at h
    split at h
    · obtain rfl := Option.some.inj h
      exact .inr ⟨nofun, rfl, rfl, rfl, rfl⟩
    · cases h
  | read i snap =>
    simp only [meterStep] at h
    split at h
    · split at h
      · obtain rfl := Option.some.inj h
        exact .inr ⟨nofun, rfl, rfl, rfl, rfl⟩
      · cases h
    · cases h
  | fail i =>
    simp only [meterStep] at h
    split at h
    · cases h
    · cases h
    · obtain rfl := Option.some.inj h
      exact .inr ⟨nofun, rfl, rfl, rfl, rfl⟩

/-- A reply leaves its counters with the collector. -/
lemma lastSnapshot_tick (c : Collector) : (c.tick snap now).1.lastSnapshot = some snap := by
  unfold Collector.tick
  split
  · rfl
  · dsimp only
    split <;> rfl

lemma Fresh.step (hs : Fresh s) (h : meterStep s a = some s') : Fresh s' := by
  rcases reply_or_same h with ⟨i, now, lifetime, snap, -, -, rfl⟩ | ⟨-, hcollector, hstored, -, -⟩
  · intro hnone
    rw [Metering.reply, lastSnapshot_tick] at hnone
    cases hnone
  · intro hnone
    rw [hcollector] at hnone
    rw [hstored]
    exact hs hnone

/-- What one step does: the deltas are conserved if and only if the collector is right about the
reply. -/
lemma conserved_step_iff (hfresh : Fresh s) (hs : Conserved s) (h : meterStep s a = some s') :
    Conserved s' ↔ Recognized s a := by
  rcases reply_or_same h with ⟨i, now, lifetime, snap, rfl, hi, rfl⟩ | ⟨ha, -, hstored, hseen, hbase⟩
  · cases hlast : s.collector.lastSnapshot with
    | none =>
      refine iff_of_true (conserved_first hs (hfresh hlast) hlast) fun lifetime' snap' _ prev hprev => ?_
      rw [hlast] at hprev
      cases hprev
    | some prev =>
      rw [conserved_reply_iff hs hlast, gain_iff]
      constructor
      · intro hright lifetime' snap' hi' prev' hprev'
        obtain ⟨rfl, rfl⟩ := Tick.answered.inj (Option.some.inj (hi.symm.trans hi'))
        obtain rfl := Option.some.inj (hlast.symm.trans hprev')
        exact hright
      · intro hright
        exact hright lifetime snap hi prev hlast
  · refine iff_of_true ?_ ?_
    · constructor
      · rw [hstored]
        exact hs.nonneg
      · rw [hstored, hseen, hbase]
        exact hs.counted
    · unfold Recognized
      split
      · rename_i i now
        exact absurd rfl (ha i now)
      · trivial

/-! ## Runs -/

lemma conserved_start (counters : Snapshot) (table : MetricsTable) :
    Conserved (Metering.start counters table) := by
  constructor
  · intro p hp
    cases hp
  · intro lifetime k
    rfl

/-- Conservation lasts as long as the collector is right about the replies. -/
lemma conserved_of_recognized {as : List MeterAction}
    (h : Trace meterStep Recognized (Metering.start counters table) as s) : Conserved s := by
  have hboth : Fresh s ∧ Conserved s := by
    refine h.invariant (I := fun s => Fresh s ∧ Conserved s) ?_ ⟨fun _ => rfl, conserved_start _ _⟩
    rintro s a s' ⟨hfresh, hs⟩ hright hst
    exact ⟨hfresh.step hst, (conserved_step_iff hfresh hs hst).mpr hright⟩
  exact hboth.2

/-- In every run of overlapping ticks and restarts, all deltas that have been stored are conserved in
every state if and only if the collector is right about every reply that it handles. -/
theorem deltas_conserved_iff (counters : Snapshot) (table : MetricsTable) (as : List MeterAction)
    (s : Metering) :
    (Trace meterStep (fun s _ => Conserved s) (Metering.start counters table) as s ∧ Conserved s) ↔
      Trace meterStep Recognized (Metering.start counters table) as s :=
  Trace.always_iff (I := Fresh) (fun _ _ _ hs hst => hs.step hst)
    (fun _ _ _ hfresh hs hst => conserved_step_iff hfresh hs hst) (fun _ => rfl)
    (conserved_start counters table)

/-! ## The table -/

/-- No value of the table is negative. -/
def NonnegRows (t : MetricsTable) : Prop := ∀ row ∈ t.rows, ∀ k, 0 ≤ row.values k

lemma NonnegRows.prune (h : NonnegRows table) (beforeMs : ℤ) :
    NonnegRows (pruneBuckets table beforeMs) :=
  fun row hrow => h row (List.mem_filter.mp hrow).1

lemma NonnegRows.upsert (h : NonnegRows table) (bucketTs : ℤ) (hd : ∀ k, 0 ≤ d k) :
    NonnegRows (upsertDelta table bucketTs d) := by
  intro row hrow k
  rcases Table.mem_rows_upsert _ hrow with hold | rfl | ⟨old, hold, rfl⟩
  · exact h row hold k
  · exact hd k
  · exact Int.add_nonneg (h old hold k) (hd k)

/-- A delta without negative components makes no value negative. -/
lemma NonnegRows.tick {c : Collector} (h : NonnegRows c.table)
    (hd : ∀ d, (c.tick snap now).2 = some d → ∀ k, 0 ≤ d k) :
    NonnegRows (c.tick snap now).1.table := by
  unfold Collector.tick at hd ⊢
  split
  · exact h.prune _
  · dsimp only
    split
    · rename_i hlast hstored
      rw [hlast] at hd
      dsimp only at hd
      rw [if_pos hstored] at hd
      exact (h.upsert _ (hd _ rfl)).prune _
    · exact h.prune _

/-- Without negative deltas, a step makes no value negative. -/
lemma nonnegRows_step (h : meterStep s a = some s')
    (hs : (∀ p ∈ s.stored, ∀ k, 0 ≤ p.2 k) → NonnegRows s.collector.table) :
    (∀ p ∈ s'.stored, ∀ k, 0 ≤ p.2 k) → NonnegRows s'.collector.table := by
  intro hstored'
  rcases reply_or_same h with ⟨i, now, lifetime, snap, -, -, rfl⟩ | ⟨-, hcollector, hstored, -, -⟩
  · refine (hs fun p hp => hstored' p (List.mem_append_right _ hp)).tick fun d hd => ?_
    refine hstored' (lifetime, d) (List.mem_append_left _ ?_)
    rw [hd]
    exact List.mem_cons_self
  · rw [hcollector]
    rw [hstored] at hstored'
    exact hs hstored'

/-- In a run in which the collector is right about every reply, no value of the table becomes
negative. -/
theorem nonnegRows_of_recognized {as : List MeterAction} (htable : NonnegRows table)
    (h : Trace meterStep Recognized (Metering.start counters table) as s) :
    NonnegRows s.collector.table :=
  h.invariant (I := fun s => (∀ p ∈ s.stored, ∀ k, 0 ≤ p.2 k) → NonnegRows s.collector.table)
    (fun _ _ _ hs _ hst => nonnegRows_step hst hs) (fun _ => htable)
    (conserved_of_recognized h).nonneg

/-! ## Sample runs -/

/-- Counters of queries none of which has been forwarded. -/
def sampleCounters (matched nxdomain : ℕ) : Snapshot
  | .total => matched + nxdomain
  | .matched => matched
  | .nxdomain => nxdomain
  | .forwarded => 0

/-- A tick that is answered and handled before the next one. -/
def wholeTick (i : ℕ) (snap : Snapshot) : List MeterAction :=
  [.tick, .arrive i, .read i snap, .reply i 0]

/-- Two ticks overlap, and the older of their replies is handled last. -/
def overlappingActions : List MeterAction :=
  wholeTick 0 0 ++ [.tick, .tick, .count (sampleCounters 8 0), .arrive 1, .read 1 (sampleCounters 8 0),
    .count (sampleCounters 2 0), .arrive 2, .read 2 (sampleCounters 10 0), .reply 2 0, .reply 1 0]

/-- The service restarts, and has counted more than before when the collector asks again. -/
def hiddenRestart : List MeterAction :=
  wholeTick 0 0 ++ [.count (sampleCounters 5 0)] ++ wholeTick 1 (sampleCounters 5 0) ++
    [.restart, .count (sampleCounters 0 6)] ++ wholeTick 2 (sampleCounters 0 6)

/-- The reply of the older tick, with a smaller total, is taken for a restart, so that ten queries are
stored as eighteen; and a restart that the total does not show stores a negative delta. -/
theorem deltas_not_conserved :
    (∃ s, Trace meterStep Free (Metering.start 0 Table.empty) overlappingActions s ∧
      s.lifetime = 0 ∧ counted s.stored 0 .total = 18 ∧ s.counters .total = 10 ∧ ¬ Conserved s) ∧
    ∃ s, Trace meterStep Free (Metering.start 0 Table.empty) hiddenRestart s ∧
      counted s.stored 1 .matched = -5 ∧ ¬ Conserved s := by
  constructor
  · have hrun : ((run meterStep (Metering.start 0 Table.empty) overlappingActions).any fun s => decide
        (s.lifetime = 0 ∧ counted s.stored 0 .total = 18 ∧ s.counters .total = 10 ∧
          s.seen 0 .total = 8 ∧ s.base 0 .total = 0)) = true := by
      decide +kernel
    obtain ⟨s, hs, hp⟩ := exists_trace_of_run hrun
    obtain ⟨hlifetime, hcounted, hcounters, hseen, hbase⟩ := of_decide_eq_true hp
    refine ⟨s, hs, hlifetime, hcounted, hcounters, fun hconserved => ?_⟩
    have htotal := hconserved.counted 0 .total
    rw [hcounted, hseen, hbase] at htotal
    exact absurd htotal (by decide)
  · have hrun : ((run meterStep (Metering.start 0 Table.empty) hiddenRestart).any fun s => decide
        (counted s.stored 1 .matched = -5 ∧ s.seen 1 .matched = 0 ∧ s.base 1 .matched = 0)) = true := by
      decide +kernel
    obtain ⟨s, hs, hp⟩ := exists_trace_of_run hrun
    obtain ⟨hcounted, hseen, hbase⟩ := of_decide_eq_true hp
    refine ⟨s, hs, hcounted, fun hconserved => ?_⟩
    have hmatched := hconserved.counted 1 .matched
    rw [hcounted, hseen, hbase] at hmatched
    exact absurd hmatched (by decide)

end SmartSchoolCdn.Admin
