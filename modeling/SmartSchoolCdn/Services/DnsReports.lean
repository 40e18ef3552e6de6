import SmartSchoolCdn.Foundation.Grouping
import SmartSchoolCdn.Foundation.Ranking
import SmartSchoolCdn.Services.QueryLog
import Mathlib.Data.String.Basic

/-!
# What the DNS service reports

`get_stats` and `get_recent_queries` of `services/dns-service/src/grpc.rs`.  The names at the top are those
that occur most often among the queries that have been logged last, with how often they do
(`top_qnames_exact`).  The counters are loaded one after the other while queries go on: what they add up to
falls behind the total by no more than the queries that are in between their two counts
(`status_bounds`).
-/

namespace SmartSchoolCdn.Dns

open Grouping Ranking Tables Traces

/-! ## The handlers -/

/-- The most frequent first, and names in order where they are equally frequent. -/
def byCount : Comparison (String × ℕ) :=
  (Comparison.column Prod.snd).descending.thenBy (Comparison.column Prod.fst)

/-- `top_qnames`. -/
def topQnames (recent : List QueryEntry) (n : ℕ) : List (String × ℕ) :=
  let counts := recent.foldl (addTo QueryEntry.qname (fun _ => 0) fun k _ => k + 1) ∅
  (byCount.sort (counts.entries.map fun s => (s.1, s.2))).take n

/-- `StatsResponse`, without the uptime. -/
structure StatsResponse where
  totalQueries : UInt64
  matched : UInt64
  nxdomain : UInt64
  forwarded : UInt64
  topDomains : List (String × ℕ)
  deriving DecidableEq, Repr

/-- `get_stats`, which loads the counters one after the other and then looks at the ring. -/
def getStats (s₁ s₂ s₃ s₄ s₅ : Server) : StatsResponse where
  totalQueries := s₁.metrics.total
  matched := s₂.metrics.matched
  nxdomain := s₃.metrics.nxdomain
  forwarded := s₄.metrics.forwarded
  topDomains := topQnames s₅.recent 10

/-- A query in the answer of `get_recent_queries`. -/
structure ProtoQueryEntry where
  tsUnixMs : ℤ
  clientIp : String
  qname : String
  qtype : String
  result : String
  latencyUs : ℕ
  deriving DecidableEq, Repr

/-- `QueryResult::as_str`. -/
def QueryResult.asStr : QueryResult → String
  | .matched => "matched"
  | .nxdomain => "nxdomain"
  | .forwarded => "forwarded"

/-- The message of an entry. -/
def QueryEntry.proto (e : QueryEntry) : ProtoQueryEntry where
  tsUnixMs := e.tsUnixMs
  clientIp := e.clientIp
  qname := e.qname
  qtype := e.qtype
  result := e.result.asStr
  latencyUs := e.latencyUs

/-- `get_recent_queries`. -/
def getRecentQueries (s : Server) (limit : ℕ) : List ProtoQueryEntry :=
  (s.snapshot (min (max limit 1) 512)).map QueryEntry.proto

/-! ## The top names -/

variable {cfg : Config} {s s' t : Server} {a : Action} {map : String → Option String}

/-- How often a name occurs. -/
def occurrences (recent : List QueryEntry) (qname : String) : ℕ :=
  recent.countP fun e => decide (e.qname = qname)

/-- The counts are one for every name that occurs. -/
lemma counts_perm (recent : List QueryEntry) :
    ((recent.foldl (addTo QueryEntry.qname (fun _ => 0) fun k _ => k + 1) ∅).entries.map
        fun s => (s.1, s.2)).Perm
      ((keys QueryEntry.qname recent).map fun q => (q, occurrences recent q)) := by
  have hcount : ∀ (l : List QueryEntry) (k : ℕ), l.foldl (fun k _ => k + 1) k = k + l.length := by
    intro l
    induction l with
    | nil => exact fun k => rfl
    | cons e l ih =>
      intro k
      rw [List.foldl_cons, ih, List.length_cons]
      omega
  refine ((entries_foldl_addTo _ _ _ recent).map _).trans (List.Perm.of_eq ?_)
  rw [List.map_map]
  refine List.map_congr_left fun q _ => ?_
  rw [Function.comp_apply, hcount, Nat.zero_add, rowsOf, occurrences, List.countP_eq_length_filter]

/-- A name occurs at the top with the number of its occurrences. -/
lemma mem_counts {recent : List QueryEntry} {ranked : List (String × ℕ)}
    (h : ranked.Perm ((keys QueryEntry.qname recent).map fun q => (q, occurrences recent q)))
    {p : String × ℕ} : p ∈ ranked ↔ (∃ e ∈ recent, e.qname = p.1) ∧ p.2 = occurrences recent p.1 := by
  rw [h.mem_iff, List.mem_map]
  constructor
  · rintro ⟨q, hq, rfl⟩
    exact ⟨mem_keys.mp hq, rfl⟩
  · rintro ⟨hq, hcount⟩
    exact ⟨p.1, mem_keys.mpr hq, Prod.ext rfl hcount.symm⟩

/-- The first names of the ranking of all names that occur. -/
structure TopOf (recent : List QueryEntry) (n : ℕ) (top : List (String × ℕ)) : Prop where
  counts : ∀ p ∈ top, 0 < p.2 ∧ p.2 = occurrences recent p.1
  once : (top.map Prod.fst).Nodup
  sorted : top.Pairwise fun p p' => p'.2 < p.2 ∨ (p'.2 = p.2 ∧ p.1 ≤ p'.1)
  length : top.length = min n (keys QueryEntry.qname recent).length
  rest : ∀ e ∈ recent, e.qname ∉ top.map Prod.fst →
    ∀ p ∈ top, occurrences recent e.qname < p.2 ∨ (occurrences recent e.qname = p.2 ∧ p.1 ≤ e.qname)

/-- What the comparison says. -/
lemma byCount_le {p p' : String × ℕ} (h : byCount.le p p' = true) :
    p'.2 < p.2 ∨ (p'.2 = p.2 ∧ p.1 ≤ p'.1) := by
  simp only [byCount, Comparison.thenBy, Comparison.descending, Comparison.column, Bool.and_eq_true,
    Bool.or_eq_true, Bool.not_eq_true', decide_eq_true_iff, decide_eq_false_iff_not] at h
  rcases h.2 with hlt | hname
  · exact .inl (Nat.not_le.mp hlt)
  · exact h.1.lt_or_eq.imp_right fun heq => ⟨heq, hname⟩

/-- The names that are shown are the top of the ranking. -/
lemma topOf_topQnames (recent : List QueryEntry) (n : ℕ) : TopOf recent n (topQnames recent n) := by
  set counts := (recent.foldl (addTo QueryEntry.qname (fun _ => 0) fun k _ => k + 1) ∅).entries.map
    fun s => (s.1, s.2) with hcounts
  have hranking : byCount.IsRanking counts (byCount.sort counts) := Comparison.isRanking_sort
  have hperm := hranking.1.trans (counts_perm recent)
  have htop : topQnames recent n = (byCount.sort counts).take n := rfl
  have hmem : ∀ p ∈ topQnames recent n, p ∈ byCount.sort counts := fun p hp =>
    List.mem_of_mem_take (htop ▸ hp)
  have hnodup : ((byCount.sort counts).map Prod.fst).Nodup := by
    refine ((hperm.map _).nodup_iff).mpr ?_
    rw [List.map_map]
    exact (List.map_id _).symm ▸ nodup_keys
  refine ⟨fun p hp => ?_, ?_, ?_, ?_, fun e he habsent p hp => ?_⟩
  · obtain ⟨⟨e, he, hname⟩, hcount⟩ := (mem_counts hperm).mp (hmem p hp)
    rw [hcount]
    exact ⟨List.countP_pos_iff.mpr ⟨e, he, decide_eq_true hname⟩, rfl⟩
  · rw [htop, List.map_take]
    exact hnodup.sublist (List.take_sublist _ _)
  · rw [htop]
    exact (hranking.2.sublist (List.take_sublist _ _)).imp byCount_le
  · rw [htop, List.length_take, hperm.length_eq, List.length_map]
  · -- the name is in the ranking, and not among the first
    have hranked : (e.qname, occurrences recent e.qname) ∈ byCount.sort counts :=
      (mem_counts hperm).mpr ⟨⟨e, he, rfl⟩, rfl⟩
    have hlater : (e.qname, occurrences recent e.qname) ∈ (byCount.sort counts).drop n := by
      rw [← List.take_append_drop n (byCount.sort counts)] at hranked
      refine (List.mem_append.mp hranked).resolve_left fun hfirst => habsent ?_
      exact List.mem_map.mpr ⟨_, htop ▸ hfirst, rfl⟩
    have hsorted := hranking.2
    rw [← List.take_append_drop n (byCount.sort counts), List.pairwise_append] at hsorted
    exact byCount_le (hsorted.2.2 p (htop ▸ hp) _ hlater)

/-! ## Runs -/

/-- The log is in order in every run. -/
lemma logged_trace {as : List Action} (hcap : 0 < cfg.cap) (h : Trace (step cfg) Free (Server.start map) as s) :
    Logged cfg.cap s := by
  refine h.invariant (fun s a s' hs _ hst => hs.step hcap hst) ⟨rfl, ?_, .refl _, List.take_nil.symm⟩
  intro result
  cases result <;> rfl

/-- In every run, `get_stats` shows the ten names that occur most often among the queries that have been
logged last, as many as the ring holds, with their numbers, and `get_recent_queries` shows the last queries,
between one and 512 of them. -/
theorem top_qnames_exact {as : List Action} (hcap : 0 < cfg.cap)
    (h : Trace (step cfg) Free (Server.start map) as s) :
    (∀ s₁ s₂ s₃ s₄, TopOf (s.logged.take cfg.cap) 10 (getStats s₁ s₂ s₃ s₄ s).topDomains) ∧
    ∀ limit, getRecentQueries s limit =
      (s.logged.take (min (min (max limit 1) 512) cfg.cap)).map QueryEntry.proto := by
  have hlog := logged_trace hcap h
  refine ⟨fun _ _ _ _ => ?_, fun limit => ?_⟩
  · rw [← hlog.recent]
    exact topOf_topQnames s.recent 10
  · rw [getRecentQueries, Server.snapshot, hlog.recent, List.take_take]

/-- A ring of two entries, of which one name is at the top. -/
theorem top_qnames_exact_sample : ∃ s : Server, s.logged.length = 2 ∧
    (getStats s s s s s).topDomains.length = 1 := by
  have hrun : ((run (step { sampleConfig with cap := 1 }) (Server.start fun _ => none) loggingActions).any
      fun s => decide (s.logged.length = 2 ∧
        (keys QueryEntry.qname (s.logged.take 1)).length = 1)) = true := by
    decide +kernel
  obtain ⟨s, hs, hp⟩ := exists_trace_of_run hrun
  obtain ⟨hlength, hkeys⟩ := of_decide_eq_true hp
  refine ⟨s, hlength, ?_⟩
  rw [((top_qnames_exact Nat.one_pos hs).1 s s s s).length, hkeys]
  rfl

/-! ## The counters -/

/-- Whether a task is between its two counts. -/
def Phase.isBetween : Phase → Bool
  | .totalCounted _ => true
  | _ => false

/-- How many tasks are between their two counts. -/
def between (tasks : List Task) : ℕ := tasks.countP fun t => t.phase.isBetween

/-- A task that has counted in the total is between its counts, or has counted one result. -/
lemma totals_eq (tasks : List Task) :
    totals tasks = results tasks .matched + results tasks .nxdomain + results tasks .forwarded +
      between tasks := by
  have hone : ∀ phase : Phase, phase.hasTotal.toNat =
      (phase.result == some .matched).toNat + (phase.result == some .nxdomain).toNat +
        (phase.result == some .forwarded).toNat + phase.isBetween.toNat := by
    intro phase
    cases phase with
    | counted result => cases result <;> rfl
    | done entry =>
      simp only [Phase.hasTotal, Phase.result, Phase.isBetween]
      cases entry.result <;> rfl
    | _ => rfl
  rw [totals, results, results, results, between, countP_eq_total, countP_eq_total, countP_eq_total,
    countP_eq_total, countP_eq_total, ← total_add, ← total_add, ← total_add]
  exact total_congr fun t _ => hone t.phase

/-- A task that goes on does not take back its result. -/
lemma results_set_le {tasks : List Task} {i : ℕ} {t u : Task} {result : QueryResult}
    (hi : tasks[i]? = some t) (h : t.phase.result = some result → u.phase.result = some result) :
    results tasks result ≤ results (tasks.set i u) result := by
  have hset := countP_set_add (p := fun t => t.phase.result == some result) (y := u) hi
  unfold results
  cases ht : t.phase.result == some result with
  | false =>
    rw [ht] at hset
    have : (false : Bool).toNat = 0 := rfl
    omega
  | true =>
    have hu : (u.phase.result == some result) = true := beq_iff_eq.mpr (h (beq_iff_eq.mp ht))
    rw [ht, hu] at hset
    omega

/-- Counts only grow. -/
lemma results_step (h : step cfg s a = some s') (result : QueryResult) :
    results s.tasks result ≤ results s'.tasks result := by
  cases a with
  | receive src buf tsMs =>
    obtain rfl := Option.some.inj h
    rw [results, results, List.countP_append]
    exact Nat.le_add_right _ _
  | task i ta =>
    obtain ⟨t, hi, heffect⟩ := exists_task h
    cases heffect with
    | work t' _ _ hopen _ =>
      obtain ⟨-, hresult, -⟩ := nothing_of_isOpen (t := t) (.inl hopen)
      exact results_set_le hi fun hsome => by rw [hresult] at hsome; cases hsome
    | relay isA datagram queue hphase =>
      refine results_set_le hi fun hsome => ?_
      rw [hphase] at hsome
      cases hsome
    | countTotal result' hphase =>
      refine results_set_le hi fun hsome => ?_
      rw [hphase] at hsome
      cases hsome
    | countResult result' hphase =>
      refine results_set_le hi fun hsome => ?_
      rw [hphase] at hsome
      cases hsome
    | push elapsedUs result' hphase =>
      refine results_set_le hi fun hsome => ?_
      rw [hphase] at hsome
      exact hsome
  | syncDomains domains =>
    obtain rfl := Option.some.inj h
    exact le_rfl

lemma results_trace {as : List Action} (h : Trace (step cfg) Free s as t) (result : QueryResult) :
    results s.tasks result ≤ results t.tasks result := by
  induction h with
  | nil _ => exact le_rfl
  | cons _ hs _ ih => exact (results_step hs result).trans ih

/-- In every run, with any steps of the tasks between the loads of the four counters: what the three results
add up to falls behind the total by no more than the queries that are between their two counts when the
total is loaded, and does not exceed the queries that have been counted in the total when the last counter
is loaded. -/
theorem status_bounds {s₁ s₂ s₃ s₄ : Server} {as₁ as₂ as₃ as₄ : List Action} (hcap : 0 < cfg.cap)
    (h₁ : Trace (step cfg) Free (Server.start map) as₁ s₁) (h₂ : Trace (step cfg) Free s₁ as₂ s₂)
    (h₃ : Trace (step cfg) Free s₂ as₃ s₃) (h₄ : Trace (step cfg) Free s₃ as₄ s₄)
    (hfits : s₄.tasks.length < 2 ^ 64) (s₅ : Server) :
    let r := getStats s₁ s₂ s₃ s₄ s₅
    r.totalQueries.toNat ≤
        r.matched.toNat + r.nxdomain.toNat + r.forwarded.toNat + between s₁.tasks ∧
      r.matched.toNat + r.nxdomain.toNat + r.forwarded.toNat ≤ totals s₄.tasks := by
  intro r
  have htrace₂ := h₁.append h₂
  have htrace₃ := htrace₂.append h₃
  have htrace₄ := htrace₃.append h₄
  have hsum₁ := totals_eq s₁.tasks
  have hsum₄ := totals_eq s₄.tasks
  have hwithin : totals s₄.tasks ≤ s₄.tasks.length := List.countP_le_length
  have hmatched₁ := results_trace h₂ .matched
  have hmatched₂ := results_trace (h₃.append h₄) .matched
  have hnxdomain₁ := results_trace (h₂.append h₃) .nxdomain
  have hnxdomain₂ := results_trace h₄ .nxdomain
  have hforwarded₁ := results_trace ((h₂.append h₃).append h₄) .forwarded
  have hfit : ∀ n < 2 ^ 64, (UInt64.ofNat n).toNat = n := fun n hn => UInt64.toNat_ofNat_of_lt' hn
  have hmatched : r.matched.toNat = results s₂.tasks .matched := by
    have hload : r.matched = UInt64.ofNat (results s₂.tasks .matched) :=
      (logged_trace hcap htrace₂).counter .matched
    rw [hload, hfit _ (by omega)]
  have hnxdomain : r.nxdomain.toNat = results s₃.tasks .nxdomain := by
    have hload : r.nxdomain = UInt64.ofNat (results s₃.tasks .nxdomain) :=
      (logged_trace hcap htrace₃).counter .nxdomain
    rw [hload, hfit _ (by omega)]
  have hforwarded : r.forwarded.toNat = results s₄.tasks .forwarded := by
    have hload : r.forwarded = UInt64.ofNat (results s₄.tasks .forwarded) :=
      (logged_trace hcap htrace₄).counter .forwarded
    rw [hload, hfit _ (by omega)]
  have htotal : r.totalQueries.toNat ≤ totals s₁.tasks := by
    have hload : r.totalQueries = UInt64.ofNat (totals s₁.tasks) := (logged_trace hcap h₁).total
    rw [hload, UInt64.toNat_ofNat']
    exact Nat.mod_le _ _
  omega

/-- The total is loaded when both queries are between their counts, and the results when both have been
counted, one under no name. -/
theorem status_bounds_sample : ∃ s₁ s₂ : Server, (getStats s₁ s₂ s₂ s₂ s₂).totalQueries = 2 ∧
    between s₁.tasks = 2 ∧
    (getStats s₁ s₂ s₂ s₂ s₂).matched.toNat + (getStats s₁ s₂ s₂ s₂ s₂).nxdomain.toNat +
      (getStats s₁ s₂ s₂ s₂ s₂).forwarded.toNat ≤ 2 := by
  have hrun : (run (step sampleConfig) (Server.start fun _ => none) (loggingActions.take 10)).any (fun s =>
      decide (s.metrics.total = 2 ∧ between s.tasks = 2) &&
      (run (step sampleConfig) s (loggingActions.drop 10)).any fun t =>
        decide (totals t.tasks = 2 ∧ t.tasks.length = 2)) = true := by
    decide +kernel
  obtain ⟨s₁, h₁, hp⟩ := exists_trace_of_run hrun
  obtain ⟨hfirst, hrest⟩ := Bool.and_eq_true_iff.mp hp
  obtain ⟨htotal, hbetween⟩ := of_decide_eq_true hfirst
  obtain ⟨s₂, h₂, hlast⟩ := exists_trace_of_run hrest
  obtain ⟨htotals, hlength⟩ := of_decide_eq_true hlast
  obtain ⟨-, hbound⟩ := status_bounds (by decide) h₁ h₂ (Trace.nil s₂) (Trace.nil s₂)
    (by rw [hlength]; decide) s₂
  exact ⟨s₁, s₂, htotal, hbetween, htotals ▸ hbound⟩

end SmartSchoolCdn.Dns
