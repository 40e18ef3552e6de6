import Mathlib.Algebra.BigOperators.Group.List.Lemmas
import SmartSchoolCdn.Services.DnsServer

/-!
# The log of the queries

However a query ends, its task counts it once in the total and once under its result, and pushes one
entry to the ring (`logged_once`).  The counters lag behind the datagrams that have been received by
the tasks that are still under way, and every task can come to its end (`exists_quiet`).
-/

namespace SmartSchoolCdn.Dns

open Tables Traces

/-! ## The ring -/

section Ring

variable {α : Type} {cap : ℕ} {log : List α}

/-- A ring that holds the newest entries of a log still does so after a push. -/
lemma pushRecent_take (hcap : 0 < cap) (x : α) :
    pushRecent cap (log.take cap) x = (x :: log).take cap := by
  obtain ⟨cap, rfl⟩ := Nat.exists_eq_succ_of_ne_zero hcap.ne'
  unfold pushRecent
  rw [List.take_succ_cons]
  congr 1
  split
  · rename_i hfull
    rw [List.dropLast_eq_take, hfull, List.take_take]
    congr 1
    omega
  · rename_i hroom
    have hshort : log.length ≤ cap := by
      rw [List.length_take] at hroom
      omega
    rw [List.take_of_length_le (Nat.le_succ_of_le hshort), List.take_of_length_le hshort]

end Ring

/-! ## What a task has logged -/

/-- Whether a phase comes after the count of the total. -/
def Phase.hasTotal : Phase → Bool
  | .totalCounted _ | .counted _ | .done _ => true
  | _ => false

/-- The result that a phase comes after the count of. -/
def Phase.result : Phase → Option QueryResult
  | .counted result => some result
  | .done entry => some entry.result
  | _ => none

/-- The entry of a task that has come to its end. -/
def Task.entry (t : Task) : Option QueryEntry :=
  match t.phase with
  | .done entry => some entry
  | _ => none

/-- How many tasks have counted in the total. -/
def totals (tasks : List Task) : ℕ := tasks.countP fun t => t.phase.hasTotal

/-- How many tasks have counted a result. -/
def results (tasks : List Task) (result : QueryResult) : ℕ :=
  tasks.countP fun t => t.phase.result == some result

/-- The entries of the tasks that have come to their end. -/
def entries (tasks : List Task) : List QueryEntry := tasks.filterMap Task.entry

/-! ### A task goes on -/

section Set

variable {tasks : List Task} {i : ℕ} {t u : Task} {result : QueryResult} {entry : QueryEntry}

lemma totals_set (hi : tasks[i]? = some t) (h : u.phase.hasTotal = t.phase.hasTotal) :
    totals (tasks.set i u) = totals tasks := by
  have hset := countP_set_add (p := fun t => t.phase.hasTotal) (y := u) hi
  rw [h] at hset
  exact Nat.add_right_cancel hset

lemma totals_set_succ (hi : tasks[i]? = some t) (h : t.phase.hasTotal = false)
    (h' : u.phase.hasTotal = true) : totals (tasks.set i u) = totals tasks + 1 := by
  have hset := countP_set_add (p := fun t => t.phase.hasTotal) (y := u) hi
  rw [h, h'] at hset
  exact hset

lemma results_set (hi : tasks[i]? = some t) (h : u.phase.result = t.phase.result) :
    results (tasks.set i u) result = results tasks result := by
  have hset := countP_set_add (p := fun t => t.phase.result == some result) (y := u) hi
  rw [h] at hset
  exact Nat.add_right_cancel hset

lemma results_set_succ {resulu : QueryResult} (hi : tasks[i]? = some t) (h : t.phase.result = none)
    (h' : u.phase.result = some resulu) : results (tasks.set i u) result =
      if resulu = result then results tasks result + 1 else results tasks result := by
  have hset := countP_set_add (p := fun t => t.phase.result == some result) (y := u) hi
  rw [h, h'] at hset
  unfold results
  by_cases heq : resulu = result
  · subst heq
    simpa using hset
  · have hne : (some resulu == some result) = false := by simpa using heq
    rw [if_neg heq]
    rw [hne] at hset
    exact hset

lemma entries_set (hi : tasks[i]? = some t) (h : u.entry = t.entry) :
    entries (tasks.set i u) = entries tasks := by
  obtain ⟨l₁, l₂, htasks, hset⟩ := exists_split hi u
  rw [entries, entries, hset, htasks]
  simp only [List.filterMap_append, List.filterMap_cons, h]

lemma entries_set_perm (hi : tasks[i]? = some t) (h : t.entry = none) (h' : u.entry = some entry) :
    (entries (tasks.set i u)).Perm (entry :: entries tasks) := by
  obtain ⟨l₁, l₂, htasks, hset⟩ := exists_split hi u
  rw [entries, entries, hset, htasks]
  simp only [List.filterMap_append, List.filterMap_cons, h, h']
  exact List.perm_middle

end Set

/-! ## The invariant -/

/-- What the log says about the tasks. -/
structure Logged (cap : ℕ) (s : Server) : Prop where
  total : s.metrics.total = UInt64.ofNat (totals s.tasks)
  counter : ∀ result, s.metrics.counter result = UInt64.ofNat (results s.tasks result)
  logged : s.logged.Perm (entries s.tasks)
  recent : s.recent = s.logged.take cap

variable {cfg : Config} {s s' : Server} {a : Action} {ta : TaskAction} {i : ℕ} {t t' : Task}
  {map : String → Option String}

/-- A task that goes on without counting or pushing anything. -/
lemma Logged.proceed {cap : ℕ} (hs : Logged cap s) (hi : s.tasks[i]? = some t)
    (hmetrics : s'.metrics = s.metrics) (hrecent : s'.recent = s.recent) (hlogged : s'.logged = s.logged)
    (htasks : s'.tasks = s.tasks.set i t') (htotal : t'.phase.hasTotal = t.phase.hasTotal)
    (hresult : t'.phase.result = t.phase.result) (hentry : t'.entry = t.entry) : Logged cap s' where
  total := by rw [hmetrics, htasks, totals_set hi htotal, hs.total]
  counter result := by rw [hmetrics, htasks, results_set hi hresult, hs.counter]
  logged := by
    rw [hlogged, htasks, entries_set hi hentry]
    exact hs.logged
  recent := by rw [hrecent, hlogged, hs.recent]

/-- Up to its log, a task has not counted or pushed anything. -/
lemma nothing_of_isOpen (h : t.phase.isOpen = true ∨ ∃ result, t.phase = .log result) :
    t.phase.hasTotal = false ∧ t.phase.result = none ∧ t.entry = none := by
  unfold Task.entry
  cases hphase : t.phase with
  | totalCounted result => simp [hphase, Phase.isOpen] at h
  | counted result => simp [hphase, Phase.isOpen] at h
  | done entry => simp [hphase, Phase.isOpen] at h
  | _ => exact ⟨rfl, rfl, rfl⟩

/-- One more has been counted. -/
lemma ofNat_succ (n : ℕ) : UInt64.ofNat (n + 1) = UInt64.ofNat n + 1 := UInt64.ofNat_add n 1

/-- The counters after a result has been counted. -/
lemma counter_countResult (m : DnsMetrics) (result result' : QueryResult) :
    (m.countResult result).counter result' =
      if result = result' then m.counter result' + 1 else m.counter result' := by
  cases result <;> cases result' <;> rfl

/-- The step of a task. -/
lemma Logged.taskStep (hcap : 0 < cfg.cap) (hs : Logged cfg.cap s) (hi : s.tasks[i]? = some t)
    (h : TaskEffect cfg s i t ta s') : Logged cfg.cap s' := by
  cases h with
  | work t' _ _ hopen hlater =>
    obtain ⟨htotal, hresult, hentry⟩ := nothing_of_isOpen (.inl hopen)
    obtain ⟨htotal', hresult', hentry'⟩ := nothing_of_isOpen hlater
    exact hs.proceed hi rfl rfl rfl rfl (htotal'.trans htotal.symm) (hresult'.trans hresult.symm)
      (hentry'.trans hentry.symm)
  | relay isA datagram queue hphase =>
    obtain ⟨htotal, hresult, hentry⟩ := nothing_of_isOpen (t := t) (.inl (by rw [hphase]; rfl))
    exact hs.proceed hi rfl rfl rfl rfl htotal.symm hresult.symm hentry.symm
  | countTotal result hphase =>
    obtain ⟨htotal, hresult, hentry⟩ := nothing_of_isOpen (t := t) (.inr ⟨result, hphase⟩)
    let t' : Task := { t with phase := .totalCounted result }
    exact
      { total := by
          change s.metrics.total + 1 = UInt64.ofNat (totals (s.tasks.set i t'))
          rw [totals_set_succ hi htotal rfl, ofNat_succ, hs.total]
        counter := fun result' => by
          change s.metrics.counter result' = UInt64.ofNat (results (s.tasks.set i t') result')
          rw [results_set (u := t') hi hresult.symm, hs.counter]
        logged := by
          change s.logged.Perm (entries (s.tasks.set i t'))
          rw [entries_set (u := t') hi hentry.symm]
          exact hs.logged
        recent := hs.recent }
  | countResult result hphase =>
    have htotal : t.phase.hasTotal = true := by rw [hphase]; rfl
    have hresult : t.phase.result = none := by rw [hphase]; rfl
    have hentry : t.entry = none := by rw [Task.entry, hphase]
    let t' : Task := { t with phase := .counted result }
    exact
      { total := by
          change (s.metrics.countResult result).total = UInt64.ofNat (totals (s.tasks.set i t'))
          rw [totals_set (u := t') hi htotal.symm, ← hs.total]
          cases result <;> rfl
        counter := fun result' => by
          change (s.metrics.countResult result).counter result' =
            UInt64.ofNat (results (s.tasks.set i t') result')
          rw [counter_countResult, results_set_succ hi hresult rfl, hs.counter]
          split
          · exact (ofNat_succ _).symm
          · rfl
        logged := by
          change s.logged.Perm (entries (s.tasks.set i t'))
          rw [entries_set (u := t') hi hentry.symm]
          exact hs.logged
        recent := hs.recent }
  | push elapsedUs result hphase =>
    have htotal : t.phase.hasTotal = true := by rw [hphase]; rfl
    have hresult : t.phase.result = some result := by rw [hphase]; rfl
    have hentry : t.entry = none := by rw [Task.entry, hphase]
    let t' : Task := { t with phase := .done (t.logEntry result elapsedUs) }
    exact
      { total := by
          change s.metrics.total = UInt64.ofNat (totals (s.tasks.set i t'))
          rw [totals_set (u := t') hi htotal.symm, hs.total]
        counter := fun result' => by
          change s.metrics.counter result' = UInt64.ofNat (results (s.tasks.set i t') result')
          rw [results_set (u := t') hi hresult.symm, hs.counter]
        logged := (hs.logged.cons _).trans (entries_set_perm hi hentry rfl).symm
        recent := by
          change pushRecent cfg.cap s.recent _ = (t.logEntry result elapsedUs :: s.logged).take cfg.cap
          rw [hs.recent, pushRecent_take hcap] }

/-- Any step. -/
lemma Logged.step (hcap : 0 < cfg.cap) (hs : Logged cfg.cap s) (h : step cfg s a = some s') :
    Logged cfg.cap s' := by
  cases a with
  | receive src buf tsMs =>
    obtain rfl := Option.some.inj h
    exact
      { total := by
          rw [totals, List.countP_append]
          exact hs.total
        counter := fun result => by
          rw [results, List.countP_append]
          exact hs.counter result
        logged := by
          rw [entries, List.filterMap_append]
          exact (List.append_nil (entries s.tasks)).symm ▸ hs.logged
        recent := hs.recent }
  | task i ta =>
    obtain ⟨t, hi, heffect⟩ := exists_task h
    exact hs.taskStep hcap hi heffect
  | syncDomains domains =>
    obtain rfl := Option.some.inj h
    exact ⟨hs.total, hs.counter, hs.logged, hs.recent⟩

/-! ## Runs -/

/-- When no task is under way, every task has counted in the total, and under one result. -/
lemma counts_of_isQuiet (h : s.IsQuiet) : totals s.tasks = s.tasks.length ∧
    results s.tasks .matched + results s.tasks .nxdomain + results s.tasks .forwarded = s.tasks.length ∧
      (entries s.tasks).length = s.tasks.length := by
  unfold totals results entries
  unfold Server.IsQuiet at h
  generalize s.tasks = tasks at h ⊢
  induction tasks with
  | nil => exact ⟨rfl, rfl, rfl⟩
  | cons t tasks ih =>
    obtain ⟨htotal, hresults, hentries⟩ := ih fun t' ht' => h t' (List.mem_cons_of_mem t ht')
    have ht := h t List.mem_cons_self
    cases hphase : t.phase with
    | done entry =>
      have hcounts : t.phase.hasTotal = true := by rw [hphase]; rfl
      have hresult : t.phase.result = some entry.result := by rw [hphase]; rfl
      have hentry : t.entry = some entry := by rw [Task.entry, hphase]
      simp only [List.countP_cons, List.filterMap_cons, List.length_cons, hcounts, hresult, hentry, htotal,
        hentries, if_true, true_and, and_true]
      cases entry.result <;> simp <;> omega
    | _ => simp [hphase, Phase.rank] at ht

/-- The counters of a sum. -/
lemma ofNat_add_add (m n k : ℕ) :
    UInt64.ofNat m + UInt64.ofNat n + UInt64.ofNat k = UInt64.ofNat (m + n + k) := by
  rw [UInt64.ofNat_add, UInt64.ofNat_add]

/-- In every run, for all datagrams and all that becomes of them, all tasks can come to their end, and
a snapshot of the ring has the entries that have been pushed last.  When all tasks have come to their
end, each of them has pushed one entry, the total and the sum of the three other counters are the
number of the datagrams, and a snapshot is as long as the limit, the capacity and the number allow. -/
theorem logged_once {as : List Action} (hcap : 0 < cfg.cap)
    (h : Trace (step cfg) Free (Server.start map) as s) :
    (∃ bs s', Trace (step cfg) Free s bs s' ∧ bs.filterMap Action.arrival = [] ∧ s'.IsQuiet) ∧
    (∀ limit, s.snapshot limit = s.logged.take (min limit cfg.cap)) ∧
    (s.IsQuiet →
      s.tasks.map Task.arrival = as.filterMap Action.arrival ∧
      s.logged.Perm (entries s.tasks) ∧
      ∀ n, n = (as.filterMap Action.arrival).length →
        s.logged.length = n ∧
        s.metrics.total = UInt64.ofNat n ∧
        s.metrics.matched + s.metrics.nxdomain + s.metrics.forwarded = UInt64.ofNat n ∧
        (n < 2 ^ 64 → s.metrics.total.toNat = n ∧
          s.metrics.matched.toNat + s.metrics.nxdomain.toNat + s.metrics.forwarded.toNat = n) ∧
        ∀ limit, (s.snapshot limit).length = min limit (min cfg.cap n)) := by
  have hlog : Logged cfg.cap s := by
    refine h.invariant (fun s a s' hs _ hst => hs.step hcap hst) ⟨rfl, ?_, .refl _, List.take_nil.symm⟩
    intro result
    cases result <;> rfl
  have hsnapshot : ∀ limit, s.snapshot limit = s.logged.take (min limit cfg.cap) := by
    intro limit
    rw [Server.snapshot, hlog.recent, List.take_take]
  refine ⟨exists_quiet cfg s, hsnapshot, fun hquiet => ?_⟩
  have harrivals : s.tasks.map Task.arrival = as.filterMap Action.arrival := arrivals_trace h
  obtain ⟨htotals, hresults, hentries⟩ := counts_of_isQuiet hquiet
  refine ⟨harrivals, hlog.logged, fun n hn => ?_⟩
  have htasks : s.tasks.length = n := by rw [hn, ← harrivals, List.length_map]
  have hlength : s.logged.length = n := by rw [hlog.logged.length_eq, hentries, htasks]
  rw [htasks] at htotals hresults
  have htotal : s.metrics.total = UInt64.ofNat n := by rw [hlog.total, htotals]
  have hmatched : s.metrics.matched = UInt64.ofNat (results s.tasks .matched) := hlog.counter .matched
  have hnxdomain : s.metrics.nxdomain = UInt64.ofNat (results s.tasks .nxdomain) :=
    hlog.counter .nxdomain
  have hforwarded : s.metrics.forwarded = UInt64.ofNat (results s.tasks .forwarded) :=
    hlog.counter .forwarded
  refine ⟨hlength, htotal, ?_, fun hlt => ⟨?_, ?_⟩, fun limit => ?_⟩
  · rw [hmatched, hnxdomain, hforwarded, ofNat_add_add, hresults]
  · rw [htotal, UInt64.toNat_ofNat_of_lt' hlt]
  · have hfits : ∀ m ≤ n, (UInt64.ofNat m).toNat = m := fun m hm =>
      UInt64.toNat_ofNat_of_lt' (lt_of_le_of_lt hm hlt)
    rw [hmatched, hnxdomain, hforwarded, hfits _ (by omega), hfits _ (by omega), hfits _ (by omega),
      hresults]
  · rw [hsnapshot, List.length_take, hlength]
    omega

/-! ## A sample run -/

/-- A datagram that is no query, and a query that is forwarded, which is logged first. -/
def loggingActions : List Action :=
  [.receive ⟨"10.0.0.7", 5353⟩ [0] 0, .receive ⟨"10.0.0.8", 5353⟩ sampleQuery 1, .task 0 .decode,
   .task 1 .decode, .task 1 (.bind true), .task 1 (.send true),
   .task 1 (.arrive ⟨⟨"8.8.8.8", 53⟩, [0x12, 0x34, 0x81, 5, 0, 0, 0, 0, 0, 0, 0, 0]⟩),
   .task 0 .countTotal, .task 1 (.relay true), .task 1 .countTotal, .task 1 .countResult, .task 1 (.push 9),
   .task 0 .countResult, .task 0 (.push 4000)]

/-- A ring of one entry holds the last of the two. -/
theorem logged_once_sample : ∃ s : Server, s.metrics.total = 2 ∧ s.metrics.nxdomain = 1 ∧
    s.metrics.forwarded = 1 ∧ s.logged.length = 2 ∧ (s.snapshot 10).length = 1 := by
  have hrun : ((run (step { sampleConfig with cap := 1 }) (Server.start fun _ => none) loggingActions).any
      fun s => decide (s.metrics = ⟨2, 0, 1, 1⟩ ∧ ∀ t ∈ s.tasks, t.phase.rank = 0)) = true := by
    decide +kernel
  obtain ⟨s, hs, hp⟩ := exists_trace_of_run hrun
  obtain ⟨hmetrics, hquiet⟩ := of_decide_eq_true hp
  obtain ⟨-, -, hend⟩ := logged_once Nat.one_pos hs
  obtain ⟨-, -, hcounts⟩ := hend hquiet
  obtain ⟨hlength, -, -, -, hsnapshot⟩ := hcounts 2 rfl
  exact ⟨s, by rw [hmetrics], by rw [hmetrics], by rw [hmetrics], hlength, hsnapshot 10⟩

end SmartSchoolCdn.Dns
