import SmartSchoolCdn.Admin.Database
import SmartSchoolCdn.Foundation.Totals
import SmartSchoolCdn.Foundation.Trace
import SmartSchoolCdn.Proxy.Counters
import Mathlib.Algebra.GroupWithZero.Nat
import Mathlib.Data.List.ProdSigma

/-!
# Collection of the counts

The proxy adds to the counters of a host, `stats_handler` swaps them to zero one by one, and the
collector of the admin server inserts the rows of the answer.  A step here is one atomic
operation on a counter, or the loop of the collector over one answer, which has no await in it.

An insertion that fails leaves the loop, and a row without requests is skipped whatever else it
counts.  A count is in the table, in its counter or in an unfinished tick exactly when no tick of
the run passes over a row that has some of it (`counts_conserved_iff`).
-/

namespace SmartSchoolCdn.Stats

open Tables Traces

/-! ## Rows -/

/-- An object in the answer of `stats_handler`, as `ProxyStat` of the collector reads it. -/
structure ProxyStat where
  host : String
  requests : ℕ
  cacheHits : ℕ
  cacheMisses : ℕ
  bandwidth : ℕ
  avgResponseTime : ℕ
  l1Hits : ℕ
  l2Hits : ℕ
  bypassMethod : ℕ
  bypassNocache : ℕ
  bypassSize : ℕ
  bypassOther : ℕ
  deriving DecidableEq, Repr

/-- The object of a host whose counters held `snap`. -/
def ProxyStat.ofSnapshot (host : String) (snap : DomainCounter) : ProxyStat where
  host := host
  requests := snap .requests
  cacheHits := snap .l1Hits + snap .l2Hits
  cacheMisses := snap .cacheMisses
  bandwidth := snap .bandwidth
  avgResponseTime := if 0 < snap .requests then snap .responseTimeSum / snap .requests else 0
  l1Hits := snap .l1Hits
  l2Hits := snap .l2Hits
  bypassMethod := snap .bypassMethod
  bypassNocache := snap .bypassNocache
  bypassSize := snap .bypassSize
  bypassOther := snap .bypassOther

/-- The row that the collector inserts. -/
def ProxyStat.row (stat : ProxyStat) (now : ℕ) : DomainStatsRow where
  host := stat.host
  timestamp := now
  requests := stat.requests
  cacheHits := stat.cacheHits
  cacheMisses := stat.cacheMisses
  bandwidth := stat.bandwidth
  avgResponseTime := stat.avgResponseTime
  l1Hits := stat.l1Hits
  l2Hits := stat.l2Hits
  bypassMethod := stat.bypassMethod
  bypassNocache := stat.bypassNocache
  bypassSize := stat.bypassSize
  bypassOther := stat.bypassOther

/-- The column of a counter; only the average of the response times has one. -/
def column (row : DomainStatsRow) : CounterField → ℕ
  | .requests => row.requests
  | .l1Hits => row.l1Hits
  | .l2Hits => row.l2Hits
  | .cacheMisses => row.cacheMisses
  | .bypassMethod => row.bypassMethod
  | .bypassNocache => row.bypassNocache
  | .bypassSize => row.bypassSize
  | .bypassOther => row.bypassOther
  | .bandwidth => row.bandwidth
  | .responseTimeSum => 0

/-- What a row of the table holds of a count. -/
def rowShare (host : String) (f : CounterField) (row : DomainStatsRow) : ℕ :=
  if row.host = host then column row f else 0

/-- What an object of an answer holds of a count. -/
def statShare (host : String) (f : CounterField) (stat : ProxyStat) : ℕ :=
  rowShare host f (stat.row 0)

/-! ## Counters -/

/-- `fetch_add` on a field of the counter of a host. -/
def fetchAdd (counters : String → DomainCounter) (host : String) (op : CounterField × ℕ) :
    String → DomainCounter :=
  Function.update counters host ((counters host).fetchAdd op)

/-- The additions of a call. -/
def fetchAll (counters : String → DomainCounter) (host : String) (ops : List (CounterField × ℕ)) :
    String → DomainCounter :=
  ops.foldl (fun counters op => fetchAdd counters host op) counters

/-- `swap(0)` on a field of the counter of a host. -/
def swapZero (counters : String → DomainCounter) (host : String) (f : CounterField) :
    String → DomainCounter :=
  Function.update counters host (Function.update (counters host) f 0)

/-! ## The system -/

/-- The swaps of `DomainCounter::take`, in their order. -/
def takeFields : List CounterField :=
  [.requests, .l1Hits, .l2Hits, .cacheMisses, .bypassMethod, .bypassNocache, .bypassSize,
    .bypassOther, .bandwidth, .responseTimeSum]

/-- A tick: the hosts in the order in which `stats_handler` visits them, what it has swapped out,
and the swaps it has left.  With none left the answer is on its way. -/
structure Tick where
  order : List String
  snap : String → DomainCounter
  left : List (String × CounterField)

/-- A tick whose poll has just taken the lock. -/
def Tick.start (order : List String) : Tick where
  order := order
  snap _ := DomainCounter.new
  left := order.product takeFields

/-- The objects of the answer. -/
def Tick.rows (tick : Tick) : List ProxyStat :=
  tick.order.map fun host => ProxyStat.ofSnapshot host (tick.snap host)

/-- The next swap has got `n` from a field of the counter of a host. -/
def Tick.take (tick : Tick) (host : String) (f : CounterField) (left : List (String × CounterField))
    (n : ℕ) : Tick :=
  { tick with
    snap := Function.update tick.snap host (Function.update (tick.snap host) f n)
    left := left }

/-- The counters of the proxy, whose map has an entry for each of `hosts`, the calls of
`record_domain_outcome` and the ticks under way, and the database of the admin server.  A call in
`waiting` has found no entry and waits for the write lock; one in `adding` holds the read lock.
The ghost `recorded` counts all additions. -/
structure State where
  db : Database
  hosts : List String
  counters : String → DomainCounter
  waiting : List OutcomeCall
  adding : List (String × List (CounterField × ℕ))
  ticks : List Tick
  recorded : String → DomainCounter

/-- The counts in the table. -/
def stored (db : Database) (host : String) (f : CounterField) : ℕ :=
  total (rowShare host f) db.domainStats.rows

/-- A proxy that has just started, beside a database. -/
def State.start (db : Database) : State where
  db := db
  hosts := []
  counters _ := DomainCounter.new
  waiting := []
  adding := []
  ticks := []
  recorded := stored db

/-- Nobody holds the read lock. -/
def State.unlocked (s : State) : Bool :=
  s.adding.all (fun call => call.2.isEmpty) && s.ticks.all fun tick => tick.left.isEmpty

/-- A call looks its host up, creates the entry under the write lock or makes its next addition;
a poll takes the read lock or makes its next swap; an answer reaches the collector. -/
inductive Action
  | record (call : OutcomeCall)
  | createEntry (i : ℕ)
  | add (i : ℕ)
  | poll (order : List String)
  | swap (i : ℕ)
  | collect (i now : ℕ)
  deriving DecidableEq, Repr

/-- The loop of `collect`: the exception of an insertion leaves it. -/
def collectStats (now : ℕ) : List ProxyStat → Database → Database
  | [], db => db
  | stat :: rest, db =>
    if stat.requests = 0 then collectStats now rest db
    else
      match db.insertStats (stat.row now) with
      | some db' => collectStats now rest db'
      | none => db

/-- One step. -/
def step (s : State) : Action → Option State
  | .record call =>
    if call.host ∈ s.hosts then some { s with adding := s.adding ++ [(call.host, call.ops)] }
    else some { s with waiting := s.waiting ++ [call] }
  | .createEntry i =>
    match s.waiting[i]? with
    | some call =>
      if s.unlocked then
        some
          { s with
            hosts := if call.host ∈ s.hosts then s.hosts else s.hosts ++ [call.host]
            counters := fetchAll s.counters call.host call.ops
            waiting := s.waiting.eraseIdx i
            recorded := fetchAll s.recorded call.host call.ops }
      else none
    | none => none
  | .add i =>
    match s.adding[i]? with
    | some (host, op :: ops) =>
      some
        { s with
          counters := fetchAdd s.counters host op
          adding := s.adding.set i (host, ops)
          recorded := fetchAdd s.recorded host op }
    | _ => none
  | .poll order =>
    if order.Perm s.hosts then some { s with ticks := s.ticks ++ [Tick.start order] } else none
  | .swap i =>
    match s.ticks[i]? with
    | some tick =>
      match tick.left with
      | (host, f) :: left =>
        some
          { s with
            counters := swapZero s.counters host f
            ticks := s.ticks.set i (tick.take host f left (s.counters host f)) }
      | [] => none
    | none => none
  | .collect i now =>
    match s.ticks[i]? with
    | some tick =>
      if tick.left = [] then
        some { s with db := collectStats now tick.rows s.db, ticks := s.ticks.eraseIdx i }
      else none
    | none => none

/-- The counts in unfinished ticks. -/
def State.unfinished (s : State) (host : String) (f : CounterField) : ℕ :=
  total (fun tick => total (statShare host f) tick.rows) s.ticks

/-- The counts in the table, in the counters and in unfinished ticks. -/
def State.held (s : State) (host : String) (f : CounterField) : ℕ :=
  stored s.db host f + s.counters host f + s.unfinished host f

/-- The collector gets to a row and inserts it: the row counts requests, its host is a domain,
and so are the hosts of all rows before it that count requests. -/
def Reached (db : Database) (before : List ProxyStat) (stat : ProxyStat) : Prop :=
  stat.requests ≠ 0 ∧ ∀ r ∈ before ++ [stat], r.requests ≠ 0 → (db.domains.find r.host).isSome

/-- When an answer reaches the collector, it inserts every row that has some of a count. -/
def Kept (host : String) (f : CounterField) (s : State) : Action → Prop
  | .collect i _ => ∀ tick, s.ticks[i]? = some tick → ∀ before stat after,
      tick.rows = before ++ stat :: after → statShare host f stat ≠ 0 → Reached s.db before stat
  | _ => True

/-! ## Additions -/

/-- Two counters of which the same is added differ as before. -/
lemma fetchAdd_add (m m' : String → DomainCounter) (h : String) (op : CounterField × ℕ)
    (host : String) (f : CounterField) :
    fetchAdd m h op host f + m' host f = m host f + fetchAdd m' h op host f := by
  by_cases hhost : host = h
  · subst hhost
    by_cases hf : f = op.1
    · subst hf
      simp only [fetchAdd, DomainCounter.fetchAdd, Function.update_self]
      omega
    · simp only [fetchAdd, DomainCounter.fetchAdd, Function.update_self, Function.update_of_ne hf]
  · simp only [fetchAdd, Function.update_of_ne hhost]

lemma fetchAll_add (ops : List (CounterField × ℕ)) (m m' : String → DomainCounter) (h : String)
    (host : String) (f : CounterField) :
    fetchAll m h ops host f + m' host f = m host f + fetchAll m' h ops host f := by
  induction ops generalizing m m' with
  | nil => simp [fetchAll]
  | cons op ops ih =>
    have hop := fetchAdd_add m m' h op host f
    have hops := ih (fetchAdd m h op) (fetchAdd m' h op)
    simp only [fetchAll, List.foldl_cons] at hops ⊢
    omega

/-! ## Polls -/

/-- What a tick has not swapped out yet it does not hold, and it visits no host twice. -/
structure Tick.Fresh (tick : Tick) : Prop where
  order_nodup : tick.order.Nodup
  left_nodup : tick.left.Nodup
  left_order : ∀ x ∈ tick.left, x.1 ∈ tick.order
  left_zero : ∀ x ∈ tick.left, tick.snap x.1 x.2 = 0

/-- A poll that has just taken the lock. -/
lemma fresh_start {order : List String} (h : order.Nodup) : (Tick.start order).Fresh where
  order_nodup := h
  left_nodup := h.product (by decide)
  left_order _ hx := (List.mem_product.mp hx).1
  left_zero _ _ := rfl

/-- A swap. -/
lemma fresh_take {tick : Tick} {host : String} {f : CounterField}
    {left : List (String × CounterField)} {n : ℕ} (h : tick.Fresh)
    (hleft : tick.left = (host, f) :: left) : (tick.take host f left n).Fresh where
  order_nodup := h.order_nodup
  left_nodup := by
    have hnodup := h.left_nodup
    rw [hleft, List.nodup_cons] at hnodup
    exact hnodup.2
  left_order x hx := h.left_order x (by rw [hleft]; exact List.mem_cons_of_mem _ hx)
  left_zero := by
    rintro ⟨h', f'⟩ hx
    have hnodup := h.left_nodup
    rw [hleft, List.nodup_cons] at hnodup
    have hzero := h.left_zero (h', f') (by rw [hleft]; exact List.mem_cons_of_mem _ hx)
    by_cases hh : h' = host
    · subst hh
      have hf : f' ≠ f := by
        rintro rfl
        exact hnodup.1 hx
      simpa [Tick.take, Function.update_of_ne hf] using hzero
    · simpa [Tick.take, Function.update_of_ne hh] using hzero

/-- The count of a host in its own object. -/
lemma statShare_ofSnapshot {f : CounterField} (hf : f ≠ .responseTimeSum) (host h : String)
    (snap : DomainCounter) :
    statShare host f (ProxyStat.ofSnapshot h snap) = if h = host then snap f else 0 := by
  unfold statShare rowShare
  cases f with
  | responseTimeSum => exact absurd rfl hf
  | _ => rfl

/-- The answer holds what has been swapped out. -/
lemma total_rows {tick : Tick} {f : CounterField} (hf : f ≠ .responseTimeSum)
    (h : tick.order.Nodup) (host : String) :
    total (statShare host f) tick.rows = if host ∈ tick.order then tick.snap host f else 0 := by
  have hshare : (statShare host f) ∘ (fun h => ProxyStat.ofSnapshot h (tick.snap h)) =
      fun h => if h = host then tick.snap host f else 0 := by
    funext h
    rw [Function.comp_apply, statShare_ofSnapshot hf]
    split
    · rename_i heq
      rw [heq]
    · rfl
  rw [← total_ite_eq h, Tick.rows, total, List.map_map, hshare, total]

/-- A swap moves a count from its counter into the tick. -/
lemma total_rows_take {tick : Tick} {h : String} {f' : CounterField}
    {left : List (String × CounterField)} (counters : String → DomainCounter) {f : CounterField}
    (hf : f ≠ .responseTimeSum) (hfresh : tick.Fresh) (hleft : tick.left = (h, f') :: left)
    (host : String) :
    swapZero counters h f' host f + total (statShare host f) (tick.take h f' left (counters h f')).rows =
      counters host f + total (statShare host f) tick.rows := by
  have hhead : (h, f') ∈ tick.left := by
    rw [hleft]
    exact List.mem_cons_self
  rw [total_rows hf (fresh_take hfresh hleft).order_nodup, total_rows hf hfresh.order_nodup]
  by_cases hhost : host = h
  · subst hhost
    have hmem := hfresh.left_order _ hhead
    by_cases hff : f = f'
    · subst hff
      have hzero := hfresh.left_zero _ hhead
      simp only at hzero
      simp [swapZero, Tick.take, hmem, hzero]
    · simp [swapZero, Tick.take, Function.update_of_ne hff]
  · simp [swapZero, Tick.take, Function.update_of_ne hhost]

/-! ## Insertions -/

variable {db db' : Database} {host : String} {f : CounterField}

/-- An insertion that succeeds adds the counts of its row. -/
lemma stored_insertStats {row : DomainStatsRow} (h : db.insertStats row = some db') (host : String)
    (f : CounterField) :
    db'.domains = db.domains ∧ stored db' host f = stored db host f + rowShare host f row := by
  unfold Database.insertStats at h
  split at h
  · obtain rfl := Option.some.inj h
    refine ⟨rfl, total_upsert _ fun old hkey => ?_⟩
    have hhost : old.host = row.host := congrArg Prod.fst hkey
    unfold rowShare
    by_cases hrow : row.host = host
    · have hold : (Database.accumulate row old).host = host := hhost.trans hrow
      rw [if_pos hold, if_pos (hhost.trans hrow), if_pos hrow]
      cases f <;> rfl
    · have hold : ¬ (Database.accumulate row old).host = host := fun heq => hrow (hhost.symm.trans heq)
      rw [if_neg hold, if_neg fun heq => hrow (hhost.symm.trans heq), if_neg hrow]
  · cases h

/-- An insertion fails when its host is no domain. -/
lemma insertStats_isSome (db : Database) (row : DomainStatsRow) :
    (db.insertStats row).isSome = (db.domains.find row.host).isSome := by
  unfold Database.insertStats
  cases (db.domains.find row.host).isSome <;> rfl

/-- The rows of an answer that the collector passes over: those without requests, and all from
the first on that is of no domain. -/
def passedOver (db : Database) : List ProxyStat → List ProxyStat
  | [] => []
  | stat :: rest =>
    if stat.requests = 0 then stat :: passedOver db rest
    else if (db.domains.find stat.host).isSome then passedOver db rest
    else stat :: rest

/-- The loop adds the counts of the rows it does not pass over. -/
lemma stored_collectStats (now : ℕ) (rows : List ProxyStat) {base : Database}
    (hbase : db.domains = base.domains) (host : String) (f : CounterField) :
    stored (collectStats now rows db) host f + total (statShare host f) (passedOver base rows) =
      stored db host f + total (statShare host f) rows := by
  induction rows generalizing db with
  | nil => rfl
  | cons stat rest ih =>
    have hsome := insertStats_isSome db (stat.row now)
    rw [hbase] at hsome
    unfold collectStats passedOver
    by_cases hreq : stat.requests = 0
    · have hrest := ih hbase
      rw [if_pos hreq, if_pos hreq, total_cons, total_cons]
      omega
    · rw [if_neg hreq, if_neg hreq]
      cases hinsert : db.insertStats (stat.row now) with
      | none =>
        rw [hinsert] at hsome
        have hnone : ¬ (base.domains.find stat.host).isSome = true := by
          rw [show base.domains.find stat.host = base.domains.find (stat.row now).host from rfl, ← hsome]
          simp
        rw [if_neg hnone]
      | some db' =>
        rw [hinsert] at hsome
        obtain ⟨hdomains, hstored⟩ := stored_insertStats hinsert host f
        have hrest := ih (hdomains.trans hbase)
        have hshare : rowShare host f (stat.row now) = statShare host f stat := by
          cases f <;> rfl
        rw [if_pos (show (base.domains.find stat.host).isSome = true from hsome.symm), total_cons]
        dsimp only
        omega

/-- The property of every item of a list beside the items before it. -/
lemma forall_split_cons {α : Type*} {P : List α → α → Prop} {y : α} {l : List α} :
    (∀ before x after, y :: l = before ++ x :: after → P before x) ↔
      P [] y ∧ ∀ before x after, l = before ++ x :: after → P (y :: before) x := by
  constructor
  · intro h
    exact ⟨h [] y l rfl, fun before x after hl => h (y :: before) x after (by rw [hl]; rfl)⟩
  · rintro ⟨hy, hl⟩ before x after heq
    cases before with
    | nil =>
      obtain ⟨rfl, -⟩ := List.cons.inj heq
      exact hy
    | cons z before =>
      obtain ⟨rfl, hrest⟩ := List.cons.inj heq
      exact hl before x after hrest

/-- None of a count is passed over when the collector gets to every row that has some of it. -/
lemma passedOver_eq_zero (rows : List ProxyStat) :
    total (statShare host f) (passedOver db rows) = 0 ↔
      ∀ before stat after, rows = before ++ stat :: after → statShare host f stat ≠ 0 →
        Reached db before stat := by
  induction rows with
  | nil => simp [passedOver]
  | cons stat rest ih =>
    rw [forall_split_cons]
    unfold passedOver
    by_cases hreq : stat.requests = 0
    · -- the row is skipped, and what follows it is reached as without it
      have hhead : (statShare host f stat ≠ 0 → Reached db [] stat) ↔ statShare host f stat = 0 := by
        constructor
        · intro h
          by_contra hshare
          exact (h hshare).1 hreq
        · intro h hshare
          exact absurd h hshare
      have hrest : ∀ before r, Reached db (stat :: before) r ↔ Reached db before r := by
        intro before r
        simp [Reached, hreq]
      simp only [if_pos hreq, total_cons, Nat.add_eq_zero_iff, hhead, hrest, ih]
    · by_cases hdomain : (db.domains.find stat.host).isSome = true
      · have hhead : Reached db [] stat := ⟨hreq, by simpa using fun _ => hdomain⟩
        have hrest : ∀ before r, Reached db (stat :: before) r ↔ Reached db before r := by
          intro before r
          simp [Reached, hdomain]
        simp only [if_neg hreq, if_pos hdomain, hhead, hrest, ih, implies_true, true_and]
      · -- the insertion fails, and no row after it is reached
        have hhead : ¬ Reached db [] stat := fun h => hdomain (h.2 stat (by simp) hreq)
        have hrest : ∀ before r, ¬ Reached db (stat :: before) r :=
          fun before r h => hdomain (h.2 stat (by simp) hreq)
        rw [if_neg hreq, if_neg hdomain]
        constructor
        · intro hzero
          rw [total_cons] at hzero
          refine ⟨fun hshare => absurd ?_ hshare, fun before r after hl hshare => absurd ?_ hshare⟩
          · omega
          · rw [hl, total_append, total_cons] at hzero
            omega
        · rintro ⟨hshare, hshares⟩
          refine total_eq_zero fun r hr => ?_
          rcases List.mem_cons.mp hr with rfl | hr
          · by_contra hne
            exact hhead (hshare hne)
          · obtain ⟨before, after, hl⟩ := List.append_of_mem hr
            by_contra hne
            exact hrest before r (hshares before r after hl hne)

/-! ## Steps -/

/-- What the collector passes over in a step. -/
def lost (s : State) (host : String) (f : CounterField) : Action → ℕ
  | .collect i _ => ((s.ticks[i]?).map fun tick =>
      total (statShare host f) (passedOver s.db tick.rows)).getD 0
  | _ => 0

/-- A step loses none of a count when it keeps it. -/
lemma lost_eq_zero {s : State} {a : Action} : lost s host f a = 0 ↔ Kept host f s a := by
  cases a with
  | collect i now =>
    cases htick : s.ticks[i]? with
    | none => simp [lost, Kept, htick]
    | some tick => simp [lost, Kept, htick, passedOver_eq_zero]
  | _ => simp [lost, Kept]

/-- The hosts of the map are distinct, and every tick is in order. -/
structure Inv (s : State) : Prop where
  hosts_nodup : s.hosts.Nodup
  fresh : ∀ tick ∈ s.ticks, tick.Fresh

lemma inv_start (db : Database) : Inv (State.start db) where
  hosts_nodup := List.nodup_nil
  fresh := by simp [State.start]

variable {s s' : State} {a : Action}

/-- What an action can do. -/
inductive Effect (s : State) : Action → State → Prop
  | found (call : OutcomeCall) :
      Effect s (.record call) { s with adding := s.adding ++ [(call.host, call.ops)] }
  | missing (call : OutcomeCall) : Effect s (.record call) { s with waiting := s.waiting ++ [call] }
  | createEntry (i : ℕ) (call : OutcomeCall) :
      Effect s (.createEntry i)
        { s with
          hosts := if call.host ∈ s.hosts then s.hosts else s.hosts ++ [call.host]
          counters := fetchAll s.counters call.host call.ops
          waiting := s.waiting.eraseIdx i
          recorded := fetchAll s.recorded call.host call.ops }
  | add (i : ℕ) (host : String) (op : CounterField × ℕ) (ops : List (CounterField × ℕ)) :
      Effect s (.add i)
        { s with
          counters := fetchAdd s.counters host op
          adding := s.adding.set i (host, ops)
          recorded := fetchAdd s.recorded host op }
  | poll (order : List String) (horder : order.Perm s.hosts) :
      Effect s (.poll order) { s with ticks := s.ticks ++ [Tick.start order] }
  | swap (i : ℕ) (tick : Tick) (htick : s.ticks[i]? = some tick) (host : String) (f : CounterField)
      (left : List (String × CounterField)) (hleft : tick.left = (host, f) :: left) :
      Effect s (.swap i)
        { s with
          counters := swapZero s.counters host f
          ticks := s.ticks.set i (tick.take host f left (s.counters host f)) }
  | collect (i now : ℕ) (tick : Tick) (htick : s.ticks[i]? = some tick) :
      Effect s (.collect i now)
        { s with db := collectStats now tick.rows s.db, ticks := s.ticks.eraseIdx i }

/-- Everything that a step can do. -/
lemma step_effect (h : step s a = some s') : Effect s a s' := by
  cases a with
  | record call =>
    simp only [step] at h
    split at h
    · obtain rfl := Option.some.inj h
      exact .found call
    · obtain rfl := Option.some.inj h
      exact .missing call
  | createEntry i =>
    simp only [step] at h
    split at h
    · split at h
      · obtain rfl := Option.some.inj h
        exact .createEntry i _
      · cases h
    · cases h
  | add i =>
    simp only [step] at h
    split at h
    · obtain rfl := Option.some.inj h
      exact .add i _ _ _
    · cases h
  | poll order =>
    simp only [step] at h
    split at h
    · rename_i horder
      obtain rfl := Option.some.inj h
      exact .poll order horder
    · cases h
  | swap i =>
    simp only [step] at h
    split at h
    · rename_i tick htick
      split at h
      · rename_i host f left hleft
        obtain rfl := Option.some.inj h
        exact .swap i tick htick host f left hleft
      · cases h
    · cases h
  | collect i now =>
    simp only [step] at h
    split at h
    · rename_i tick htick
      split at h
      · obtain rfl := Option.some.inj h
        exact .collect i now tick htick
      · cases h
    · cases h

/-- A step keeps the invariant. -/
lemma inv_step (hs : Inv s) (h : step s a = some s') : Inv s' := by
  cases step_effect h with
  | found call => exact ⟨hs.hosts_nodup, hs.fresh⟩
  | missing call => exact ⟨hs.hosts_nodup, hs.fresh⟩
  | createEntry i call =>
    refine ⟨?_, hs.fresh⟩
    by_cases hmem : call.host ∈ s.hosts
    · rw [if_pos hmem]
      exact hs.hosts_nodup
    · rw [if_neg hmem, List.nodup_append]
      refine ⟨hs.hosts_nodup, List.nodup_singleton _, ?_⟩
      rintro h hh _ hc rfl
      exact hmem (List.mem_singleton.mp hc ▸ hh)
  | add i host op ops => exact ⟨hs.hosts_nodup, hs.fresh⟩
  | poll order horder =>
    refine ⟨hs.hosts_nodup, fun tick htick => ?_⟩
    rcases List.mem_append.mp htick with htick | htick
    · exact hs.fresh tick htick
    · obtain rfl := List.mem_singleton.mp htick
      exact fresh_start (horder.nodup_iff.mpr hs.hosts_nodup)
  | swap i tick htick host f left hleft =>
    refine ⟨hs.hosts_nodup, fun tick' htick' => ?_⟩
    rcases List.mem_or_eq_of_mem_set htick' with hold | rfl
    · exact hs.fresh tick' hold
    · exact fresh_take (hs.fresh tick (List.mem_of_getElem? htick)) hleft
  | collect i now tick htick =>
    exact ⟨hs.hosts_nodup, fun tick htick => hs.fresh tick (List.mem_of_mem_eraseIdx htick)⟩

/-- What a step adds to a count it records, but for what the collector passes over. -/
lemma step_balance (host : String) (hf : f ≠ .responseTimeSum) (hs : Inv s) (h : step s a = some s') :
    s'.held host f + lost s host f a + s.recorded host f = s.held host f + s'.recorded host f := by
  unfold State.held State.unfinished
  cases step_effect h with
  | found call => rfl
  | missing call => rfl
  | createEntry i call =>
    have hadd := fetchAll_add call.ops s.counters s.recorded call.host host f
    simp only [lost]
    omega
  | add i h' op ops =>
    have hadd := fetchAdd_add s.counters s.recorded h' op host f
    simp only [lost]
    omega
  | poll order horder =>
    have hzero : total (statShare host f) (Tick.start order).rows = 0 := by
      rw [total_rows hf (horder.nodup_iff.mpr hs.hosts_nodup)]
      exact ite_self 0
    rw [total_append, total_cons, total_nil, hzero]
    rfl
  | swap i tick htick h' f' left hleft =>
    have hset := total_set (g := fun tick => total (statShare host f) tick.rows)
      (y := tick.take h' f' left (s.counters h' f')) htick
    have htake := total_rows_take s.counters hf (hs.fresh tick (List.mem_of_getElem? htick)) hleft host
    simp only [lost]
    omega
  | collect i now tick htick =>
    have herase := total_eraseIdx (g := fun tick => total (statShare host f) tick.rows) htick
    have hcollect := stored_collectStats now tick.rows (Eq.refl s.db.domains) host f
    simp only [lost, htick, Option.map_some, Option.getD_some]
    omega

/-- The invariant, and no count is held that was not recorded. -/
def Bounded (host : String) (f : CounterField) (s : State) : Prop :=
  Inv s ∧ s.held host f ≤ s.recorded host f

lemma bounded_step (hf : f ≠ .responseTimeSum) (hs : Bounded host f s) (h : step s a = some s') :
    Bounded host f s' := by
  obtain ⟨hinv, hle⟩ := hs
  have hbalance := step_balance host hf hinv h
  exact ⟨inv_step hinv h, by omega⟩

/-- In no run is a count twice in the table, its counter and the unfinished ticks. -/
theorem held_le_recorded {start : Database} {as : List Action} (hf : f ≠ .responseTimeSum)
    (h : Trace step Free (State.start start) as s) : s.held host f ≤ s.recorded host f := by
  have hend : Bounded host f s :=
    h.invariant (fun _ _ _ hs _ hstep => bounded_step hf hs hstep) ⟨inv_start start, Nat.le_refl _⟩
  exact hend.2

/-- A count is in the table, in its counter or in an unfinished tick exactly when at every answer
that reaches the collector each row with some of it is reached. -/
theorem counts_conserved_iff {start : Database} {as : List Action} {s : State}
    (h : Trace step Free (State.start start) as s) (host : String) {f : CounterField}
    (hf : f ≠ .responseTimeSum) :
    stored s.db host f + s.counters host f + s.unfinished host f = s.recorded host f ↔
      Trace step (Kept host f) (State.start start) as s := by
  constructor
  · intro hend
    -- what is lost once is missing at the end
    refine (h.retrace (I := Bounded host f) (P := fun s => s.held host f = s.recorded host f)
      (fun _ _ _ hs hstep => bounded_step hf hs hstep) ?_ ⟨inv_start start, Nat.le_refl _⟩ hend).2
    rintro s a s' ⟨hs, hle⟩ hstep hs'
    have hbalance := step_balance host hf hs hstep
    have hlost : lost s host f a = 0 := by omega
    exact ⟨by omega, lost_eq_zero.mp hlost⟩
  · intro hkept
    have hend : Inv s ∧ s.held host f = s.recorded host f := by
      refine hkept.invariant (I := fun s => Inv s ∧ s.held host f = s.recorded host f) ?_
        ⟨inv_start start, rfl⟩
      rintro s a s' ⟨hs, heq⟩ hC hstep
      have hbalance := step_balance host hf hs hstep
      have hlost := lost_eq_zero.mpr hC
      exact ⟨inv_step hs hstep, by omega⟩
    exact hend.2

/-! ## Sample runs -/

/-- Two domains, one of them a wildcard. -/
def sampleDb : Database :=
  Database.ofDomains
    (((Table.empty.insertNew
      { host := "a.kr", origin := "http://10.0.0.1", createdAt := 1, updatedAt := 1 }).insertNew
      { host := "*.b.kr", origin := "http://10.0.0.2", createdAt := 1, updatedAt := 1 }))

/-- A request that is answered from memory. -/
def hitCall (host : String) : OutcomeCall where
  rid := 0
  host := host
  outcome := .l1Hit
  bandwidth := 100
  responseTimeMs := 3

/-- A poll from its first swap to the insertion of its answer. -/
def pollOf (order : List String) (now : ℕ) : List Action :=
  .poll order :: (List.replicate (10 * order.length) (.swap 0) ++ [.collect 0 now])

/-- The row of a subdomain of the wildcard comes first, and its insertion fails. -/
def wildcardRun : List Action :=
  [.record (hitCall "x.b.kr"), .createEntry 0, .record (hitCall "a.kr"), .createEntry 0]
    ++ pollOf ["x.b.kr", "a.kr"] 60

/-- A poll comes between the first addition of a call and the others. -/
def splitRun : List Action :=
  [.record (hitCall "a.kr"), .createEntry 0, .record (hitCall "a.kr"), .add 0]
    ++ pollOf ["a.kr"] 60 ++ [.add 0, .add 0, .add 0] ++ pollOf ["a.kr"] 120

/-- The run without the wildcard. -/
def plainRun : List Action :=
  [.record (hitCall "a.kr"), .createEntry 0, .record (hitCall "a.kr"), .add 0, .add 0, .add 0, .add 0]
    ++ pollOf ["a.kr"] 60

/-- A registered domain loses counts by the row of another host, and by a row that is skipped. -/
theorem counts_lost : [wildcardRun, splitRun].Forall fun as =>
    ∃ s, Trace step Free (State.start sampleDb) as s ∧ (sampleDb.domains.find "a.kr").isSome ∧
      stored s.db "a.kr" .l1Hits + s.counters "a.kr" .l1Hits + s.unfinished "a.kr" .l1Hits ≠
        s.recorded "a.kr" .l1Hits := by
  rw [List.forall_iff_forall_mem]
  have hrun : ∀ as ∈ [wildcardRun, splitRun], ((run step (State.start sampleDb) as).any fun s =>
      decide (stored s.db "a.kr" .l1Hits + s.counters "a.kr" .l1Hits + s.unfinished "a.kr" .l1Hits ≠
        s.recorded "a.kr" .l1Hits)) = true := by
    decide +kernel
  intro as has
  obtain ⟨s, hs, hne⟩ := exists_trace_of_run (hrun as has)
  exact ⟨s, hs, by decide, of_decide_eq_true hne⟩

/-- The rows of the run without the wildcard are reached. -/
theorem plain_run_kept : ∃ s, Trace step (Kept "a.kr" .l1Hits) (State.start sampleDb) plainRun s ∧
    stored s.db "a.kr" .l1Hits = 2 := by
  have hrun : ((run step (State.start sampleDb) plainRun).any fun s =>
      decide (stored s.db "a.kr" .l1Hits = 2 ∧
        stored s.db "a.kr" .l1Hits + s.counters "a.kr" .l1Hits + s.unfinished "a.kr" .l1Hits =
          s.recorded "a.kr" .l1Hits)) = true := by
    decide +kernel
  obtain ⟨s, hs, hp⟩ := exists_trace_of_run hrun
  obtain ⟨hstored, hsum⟩ := of_decide_eq_true hp
  exact ⟨s, (counts_conserved_iff hs "a.kr" (by decide)).mp hsum, hstored⟩

end SmartSchoolCdn.Stats
