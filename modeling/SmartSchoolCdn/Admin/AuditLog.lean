import SmartSchoolCdn.Admin.UserPages

/-!
# The audit log

`AuditRepository` and `GET /api/audit`.  Entries are only ever added, and an entry that cannot be
written is left out without disturbing the action that it is about.  The list is read in pages from the
newest entry on, by offsets, while entries come in; these move the older ones back, so that a reader sees
some of them twice but misses none (`audit_pages_complete`).
-/

namespace SmartSchoolCdn.Audit

open Tables Ranking

/-! ## The repository -/

/-- What the routes use of `JSON` and `Number`; a value that cannot be serialised, a text that is no
JSON and a text that is no finite number have none. -/
structure JsonRuntime (α : Type) where
  stringify : α → Option String
  parse : String → Option α
  number : String → Option ℚ

/-- `AuditLogInput`. -/
structure AuditLogInput (α : Type) where
  actorUserId : Option ℕ := none
  actorIp : Option String := none
  action : String
  targetType : String
  targetId : Option String := none
  before : Option α := none
  after : Option α := none

/-- `AuditLogRow`, with all its columns. -/
structure AuditLogRow where
  id : ℕ
  actorUserId : Option ℕ
  actorIp : Option String
  action : String
  targetType : String
  targetId : Option String
  beforeJson : Option String
  afterJson : Option String
  createdAt : ℕ
  deriving DecidableEq, Repr

/-- `audit_logs`; `sequence` is what `AUTOINCREMENT` remembers. -/
structure AuditLog where
  table : Table AuditLogRow.id
  sequence : ℕ
  below : ∀ row ∈ table.rows, row.id ≤ sequence

/-- `AuditQuery`. -/
structure AuditQuery where
  action : Option String := none
  actorUserId : Option ℚ := none
  targetType : Option String := none
  targetId : Option String := none
  fromSec : Option ℚ := none
  toSec : Option ℚ := none
  limit : Option ℚ := none
  offset : Option ℚ := none
  deriving DecidableEq

/-- `AuditListResult`. -/
structure AuditListResult where
  rows : List AuditLogRow
  total : ℕ
  deriving DecidableEq, Repr

namespace AuditLog

/-- The table before any entry. -/
def empty : AuditLog := ⟨Table.empty, 0, by simp [Table.empty]⟩

/-- A row with the next number. -/
def add (log : AuditLog) (row : AuditLogRow) : AuditLog where
  table :=
    { rows := log.table.rows ++ [{ row with id := log.sequence + 1 }]
      keys_nodup := by
        rw [List.map_append, List.nodup_append]
        refine ⟨log.table.keys_nodup, List.nodup_singleton _, ?_⟩
        rintro id hid id' hid' rfl
        obtain ⟨old, hold, rfl⟩ := List.mem_map.mp hid
        have hnew : old.id = log.sequence + 1 := by simpa using hid'
        have := log.below old hold
        omega }
  sequence := log.sequence + 1
  below := by
    intro row hrow
    rcases List.mem_append.mp hrow with hold | hnew
    · exact Nat.le_succ_of_le (log.below row hold)
    · rw [List.mem_singleton.mp hnew]

/-- `insert` at a time in milliseconds.  Where a value cannot be serialised or the database does not
execute the statement, nothing is written. -/
def insert {α : Type} (js : JsonRuntime α) (now : ℕ) (executes : Bool) (input : AuditLogInput α)
    (log : AuditLog) : AuditLog :=
  match input.before.mapM js.stringify, input.after.mapM js.stringify, executes with
  | some beforeJson, some afterJson, true =>
    log.add
      { id := 0
        actorUserId := input.actorUserId
        actorIp := input.actorIp
        action := input.action
        targetType := input.targetType
        targetId := input.targetId
        beforeJson := beforeJson
        afterJson := afterJson
        createdAt := now / 1000 }
  | _, _, _ => log

end AuditLog

namespace AuditQuery

variable (q : AuditQuery)

/-- The condition `WHERE`; an empty text puts no condition, and `NULL` meets none. -/
def selects (row : AuditLogRow) : Bool :=
  (q.action.filter (· != "")).all (· == row.action)
    && q.actorUserId.all (fun actor => row.actorUserId.any fun id => decide ((id : ℚ) = actor))
    && (q.targetType.filter (· != "")).all (· == row.targetType)
    && (q.targetId.filter (· != "")).all (fun target => row.targetId == some target)
    && q.fromSec.all (fun sec : ℚ => decide (sec ≤ (row.createdAt : ℚ)))
    && q.toSec.all (fun sec : ℚ => decide ((row.createdAt : ℚ) ≤ sec))

/-- The limit: at most 1000, and 50 where it is not positive. -/
def safeLimit : ℕ := (q.limit.filter fun limit => 0 < limit).elim 50 fun limit => min 1000 limit.floor.toNat

/-- The offset: 0 where it is negative. -/
def safeOffset : ℕ := (q.offset.filter fun offset => 0 ≤ offset).elim 0 fun offset => offset.floor.toNat

end AuditQuery

/-- `ORDER BY created_at DESC, id DESC`. -/
def auditOrder : Comparison AuditLogRow :=
  (Comparison.column AuditLogRow.createdAt).descending.thenBy (Comparison.column AuditLogRow.id).descending

/-- `query`. -/
def AuditLog.query (log : AuditLog) (q : AuditQuery) : AuditListResult where
  rows := page q.safeLimit q.safeOffset (auditOrder.sort (log.table.rows.filter q.selects))
  total := log.table.rows.countP q.selects

/-! ## The route -/

/-- `z.string().min(1).optional()` on the values of a parameter; `none` where they are refused. -/
def stringField : List String → Option (Option String)
  | [] => some none
  | [value] => if value = "" then none else some (some value)
  | _ => none

/-- `z.coerce.number().int()` with bounds, optional: a parameter that is given twice is no number. -/
def intField {α : Type} (js : JsonRuntime α) (min : ℕ) (max : Option ℕ) : List String → Option (Option ℚ)
  | [] => some none
  | [value] =>
    ((js.number value).filter fun n : ℚ =>
      decide (n.den = 1) && decide ((min : ℚ) ≤ n) && max.all fun bound : ℕ => decide (n ≤ (bound : ℚ))).map some
  | _ => none

/-- `querySchema`. -/
def auditQuerySchema {α : Type} (js : JsonRuntime α) (param : String → List String) : Option AuditQuery := do
  let action ← stringField (param "action")
  let actorUserId ← intField js 1 none (param "actor_user_id")
  let targetType ← stringField (param "target_type")
  let targetId ← stringField (param "target_id")
  let fromSec ← intField js 0 none (param "from")
  let toSec ← intField js 0 none (param "to")
  let limit ← intField js 1 (some 1000) (param "limit")
  let offset ← intField js 0 none (param "offset")
  return {
    action := action
    actorUserId := actorUserId
    targetType := targetType
    targetId := targetId
    fromSec := fromSec
    toSec := toSec
    limit := some (limit.getD 50)
    offset := some (offset.getD 0) }

/-- A column of the answer: the value that was recorded, or its text where that is no JSON. -/
inductive AuditValue (α : Type)
  | null
  | value (a : α)
  | text (s : String)
  deriving DecidableEq

/-- `safeParse`. -/
def safeParse {α : Type} (js : JsonRuntime α) (s : String) : AuditValue α :=
  match js.parse s with
  | some a => .value a
  | none => .text s

/-- An entry of the answer. -/
structure AuditItem (α : Type) where
  row : AuditLogRow
  before : AuditValue α
  after : AuditValue α
  deriving DecidableEq

/-- An entry of the answer for a row. -/
def AuditLogRow.item {α : Type} (js : JsonRuntime α) (row : AuditLogRow) : AuditItem α :=
  let shown (column : Option String) : AuditValue α :=
    (column.filter (· != "")).elim .null (safeParse js)
  { row := row, before := shown row.beforeJson, after := shown row.afterJson }

/-- `GET /api/audit`: the entries of a page and the number of all, or nothing where the parameters are
refused. -/
def auditRoute {α : Type} (js : JsonRuntime α) (param : String → List String) (log : AuditLog) :
    Option (List (AuditItem α) × ℕ) :=
  (auditQuerySchema js param).map fun q =>
    ((log.query q).rows.map (AuditLogRow.item js), (log.query q).total)

/-! ## The order of the entries -/

variable {α : Type} {js : JsonRuntime α} {log : AuditLog} {q : AuditQuery}

/-- No two entries are tied. -/
lemma AuditLog.eq_of_tie {a b : AuditLogRow} (ha : a ∈ log.table.rows) (hb : b ∈ log.table.rows)
    (hab : auditOrder.le a b = true) (hba : auditOrder.le b a = true) : a = b := by
  obtain ⟨hid, hid'⟩ := Comparison.tie_thenBy hab hba
  exact List.inj_on_of_nodup_map log.table.keys_nodup ha hb (Comparison.tie_column hid' hid)

/-- The entries that meet the conditions have one ranking, so that the answer of the database is
determined. -/
lemma AuditLog.ranking_unique {ranked : List AuditLogRow}
    (h : auditOrder.IsRanking (log.table.rows.filter q.selects) ranked) :
    ranked = auditOrder.sort (log.table.rows.filter q.selects) :=
  h.unique (fun _ ha _ hb => log.eq_of_tie (List.mem_of_mem_filter ha) (List.mem_of_mem_filter hb))
    Comparison.isRanking_sort

/-! ## Entries come in -/

/-- What is recorded at a time, and whether the database executes the statement. -/
structure AuditInsert (α : Type) where
  input : AuditLogInput α
  now : ℕ
  executes : Bool

/-- Record one thing after the other. -/
def AuditLog.insertAll (js : JsonRuntime α) (log : AuditLog) (inserts : List (AuditInsert α)) : AuditLog :=
  inserts.foldl (fun log i => log.insert js i.now i.executes i.input) log

/-- An entry that is recorded comes behind the rows and takes no number of theirs; otherwise all is as
it was. -/
lemma AuditLog.insert_cases (js : JsonRuntime α) (log : AuditLog) (now : ℕ) (executes : Bool)
    (input : AuditLogInput α) :
    log.insert js now executes input = log ∨ ∃ row, log.insert js now executes input = log.add row := by
  unfold AuditLog.insert
  split
  · exact Or.inr ⟨_, rfl⟩
  · exact Or.inl rfl

/-- The rows of a log are those of the later log with old numbers. -/
def Precedes (log later : AuditLog) : Prop :=
  log.sequence ≤ later.sequence ∧
    log.table.rows = later.table.rows.filter fun row => row.id ≤ log.sequence

lemma precedes_refl (log : AuditLog) : Precedes log log :=
  ⟨le_rfl, (List.filter_eq_self.mpr fun row hrow => decide_eq_true (log.below row hrow)).symm⟩

lemma Precedes.insert {later : AuditLog} (h : Precedes log later) (i : AuditInsert α) :
    Precedes log (later.insert js i.now i.executes i.input) := by
  rcases later.insert_cases js i.now i.executes i.input with hsame | ⟨row, hadd⟩
  · rwa [hsame]
  · rw [hadd]
    refine ⟨Nat.le_succ_of_le h.1, ?_⟩
    have hnew : ¬ later.sequence + 1 ≤ log.sequence := by have := h.1; omega
    change _ = (later.table.rows ++ [_]).filter _
    rw [List.filter_append, ← h.2]
    simp [hnew]

/-- What is recorded keeps the rows. -/
lemma precedes_insertAll (js : JsonRuntime α) (log : AuditLog) (inserts : List (AuditInsert α)) :
    Precedes log (log.insertAll js inserts) := by
  have hall : ∀ later, Precedes log later → Precedes log (later.insertAll js inserts) := by
    induction inserts with
    | nil => exact fun _ h => h
    | cons i inserts ih => exact fun later h => ih _ (h.insert i)
  exact hall log (precedes_refl log)

/-- The ranking of a log is part of the ranking of a later one. -/
lemma Precedes.ranking {later : AuditLog} (h : Precedes log later) :
    (auditOrder.sort (log.table.rows.filter q.selects)).Sublist
      (auditOrder.sort (later.table.rows.filter q.selects)) := by
  have hrows : log.table.rows.filter q.selects =
      (later.table.rows.filter q.selects).filter fun row => row.id ≤ log.sequence := by
    conv_lhs => rw [h.2]
    exact List.filter_comm ..
  rw [hrows]
  refine Comparison.IsRanking.sublist ?_ Comparison.isRanking_sort Comparison.isRanking_sort
  exact fun a ha b hb => later.eq_of_tie (List.mem_of_mem_filter ha) (List.mem_of_mem_filter hb)

/-! ## Pages -/

/-- The query for a page of a size. -/
def AuditQuery.pageAt (q : AuditQuery) (size k : ℕ) : AuditQuery :=
  { q with limit := some size, offset := some (k * size : ℕ) }

/-- A limit that the schema accepts is a number from 1 to 1000. -/
lemma size_of_schema {param : String → List String} {size k : ℕ}
    (h : auditQuerySchema js param = some (q.pageAt size k)) : 1 ≤ size ∧ size ≤ 1000 := by
  simp only [auditQuerySchema, Option.bind_eq_bind, Option.bind_eq_some_iff, Option.pure_def] at h
  obtain ⟨action, -, actor, -, type, -, target, -, fromSec, -, toSec, -, limit, hlimit, offset, -, heq⟩ := h
  have hsize : limit.getD 50 = (size : ℚ) := by
    have := congrArg AuditQuery.limit (Option.some.inj heq)
    exact Option.some.inj this
  cases limit with
  | none =>
    have h50 : (50 : ℚ) = size := hsize
    obtain rfl : 50 = size := by exact_mod_cast h50
    decide
  | some n =>
    obtain rfl : n = size := hsize
    unfold intField at hlimit
    split at hlimit
    · cases hlimit
    · obtain ⟨n, hn, hsome⟩ := Option.map_eq_some_iff.mp hlimit
      obtain rfl : n = size := Option.some.inj hsome
      have hp := (Option.filter_eq_some_iff.mp hn).2
      simp only [Bool.and_eq_true, decide_eq_true_eq, Option.all_some] at hp
      exact ⟨by exact_mod_cast hp.1.2, by exact_mod_cast hp.2⟩
    · cases hlimit

/-- The rows of a page. -/
lemma query_pageAt {size : ℕ} (hpos : 1 ≤ size) (hle : size ≤ 1000) (k : ℕ) :
    (log.query (q.pageAt size k)).rows =
      page size (k * size) (auditOrder.sort (log.table.rows.filter q.selects)) := by
  have hlimit : (q.pageAt size k).safeLimit = size := by
    have hq : (0 : ℚ) < size := by exact_mod_cast hpos
    simp only [AuditQuery.safeLimit, AuditQuery.pageAt, Option.filter_some, decide_eq_true hq, if_true,
      Option.elim_some, floor_natCast, Nat.min_eq_right hle]
  have hoffset : (q.pageAt size k).safeOffset = k * size := by
    have hq : (0 : ℚ) ≤ (k * size : ℕ) := by exact_mod_cast Nat.zero_le _
    simp only [AuditQuery.safeOffset, AuditQuery.pageAt, Option.filter_some, decide_eq_true hq, if_true,
      Option.elim_some, floor_natCast]
  rw [AuditLog.query, hlimit, hoffset]
  rfl

/-- A reader asks for the pages of the audit log one after the other, with the same conditions, until a
page is empty, while anything is recorded in between.  Then every entry that met the conditions at the
beginning is on one of the pages, whatever the clock of the entries that come in, and what is on a page
is an entry of the log that meets the conditions; when nothing has come in, the pages are the entries
from the newest on, each of them once. -/
theorem audit_pages_complete {α : Type} (js : JsonRuntime α) (q : AuditQuery) (size n : ℕ)
    (params : ℕ → String → List String) (logs : ℕ → AuditLog) (inserts : ℕ → List (AuditInsert α))
    (answers : ℕ → List (AuditItem α) × ℕ)
    (hparams : ∀ k ≤ n, auditQuerySchema js (params k) = some (q.pageAt size k))
    (hlogs : ∀ k < n, logs (k + 1) = (logs k).insertAll js (inserts k))
    (hanswers : ∀ k ≤ n, auditRoute js (params k) (logs k) = some (answers k))
    (hend : (answers n).1 = []) :
    (∀ row ∈ (logs 0).table.rows, q.selects row = true → ∃ k < n, row.item js ∈ (answers k).1) ∧
    (∀ k < n, ∀ item ∈ (answers k).1,
      ∃ row ∈ (logs k).table.rows, q.selects row = true ∧ item = row.item js) ∧
    ((∀ k < n, inserts k = []) →
      ((List.range n).flatMap fun k => (answers k).1) =
        (auditOrder.sort ((logs 0).table.rows.filter q.selects)).map (AuditLogRow.item js)) := by
  obtain ⟨hpos, hle⟩ := size_of_schema (hparams 0 (Nat.zero_le n))
  set ranked : ℕ → List AuditLogRow := fun k => auditOrder.sort ((logs k).table.rows.filter q.selects)
    with hranked
  have hpages : ∀ k ≤ n, (answers k).1 = (page size (k * size) (ranked k)).map (AuditLogRow.item js) := by
    intro k hk
    have hanswer := hanswers k hk
    rw [auditRoute, hparams k hk, Option.map_some, query_pageAt hpos hle] at hanswer
    rw [← Option.some.inj hanswer]
  have hmem : ∀ k row, row ∈ ranked k ↔ row ∈ (logs k).table.rows ∧ q.selects row = true :=
    fun k row => (Comparison.isRanking_sort.1.mem_iff).trans List.mem_filter
  have hempty : page size (n * size) (ranked n) = [] := List.map_eq_nil_iff.mp (hpages n le_rfl ▸ hend)
  refine ⟨fun row hrow hselects => ?_, fun k hk item hitem => ?_, fun hnone => ?_⟩
  · have hgrow : ∀ k < n, (ranked k).Sublist (ranked (k + 1)) := by
      intro k hk
      have hprecedes := precedes_insertAll js (logs k) (inserts k)
      rw [← hlogs k hk] at hprecedes
      exact hprecedes.ranking
    obtain ⟨k, hk, hpage⟩ := exists_page_of_growing hpos hgrow hempty ((hmem 0 row).mpr ⟨hrow, hselects⟩)
    exact ⟨k, hk, hpages k hk.le ▸ List.mem_map_of_mem hpage⟩
  · rw [hpages k hk.le] at hitem
    obtain ⟨row, hrow, rfl⟩ := List.mem_map.mp hitem
    obtain ⟨hold, hselects⟩ := (hmem k row).mp (List.mem_of_mem_drop (List.mem_of_mem_take hrow))
    exact ⟨row, hold, hselects, rfl⟩
  · have hsame : ∀ k ≤ n, logs k = logs 0 := by
      intro k hk
      induction k with
      | zero => rfl
      | succ k ih => rw [hlogs k hk, hnone k hk, AuditLog.insertAll, List.foldl_nil, ih (by omega)]
    have hfirst : ∀ k ≤ n, ranked k = ranked 0 := fun k hk => by rw [hranked]; simp only [hsame k hk]
    have hall : ranked 0 = (ranked 0).take (n * size) := by
      rw [hfirst n le_rfl, page_eq_nil_iff hpos] at hempty
      exact (List.take_of_length_le hempty).symm
    change _ = (ranked 0).map (AuditLogRow.item js)
    rw [hall, ← flatMap_pages, List.map_flatMap]
    refine List.flatMap_congr fun k hk => ?_
    have hlt := (List.mem_range.mp hk).le
    rw [hpages k hlt, hfirst k hlt]

/-- Texts as the recorded values, and decimal numbers. -/
def sampleJson : JsonRuntime String where
  stringify := some
  parse := some
  number s := (Text.parseU64 s).map fun n => (n : ℚ)

/-- A purge of the cache by the first user, at a time. -/
def samplePurge (now : ℕ) : AuditInsert String where
  input := { actorUserId := some 1, action := "cache.purge", targetType := "cache", after := some "{}" }
  now := now
  executes := true

/-- What is recorded after a page. -/
def sampleInserts (k : ℕ) : List (AuditInsert String) := if k = 0 then [samplePurge 9500] else []

/-- A log of three purges, as the pages find it. -/
def sampleLogs : ℕ → AuditLog
  | 0 => AuditLog.empty.insertAll sampleJson [samplePurge 5000, samplePurge 4000, samplePurge 9000]
  | k + 1 => (sampleLogs k).insertAll sampleJson (sampleInserts k)

/-- The parameters of pages of two. -/
def sampleParams (k : ℕ) (name : String) : List String :=
  if name = "action" then ["cache.purge"]
  else if name = "limit" then ["2"]
  else if name = "offset" then [toString (2 * k)]
  else []

/-- The pages. -/
def sampleAnswers (k : ℕ) : List (AuditItem String) × ℕ :=
  (auditRoute sampleJson (sampleParams k) (sampleLogs k)).getD ([], 0)

/-- The older purges are moved back by a new one, and none is missed. -/
theorem audit_pages_complete_purges : (sampleLogs 0).table.rows.length = 3 ∧
    ∀ row ∈ (sampleLogs 0).table.rows, ∃ k < 2, row.item sampleJson ∈ (sampleAnswers k).1 := by
  have hselects : ∀ row ∈ (sampleLogs 0).table.rows,
      AuditQuery.selects { action := some "cache.purge" } row = true := by
    decide +kernel
  refine ⟨by decide +kernel, fun row hrow => ?_⟩
  exact (audit_pages_complete sampleJson { action := some "cache.purge" } 2 2 sampleParams sampleLogs
    sampleInserts sampleAnswers (by decide +kernel) (fun _ _ => rfl) (by decide +kernel)
    (by decide +kernel)).1 row hrow (hselects row hrow)

end SmartSchoolCdn.Audit
