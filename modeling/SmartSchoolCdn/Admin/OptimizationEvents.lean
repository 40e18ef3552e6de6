import SmartSchoolCdn.Admin.Reply
import SmartSchoolCdn.Admin.Database

/-!
# Ingest of optimization events

`POST /internal/events/batch` of `routes/optimization-events.ts`: the limit of the server on
bodies, the schema of a batch, and `insertBatch`.  A batch is refused as a whole when one of
its events does not fit.  The route runs between two awaits in one piece, so it is one
function; the token has been checked before it.
-/

namespace SmartSchoolCdn.Admin

/-- An event in the body of a request. -/
structure EventInput where
  ts : Option String
  eventType : String
  host : String
  url : String
  decision : String
  origSize : Option ℕ
  outSize : Option ℕ
  rangeHeader : Option String
  contentType : Option String
  elapsedMs : ℕ
  deriving DecidableEq, Repr

/-- The answers of the route: the number of inserted events, 400, 413 and 500. -/
inductive IngestReply
  | inserted (count : ℕ)
  | invalidInput
  | bodyTooLarge
  | failed
  deriving DecidableEq, Repr

/-- The clock of the runtime: the current second, and `Date.parse` in whole seconds, `none`
where it is not a number. -/
structure Clock where
  now : ℕ
  parseSeconds : String → Option ℕ

/-- `toUnixSecInput` of a text. -/
def Clock.toUnixSecInput (clock : Clock) : Option String → ℕ
  | none => clock.now
  | some input => (clock.parseSeconds input).getD 0

/-! ## The schema -/

/-- `ALLOWED_EVENT_TYPES`. -/
def allowedEventTypes : List String :=
  ["media_cache", "image_optimize", "text_compress", "storage_evict"]

/-- `ALLOWED_DECISIONS`. -/
def allowedDecisions : List String :=
  ["served_200", "served_206", "stored_new", "invalid_range_416", "served_stale_if_error",
   "optimized", "passthrough_larger", "passthrough_error", "passthrough_unsupported",
   "converted", "rejected_size", "skipped_small", "skipped_type", "error", "compressed_br",
   "compressed_gzip", "bypass_nocache", "bypass_size", "bypass_method", "bypass_other",
   "auto_evict"]

/-- `normalizeEventHost`. -/
def normalizeEventHost (js : Runtime) (raw : String) : String :=
  js.toLowerCase (String.ofList ((Text.beforeFirst raw ':').toList.rdropWhile (· == '.')))

/-- What `eventInputSchema` asks of an event; its sizes and times are numbers of at least zero
by their type. -/
def EventInput.valid (ev : EventInput) : Bool :=
  allowedEventTypes.contains ev.eventType && ev.host != "" && ev.url != ""
    && allowedDecisions.contains ev.decision

/-- The test, condition by condition. -/
lemma EventInput.valid_iff {ev : EventInput} :
    ev.valid = true ↔ ev.eventType ∈ allowedEventTypes ∧ ev.host ≠ "" ∧ ev.url ≠ "" ∧
      ev.decision ∈ allowedDecisions := by
  unfold EventInput.valid
  rw [Bool.and_eq_true, Bool.and_eq_true, Bool.and_eq_true, List.contains_iff_mem,
    List.contains_iff_mem, bne_iff_ne, bne_iff_ne, and_assoc, and_assoc]

/-- What `eventInputSchema` makes of an event that it accepts. -/
def EventInput.parsed (js : Runtime) (ev : EventInput) : EventInput :=
  { ev with host := normalizeEventHost js ev.host }

/-- The most events of a batch. -/
def maxBatch : ℕ := 1000

/-- `eventBatchSchema`. -/
def eventBatchSchema (js : Runtime) (events : List EventInput) : Option (List EventInput) :=
  if events.length ≤ maxBatch ∧ events.all EventInput.valid then
    some (events.map (EventInput.parsed js))
  else none

/-! ## The route -/

/-- The row of an event. -/
def EventInput.row (clock : Clock) (ev : EventInput) : OptimizationEvent :=
  { ts := clock.toUnixSecInput ev.ts
    eventType := ev.eventType
    host := ev.host
    url := ev.url
    decision := ev.decision
    origSize := ev.origSize
    outSize := ev.outSize
    rangeHeader := ev.rangeHeader
    contentType := ev.contentType
    elapsedMs := ev.elapsedMs }

/-- `bodyLimit` of the server, in bytes. -/
def bodyLimit : ℕ := 1048576

/-- `insertBatch`: one transaction, which ends with all rows or with none. -/
def insertBatch (clock : Clock) (db : Database) (events : List EventInput) : Option Database :=
  db.run (.insertEvents (events.map (EventInput.row clock)))

/-- `POST /internal/events/batch` with a body of the given length. -/
def ingest (js : Runtime) (clock : Clock) (db : Database) (contentLength : ℕ)
    (events : List EventInput) : IngestReply × Database :=
  if bodyLimit < contentLength then (.bodyTooLarge, db)
  else
    match eventBatchSchema js events with
    | none => (.invalidInput, db)
    | some parsed =>
      match insertBatch clock db parsed with
      | some db' => (.inserted parsed.length, db')
      | none => (.failed, db)

/-- The batch is accepted, and its events are added to the table as one row each. -/
structure StoredWhole (js : Runtime) (clock : Clock) (db : Database) (events : List EventInput)
    (result : IngestReply × Database) : Prop where
  reply : result.1 = .inserted events.length
  rows : result.2.optimizationEvents =
    db.optimizationEvents ++ events.map fun ev => (ev.parsed js).row clock

/-- A batch is stored exactly when its text fits into a body, it is not too long, and every
event of it is valid; otherwise it is refused and nothing is stored. -/
theorem storedWhole_ingest_iff (js : Runtime) (clock : Clock) (db : Database) (contentLength : ℕ)
    (events : List EventInput) :
    StoredWhole js clock db events (ingest js clock db contentLength events) ↔
      contentLength ≤ bodyLimit ∧ events.length ≤ maxBatch ∧ ∀ ev ∈ events, ev.valid = true := by
  rw [← List.all_eq_true]
  constructor
  · intro h
    have hreply := h.reply
    unfold ingest eventBatchSchema at hreply
    split at hreply
    · cases hreply
    · rename_i hfits
      by_cases hvalid : events.length ≤ maxBatch ∧ events.all EventInput.valid = true
      · exact ⟨Nat.not_lt.mp hfits, hvalid⟩
      · rw [if_neg hvalid] at hreply
        cases hreply
  · rintro ⟨hfits, hvalid⟩
    unfold ingest eventBatchSchema
    rw [if_neg (Nat.not_lt.mpr hfits), if_pos hvalid]
    refine ⟨?_, ?_⟩
    · change IngestReply.inserted (events.map _).length = _
      rw [List.length_map]
    · change db.optimizationEvents ++ (events.map _).map _ = _
      rw [List.map_map]
      rfl

/-- A refused batch leaves the database as it is. -/
theorem ingest_refused {js : Runtime} {clock : Clock} {db : Database} {contentLength : ℕ}
    {events : List EventInput}
    (h : ∀ count, (ingest js clock db contentLength events).1 ≠ .inserted count) :
    (ingest js clock db contentLength events).2 = db := by
  unfold ingest at h ⊢
  split
  · rfl
  · rename_i hfits
    rw [if_neg hfits] at h
    cases hparsed : eventBatchSchema js events with
    | none => rfl
    | some parsed =>
      rw [hparsed] at h
      exact absurd rfl (h parsed.length)

end SmartSchoolCdn.Admin
