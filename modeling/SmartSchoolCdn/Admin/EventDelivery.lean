import SmartSchoolCdn.Admin.CachePurge
import SmartSchoolCdn.Admin.OptimizationEvents
import SmartSchoolCdn.Proxy.Events

/-!
# Delivery of events

The proxy with the channel and the flush loop of its events, the evict task of the storage
service, and the admin server that stores what they post.  While a post is under way the
flush loop does nothing else, so a post is part of the step that flushes.

A post is stored with one row for each event exactly when its text fits into a body and all
its events come from background saves or from answers served stale: the decisions behind the
other answers are the values of `X-Cache-Reason`, none of which the schema admits
(`posts_stored_iff`).
-/

namespace SmartSchoolCdn.Events

open Admin Traces

/-- `DEFAULT_BATCH_SIZE`. -/
def defaultBatchSize : ℕ := 200

/-- `DEFAULT_CHANNEL_CAPACITY`. -/
def defaultChannelCapacity : ℕ := 4096

/-! ## Posts -/

/-- Who posts a batch: the flush loop of the proxy, or the evict task of the storage service
with the freed bytes and the time. -/
inductive Poster
  | flushLoop (batch : List Emitted)
  | evictTask (freed : ℕ) (ts : String)

/-- A record in the body of a post; the time is left to the admin server. -/
def recordInput (e : EventRecord) : EventInput :=
  { ts := none
    eventType := e.eventType
    host := e.host
    url := e.url
    decision := e.decision
    origSize := e.origSize
    outSize := e.outSize
    rangeHeader := e.rangeHeader
    contentType := e.contentType
    elapsedMs := e.elapsedMs }

/-- The event of an eviction. -/
def evictInput (freed : ℕ) (ts : String) : EventInput :=
  { ts := some ts
    eventType := "storage_evict"
    host := "*"
    url := "storage://evict"
    decision := "auto_evict"
    origSize := some freed
    outSize := none
    rangeHeader := none
    contentType := none
    elapsedMs := 0 }

/-- The JSON of the event of an eviction. -/
def evictText (freed : ℕ) (ts : String) : String :=
  jsonObject [("decision", jsonString "auto_evict"), ("elapsed_ms", "0"),
    ("event_type", jsonString "storage_evict"), ("host", jsonString "*"),
    ("orig_size", toString freed), ("ts", jsonString ts), ("url", jsonString "storage://evict")]

namespace Poster

/-- The events of the body. -/
def events : Poster → List EventInput
  | flushLoop batch => batch.map fun e => recordInput e.record
  | evictTask freed ts => [evictInput freed ts]

/-- The JSON of the body. -/
def payload : Poster → String
  | flushLoop batch => payloadText (batch.map fun e => e.record.text)
  | evictTask freed ts => payloadText [evictText freed ts]

end Poster

/-- A batch that was posted: the database before, and the answer with the database after. -/
structure Post where
  poster : Poster
  clock : Clock
  before : Database
  result : IngestReply × Database

/-- The batch was accepted and stored with one row for each event. -/
def Post.Stored (js : Runtime) (p : Post) : Prop :=
  StoredWhole js p.clock p.before p.poster.events p.result

/-! ## The system -/

/-- The proxy with its events, and the database of the admin server; `posts` is a ghost. -/
structure EventFlow where
  proxy : State
  /-- The channel of `EventsSender`. -/
  channel : List Emitted
  /-- The buffer of `flush_loop`. -/
  buffer : List Emitted
  db : Database
  posts : List Post

/-- The steps: one of the proxy, `rx.recv()`, the tick of the flush loop, and an eviction of
the storage service. -/
inductive DeliveryAction
  | proxy (a : Action) (w : Work)
  | recv (clock : Clock)
  | tick (clock : Clock)
  | evict (freed : ℕ) (ts : String) (clock : Clock)

namespace EventFlow

/-- The start, with a database. -/
def initial (maxSizeBytes : UInt64) (db : Database) : EventFlow :=
  { proxy := State.initial maxSizeBytes
    channel := []
    buffer := []
    db := db
    posts := [] }

/-- `EventsSender::emit`: an event is dropped when the channel is full. -/
def emit (o : EventFlow) (e : Emitted) : EventFlow :=
  if o.channel.length < defaultChannelCapacity then { o with channel := o.channel ++ [e] } else o

/-- A batch and its answer. -/
def answered (js : Runtime) (clock : Clock) (o : EventFlow) (poster : Poster) : Post :=
  { poster := poster
    clock := clock
    before := o.db
    result := ingest js clock o.db poster.payload.utf8ByteSize poster.events }

/-- A batch reaches the admin server and is answered. -/
def post (js : Runtime) (clock : Clock) (o : EventFlow) (poster : Poster) : EventFlow :=
  { o with
    db := (o.answered js clock poster).result.2
    posts := o.answered js clock poster :: o.posts }

/-- `flush_once`. -/
def flushOnce (js : Runtime) (clock : Clock) (o : EventFlow) : EventFlow :=
  { o.post js clock (.flushLoop o.buffer) with buffer := [] }

section Fields

variable (js : Runtime) (clock : Clock) (o : EventFlow) (poster : Poster)

@[simp] lemma post_channel : (o.post js clock poster).channel = o.channel := by
  simp only [post]

@[simp] lemma post_buffer : (o.post js clock poster).buffer = o.buffer := by
  simp only [post]

@[simp] lemma post_posts : (o.post js clock poster).posts = o.answered js clock poster :: o.posts := by
  simp only [post]

@[simp] lemma flushOnce_channel : (o.flushOnce js clock).channel = o.channel := by
  simp only [flushOnce, post]

@[simp] lemma flushOnce_buffer : (o.flushOnce js clock).buffer = [] := by
  simp only [flushOnce]

@[simp] lemma flushOnce_posts :
    (o.flushOnce js clock).posts = o.answered js clock (.flushLoop o.buffer) :: o.posts := by
  simp only [flushOnce, post]

end Fields

end EventFlow

/-- One step. -/
def deliveryStep (cfg : Config) (js : Runtime) (o : EventFlow) : DeliveryAction → Option EventFlow
  | .proxy a w => (step cfg o.proxy a).map fun s' =>
      let o' := { o with proxy := s' }
      (o.proxy.emission cfg a w).elim o' o'.emit
  | .recv clock => match o.channel with
    | [] => none
    | e :: rest =>
      let o' := { o with channel := rest, buffer := o.buffer ++ [e] }
      some (if defaultBatchSize ≤ o'.buffer.length then o'.flushOnce js clock else o')
  | .tick clock => some (if o.buffer.isEmpty then o else o.flushOnce js clock)
  | .evict freed ts clock => if 0 < freed then some (o.post js clock (.evictTask freed ts)) else none

variable {cfg : Config} {js : Runtime} {o o' : EventFlow}

/-! ## Valid records -/

/-- The answer was served stale, or the event comes from a background save; host and URL are
not empty. -/
def Admissible : EventSource → Prop
  | .answered r => r.stale = true ∧ r.host ≠ "" ∧ r.request.uri.toText ≠ ""
  | .saved x => x.host ≠ ""

/-- No value of `X-Cache-Reason` is an admitted decision, with any ending. -/
lemma asHeader_not_allowed (outcome : CacheOutcome) :
    ∀ suffix ∈ rangeSuffixes, outcome.asHeader ++ suffix ∉ allowedDecisions := by
  cases outcome <;> decide

/-- The decisions about saves are admitted. -/
lemma saveDecisions_allowed : ∀ decision ∈ saveDecisions, decision ∈ allowedDecisions := by
  decide

/-- No decision behind an answer is admitted. -/
lemma headerDecision_not_allowed {r : Report} (h : r.HeaderDecision) :
    r.decision ∉ allowedDecisions := by
  obtain ⟨outcome, suffix, hmem, heq⟩ := h
  rw [heq]
  exact asHeader_not_allowed outcome suffix hmem

/-- A URL of a save is not empty. -/
lemma fullUrl_ne_empty (x : Exchange) : x.fullUrl ≠ "" := by
  intro h
  have htext := congrArg String.toList h
  simp [Exchange.fullUrl] at htext

/-- An event of the proxy is valid exactly when its source is admissible. -/
lemma valid_iff {e : Emitted} (h : e.Genuine cfg) :
    (recordInput e.record).valid = true ↔ Admissible e.source := by
  have hmedia : "media_cache" ∈ allowedEventTypes := by decide
  have hserved : "served_stale_if_error" ∈ allowedDecisions := by decide
  rw [EventInput.valid_iff]
  obtain ⟨source, record⟩ := e
  cases source with
  | answered r =>
    obtain ⟨hheader, elapsedMs, hevent⟩ := h
    unfold Report.event at hevent
    by_cases hstale : r.stale = true
    · rw [if_pos hstale] at hevent
      obtain rfl := Option.some.inj hevent
      exact ⟨fun h => ⟨hstale, h.2.1, h.2.2.1⟩, fun h => ⟨hmedia, h.2.1, h.2.2, hserved⟩⟩
    · rw [if_neg hstale] at hevent
      split at hevent
      · obtain rfl := Option.some.inj hevent
        exact ⟨fun h => absurd h.2.2.2 (headerDecision_not_allowed hheader),
          fun h => absurd h.1 hstale⟩
      · cases hevent
  | saved x =>
    obtain ⟨optimized, w, hevent⟩ := h
    obtain ⟨hkind, hhost, hurl, hsave⟩ := saveEvent_spec hevent
    have hdecision := saveDecisions_allowed _ hsave
    have htype : record.eventType ∈ allowedEventTypes := by
      rcases hkind with hkind | hkind
      · exact hkind ▸ (by decide : "image_optimize" ∈ allowedEventTypes)
      · exact hkind ▸ (by decide : "text_compress" ∈ allowedEventTypes)
    constructor
    · intro h hempty
      exact h.2.1 (hhost.trans hempty)
    · intro h
      exact ⟨htype, fun hempty => h (hhost.symm.trans hempty),
        fun hempty => fullUrl_ne_empty x (hurl.symm.trans hempty), hdecision⟩

/-- The event of an eviction is valid. -/
lemma evictInput_valid (freed : ℕ) (ts : String) : (evictInput freed ts).valid = true := by
  have htype : "storage_evict" ∈ allowedEventTypes := by decide
  have hdecision : "auto_evict" ∈ allowedDecisions := by decide
  have hhost : "*" ≠ "" := by decide
  have hurl : "storage://evict" ≠ "" := by decide
  exact EventInput.valid_iff.mpr ⟨htype, hhost, hurl, hdecision⟩

/-! ## Runs -/

/-- The events of the proxy in a batch. -/
def Poster.emitted : Poster → List Emitted
  | .flushLoop batch => batch
  | .evictTask _ _ => []

/-- What is known of a batch that was posted. -/
structure Post.Recorded (cfg : Config) (js : Runtime) (p : Post) : Prop where
  result : p.result = ingest js p.clock p.before p.poster.payload.utf8ByteSize p.poster.events
  size : p.poster.events.length ≤ defaultBatchSize
  genuine : ∀ e ∈ p.poster.emitted, e.Genuine cfg

/-- A batch holds at least one event. -/
lemma defaultBatchSize_pos : 0 < defaultBatchSize := by decide

/-- The events on their way come from the sites of the proxy, and the buffer is never full. -/
structure Underway (cfg : Config) (js : Runtime) (o : EventFlow) : Prop where
  channel : ∀ e ∈ o.channel, e.Genuine cfg
  buffer : ∀ e ∈ o.buffer, e.Genuine cfg
  room : o.buffer.length < defaultBatchSize
  posts : ∀ p ∈ o.posts, p.Recorded cfg js

/-- The start. -/
lemma underway_initial (maxSizeBytes : UInt64) (db : Database) :
    Underway cfg js (EventFlow.initial maxSizeBytes db) where
  channel := List.forall_mem_nil _
  buffer := List.forall_mem_nil _
  room := defaultBatchSize_pos
  posts := List.forall_mem_nil _

/-- A batch that is posted is recorded. -/
lemma recorded_answered {clock : Clock} {poster : Poster}
    (hsize : poster.events.length ≤ defaultBatchSize)
    (hgenuine : ∀ e ∈ poster.emitted, e.Genuine cfg) :
    (o.answered js clock poster).Recorded cfg js where
  result := by simp only [EventFlow.answered]
  size := hsize
  genuine := hgenuine

/-- A flush posts the buffer and empties it. -/
lemma Underway.flushOnce (clock : Clock) (hchannel : ∀ e ∈ o.channel, e.Genuine cfg)
    (hbuffer : ∀ e ∈ o.buffer, e.Genuine cfg) (hsize : o.buffer.length ≤ defaultBatchSize)
    (hposts : ∀ p ∈ o.posts, p.Recorded cfg js) : Underway cfg js (o.flushOnce js clock) := by
  have hevents : (Poster.flushLoop o.buffer).events.length ≤ defaultBatchSize := by
    rwa [Poster.events, List.length_map]
  constructor
  · rwa [EventFlow.flushOnce_channel]
  · rw [EventFlow.flushOnce_buffer]
    exact List.forall_mem_nil _
  · rw [EventFlow.flushOnce_buffer]
    exact defaultBatchSize_pos
  · rw [EventFlow.flushOnce_posts]
    exact List.forall_mem_cons.mpr ⟨recorded_answered hevents hbuffer, hposts⟩

/-- An eviction posts one event. -/
lemma Underway.evict (h : Underway cfg js o) (clock : Clock) (freed : ℕ) (ts : String) :
    Underway cfg js (o.post js clock (.evictTask freed ts)) := by
  have hevents : (Poster.evictTask freed ts).events.length ≤ defaultBatchSize :=
    defaultBatchSize_pos
  constructor
  · rw [EventFlow.post_channel]
    exact h.channel
  · rw [EventFlow.post_buffer]
    exact h.buffer
  · rw [EventFlow.post_buffer]
    exact h.room
  · rw [EventFlow.post_posts]
    exact List.forall_mem_cons.mpr ⟨recorded_answered hevents (List.forall_mem_nil _), h.posts⟩

/-- A new event waits in the channel or is dropped. -/
lemma Underway.emit (h : Underway cfg js o) {e : Emitted} (he : e.Genuine cfg) :
    Underway cfg js (o.emit e) := by
  unfold EventFlow.emit
  split
  · refine { h with channel := fun e' he' => ?_ }
    rcases List.mem_append.mp he' with he' | he'
    · exact h.channel e' he'
    · rwa [List.mem_singleton.mp he']
  · exact h

/-- A step keeps this. -/
lemma Underway.step {a : DeliveryAction} (h : Underway cfg js o)
    (hst : deliveryStep cfg js o a = some o') : Underway cfg js o' := by
  cases a with
  | proxy a w =>
    simp only [deliveryStep, Option.map_eq_some_iff] at hst
    obtain ⟨s', -, rfl⟩ := hst
    have hsame : Underway cfg js { o with proxy := s' } := { h with }
    cases hem : o.proxy.emission cfg a w with
    | none => exact hsame
    | some e => exact hsame.emit (genuine_of_emission hem)
  | recv clock =>
    simp only [deliveryStep] at hst
    split at hst
    · cases hst
    · rename_i e rest hchannel
      have hmem : ∀ e' ∈ e :: rest, e'.Genuine cfg := hchannel ▸ h.channel
      have hrest : ∀ e' ∈ rest, e'.Genuine cfg := fun e' he' => hmem e' (List.mem_cons_of_mem e he')
      have hbuffer : ∀ e' ∈ o.buffer ++ [e], e'.Genuine cfg := by
        intro e' he'
        rcases List.mem_append.mp he' with he' | he'
        · exact h.buffer e' he'
        · rw [List.mem_singleton.mp he']
          exact hmem e List.mem_cons_self
      have hlength : (o.buffer ++ [e]).length ≤ defaultBatchSize := by
        rw [List.length_append, List.length_singleton]
        exact h.room
      split at hst
      · obtain rfl := Option.some.inj hst
        exact Underway.flushOnce clock hrest hbuffer hlength h.posts
      · rename_i hroom
        obtain rfl := Option.some.inj hst
        exact ⟨hrest, hbuffer, Nat.not_le.mp hroom, h.posts⟩
  | tick clock =>
    obtain rfl := Option.some.inj hst
    split
    · exact h
    · exact Underway.flushOnce clock h.channel h.buffer h.room.le h.posts
  | evict freed ts clock =>
    simp only [deliveryStep] at hst
    split at hst
    · obtain rfl := Option.some.inj hst
      exact h.evict clock freed ts
    · cases hst

/-- In every run, a batch that the proxy or the storage service has posted is accepted and
stored with one row for each event exactly when its text fits into a body and all its events
come from background saves or from answers served stale. -/
theorem posts_stored_iff (cfg : Config) (js : Runtime) (maxSizeBytes : UInt64) (db : Database)
    (o : EventFlow) (h : Reaches (deliveryStep cfg js) (EventFlow.initial maxSizeBytes db) o) :
    ∀ p ∈ o.posts, p.Stored js ↔
      p.poster.payload.utf8ByteSize ≤ bodyLimit ∧ ∀ e ∈ p.poster.emitted, Admissible e.source := by
  intro p hp
  have hunderway : Underway cfg js o :=
    h.invariant (fun _ _ _ hI hst => hI.step hst) (underway_initial maxSizeBytes db)
  obtain ⟨hresult, hsize, hgenuine⟩ := hunderway.posts p hp
  have hmax : p.poster.events.length ≤ maxBatch := hsize.trans (by decide)
  have hvalid : (∀ ev ∈ p.poster.events, ev.valid = true) ↔
      ∀ e ∈ p.poster.emitted, Admissible e.source := by
    cases hposter : p.poster with
    | flushLoop batch =>
      rw [hposter] at hgenuine
      simp only [Poster.events, Poster.emitted, List.forall_mem_map]
      exact forall₂_congr fun e he => valid_iff (hgenuine e he)
    | evictTask freed ts =>
      simp only [Poster.events, Poster.emitted, List.forall_mem_singleton]
      exact ⟨fun _ => List.forall_mem_nil _, fun _ => evictInput_valid freed ts⟩
  rw [Post.Stored, hresult, storedWhole_ingest_iff, hvalid]
  exact and_congr_right fun _ => and_iff_right hmax

/-! ## Sample runs -/

/-- A GET for a style sheet of three bytes, with its background save. -/
def styleActions : List Action :=
  [sampleDomains, .arrive (sampleRequest .get "/style.css" [])] ++ missActions 0
    ++ fetchActions 0 200 [("content-type", "text/css")] [1, 2, 3]
    ++ [.publish 0, .respond 0] ++ saveActions 0

/-- After it a GET for a video. -/
def clipActions : List Action :=
  styleActions ++ [.arrive (sampleRequest .get "/clip.mp4" [])] ++ missActions 1
    ++ fetchActions 1 200 [("content-type", "video/mp4")] [1, 2, 3] ++ [.publish 1, .respond 1]

/-- A fixed time. -/
def sampleClock : Clock := { now := 1700000000, parseSeconds := fun _ => none }

/-- The actions of the proxy, and a flush of so many events. -/
def flushed (as : List Action) (events : ℕ) : List DeliveryAction :=
  (as.map fun a => .proxy a { elapsedMs := 3 }) ++ List.replicate events (.recv sampleClock)
    ++ [.tick sampleClock]

/-- The start of the sample runs. -/
def deliveryStart : EventFlow :=
  EventFlow.initial 1000000 (Database.ofDomains Tables.Table.empty)

/-- The batch with the events of both requests is refused, and the event of the style sheet is
lost with the one of the video. -/
theorem video_batch_refused :
    ∃ o, Reaches (deliveryStep sampleConfig sampleRuntime) deliveryStart o ∧
      ∃ p ∈ o.posts, p.poster.events.length = 2 ∧ p.result.1 = .invalidInput ∧
        ¬ p.Stored sampleRuntime := by
  have hrun : ((run (deliveryStep sampleConfig sampleRuntime) deliveryStart
      (flushed clipActions 2)).any fun o =>
        o.posts.any fun p => decide (p.poster.events.length = 2) &&
          decide (p.result.1 = .invalidInput)) = true := by
    decide +kernel
  obtain ⟨o, ho, hrun⟩ := exists_trace_of_run hrun
  obtain ⟨p, hp, hcheck⟩ := List.any_eq_true.mp hrun
  simp only [Bool.and_eq_true, decide_eq_true_eq] at hcheck
  refine ⟨o, ho.reaches, p, hp, hcheck.1, hcheck.2, fun hstored => ?_⟩
  have hreply := hstored.reply
  rw [hcheck.2] at hreply
  cases hreply

/-- The test of a source. -/
def isAdmissible : EventSource → Bool
  | .answered r => r.stale && r.host != "" && r.request.uri.toText != ""
  | .saved x => x.host != ""

/-- The test is sound. -/
lemma admissible_of_test {source : EventSource} (h : isAdmissible source = true) :
    Admissible source := by
  cases source with
  | answered r =>
    simp only [isAdmissible, Bool.and_eq_true, bne_iff_ne] at h
    exact ⟨h.1.1, h.1.2, h.2⟩
  | saved x => exact bne_iff_ne.mp h

/-- The batch with the event of the style sheet alone is stored. -/
theorem style_batch_stored :
    ∃ o, Reaches (deliveryStep sampleConfig sampleRuntime) deliveryStart o ∧
      ∃ p ∈ o.posts, p.poster.events.length = 1 ∧ p.Stored sampleRuntime := by
  have hrun : ((run (deliveryStep sampleConfig sampleRuntime) deliveryStart
      (flushed styleActions 1)).any fun o =>
        o.posts.any fun p => decide (p.poster.events.length = 1) &&
          decide (p.poster.payload.utf8ByteSize ≤ bodyLimit) &&
            p.poster.emitted.all fun e => isAdmissible e.source) = true := by
    decide +kernel
  obtain ⟨o, ho, hrun⟩ := exists_trace_of_run hrun
  obtain ⟨p, hp, hcheck⟩ := List.any_eq_true.mp hrun
  simp only [Bool.and_eq_true, decide_eq_true_eq, List.all_eq_true] at hcheck
  obtain ⟨⟨hlength, hfits⟩, hsources⟩ := hcheck
  have hiff := posts_stored_iff sampleConfig sampleRuntime 1000000
    (Database.ofDomains Tables.Table.empty) o ho.reaches p hp
  exact ⟨o, ho.reaches, p, hp, hlength,
    hiff.mpr ⟨hfits, fun e he => admissible_of_test (hsources e he)⟩⟩

end SmartSchoolCdn.Events
