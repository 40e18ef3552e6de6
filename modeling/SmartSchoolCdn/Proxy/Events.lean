import SmartSchoolCdn.Proxy.Labels
import SmartSchoolCdn.Proxy.Reports

/-!
# The events of the proxy

The sites that emit an `EventRecord`: `emit_media_cache_event` behind the answers, the event of
an answer served stale, and the two events of a background save.  `State.emission` says which
of them a step passes.  The last part is the JSON text of a batch, whose length the admin
server looks at.
-/

namespace SmartSchoolCdn

variable {cfg : Config} {s : State} {a : Action} {r : Report} {x : Exchange}

/-- `EventRecord`. -/
structure EventRecord where
  eventType : String
  host : String
  url : String
  decision : String
  origSize : Option ℕ
  outSize : Option ℕ
  rangeHeader : Option String
  contentType : Option String
  elapsedMs : ℕ
  deriving DecidableEq, Repr

/-! ## Media answers -/

/-- The extensions of audio and video files. -/
def mediaExtensions : List String :=
  ["mp4", "m4v", "mov", "avi", "webm", "mpg", "mpeg", "mp3", "m4a", "aac", "flac", "wav", "ogg"]

/-- `is_media_request`. -/
def isMediaRequest (path : String) (contentType : Option String) : Bool :=
  let ext := String.ofList ((Text.afterLast path '.').toList.takeWhile Text.isAlphanum)
  mediaExtensions.contains (Text.lower ext) ||
    contentType.any fun ct =>
      let base := Text.lower (contentTypeBase ct)
      Text.startsWith base "video/" || Text.startsWith base "audio/"

/-- The record of an answer, before the test for media. -/
def Report.record (r : Report) (decision : String) (elapsedMs : ℕ) : EventRecord :=
  { eventType := "media_cache"
    host := r.host
    url := r.request.uri.toText
    decision := decision
    origSize := r.origSize
    outSize := r.outSize
    rangeHeader := r.request.headers.getStr "range"
    contentType := r.contentType
    elapsedMs := elapsedMs }

/-- The event of an answer: one served stale has its own decision and needs not be media,
every other one goes to `emit_media_cache_event`. -/
def Report.event (r : Report) (elapsedMs : ℕ) : Option EventRecord :=
  if r.stale then some (r.record "served_stale_if_error" elapsedMs)
  else if isMediaRequest r.request.uri.path r.contentType then some (r.record r.decision elapsedMs)
  else none

/-! ## Background saves -/

/-- `OptimizeDecision` of the optimizer service. -/
inductive OptimizeDecision
  | optimized
  | passthroughLarger
  | passthroughError
  | passthroughUnsupported
  deriving DecidableEq, Repr

/-- `OptimizeDecision::as_str`. -/
def OptimizeDecision.asStr : OptimizeDecision → String
  | .optimized => "optimized"
  | .passthroughLarger => "passthrough_larger"
  | .passthroughError => "passthrough_error"
  | .passthroughUnsupported => "passthrough_unsupported"

/-- What only an event shows of a step: the time that has passed, and the part of the
optimizer's answer that is reported. -/
structure Work where
  elapsedMs : ℕ
  decision : Option OptimizeDecision := none
  originalSize : ℕ := 0
  optimizedSize : ℕ := 0

/-- `is_text_content_type`. -/
def isTextContentType (contentType : Option String) : Bool :=
  contentType.any fun ct => textWhitelist.contains (Text.lower (contentTypeBase ct))

/-- The decision about a text that is not compressed. -/
def skippedDecision (cfg : TextCompressConfig) (contentType contentEncoding : Option String)
    (size : ℕ) : Option String :=
  if isTextContentType contentType then
    if cfg.maxBytes < size then some "skipped_type"
    else if size < cfg.minBytes then some "skipped_small"
    else
      let ce := Text.lower (Text.trim (contentEncoding.getD ""))
      if !ce.isEmpty && ce != "identity" then some "skipped_type" else none
  else none

/-- The decision and the size of a compression that was tried. -/
def compressDecision (codecs : Codecs) (brLevel : ℕ) (body : Bytes) : String × Option ℕ :=
  match codecs.compressBrotli body brLevel with
  | some br =>
    if codecs.isSmaller br.length body.length then ("compressed_br", some br.length)
    else ("skipped_type", none)
  | none => ("error", none)

/-- The record of a text that is saved. -/
def textRecord (x : Exchange) (decision : String) (outSize : Option ℕ) (elapsedMs : ℕ) : EventRecord :=
  { eventType := "text_compress"
    host := x.host
    url := x.fullUrl
    decision := decision
    origSize := some x.response.body.length
    outSize := outSize
    rangeHeader := none
    contentType := x.contentType
    elapsedMs := elapsedMs }

/-- The record of an image that is saved. -/
def imageRecord (x : Exchange) (o : Optimized) (dec : OptimizeDecision) (w : Work) : EventRecord :=
  { eventType := "image_optimize"
    host := x.host
    url := x.fullUrl
    decision := dec.asStr
    origSize := some w.originalSize
    outSize := some w.optimizedSize
    rangeHeader := none
    contentType := some o.contentType
    elapsedMs := w.elapsedMs }

/-- The event of a background save. -/
def saveEvent (cfg : Config) (x : Exchange) (optimized : Option Optimized) (w : Work) :
    Option EventRecord :=
  let tc := cfg.textCompress
  let body := x.response.body
  if shouldOptimize x.contentType then
    optimized.bind fun o => w.decision.map fun dec => imageRecord x o dec w
  else if tc.enabled && shouldCompress x.contentType x.contentEncoding body.length tc.minBytes
      && body.length ≤ tc.maxBytes then
    let (decision, outSize) := compressDecision cfg.codecs tc.brLevel body
    some (textRecord x decision outSize w.elapsedMs)
  else if tc.enabled then
    (skippedDecision tc x.contentType x.contentEncoding body.length).map fun decision =>
      textRecord x decision none 0
  else none

/-- The decisions about saves. -/
def saveDecisions : List String :=
  ["optimized", "passthrough_larger", "passthrough_error", "passthrough_unsupported",
   "compressed_br", "skipped_type", "skipped_small", "error"]

/-- The decisions of the optimizer are among them. -/
lemma asStr_mem (dec : OptimizeDecision) : dec.asStr ∈ saveDecisions := by
  cases dec <;> decide

/-- The decisions about compressed texts are among them. -/
lemma compressDecision_mem (codecs : Codecs) (brLevel : ℕ) (body : Bytes) :
    (compressDecision codecs brLevel body).1 ∈ saveDecisions := by
  unfold compressDecision
  split
  · split
    · exact (by decide : "compressed_br" ∈ saveDecisions)
    · exact (by decide : "skipped_type" ∈ saveDecisions)
  · decide

/-- The decisions about other texts are among them. -/
lemma skippedDecision_mem {tc : TextCompressConfig} {contentType contentEncoding : Option String}
    {size : ℕ} {decision : String}
    (h : skippedDecision tc contentType contentEncoding size = some decision) :
    decision ∈ saveDecisions := by
  have hskipped : decision = "skipped_type" ∨ decision = "skipped_small" := by
    simp only [skippedDecision] at h
    split_ifs at h <;> simp_all
  rcases hskipped with rfl | rfl <;> decide

/-- The event of a save is about its exchange. -/
lemma saveEvent_spec {optimized : Option Optimized} {w : Work} {record : EventRecord}
    (h : saveEvent cfg x optimized w = some record) :
    (record.eventType = "image_optimize" ∨ record.eventType = "text_compress") ∧
      record.host = x.host ∧ record.url = x.fullUrl ∧ record.decision ∈ saveDecisions := by
  unfold saveEvent at h
  simp only at h
  split at h
  · rw [Option.bind_eq_some_iff] at h
    obtain ⟨optimizedImage, -, h⟩ := h
    rw [Option.map_eq_some_iff] at h
    obtain ⟨dec, -, rfl⟩ := h
    exact ⟨Or.inl rfl, rfl, rfl, asStr_mem dec⟩
  · split at h
    · obtain rfl := Option.some.inj h
      exact ⟨Or.inr rfl, rfl, rfl, compressDecision_mem _ _ _⟩
    · split at h
      · rw [Option.map_eq_some_iff] at h
        obtain ⟨decision, hdecision, rfl⟩ := h
        exact ⟨Or.inr rfl, rfl, rfl, skippedDecision_mem hdecision⟩
      · cases h

/-! ## Emissions -/

/-- What an event is about. -/
inductive EventSource
  | answered (r : Report)
  | saved (x : Exchange)

/-- An event with its source. -/
structure Emitted where
  source : EventSource
  record : EventRecord

/-- The event that a step emits. -/
def State.emission (cfg : Config) (s : State) (a : Action) (w : Work) : Option Emitted :=
  match a with
  | .savePrepare id optimized =>
    (s.saves id).bind fun save =>
      (saveEvent cfg save.exchange optimized w).map fun record =>
        { source := .saved save.exchange, record := record }
  | a =>
    (s.report cfg a).bind fun r =>
      (r.event w.elapsedMs).map fun record => { source := .answered r, record := record }

/-- The endings of a decision behind an answer. -/
def rangeSuffixes : List String := ["", "_206", "_416"]

/-- The decision of the site is the value of `X-Cache-Reason`, with an ending for the range. -/
def Report.HeaderDecision (r : Report) : Prop :=
  ∃ outcome : CacheOutcome, ∃ suffix ∈ rangeSuffixes, r.decision = outcome.asHeader ++ suffix

/-- An event that one of the sites builds. -/
def Emitted.Genuine (cfg : Config) (e : Emitted) : Prop :=
  match e.source with
  | .answered r => r.HeaderDecision ∧ ∃ elapsedMs, r.event elapsedMs = some e.record
  | .saved x => ∃ optimized w, saveEvent cfg x optimized w = some e.record

/-- The decision of a range. -/
lemma rangeDecision_eq (outcome : CacheOutcome) (headers : HeaderMap) (total : ℕ) :
    ∃ suffix ∈ rangeSuffixes, rangeDecision outcome headers total = outcome.asHeader ++ suffix := by
  unfold rangeDecision
  cases evaluateRange headers total with
  | full => exact ⟨"", by decide, String.append_empty.symm⟩
  | partialBody start stop => exact ⟨"_206", by decide, rfl⟩
  | invalid => exact ⟨"_416", by decide, rfl⟩

/-- The decision without an ending. -/
lemma headerDecision_of_eq (outcome : CacheOutcome) (h : r.decision = outcome.asHeader) :
    r.HeaderDecision :=
  ⟨outcome, "", by decide, h.trans String.append_empty.symm⟩

/-- Every site has such a decision. -/
lemma headerDecision_of_report (h : s.report cfg a = some r) : r.HeaderDecision := by
  unfold State.report at h
  rw [Option.bind_eq_some_iff] at h
  obtain ⟨rid, -, h⟩ := h
  rw [Option.bind_eq_some_iff] at h
  obtain ⟨t, -, h⟩ := h
  unfold taskReport at h
  split at h
  · split at h
    · rw [Option.bind_eq_some_iff] at h
      obtain ⟨key, -, h⟩ := h
      rw [Option.map_eq_some_iff] at h
      obtain ⟨slot, -, rfl⟩ := h
      exact ⟨_, rangeDecision_eq .l1Hit t.request.headers slot.entry.body.bytes.length⟩
    · cases h
  · split at h
    · obtain rfl := Option.some.inj h
      exact ⟨_, rangeDecision_eq .l2Hit t.request.headers _⟩
    · cases h
  · split at h
    · unfold fetchedReport at h
      split at h
      · obtain rfl := Option.some.inj h
        exact headerDecision_of_eq .bypassOther rfl
      · rename_i resp hresp
        split at h
        · cases h
        · obtain rfl := Option.some.inj h
          by_cases hstatus : resp.status = 200
          · obtain ⟨suffix, hmem, heq⟩ :=
              rangeDecision_eq resp.outcome t.request.headers resp.body.length
            exact ⟨resp.outcome, suffix, hmem, (if_pos hstatus).trans heq⟩
          · exact headerDecision_of_eq resp.outcome (if_neg hstatus)
    · cases h
  · rw [Option.map_eq_some_iff] at h
    obtain ⟨resp, -, rfl⟩ := h
    exact headerDecision_of_eq .bypassSize rfl
  · split at h
    · obtain rfl := Option.some.inj h
      exact headerDecision_of_eq .bypassMethod rfl
    · cases h
  · cases h

/-- A step emits only such events. -/
lemma genuine_of_emission {w : Work} {e : Emitted} (h : s.emission cfg a w = some e) :
    e.Genuine cfg := by
  unfold State.emission at h
  split at h
  · rename_i id optimized
    rw [Option.bind_eq_some_iff] at h
    obtain ⟨save, -, h⟩ := h
    rw [Option.map_eq_some_iff] at h
    obtain ⟨record, hrecord, rfl⟩ := h
    exact ⟨optimized, w, hrecord⟩
  · rw [Option.bind_eq_some_iff] at h
    obtain ⟨r, hr, h⟩ := h
    rw [Option.map_eq_some_iff] at h
    obtain ⟨record, hrecord, rfl⟩ := h
    exact ⟨headerDecision_of_report hr, w.elapsedMs, hrecord⟩

/-! ## The text of a batch -/

/-- A character inside a JSON string, as `serde_json` writes it. -/
def jsonEscape (c : Char) : List Char :=
  if c = '"' then ['\\', '"']
  else if c = '\\' then ['\\', '\\']
  else if c = '\n' then ['\\', 'n']
  else if c = '\r' then ['\\', 'r']
  else if c = '\t' then ['\\', 't']
  else if c.toNat = 8 then ['\\', 'b']
  else if c.toNat = 12 then ['\\', 'f']
  else if c.toNat < 32 then ['\\', 'u', '0', '0', (c.toNat / 16).digitChar, (c.toNat % 16).digitChar]
  else [c]

/-- A JSON string. -/
def jsonString (s : String) : String :=
  "\"" ++ String.ofList (s.toList.flatMap jsonEscape) ++ "\""

/-- A JSON object. -/
def jsonObject (fields : List (String × String)) : String :=
  "\x7b" ++ ",".intercalate (fields.map fun f => jsonString f.1 ++ ":" ++ f.2) ++ "\x7d"

/-- The JSON of the batch that carries the given events. -/
def payloadText (events : List String) : String :=
  jsonObject [("events", "[" ++ ",".intercalate events ++ "]")]

/-- A field that is left out when it has no value. -/
def optionalField (name : String) (value : Option String) : List (String × String) :=
  (value.map fun v => (name, v)).toList

/-- The JSON of a record, with the keys in their order. -/
def EventRecord.text (e : EventRecord) : String :=
  jsonObject (optionalField "content_type" (e.contentType.map jsonString)
    ++ [("decision", jsonString e.decision), ("elapsed_ms", toString e.elapsedMs),
      ("event_type", jsonString e.eventType), ("host", jsonString e.host)]
    ++ optionalField "orig_size" (e.origSize.map toString)
    ++ optionalField "out_size" (e.outSize.map toString)
    ++ optionalField "range_header" (e.rangeHeader.map jsonString)
    ++ [("url", jsonString e.url)])

end SmartSchoolCdn
