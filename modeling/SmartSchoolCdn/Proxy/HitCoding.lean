import SmartSchoolCdn.Proxy.RangeRequests
import SmartSchoolCdn.Proxy.Replay

/-!
# What clients read from a HIT

A save compresses a text and stores the body and its brotli variant as one entry.  The entry then
travels whole: over the wire to the storage and back, from the storage to the memory cache.  So in
every reachable state the variant is the compression of the body next to it, and a client reads a
HIT as that body, whichever coding is negotiated (`hit_coding`).

A range is cut from the body itself.  A range that selects nothing and a HEAD request are answered
without a body.
-/

namespace SmartSchoolCdn

open Traces

variable {cfg : Config} {key : String} {e : MemoryCacheEntry}

/-- The client reads the response as the body, or as the slice of it that the request asks for. A
refused range and a HEAD request have no body; the latter is announced with the whole length. -/
def Response.ReadsAs {codecs : Codecs} (coding : Coding codecs) (sent : Response) (req : Request)
    (body : Bytes) : Prop :=
  if req.method = .head then
    sent.body = [] ∧ contentCoding sent.headers = none ∧
      sent.headers.get "content-length" = some (toString body.length)
  else
    match (req.headers.getStr "range").bind parseByteRange with
    | none => sent.status = 200 ∧ coding.decode (contentCoding sent.headers) sent.body = some body
    | some range => contentCoding sent.headers = none ∧ sent.Serves body (some range)

/-! ## One response -/

/-- A HIT of a HEAD request announces the length of the stored body. -/
lemma contentLength_hitResponse (cfg : Config) (reason : CacheOutcome) {req : Request}
    (hheaders : ∀ nv ∈ e.cachedHeaders, nv.1 ∈ cacheableHeaders) (hmethod : req.method = .head) :
    (hitResponse cfg reason req e).headers.get "content-length" =
      some (toString e.body.bytes.length) := by
  have hnone : e.cachedHeaders.get "content-length" = none :=
    get_of_whitelisted hheaders (by decide)
  simp only [hitResponse, HeaderMap.get_append, get_headerIf, hnone, hmethod]
  simp [HeaderMap.get]

/-- A header that is read as text is there. -/
lemma HeaderMap.isSome_get_of_getStr {headers : HeaderMap} {name raw : String}
    (h : headers.getStr name = some raw) : (headers.get name).isSome = true := by
  cases hget : headers.get name with
  | none => simp [HeaderMap.getStr, hget] at h
  | some value => rfl

/-- A cut body is announced without a coding. -/
lemma hitBody_coding_of_range {req : Request} {range : ByteRange}
    (hparse : (req.headers.getStr "range").bind parseByteRange = some range) :
    (hitBody cfg req e).2.2.2 = none := by
  rcases evaluateRange_spec hparse e.body.bytes.length with ⟨start, stop, hpart, -⟩ | ⟨hrefused, -⟩
  · simp [hitBody, hpart]
  · simp [hitBody, hrefused]

/-- A HIT is read as the body of its entry, if the variant of the entry is the compression of that
body. -/
lemma readsAs_hitResponse (coding : Coding cfg.codecs) (reason : CacheOutcome) (req : Request)
    (hheaders : ∀ nv ∈ e.cachedHeaders, nv.1 ∈ cacheableHeaders)
    (hbr : ∀ br, e.bodyBr.map Copy.bytes = some br →
      cfg.codecs.compressBrotli e.body.bytes cfg.textCompress.brLevel = some br) :
    (hitResponse cfg reason req e).ReadsAs coding req e.body.bytes := by
  obtain ⟨hcoding, -⟩ := get_hitResponse cfg reason req hheaders
  unfold Response.ReadsAs
  split
  · rename_i hmethod
    refine ⟨?_, ?_, contentLength_hitResponse cfg reason hheaders hmethod⟩
    · simp [hitResponse, hmethod]
    · rw [hcoding, hmethod]
      rfl
  · rename_i hmethod
    have hhead : (req.method == Method.head) = false := beq_eq_false_iff_ne.mpr hmethod
    rw [hhead, if_neg Bool.false_ne_true] at hcoding
    split
    · rename_i hparse
      have hfull := (evaluateRange_eq_full_iff req.headers e.body.bytes.length).mpr hparse
      have hwhole : (hitBody cfg req e).2.2.1 = none := by simp [hitBody, hfull]
      obtain ⟨hasRange, hselected⟩ := hitBody_whole hwhole
      have hsent : (hitResponse cfg reason req e).body = (hitBody cfg req e).2.1 := by
        simp [hitResponse, hhead]
      have hdecode := decode_selectEncodedBody coding cfg.textCompress.brLevel hbr hasRange
        cfg.textCompress.gzipLevel (req.headers.getStr "accept-encoding")
      rw [← hselected] at hdecode
      refine ⟨?_, ?_⟩
      · simp [hitResponse, hitBody, hfull]
      · rw [hcoding, hsent]
        exact hdecode
    · rename_i range hparse
      have hrange : (req.headers.get "range").isSome = true := by
        obtain ⟨raw, hraw, -⟩ := Option.bind_eq_some_iff.mp hparse
        exact HeaderMap.isSome_get_of_getStr hraw
      refine ⟨hcoding.trans (hitBody_coding_of_range hparse), ?_⟩
      rw [← hparse]
      exact serves_hitResponse cfg reason hheaders hmethod hrange

/-! ## Runs -/

/-- In every reachable state, the brotli variant of every entry that is in a cache level or on its
way to one decompresses to the body of the entry, and whatever coding and range are asked for, a HIT
of the entry is read as that body; and so is every HIT that was sent. -/
theorem hit_coding (cfg : Config) (coding : Coding cfg.codecs) (maxSizeBytes : UInt64) (t : State)
    (h : Reaches (step cfg) (State.initial maxSizeBytes) t) :
    (∀ key e, Carried cfg t key e →
      (∀ br, e.bodyBr = some br → cfg.codecs.decompressBrotli br.bytes = some e.body.bytes) ∧
      ∀ reason req, (hitResponse cfg reason req e).ReadsAs coding req e.body.bytes) ∧
    ∀ ans ∈ t.answers, ∀ e, ans.via.entry = some e →
      (∀ br, e.bodyBr = some br → cfg.codecs.decompressBrotli br.bytes = some e.body.bytes) ∧
      ans.response.ReadsAs coding ans.request e.body.bytes := by
  have hderived : ∀ {x : Exchange} {e : MemoryCacheEntry}, Derives cfg x e →
      (∀ br, e.bodyBr = some br → cfg.codecs.decompressBrotli br.bytes = some e.body.bytes) ∧
      ∀ reason req, (hitResponse cfg reason req e).ReadsAs coding req e.body.bytes := by
    intro x e hderives
    obtain ⟨hheaders, hbr⟩ := hderives.coded
    refine ⟨fun br heq => ?_, fun reason req => readsAs_hitResponse coding reason req hheaders hbr⟩
    exact coding.decompress_br _ _ _ (hbr br.bytes (by rw [heq, Option.map_some]))
  obtain ⟨as, has⟩ := h
  constructor
  · intro key e he
    have hfrom : From cfg (fun _ => True) key e := by
      refine carried_from has (P := fun _ _ => True) ?_ ?_ ?_ key e he
      · exact fun _ _ _ _ _ _ => trivial
      · exact fun _ _ _ _ _ _ _ => trivial
      · exact fun key e he => absurd he (not_carried_initial maxSizeBytes e)
    exact hderived hfrom.2.2
  · intro ans hans e hentry
    obtain ⟨reason, -, -, hderives, hsent⟩ := (backed_of_run has ans hans).entry hentry
    obtain ⟨hbr, hreads⟩ := hderived hderives
    exact ⟨hbr, hsent ▸ hreads reason ans.request⟩

/-! ## A deployment that compresses -/

/-- Codecs that compress a run of one byte to the byte and the length of the run. -/
def runLengthCodecs : Codecs :=
  { sampleCodecs with
    compressBrotli := fun body _ =>
      match body with
      | [] => none
      | b :: _ =>
        if body.length < 256 ∧ body = List.replicate body.length b then
          some [b, UInt8.ofNat body.length]
        else none
    decompressBrotli := fun coded =>
      match coded with
      | [b, n] => some (List.replicate n.toNat b)
      | _ => none }

/-- A compressed run is decompressed to the run. -/
lemma runLengthCodecs_decompress {body coded : Bytes} {level : ℕ}
    (h : runLengthCodecs.compressBrotli body level = some coded) :
    runLengthCodecs.decompressBrotli coded = some body := by
  cases body with
  | nil => cases h
  | cons b rest =>
    simp only [runLengthCodecs] at h ⊢
    split at h
    · rename_i hrun
      obtain ⟨hlength, hsame⟩ := hrun
      obtain rfl := Option.some.inj h
      simp only
      rw [UInt8.toNat_ofNat_of_lt' hlength, ← hsame]
    · cases h

/-- How clients read them. -/
def runLengthCoding : Coding runLengthCodecs where
  decode coding body :=
    if coding = some "br" then runLengthCodecs.decompressBrotli body
    else if coding = some "gzip" then some (body.drop 1)
    else some body
  decode_none := fun body => rfl
  decode_br := fun _ _ _ h => runLengthCodecs_decompress h
  decompress_br := fun _ _ _ h => runLengthCodecs_decompress h
  decode_gzip := by
    rintro body level coded ⟨⟩
    rfl

/-- The sample deployment with these codecs, without a least size. -/
def compressingConfig : Config :=
  { sampleConfig with
    codecs := runLengthCodecs
    textCompress := { sampleConfig.textCompress with minBytes := 0 } }

/-- A text of twenty bytes is fetched and saved, then asked for again by `req`. -/
def textTwiceActions (req : Request) : List Action :=
  [sampleDomains, .arrive (sampleRequest .get "/page" [])] ++ missActions 0
    ++ fetchActions 0 200 [("content-type", "text/plain")] (List.replicate 20 7)
    ++ [.publish 0, .respond 0] ++ saveActions 0 ++ [.arrive req, .l1Get 1]

/-- The run ends with a HIT of an entry with a variant that meets the test. -/
def State.hitsVariant (t : State) (test : Answer → MemoryCacheEntry → Bool) : Bool :=
  t.answers.any fun ans => ans.via.entry.any fun e => e.bodyBr.isSome && test ans e

/-- What the test finds. -/
lemma of_hitsVariant {t : State} {test : Answer → MemoryCacheEntry → Bool}
    (h : t.hitsVariant test = true) :
    ∃ ans ∈ t.answers, ∃ e, ans.via.entry = some e ∧ e.bodyBr.isSome = true ∧ test ans e = true := by
  simp only [State.hitsVariant, List.any_eq_true, Option.any_eq_true, Bool.and_eq_true] at h
  obtain ⟨ans, hans, e, hentry, hbr, htest⟩ := h
  exact ⟨ans, hans, e, hentry, hbr, htest⟩

/-- A client that accepts brotli is sent the variant, and reads the text. -/
theorem hit_coding_text :
    ∃ t, Reaches (step compressingConfig) (State.initial 1000000) t ∧ ∃ ans ∈ t.answers, ∃ e,
      ans.via.entry = some e ∧ contentCoding ans.response.headers = some "br" ∧
        ans.response.ReadsAs runLengthCoding ans.request e.body.bytes := by
  have hrun : ((run (step compressingConfig) sampleStart (textTwiceActions
      (sampleRequest .get "/page" [("accept-encoding", "br")]))).any fun t =>
        t.hitsVariant fun ans _ => decide (contentCoding ans.response.headers = some "br")) = true := by
    decide +kernel
  obtain ⟨t, ht, hany⟩ := exists_trace_of_run hrun
  obtain ⟨ans, hans, e, hentry, -, hcoding⟩ := of_hitsVariant hany
  exact ⟨t, ht.reaches, ans, hans, e, hentry, of_decide_eq_true hcoding,
    ((hit_coding compressingConfig runLengthCoding 1000000 t ht.reaches).2 ans hans e hentry).2⟩

/-- A range that selects nothing and a HEAD request: the HIT of an entry with a variant has no body,
and no status 206. -/
theorem hit_coding_exceptions :
    (∃ t, Reaches (step compressingConfig) (State.initial 1000000) t ∧ ∃ ans ∈ t.answers, ∃ e,
      ans.via.entry = some e ∧ e.bodyBr.isSome = true ∧ ans.request.method = .get ∧
        ans.response.status = 416 ∧
        runLengthCoding.decode (contentCoding ans.response.headers) ans.response.body ≠
          some e.body.bytes) ∧
    ∃ t, Reaches (step compressingConfig) (State.initial 1000000) t ∧ ∃ ans ∈ t.answers, ∃ e,
      ans.via.entry = some e ∧ e.bodyBr.isSome = true ∧ ans.request.method = .head ∧
        ans.response.status = 200 ∧
        runLengthCoding.decode (contentCoding ans.response.headers) ans.response.body ≠
          some e.body.bytes := by
  constructor
  · have hrun : ((run (step compressingConfig) sampleStart (textTwiceActions
        (sampleRequest .get "/page" [("range", "bytes=20-")]))).any fun t =>
          t.hitsVariant fun ans e => decide (ans.request.method = .get ∧ ans.response.status = 416 ∧
            runLengthCoding.decode (contentCoding ans.response.headers) ans.response.body ≠
              some e.body.bytes)) = true := by
      decide +kernel
    obtain ⟨t, ht, hany⟩ := exists_trace_of_run hrun
    obtain ⟨ans, hans, e, hentry, hbr, hsent⟩ := of_hitsVariant hany
    exact ⟨t, ht.reaches, ans, hans, e, hentry, hbr, of_decide_eq_true hsent⟩
  · have hrun : ((run (step compressingConfig) sampleStart (textTwiceActions
        (sampleRequest .head "/page" []))).any fun t =>
          t.hitsVariant fun ans e => decide (ans.request.method = .head ∧ ans.response.status = 200 ∧
            runLengthCoding.decode (contentCoding ans.response.headers) ans.response.body ≠
              some e.body.bytes)) = true := by
      decide +kernel
    obtain ⟨t, ht, hany⟩ := exists_trace_of_run hrun
    obtain ⟨ans, hans, e, hentry, hbr, hsent⟩ := of_hitsVariant hany
    exact ⟨t, ht.reaches, ans, hans, e, hentry, hbr, of_decide_eq_true hsent⟩

end SmartSchoolCdn
