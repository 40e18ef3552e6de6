import SmartSchoolCdn.Foundation.Protobuf
import SmartSchoolCdn.Proxy.StaleIfError

/-!
# Message sizes

The storage service is called with messages of `storage.proto`, and both ends refuse messages
above a configured length.  The body of an entry and its brotli variant travel in one message,
once in the `PutRequest` of the save and once in the `GetResponse` of a lookup, so what the size
policy of the proxy lets into the cache may be more than a message holds.

A response is stored, and found by the next GET of its key, exactly when both messages are
within the limits (`cacheable_storable_iff`).
-/

namespace SmartSchoolCdn

open Traces Protobuf

/-! ## Messages on the wire -/

/-- The bytes of a `string` field. -/
def utf8 (text : String) : Bytes := text.toUTF8.data.toList

/-- `HeaderEntry`. -/
def encodeHeaderEntry (header : String × String) : Bytes :=
  bytesField 1 (utf8 header.1) ++ bytesField 2 (utf8 header.2)

/-- The bytes of an optional variant: none at all when it is absent. -/
def variantBytes (bodyBr : Option Copy) : Bytes := (bodyBr.map Copy.bytes).getD []

/-- `GetRequest`, `PutRequest` and `PurgeRequest`. -/
def StorageRequest.encode : StorageRequest Copy → Bytes
  | .get key allowStale => bytesField 1 (utf8 key) ++ uintField 2 allowStale.toNat
  | .put key url domain contentType body ttlSecs bodyBr cachedHeaders =>
    bytesField 1 (utf8 key) ++ bytesField 2 (utf8 url) ++ bytesField 3 (utf8 domain)
      ++ bytesField 4 (utf8 contentType) ++ bytesField 5 body.bytes ++ uintField 6 ttlSecs
      ++ bytesField 7 (variantBytes bodyBr) ++ repeatedField 8 (cachedHeaders.map encodeHeaderEntry)
  | .purge (.url url) => delimited 1 (utf8 url)
  | .purge (.domain domain) => delimited 2 (utf8 domain)
  | .purge .all => delimited 3 []

/-- `GetResponse`, `PutResponse` and `PurgeResponse`. -/
def StorageReply.encode : StorageReply Copy → Bytes
  | .got none => []
  | .got (some r) =>
    uintField 1 1 ++ bytesField 2 r.body.bytes ++ bytesField 3 (utf8 r.contentType)
      ++ bytesField 4 (variantBytes r.bodyBr) ++ repeatedField 5 (r.cachedHeaders.map encodeHeaderEntry)
      ++ uintField 6 r.isStale.toNat ++ uintField 7 r.expiresAt
  | .stored => []
  | .purged files freedBytes => uintField 1 files ++ uintField 2 freedBytes.toNat

/-! ## Sizes -/

/-- The size of a `string` field. -/
def textSize (text : String) : ℕ := bytesSize text.utf8ByteSize

/-- The size of the header entries of a message. -/
def headersSize (headers : HeaderMap) : ℕ :=
  (headers.map fun header => delimitedSize (textSize header.1 + textSize header.2)).sum

/-- The size of a body and its variant in one message. -/
def contentSize (body : Copy) (bodyBr : Option Copy) : ℕ :=
  bytesSize body.bytes.length + bytesSize (variantBytes bodyBr).length

/-- The size of a `PutRequest`. -/
def putSize (key url domain contentType : String) (body : Copy) (ttlSecs : ℕ) (bodyBr : Option Copy)
    (cachedHeaders : HeaderMap) : ℕ :=
  contentSize body bodyBr + textSize key + textSize url + textSize domain + textSize contentType
    + uintSize ttlSecs + headersSize cachedHeaders

/-- The size of a `GetResponse` with `hit` set. -/
def getSize (r : GetResponse Copy) : ℕ :=
  contentSize r.body r.bodyBr + uintSize 1 + textSize r.contentType + headersSize r.cachedHeaders
    + uintSize r.isStale.toNat + uintSize r.expiresAt

/-- A text is as long as its UTF-8 encoding. -/
lemma bytesSize_utf8 (text : String) : bytesSize (utf8 text).length = textSize text := rfl

lemma length_headerEntries {field : ℕ} (hfield : field < 16) (headers : HeaderMap) :
    (repeatedField field (headers.map encodeHeaderEntry)).length = headersSize headers := by
  have hentry : ∀ header, (encodeHeaderEntry header).length = textSize header.1 + textSize header.2 := by
    intro header
    rw [encodeHeaderEntry, List.length_append, length_bytesField (by omega),
      length_bytesField (by omega), bytesSize_utf8, bytesSize_utf8]
  rw [length_repeatedField hfield, List.map_map, headersSize]
  simp only [Function.comp_def, hentry]

/-- The length of an encoded `PutRequest`. -/
theorem length_encode_put (key url domain contentType : String) (body : Copy) (ttlSecs : ℕ)
    (bodyBr : Option Copy) (cachedHeaders : HeaderMap) :
    (StorageRequest.put key url domain contentType body ttlSecs bodyBr cachedHeaders).encode.length =
      putSize key url domain contentType body ttlSecs bodyBr cachedHeaders := by
  simp only [StorageRequest.encode, List.length_append, length_bytesField, length_uintField,
    length_headerEntries, bytesSize_utf8, Nat.reduceLT, putSize, contentSize]
  omega

/-- The length of an encoded `GetResponse`. -/
theorem length_encode_got (r : GetResponse Copy) :
    (StorageReply.got (some r)).encode.length = getSize r := by
  simp only [StorageReply.encode, List.length_append, length_bytesField, length_uintField,
    length_headerEntries, bytesSize_utf8, Nat.reduceLT, getSize, contentSize]
  omega

/-- The length of an encoded lookup. -/
lemma length_encode_get (key : String) :
    (StorageRequest.get key false : StorageRequest Copy).encode.length = textSize key := by
  rw [StorageRequest.encode, List.length_append, length_bytesField (by omega),
    length_uintField (by omega), bytesSize_utf8]
  rfl

/-- The body alone is a lower bound for the size of a message. -/
lemma length_lt_putSize {key url domain contentType : String} {body : Copy} {ttlSecs : ℕ}
    {bodyBr : Option Copy} {cachedHeaders : HeaderMap} (hbody : body.bytes ≠ []) :
    body.bytes.length < putSize key url domain contentType body ttlSecs bodyBr cachedHeaders := by
  have hpos : 0 < body.bytes.length := List.length_pos_iff.mpr hbody
  have hsize := lt_bytesSize hpos
  unfold putSize contentSize
  omega

/-! ## Limits -/

/-- `max_encoding_message_size` and `max_decoding_message_size` of one end. -/
structure MessageLimits where
  encoding : ℕ
  decoding : ℕ

/-- The limits of `StorageClient::connect`. -/
def clientLimits : MessageLimits := { encoding := 64 * 1024 * 1024, decoding := 64 * 1024 * 1024 }

/-- The limits of the `StorageServiceServer`. -/
def serverLimits : MessageLimits := { encoding := 64 * 1024 * 1024, decoding := 64 * 1024 * 1024 }

/-- Neither the sender nor the receiver refuses the message. -/
def withinLimits (sender receiver : MessageLimits) (message : Bytes) : Bool :=
  message.length ≤ sender.encoding && message.length ≤ receiver.decoding

/-- A request goes from the client to the server. -/
def StorageRequest.passes (m : StorageRequest Copy) : Bool :=
  withinLimits clientLimits serverLimits m.encode

/-- A reply goes from the server to the client. -/
def StorageReply.passes (r : StorageReply Copy) : Bool :=
  withinLimits serverLimits clientLimits r.encode

/-- A call of the storage service that is up: it is answered when both messages pass. -/
def State.carries (s : State) (m : StorageRequest Copy) : Bool :=
  m.passes && (s.storage.serve s.now m).1.passes

lemma withinLimits_iff {sender receiver : MessageLimits} {message : Bytes} :
    withinLimits sender receiver message = true ↔
      message.length ≤ sender.encoding ∧ message.length ≤ receiver.decoding := by
  simp [withinLimits]

lemma request_passes_iff (m : StorageRequest Copy) :
    m.passes = true ↔ m.encode.length ≤ 67108864 := by
  rw [StorageRequest.passes, withinLimits_iff]
  exact and_self_iff

lemma reply_passes_iff (r : StorageReply Copy) :
    r.passes = true ↔ r.encode.length ≤ 67108864 := by
  rw [StorageReply.passes, withinLimits_iff]
  exact and_self_iff

/-- The storage service is reachable: a save or a lookup is answered exactly when its messages
pass. -/
structure StorageUp (s : State) (a : Action) : Prop where
  save : ∀ id answered save entry, a = .savePut id answered → s.saves id = some save →
    save.phase = .put entry → answered = s.carries (saveRequest save.exchange entry)
  lookup : ∀ rid answered t key, a = .l2Get rid answered → s.tasks rid = some t →
    t.key = some key → answered = s.carries (.get key false)

/-! ## A saved copy and its lookup -/

/-- The reply to a lookup that finds the copy before it expires. -/
def Stored.reply (x : Stored Copy) : StorageReply Copy :=
  .got (some
    { body := x.body
      contentType := x.contentType.getD ""
      bodyBr := x.bodyBr
      cachedHeaders := x.cachedHeaders
      isStale := false
      expiresAt := (x.expiresAt.map timestamp).getD 0 })

/-- What the storage holds when it has executed the save of an entry. -/
def savedCopy (x : Exchange) (entry : MemoryCacheEntry) (savedAt : Time) : Stored Copy :=
  CacheLayer.newStored savedAt ("https://" ++ x.host ++ x.request.uri.toText) x.host
    (ofWireText (entry.contentType.getD "")) entry.body (ofWireSecs x.ttl) (nonEmpty entry.bodyBr)
    entry.cachedHeaders

/-- The reply of the storage service that holds the copy. -/
lemma serve_get_of_fresh {c : CacheLayer Copy} {key : String} {x : Stored Copy} {now : Time}
    (hx : c.stored key = some x) (hfresh : x.isExpired now = false) :
    (c.serve now (.get key false)).1 = x.reply := by
  change StorageReply.got ((c.getWithStale now key false).1.map GetResponse.ofLookup) = _
  rw [CacheLayer.getWithStale_fst, hx]
  simp only [Option.filter, hfresh, Bool.false_and, Bool.not_false, if_true, Option.map_some,
    GetResponse.ofLookup, Stored.toLookup, Stored.reply]

/-- A save for which the capacity is free stores the entry. -/
lemma stored_serve_saveRequest {c : CacheLayer Copy} {x : Exchange} {entry : MemoryCacheEntry}
    (now : Time) (hfree : c.currentSize.toNat + entry.body.bytes.length ≤ c.maxSizeBytes.toNat) :
    (c.serve now (saveRequest x entry)).2.stored x.key = some (savedCopy x entry now) :=
  CacheLayer.stored_put_of_free c now x.key _ _ _ _ _ _ _ hfree

/-! ## The next GET -/

variable {cfg : Config} {s s' : State} {a : Action} {key : String} {x : Stored Copy} {rid : ℕ}

/-- The host of the request is configured. -/
def State.routes (s : State) (req : Request) : Bool :=
  ((req.headers.getStr "host").bind fun raw => findOrigin s.domainMap (normalizeHost raw)).isSome

/-- The storage service is reachable, and the copy is not purged, evicted, replaced or
expired. -/
structure Kept (key : String) (x : Stored Copy) (s : State) (a : Action) : Prop
    extends Undisturbed key s a, StorageUp s a where
  fresh : x.isExpired s.now = false

/-- The phases of a request up to a HIT. -/
def Phase.looksUp : Phase → Bool
  | .l1Lookup | .l2Lookup | .promoting _ _ => true
  | _ => false

lemma answersAlone_of_looksUp {phase : Phase} (h : phase.looksUp = true) :
    phase.answersAlone = false := by
  cases phase <;> first | rfl | cases h

/-- The copy is in place, and the request is looking for it or was answered by a HIT. -/
structure OnHitPath (key : String) (x : Stored Copy) (rid : ℕ) (s : State) : Prop where
  stored : s.storage.stored key = some x
  known : rid < s.nextId
  task : ∀ t, s.tasks rid = some t → t.key = some key ∧ t.phase.looksUp = true
  answer : ∀ ans ∈ s.answers, ans.rid = rid → ans.via.hit.isSome = true

/-- A step that meets the condition keeps the copy. -/
lemma Kept.stored (hC : Kept key x s a) (h : Step cfg s a s') (hx : s.storage.stored key = some x) :
    s'.storage.stored key = some x :=
  hC.toUndisturbed.stored h (fun _ => hC.fresh) hx

/-- The lookup of a request for the copy is answered when its messages pass. -/
lemma carries_of_fresh (hx : s.storage.stored key = some x) (hfresh : x.isExpired s.now = false)
    (hkey : textSize key ≤ 67108864) (hreply : x.reply.passes = true) :
    s.carries (.get key false) = true := by
  have hrequest : (StorageRequest.get key false : StorageRequest Copy).passes = true := by
    rw [request_passes_iff, length_encode_get]
    exact hkey
  rw [State.carries, hrequest, serve_get_of_fresh hx hfresh, hreply]
  rfl

/-- A step keeps a request on the path to a HIT. -/
theorem OnHitPath.step (hP : OnHitPath key x rid s) (hkey : textSize key ≤ 67108864)
    (hreply : x.reply.passes = true) (hC : Kept key x s a) (h : Step cfg s a s') :
    OnHitPath key x rid s' where
  stored := hC.stored h hP.stored
  known := lt_of_lt_of_le hP.known h.advances.nextId
  task := by
    refine h.keeps_task hP.known hP.task fun t phase ht ht' hmove hpath => ⟨hpath.1, ?_⟩
    have hlooks := hpath.2
    change phase.looksUp = true
    cases hmove with
    | l1Miss => rfl
    | l2Hit => rfl
    | l2Miss hphase =>
      -- the lookup was answered, and it finds the copy
      obtain ⟨answered, ha, hmiss⟩ := h.l2Miss hP.known ht hphase ht' rfl
      have hanswered := hC.lookup rid answered t key ha ht hpath.1
      rw [carries_of_fresh hP.stored hC.fresh hkey hreply] at hanswered
      have hexpired := hmiss hanswered key x hpath.1 hP.stored
      rw [hC.fresh] at hexpired
      cases hexpired
    | head hphase | staleMissing hphase | staleRefused hphase | cached hphase | uncached hphase
    | subscribe _ hphase | lead _ hphase | fetch _ hphase | permitTimeout hphase
    | sendFailed hphase | serverError hphase | staleFound _ hphase | staleServed hphase
    | reserve hphase | bufferFull hphase | completed hphase | bodyFailed hphase
    | published _ hphase | received hphase | abandoned _ hphase | sentinel hphase | stream hphase
    | direct hphase =>
      rw [hphase] at hlooks
      cases hlooks
  answer := by
    refine h.keeps_answers hP.answer fun ans hreplies hrid => ?_
    cases hreplies with
    | own hown =>
      rcases hown with ⟨t, ht, -, hphase⟩ | hnext
      · rw [answersAlone_of_looksUp (hP.task t (hrid ▸ ht)).2] at hphase
        cases hphase
      · exact absurd (hrid.symm.trans hnext) (Nat.ne_of_lt hP.known)
    | l1Hit => rfl
    | l2Hit => rfl
    | @coalesced r t leader result ha ht hphase =>
      obtain rfl : r = rid := hrid
      have hlooks := (hP.task t ht).2
      rw [hphase] at hlooks
      cases hlooks

/-- A request of the key for a configured host arrives at the L1 lookup. -/
lemma arrive_of_routes {req : Request} (hkey : requestKey cfg req = some key)
    (hroutes : s.routes req = true) :
    ∃ t : Task, t.key = some key ∧ t.phase = .l1Lookup ∧ s.arrive cfg req =
      { s with nextId := s.nextId + 1, tasks := Function.update s.tasks s.nextId (some t) } := by
  unfold State.routes at hroutes
  unfold requestKey requestUrl at hkey
  unfold State.arrive
  cases hhost : req.headers.getStr "host" with
  | none =>
    rw [hhost] at hroutes
    cases hroutes
  | some raw =>
    rw [hhost, Option.bind_some] at hroutes hkey
    obtain ⟨origin, horigin⟩ := Option.isSome_iff_exists.mp hroutes
    have hkeyOf : cacheKeyOf cfg (normalizeHost raw) req = some key := hkey
    simp only [horigin, hkeyOf, Option.isSome_some, if_true]
    exact ⟨_, rfl, rfl, rfl⟩

/-- A step without a storage call meets the condition. -/
lemma kept_of_not_called (key : String) (hfresh : x.isExpired s.now = false)
    (hcalled : executed s a = none) (hevict : ∀ needed, a ≠ .storageEvict needed)
    (hsave : ∀ id answered, a ≠ .savePut id answered)
    (hlookup : ∀ rid answered, a ≠ .l2Get rid answered) : Kept key x s a where
  called m hm := absurd (hcalled.symm.trans hm) (Option.some_ne_none m).symm
  evicted needed ha := absurd ha (hevict needed)
  save id answered _ _ ha := absurd ha (hsave id answered)
  lookup rid answered _ _ ha := absurd ha (hlookup rid answered)
  fresh := hfresh

/-- An answered lookup of the copy meets the condition. -/
lemma kept_l2Get {t : Task} (ht : s.tasks rid = some t) (hkey : t.key = some key)
    (hx : s.storage.stored key = some x) (hfresh : x.isExpired s.now = false)
    (hsize : textSize key ≤ 67108864) (hreply : x.reply.passes = true) :
    Kept key x s (.l2Get rid true) where
  called := by
    intro m hm
    simp only [executed, ht, hkey, Option.bind_some, Option.map_some, Option.some.injEq] at hm
    exact Or.inl ⟨key, false, hm.symm⟩
  evicted _ ha := by cases ha
  save _ _ _ _ ha := by cases ha
  lookup := by
    rintro rid' answered t' k ha ht' hk
    cases ha
    obtain rfl := Option.some.inj (ht.symm.trans ht')
    obtain rfl : key = k := Option.some.inj (hkey.symm.trans hk)
    exact (carries_of_fresh hx hfresh hsize hreply).symm
  fresh := hfresh

/-- A request at the L1 lookup can go on to a HIT. -/
lemma exists_hit {t : Task} (ht : s.tasks rid = some t) (hkey : t.key = some key)
    (hphase : t.phase = .l1Lookup) (hguard : s.storageGuard = none)
    (hx : s.storage.stored key = some x) (hfresh : x.isExpired s.now = false)
    (hsize : textSize key ≤ 67108864) (hreply : x.reply.passes = true) :
    ∃ as s', Trace (step cfg) (Kept key x) s as s' ∧
      ∃ ans ∈ s'.answers, ans.rid = rid ∧ ans.via.hit.isSome = true := by
  have hl1 : Kept key x s (.l1Get rid) :=
    kept_of_not_called key hfresh rfl (by simp) (by simp) (by simp)
  cases hmemory : s.memoryGet cfg key with
  | some slot => exact l1_hit_run ht hkey hphase hmemory hl1
  | none =>
    refine l2_hit_run ht hkey hphase hguard hmemory hx hfresh hl1 ?_ ?_
    · intro u t' ht' hkey' hstorage hnow
      exact kept_l2Get ht' hkey' (hstorage ▸ hx) (hnow ▸ hfresh) hsize hreply
    · intro u hnow
      exact kept_of_not_called key (hnow ▸ hfresh) rfl (by simp) (by simp) (by simp)

/-- However the run goes on, a request of the key for a configured host that arrives while the
copy is kept is answered by a HIT whenever it is answered, and it can be answered. -/
def NextGetHits (cfg : Config) (key : String) (x : Stored Copy) (s : State) : Prop :=
  ∀ as u req, Trace (step cfg) (Kept key x) s as u → requestKey cfg req = some key →
    u.routes req = true → x.isExpired u.now = false →
    (∀ bs v, Trace (step cfg) (Kept key x) u (.arrive req :: bs) v →
      ∀ ans ∈ v.answers, ans.rid = u.nextId → ans.via.hit.isSome = true) ∧
    (u.storageGuard = none → ∃ bs v, Trace (step cfg) (Kept key x) u (.arrive req :: bs) v ∧
      ∃ ans ∈ v.answers, ans.rid = u.nextId ∧ ans.via.hit.isSome = true)

/-- The next GET finds a copy that the storage holds, when the messages of a lookup pass. -/
theorem nextGetHits_of_stored {maxSizeBytes : UInt64}
    (hs : Reaches (step cfg) (State.initial maxSizeBytes) s) (hx : s.storage.stored key = some x)
    (hsize : textSize key ≤ 67108864) (hreply : x.reply.passes = true) :
    NextGetHits cfg key x s := by
  intro as u req has hkey hroutes hfresh
  have hxu : u.storage.stored key = some x :=
    has.invariant (fun _ _ _ hx hC hst => hC.stored (step_cases hst) hx) hx
  obtain ⟨t, htkey, htphase, harrive⟩ := arrive_of_routes hkey hroutes
  have hst : step cfg u (.arrive req) = some (u.arrive cfg req) := rfl
  generalize hw : u.arrive cfg req = w at harrive hst
  have hxw : w.storage.stored key = some x := by rw [harrive]; exact hxu
  have ht : w.tasks u.nextId = some t := by rw [harrive]; exact Function.update_self _ _ _
  constructor
  · intro bs v hbs
    -- requests answered before have smaller numbers
    have hanswered := answered_of_reaches (hs.trans has.reaches)
    have hpath : OnHitPath key x u.nextId w := by
      refine ⟨hxw, ?_, ?_, ?_⟩
      · rw [harrive]
        exact Nat.lt_succ_self u.nextId
      · intro t' ht'
        obtain rfl := Option.some.inj (ht.symm.trans ht')
        exact ⟨htkey, by rw [htphase]; rfl⟩
      · intro ans hans hrid
        rw [harrive] at hans
        exact absurd hrid (Nat.ne_of_lt (hanswered ans hans).2)
    cases hbs with
    | cons hC hst' hrest =>
      obtain rfl := Option.some.inj (hst.symm.trans hst')
      have hend := hrest.invariant
        (fun _ _ _ hP hC hst => OnHitPath.step hP hsize hreply hC (step_cases hst)) hpath
      exact hend.answer
  · intro hguard
    have hguardw : w.storageGuard = none := by rw [harrive]; exact hguard
    have hfreshw : x.isExpired w.now = false := by rw [harrive]; exact hfresh
    obtain ⟨bs, v, hbs, hans⟩ :=
      @exists_hit cfg w key x u.nextId t ht htkey htphase hguardw hxw hfreshw hsize hreply
    have hkept : Kept key x u (.arrive req) :=
      kept_of_not_called key hfresh rfl (by simp) (by simp) (by simp)
    exact ⟨bs, v, Trace.cons hkept hst hbs, hans⟩

/-! ## Cacheable and storable -/

/-- The background save of `x` is about to call the storage service, and the capacity for its
body is free. -/
structure AboutToSave (x : Exchange) (entry : MemoryCacheEntry) (id : ℕ) (s : State) : Prop where
  save : s.saves id = some { exchange := x, phase := .put entry }
  free : s.storage.currentSize.toNat + entry.body.bytes.length ≤ s.storage.maxSizeBytes.toNat

/-- What a response that may be cached is saved as is storable: both messages that carry it are
within the limits, and after a save at that time the next GET of its key is a HIT. -/
structure StoredAndFound (cfg : Config) (x : Exchange) (entry : MemoryCacheEntry) (savedAt : Time) :
    Prop where
  request : (saveRequest x entry).passes = true
  reply : (savedCopy x entry savedAt).reply.passes = true
  found : ∀ maxSizeBytes s s' id answered, Reaches (step cfg) (State.initial maxSizeBytes) s →
    s.now = savedAt → AboutToSave x entry id s → StorageUp s (.savePut id answered) →
    step cfg s (.savePut id answered) = some s' →
    NextGetHits cfg x.key (savedCopy x entry savedAt) s'

/-- The size of the `PutRequest` of a save. -/
def savePutSize (x : Exchange) (entry : MemoryCacheEntry) : ℕ :=
  putSize x.key ("https://" ++ x.host ++ x.request.uri.toText) x.host (entry.contentType.getD "")
    entry.body x.ttl entry.bodyBr entry.cachedHeaders

/-- The time at which a copy saved at some time expires, in seconds, zero for never. -/
def expirySeconds (x : Exchange) (savedAt : Time) : ℕ :=
  ((ofWireSecs x.ttl).map fun secs =>
    timestamp (savedAt + CacheLayer.chronoSecs secs * second)).getD 0

/-- The size of the `GetResponse` that returns what the save stored. -/
def savedGetSize (x : Exchange) (entry : MemoryCacheEntry) (savedAt : Time) : ℕ :=
  contentSize entry.body entry.bodyBr + 2 + textSize (entry.contentType.getD "")
    + headersSize entry.cachedHeaders + uintSize (expirySeconds x savedAt)

/-- The request of a save passes when its size is within the limits. -/
lemma saveRequest_passes_iff (x : Exchange) (entry : MemoryCacheEntry) :
    (saveRequest x entry).passes = true ↔ savePutSize x entry ≤ 67108864 := by
  rw [request_passes_iff, saveRequest, putRequest, length_encode_put]
  rfl

/-- An empty variant takes no room. -/
lemma variantBytes_nonEmpty (bodyBr : Option Copy) :
    (variantBytes (nonEmpty bodyBr)).length = (variantBytes bodyBr).length := by
  cases bodyBr with
  | none => rfl
  | some br =>
    by_cases hempty : Blob.size br = 0
    · have hbytes : br.bytes.length = 0 := hempty
      simp [nonEmpty, Option.filter, hempty, variantBytes, hbytes]
    · simp [nonEmpty, Option.filter, hempty]

/-- The reply with a saved copy passes when its size is within the limits. -/
lemma savedReply_passes_iff (x : Exchange) (entry : MemoryCacheEntry) (savedAt : Time) :
    (savedCopy x entry savedAt).reply.passes = true ↔ savedGetSize x entry savedAt ≤ 67108864 := by
  have htext : (ofWireText (entry.contentType.getD "")).getD "" = entry.contentType.getD "" := by
    unfold ofWireText
    split <;> simp_all
  have hexpiry : ((savedCopy x entry savedAt).expiresAt.map timestamp).getD 0 =
      expirySeconds x savedAt := by
    rw [expirySeconds, savedCopy, CacheLayer.newStored, Option.map_map]
    rfl
  have hone : uintSize 1 = 2 := by decide
  have hcontent : contentSize (savedCopy x entry savedAt).body (savedCopy x entry savedAt).bodyBr =
      contentSize entry.body entry.bodyBr := by
    have hbr : (savedCopy x entry savedAt).bodyBr = nonEmpty (nonEmpty entry.bodyBr) := rfl
    rw [hbr, contentSize, variantBytes_nonEmpty, variantBytes_nonEmpty]
    rfl
  have hsize : getSize
      { body := (savedCopy x entry savedAt).body
        contentType := (savedCopy x entry savedAt).contentType.getD ""
        bodyBr := (savedCopy x entry savedAt).bodyBr
        cachedHeaders := (savedCopy x entry savedAt).cachedHeaders
        isStale := false
        expiresAt := ((savedCopy x entry savedAt).expiresAt.map timestamp).getD 0 } =
      savedGetSize x entry savedAt := by
    have hct : (savedCopy x entry savedAt).contentType = ofWireText (entry.contentType.getD "") := rfl
    rw [getSize, hcontent, hexpiry, hone, hct, htext]
    rfl
  rw [reply_passes_iff, Stored.reply, length_encode_got, hsize]

/-- A save whose request is too large leaves both levels as they were, unless the entry fits the
memory cache. -/
theorem oversize_save_lost {x : Exchange} {entry : MemoryCacheEntry} {id : ℕ} {answered : Bool}
    {s₁ s₂ : State} (hlarge : 64 * 1024 * 1024 < savePutSize x entry)
    (hmemory : entry.fitsMemory = false)
    (hsave : s.saves id = some { exchange := x, phase := .put entry })
    (hup : StorageUp s (.savePut id answered)) (hput : step cfg s (.savePut id answered) = some s₁)
    (hinsert : step cfg s₁ (.saveInsert id) = some s₂) :
    s₂.storage = s.storage ∧ s₂.memoryCache = s.memoryCache := by
  have hrefused : (saveRequest x entry).passes = false := by
    rw [Bool.eq_false_iff, ne_eq, saveRequest_passes_iff]
    omega
  have hanswered : answered = false := by
    rw [hup.save id answered _ entry rfl hsave rfl, State.carries, hrefused, Bool.false_and]
  subst hanswered
  have hs₁ : s₁.storage = s.storage ∧ s₁.memoryCache = s.memoryCache ∧
      s₁.saves id = some { exchange := x, phase := .insert entry } := by
    cases step_cases hput with
    | @savePut _ save entry' _ hsave' hphase =>
      obtain rfl := Option.some.inj (hsave.symm.trans hsave')
      obtain rfl : entry = entry' := SavePhase.put.inj hphase
      exact ⟨rfl, rfl, Function.update_self _ _ _⟩
  obtain ⟨hstorage, hcache, hsave₁⟩ := hs₁
  cases step_cases hinsert with
  | @saveInsert _ save entry' hsave' hphase =>
    obtain rfl := Option.some.inj (hsave₁.symm.trans hsave')
    obtain rfl : entry = entry' := SavePhase.insert.inj hphase
    rw [State.saveInsert, hmemory]
    exact ⟨hstorage, hcache⟩

/-! ## A large lecture -/

/-- The answer of an origin to a GET of a video. -/
def lecture (body : Bytes) : Exchange :=
  { id := 0
    rid := 0
    key := "GET:a.test/lecture.mp4?"
    host := "a.test"
    request := sampleRequest .get "/lecture.mp4" []
    response := { status := 200, headers := [("content-type", "video/mp4")], body := body } }

/-- A video up to the size limit of the proxy may be cached. -/
lemma lecture_outcome {body : Bytes} (hbody : body.length ≤ maxCacheEntryBytes) :
    (lecture body).outcome = .miss := by
  refine (originOutcome_eq_miss_iff _ _).mpr ⟨rfl, ?_, ?_, ?_, ?_, hbody⟩
  · exact (by decide : hasSetCookie [("content-type", "video/mp4")] = false)
  · exact (by decide : hasVaryStar [("content-type", "video/mp4")] = false)
  · exact (by decide : cacheDirectiveOf [("content-type", "video/mp4")] = .noStore →
      isStaticExtension "/lecture.mp4" = true)
  · exact (by decide : isCacheableContentType (contentTypeBase
      ((HeaderMap.getStr [("content-type", "video/mp4")] "content-type").getD "")) = true)

/-- The save of a video of 64 MiB has a request above the limit. -/
lemma lecture_refused {body : Bytes} (hbody : body.length = 67108864) :
    67108864 < savePutSize (lecture body) (preparedEntry sampleConfig (lecture body) none) := by
  have hbytes : (preparedEntry sampleConfig (lecture body) none).body.bytes = body := by
    rw [preparedEntry_bytes]
    exact storeVariant_body (Or.inr rfl)
  have hne : (preparedEntry sampleConfig (lecture body) none).body.bytes ≠ [] := by
    rw [hbytes]
    rintro rfl
    cases hbody
  rw [← hbody]
  nth_rewrite 1 [← hbytes]
  exact length_lt_putSize hne

end SmartSchoolCdn
