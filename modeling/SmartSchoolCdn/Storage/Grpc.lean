import SmartSchoolCdn.Storage.CacheLayer

/-!
# The storage service over gRPC

`services/storage-service/src/grpc.rs` and the client side of it in
`services/proxy/src/clients/storage_client.rs`.  Absent optional fields travel as empty
values: an absent content type as the empty string, an absent brotli variant as empty bytes,
and an absent time to live as zero seconds, which therefore also is what a time to live of
zero seconds becomes.

A call that is not answered within the client's time limit gives the caller nothing; whether
and when the service still executes it is up to the environment.
-/

namespace SmartSchoolCdn

/-- `purge_request::Target`. -/
inductive PurgeTarget
  | url (url : String)
  | domain (domain : String)
  | all
  deriving DecidableEq, Repr

/-- The request messages of the service. -/
inductive StorageRequest (β : Type)
  | get (key : String) (allowStale : Bool)
  | put (key url domain contentType : String) (body : β) (ttlSecs : ℕ) (bodyBr : Option β)
      (cachedHeaders : HeaderMap)
  | purge (target : PurgeTarget)
  deriving DecidableEq

/-- `GetResponse` with `hit` set. -/
structure GetResponse (β : Type) where
  body : β
  contentType : String
  bodyBr : Option β
  cachedHeaders : HeaderMap
  isStale : Bool
  expiresAt : ℕ

/-- The response messages of the service; a lookup without a hit answers `got none`. -/
inductive StorageReply (β : Type)
  | got (response : Option (GetResponse β))
  | stored
  | purged (files : ℕ) (freedBytes : UInt64)

section Wire

variable {β : Type} [Blob β]

/-- Empty text on the wire stands for absence. -/
def ofWireText (s : String) : Option String := if s.isEmpty then none else some s

/-- Empty bytes on the wire stand for absence. -/
def nonEmpty (b : Option β) : Option β := b.filter fun b => Blob.size b != 0

/-- Zero seconds on the wire stand for absence. -/
def ofWireSecs (secs : ℕ) : Option ℕ := if secs > 0 then some secs else none

/-- The service's answer to a lookup: `StorageGrpc::get`. -/
def GetResponse.ofLookup (l : Lookup β) : GetResponse β :=
  { body := l.body
    contentType := l.contentType.getD ""
    bodyBr := l.bodyBr
    cachedHeaders := l.cachedHeaders
    isStale := l.isStale
    expiresAt := l.expiresAt }

/-- What the client reads from an answer: `StorageClient::get_with_stale`. -/
def GetResponse.toLookup (r : GetResponse β) : Lookup β :=
  { body := r.body
    contentType := ofWireText r.contentType
    bodyBr := nonEmpty r.bodyBr
    cachedHeaders := r.cachedHeaders
    isStale := r.isStale
    expiresAt := r.expiresAt }

/-- The request message of `StorageClient::put`. -/
def putRequest (key url domain : String) (contentType : Option String) (body : β)
    (ttl : Option ℕ) (bodyBr : Option β) (cachedHeaders : HeaderMap) : StorageRequest β :=
  .put key url domain (contentType.getD "") body (ttl.getD 0) bodyBr cachedHeaders

namespace CacheLayer

/-- The handlers of `StorageGrpc`, each delegating to the cache layer. -/
def serve (c : CacheLayer β) (now : Time) : StorageRequest β → StorageReply β × CacheLayer β
  | .get key allowStale =>
    (.got ((c.getWithStale now key allowStale).1.map GetResponse.ofLookup),
      (c.getWithStale now key allowStale).2)
  | .put key url domain contentType body ttlSecs bodyBr cachedHeaders =>
    (.stored, c.put now key url domain (ofWireText contentType) body (ofWireSecs ttlSecs)
      (nonEmpty bodyBr) cachedHeaders)
  | .purge (.url url) =>
    (.purged (c.purgeByUrl url).1 (c.purgeByUrl url).2.1, (c.purgeByUrl url).2.2)
  | .purge (.domain domain) =>
    (.purged (c.purgeDomain domain).1 (c.purgeDomain domain).2.1, (c.purgeDomain domain).2.2)
  | .purge .all => (.purged c.purgeAll.1 c.purgeAll.2.1, c.purgeAll.2.2)

end CacheLayer

/-- The lookup in an answer. -/
def StorageReply.lookup : StorageReply β → Option (Lookup β)
  | .got (some r) => some r.toLookup
  | _ => none

/-- Whether a purge removes what is stored: the recorded name has to be the same string. -/
def PurgeTarget.removes (target : PurgeTarget) (x : Stored β) : Bool :=
  match target with
  | .url u => x.url == u
  | .domain d => x.domain == d
  | .all => true

/-- A lookup as the client sees it. -/
def Stored.seen (x : Stored β) (now : Time) : Lookup β :=
  (GetResponse.ofLookup (x.toLookup now)).toLookup

namespace CacheLayer

/-- What the client reads from the answer to a lookup. -/
theorem lookup_serve_get (c : CacheLayer β) (now : Time) (key : String) (allowStale : Bool) :
    (c.serve now (.get key allowStale)).1.lookup =
      ((c.stored key).filter fun x => !(x.isExpired now && !allowStale)).map
        fun x => x.seen now := by
  change (StorageReply.got ((c.getWithStale now key allowStale).1.map GetResponse.ofLookup)).lookup = _
  rw [getWithStale_fst]
  cases (c.stored key).filter fun x => !(x.isExpired now && !allowStale) with
  | none => rfl
  | some x => rfl

/-- A purge removes exactly the content its target names. -/
theorem stored_serve_purge (c : CacheLayer β) (now : Time) (target : PurgeTarget) (k : String) :
    (c.serve now (.purge target)).2.stored k =
      (c.stored k).filter fun x => !target.removes x := by
  cases target with
  | url url => exact stored_purgeByUrl c url k
  | domain domain => exact stored_purgeDomain c domain k
  | all =>
    refine (stored_purgeAll c k).trans ?_
    cases c.stored k with
    | none => rfl
    | some x => simp [Option.filter, PurgeTarget.removes]

/-- No request creates content other than what a `put` message carries. -/
theorem stored_serve (c : CacheLayer β) (now : Time) (req : StorageRequest β) (k : String) :
    (c.serve now req).2.stored k = none ∨ (c.serve now req).2.stored k = c.stored k ∨
      ∃ url domain contentType body ttlSecs bodyBr cachedHeaders,
        req = .put k url domain contentType body ttlSecs bodyBr cachedHeaders ∧
        (c.serve now req).2.stored k =
          some (newStored now url domain (ofWireText contentType) body (ofWireSecs ttlSecs)
            (nonEmpty bodyBr) cachedHeaders) := by
  have hfilter : ∀ (p : Stored β → Bool) (o : Option (Stored β)),
      o.filter p = none ∨ o.filter p = o := by
    intro p o
    cases o with
    | none => exact Or.inl rfl
    | some x => by_cases hp : p x = true <;> simp [Option.filter, hp]
  cases req with
  | get key allowStale =>
    have hget := stored_getWithStale c now key allowStale k
    rcases hfilter (fun x => !(k == key && x.isExpired now && !allowStale)) (c.stored k) with h | h
    · exact Or.inl (hget.trans h)
    · exact Or.inr (Or.inl (hget.trans h))
  | put key url domain contentType body ttlSecs bodyBr cachedHeaders =>
    rcases stored_put c now key url domain (ofWireText contentType) body (ofWireSecs ttlSecs)
      (nonEmpty bodyBr) cachedHeaders k with h | h | ⟨rfl, h⟩
    · exact Or.inl h
    · exact Or.inr (Or.inl h)
    · exact Or.inr (Or.inr ⟨url, domain, contentType, body, ttlSecs, bodyBr, cachedHeaders, rfl, h⟩)
  | purge target =>
    have hpurge := stored_serve_purge c now target k
    rcases hfilter (fun x => !target.removes x) (c.stored k) with h | h
    · exact Or.inl (hpurge.trans h)
    · exact Or.inr (Or.inl (hpurge.trans h))

end CacheLayer

end Wire

end SmartSchoolCdn
