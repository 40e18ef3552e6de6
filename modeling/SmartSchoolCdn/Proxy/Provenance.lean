import SmartSchoolCdn.Proxy.Steps

/-!
# Where cached entries come from

An entry is *afloat* under a key when the memory cache holds it, when a request is about to
promote it, when a background save carries it, or when an unanswered `put` may still bring
it to the storage.  One step only moves entries between the storage and the places where
they are afloat, and the only new entries are those of the save that the step starts.

From this inversion of a step the provenance rule follows: a property of exchanges that
every started save has is a property of everything the caches hold.
-/

namespace SmartSchoolCdn

/-! ## Entries on the wire -/

/-- An entry after a trip over the wire: absent and empty values are the same. -/
def MemoryCacheEntry.wire (e : MemoryCacheEntry) : MemoryCacheEntry :=
  { e with contentType := ofWireText (e.contentType.getD ""), bodyBr := nonEmpty e.bodyBr }

/-- The content of the storage as an entry. -/
def Stored.toEntry (x : Stored Copy) : MemoryCacheEntry :=
  { body := x.body
    contentType := x.contentType
    bodyBr := x.bodyBr
    cachedHeaders := x.cachedHeaders }

/-- Empty bytes are dropped once. -/
@[simp] lemma nonEmpty_nonEmpty (b : Option Copy) : nonEmpty (nonEmpty b) = nonEmpty b := by
  unfold nonEmpty
  cases b with
  | none => rfl
  | some b => by_cases hb : Blob.size b = 0 <;> simp [Option.filter, hb]

/-- An absent or empty text arrives as absent, any other text unchanged. -/
@[simp] lemma ofWireText_getD (o : Option String) :
    ofWireText ((ofWireText (o.getD "")).getD "") = ofWireText (o.getD "") := by
  unfold ofWireText
  by_cases ho : (o.getD "").isEmpty = true
  · simp [ho]
  · simp [ho]

/-- A second trip changes nothing. -/
@[simp] lemma MemoryCacheEntry.wire_wire (e : MemoryCacheEntry) : e.wire.wire = e.wire := by
  simp [MemoryCacheEntry.wire]

/-- The bytes of the body survive the wire, with their source. -/
@[simp] lemma MemoryCacheEntry.wire_body (e : MemoryCacheEntry) : e.wire.body = e.body := rfl

/-- The promoted entry is the stored one after a trip over the wire. -/
lemma seen_toEntry (x : Stored Copy) (now : Time) : (x.seen now).toEntry = x.toEntry.wire := rfl

/-- What a `put` message stores. -/
lemma newStored_toEntry (now : Time) (url domain contentType : String) (body : Copy) (ttlSecs : ℕ)
    (bodyBr : Option Copy) (cachedHeaders : HeaderMap) :
    (CacheLayer.newStored now url domain (ofWireText contentType) body (ofWireSecs ttlSecs)
      (nonEmpty bodyBr) cachedHeaders).toEntry =
      { body := body, contentType := ofWireText contentType, bodyBr := nonEmpty bodyBr,
        cachedHeaders := cachedHeaders } := by
  have hbr : (nonEmpty bodyBr).filter (fun br => Blob.size br != 0) = nonEmpty bodyBr :=
    nonEmpty_nonEmpty bodyBr
  simp only [CacheLayer.newStored, Stored.toEntry, hbr]

/-! ## Entries afloat -/

/-- The entry is in the memory cache, or on its way to it or to the storage. -/
inductive Afloat (cfg : Config) (s : State) (key : String) : MemoryCacheEntry → Prop
  | memory {slot} : s.memoryCache key = some slot → Afloat cfg s key slot.entry
  | promoting {rid t x lookedUpAt} : s.tasks rid = some t → t.key = some key →
      t.phase = .promoting x lookedUpAt → Afloat cfg s key (x.seen lookedUpAt).toEntry
  | prepare {id save optimized} : s.saves id = some save → save.exchange.key = key →
      save.phase = .prepare → (optimized.isSome = true → cfg.hasOptimizer = true) → Afloat cfg s key (preparedEntry cfg save.exchange optimized)
  | put {id save entry} : s.saves id = some save → save.exchange.key = key →
      save.phase = .put entry → Afloat cfg s key entry
  | insert {id save entry} : s.saves id = some save → save.exchange.key = key →
      save.phase = .insert entry → Afloat cfg s key entry
  | detached {url domain contentType body ttlSecs bodyBr cachedHeaders} :
      .put key url domain contentType body ttlSecs bodyBr cachedHeaders ∈ s.detached →
      Afloat cfg s key { body := body, contentType := ofWireText contentType,
                         bodyBr := nonEmpty bodyBr, cachedHeaders := cachedHeaders }

/-- The entry is afloat and prepared: its body does not depend on an answer of the optimizer
any more. -/
inductive Prepared (s : State) (key : String) : MemoryCacheEntry → Prop
  | memory {slot} : s.memoryCache key = some slot → Prepared s key slot.entry
  | promoting {rid t x lookedUpAt} : s.tasks rid = some t → t.key = some key →
      t.phase = .promoting x lookedUpAt → Prepared s key (x.seen lookedUpAt).toEntry
  | put {id save entry} : s.saves id = some save → save.exchange.key = key →
      save.phase = .put entry → Prepared s key entry
  | insert {id save entry} : s.saves id = some save → save.exchange.key = key →
      save.phase = .insert entry → Prepared s key entry
  | detached {url domain contentType body ttlSecs bodyBr cachedHeaders} :
      .put key url domain contentType body ttlSecs bodyBr cachedHeaders ∈ s.detached →
      Prepared s key { body := body, contentType := ofWireText contentType,
                       bodyBr := nonEmpty bodyBr, cachedHeaders := cachedHeaders }

variable {cfg : Config} {s s' : State} {a : Action} {key : String}

/-- A prepared entry is afloat. -/
lemma Prepared.afloat {e : MemoryCacheEntry} (h : Prepared s key e) : Afloat cfg s key e := by
  cases h with
  | memory hslot => exact Afloat.memory hslot
  | promoting ht hkey hphase => exact Afloat.promoting ht hkey hphase
  | put hs hkey hphase => exact Afloat.put hs hkey hphase
  | insert hs hkey hphase => exact Afloat.insert hs hkey hphase
  | detached hmem => exact Afloat.detached hmem

/-- The message of a save carries the entry over the wire. -/
lemma saveRequest_eq_put {x : Exchange} {entry : MemoryCacheEntry}
    {url domain contentType : String} {body : Copy} {ttlSecs : ℕ} {bodyBr : Option Copy}
    {cachedHeaders : HeaderMap}
    (h : StorageRequest.put key url domain contentType body ttlSecs bodyBr cachedHeaders =
      saveRequest x entry) :
    x.key = key ∧ ttlSecs = x.ttl ∧ url = "https://" ++ x.host ++ x.request.uri.toText ∧
      domain = x.host ∧
      ({ body := body, contentType := ofWireText contentType, bodyBr := nonEmpty bodyBr,
         cachedHeaders := cachedHeaders } : MemoryCacheEntry) = entry.wire := by
  simp only [saveRequest, putRequest, StorageRequest.put.injEq, Option.getD_some] at h
  obtain ⟨rfl, rfl, rfl, rfl, rfl, rfl, rfl, rfl⟩ := h
  exact ⟨rfl, rfl, rfl, rfl, rfl⟩

/-- A `put` that the storage executes is the call of a background save, made now or put
aside earlier. -/
lemma executed_put {url domain contentType : String} {body : Copy} {ttlSecs : ℕ}
    {bodyBr : Option Copy} {cachedHeaders : HeaderMap}
    (h : executed s a =
      some (.put key url domain contentType body ttlSecs bodyBr cachedHeaders)) :
    (∃ id save entry, a = .savePut id true ∧ s.saves id = some save ∧ save.phase = .put entry ∧
      .put key url domain contentType body ttlSecs bodyBr cachedHeaders =
        saveRequest save.exchange entry) ∨
    (∃ index, a = .lateCall index ∧
      .put key url domain contentType body ttlSecs bodyBr cachedHeaders ∈ s.detached) := by
  unfold executed at h
  split at h
  · simp only [Option.bind_eq_some_iff, Option.map_eq_some_iff, reduceCtorEq, and_false,
      exists_false] at h
  · simp only [Option.bind_eq_some_iff, Option.map_eq_some_iff, reduceCtorEq, and_false,
      exists_false] at h
  · rename_i id
    rw [Option.bind_eq_some_iff] at h
    obtain ⟨save, hs, h⟩ := h
    split at h
    · rename_i entry hphase
      exact Or.inl ⟨id, save, entry, rfl, hs, hphase, (Option.some.inj h).symm⟩
    · cases h
  · cases h
  · rename_i index
    exact Or.inr ⟨index, rfl, List.mem_of_getElem? h⟩
  · simp only [Option.bind_eq_some_iff, Option.map_eq_some_iff, reduceCtorEq, and_false,
      exists_false] at h
  · cases h

/-- What the storage holds was there before, or is stored by the call the step executes. -/
theorem Step.stored (h : Step cfg s a s') {x : Stored Copy}
    (hx : s'.storage.stored key = some x) :
    s.storage.stored key = some x ∨
    ∃ url domain contentType body ttlSecs bodyBr cachedHeaders,
      executed s a = some (.put key url domain contentType body ttlSecs bodyBr cachedHeaders) ∧
      x = CacheLayer.newStored s.now url domain (ofWireText contentType) body (ofWireSecs ttlSecs)
        (nonEmpty bodyBr) cachedHeaders := by
  rcases h.storage with ⟨m, hm, hstorage, -⟩ | ⟨-, -, hstorage | ⟨needed, -, hstorage⟩⟩
  · rw [hstorage] at hx
    rcases CacheLayer.stored_serve s.storage s.now m key with hnone | hsame | hput
    · rw [hnone] at hx
      cases hx
    · exact Or.inl (hsame ▸ hx)
    · obtain ⟨url, domain, contentType, body, ttlSecs, bodyBr, cachedHeaders, rfl, hnew⟩ := hput
      rw [hnew] at hx
      exact Or.inr ⟨url, domain, contentType, body, ttlSecs, bodyBr, cachedHeaders, hm,
        (Option.some.inj hx).symm⟩
  · exact Or.inl (hstorage ▸ hx)
  · rw [hstorage] at hx
    rcases CacheLayer.stored_evictLru s.storage needed key with hnone | hsame
    · rw [hnone] at hx
      cases hx
    · exact Or.inl (hsame ▸ hx)

/-- What a call stores was prepared. -/
lemma prepared_of_executed_put {url domain contentType : String} {body : Copy} {ttlSecs : ℕ}
    {bodyBr : Option Copy} {cachedHeaders : HeaderMap}
    (h : executed s a =
      some (.put key url domain contentType body ttlSecs bodyBr cachedHeaders)) :
    ∃ e, Prepared s key e ∧
      ({ body := body, contentType := ofWireText contentType, bodyBr := nonEmpty bodyBr,
         cachedHeaders := cachedHeaders } : MemoryCacheEntry) = e.wire := by
  rcases executed_put h with ⟨id, save, entry, -, hs, hphase, hmsg⟩ | ⟨index, -, hmem⟩
  · obtain ⟨hkey, -, -, -, hentry⟩ := saveRequest_eq_put hmsg
    exact ⟨entry, Prepared.put hs hkey hphase, hentry⟩
  · refine ⟨_, Prepared.detached hmem, ?_⟩
    have htext : ofWireText ((ofWireText contentType).getD "") = ofWireText contentType :=
      ofWireText_getD (some contentType)
    simp [MemoryCacheEntry.wire, htext]

/-- What the storage holds was there before, or was prepared. -/
theorem Step.stored_or_prepared (h : Step cfg s a s') {x : Stored Copy}
    (hx : s'.storage.stored key = some x) :
    s.storage.stored key = some x ∨ ∃ e, Prepared s key e ∧ x.toEntry = e.wire := by
  rcases h.stored hx with hold | ⟨url, domain, contentType, body, ttlSecs, bodyBr, cachedHeaders,
    hexec, rfl⟩
  · exact Or.inl hold
  · obtain ⟨e, he, heq⟩ := prepared_of_executed_put hexec
    exact Or.inr ⟨e, he, (newStored_toEntry _ _ _ _ _ _ _ _).trans heq⟩

/-- What the storage holds was there before, or was afloat. -/
theorem Step.stored_or_afloat (h : Step cfg s a s') {x : Stored Copy}
    (hx : s'.storage.stored key = some x) :
    s.storage.stored key = some x ∨ ∃ e, Afloat cfg s key e ∧ x.toEntry = e.wire := by
  rcases h.stored_or_prepared hx with hold | ⟨e, he, heq⟩
  · exact Or.inl hold
  · exact Or.inr ⟨e, he.afloat, heq⟩

/-- A request begins a promotion with an answered lookup that finds a fresh copy. -/
lemma Moves.promoting {rid : ℕ} {t : Task} {x : Stored Copy} {lookedUpAt : Time}
    (h : Moves cfg s a rid t (.promoting x lookedUpAt)) :
    ∃ key, a = .l2Get rid true ∧ t.key = some key ∧ s.storage.stored key = some x ∧
      x.isExpired s.now = false ∧ lookedUpAt = s.now := by
  generalize hφ : Phase.promoting x lookedUpAt = φ at h
  cases h with
  | l2Hit ha hphase hkey hstored hexp =>
    cases hφ
    exact ⟨_, ha, hkey, hstored, hexp, rfl⟩
  | head hphase hstatus heq => exact absurd (hφ.trans heq) (afterHead_ne rfl)
  | staleMissing hphase heq => exact absurd (hφ.trans heq) (withoutStale_ne rfl)
  | staleRefused hphase heq => exact absurd (hφ.trans heq) (withoutStale_ne rfl)
  | _ => cases hφ

/-- What is prepared was prepared before, possibly without the trip over the wire, or was found
in the storage by an L2 lookup, or has just been prepared by a background save. -/
theorem Step.prepared (h : Step cfg s a s') {e : MemoryCacheEntry} (he : Prepared s' key e) :
    (∃ e₀, Prepared s key e₀ ∧ (e = e₀ ∨ e = e₀.wire)) ∨
    (∃ rid t x, a = .l2Get rid true ∧ s.tasks rid = some t ∧ t.key = some key ∧
      s.storage.stored key = some x ∧ x.isExpired s.now = false ∧ e = x.toEntry.wire) ∨
    (∃ id save optimized, a = .savePrepare id optimized ∧ s.saves id = some save ∧
      save.exchange.key = key ∧ save.phase = .prepare ∧
      (optimized.isSome = true → cfg.hasOptimizer = true) ∧
      e = preparedEntry cfg save.exchange optimized) := by
  have hkept : ∀ {e}, Prepared s key e → (∃ e₀, Prepared s key e₀ ∧ (e = e₀ ∨ e = e₀.wire)) :=
    fun he => ⟨_, he, Or.inl rfl⟩
  cases he with
  | memory hslot =>
    rcases h.memoryCache hslot with hold | ⟨rid, t, x, lookedUpAt, -, ht, hkey, hphase, rfl⟩ |
      ⟨id, save, entry, -, hs, hphase, hkey, rfl⟩
    · exact Or.inl (hkept (Prepared.memory hold))
    · exact Or.inl (hkept (Prepared.promoting ht hkey hphase))
    · exact Or.inl (hkept (Prepared.insert hs hkey hphase))
  | @promoting rid t' x lookedUpAt ht' hkey hphase =>
    rcases h.moved ht' hphase rfl with hold | ⟨t, ht, rfl, hmove⟩
    · exact Or.inl (hkept (Prepared.promoting hold hkey hphase))
    · obtain ⟨key', ha, hkey', hstored, hfresh, -⟩ := hmove.promoting
      obtain rfl := Option.some.inj (hkey.symm.trans hkey')
      exact Or.inr (Or.inl ⟨rid, t, x, ha, ht, hkey, hstored, hfresh, seen_toEntry x lookedUpAt⟩)
  | @put id save entry hs hkey hphase =>
    rcases h.saves hs with hold | ⟨-, -, hprepare⟩ | ⟨old, hold, hx, hmove⟩
    · exact Or.inl (hkept (Prepared.put hold hkey hphase))
    · rw [hphase] at hprepare
      cases hprepare
    · rw [hphase] at hmove
      rcases hmove with ⟨hprepare, optimized, ha, hallowed, hput⟩ | ⟨entry, -, hinsert⟩
      · exact Or.inr (Or.inr ⟨id, old, optimized, ha, hold, hx ▸ hkey, hprepare, hallowed,
          SavePhase.put.inj hput⟩)
      · exact SavePhase.noConfusion hinsert
  | @insert id save entry hs hkey hphase =>
    rcases h.saves hs with hold | ⟨-, -, hprepare⟩ | ⟨old, hold, hx, hmove⟩
    · exact Or.inl (hkept (Prepared.insert hold hkey hphase))
    · rw [hphase] at hprepare
      cases hprepare
    · rw [hphase] at hmove
      rcases hmove with ⟨-, optimized, -, -, hput⟩ | ⟨entry', hput, hinsert⟩
      · exact SavePhase.noConfusion hput
      · rw [SavePhase.insert.inj hinsert]
        exact Or.inl (hkept (Prepared.put hold (hx ▸ hkey) hput))
  | @detached url domain contentType body ttlSecs bodyBr cachedHeaders hmem =>
    rcases h.detached hmem with hold | ⟨key, allowStale, hget⟩ | ⟨target, hpurge⟩ |
      ⟨id, save, entry, hs, hphase, hmsg⟩
    · exact Or.inl (hkept (Prepared.detached hold))
    · cases hget
    · cases hpurge
    · obtain ⟨hkey, -, -, -, hentry⟩ := saveRequest_eq_put hmsg
      exact Or.inl ⟨entry, Prepared.put hs hkey hphase, Or.inr hentry⟩

/-- What is afloat is prepared, or a background save may still make it. -/
lemma Afloat.prepared_or {e : MemoryCacheEntry} (he : Afloat cfg s key e) :
    Prepared s key e ∨ ∃ id save optimized, s.saves id = some save ∧ save.exchange.key = key ∧
      save.phase = .prepare ∧ (optimized.isSome = true → cfg.hasOptimizer = true) ∧
      e = preparedEntry cfg save.exchange optimized := by
  cases he with
  | memory hslot => exact Or.inl (Prepared.memory hslot)
  | promoting ht hkey hphase => exact Or.inl (Prepared.promoting ht hkey hphase)
  | prepare hs hkey hphase hallowed => exact Or.inr ⟨_, _, _, hs, hkey, hphase, hallowed, rfl⟩
  | put hs hkey hphase => exact Or.inl (Prepared.put hs hkey hphase)
  | insert hs hkey hphase => exact Or.inl (Prepared.insert hs hkey hphase)
  | detached hmem => exact Or.inl (Prepared.detached hmem)

/-- What is afloat was afloat before, possibly without the trip over the wire, or was found
in the storage by an L2 lookup, or belongs to the save that the step starts. -/
theorem Step.afloat (h : Step cfg s a s') {e : MemoryCacheEntry} (he : Afloat cfg s' key e) :
    (∃ e₀, Afloat cfg s key e₀ ∧ (e = e₀ ∨ e = e₀.wire)) ∨
    (∃ rid t x, a = .l2Get rid true ∧ s.tasks rid = some t ∧ t.key = some key ∧
      s.storage.stored key = some x ∧ x.isExpired s.now = false ∧ e = x.toEntry.wire) ∨
    (∃ x optimized, StartsSave s a x ∧ x.key = key ∧
      (optimized.isSome = true → cfg.hasOptimizer = true) ∧ e = preparedEntry cfg x optimized) := by
  rcases he.prepared_or with he | ⟨id, save, optimized, hs, hkey, hphase, hallowed, rfl⟩
  · rcases h.prepared he with ⟨e₀, he₀, heq⟩ | hfound |
      ⟨id, save, optimized, -, hs, hkey, hphase, hallowed, rfl⟩
    · exact Or.inl ⟨e₀, he₀.afloat, heq⟩
    · exact Or.inr (Or.inl hfound)
    · exact Or.inl ⟨_, Afloat.prepare hs hkey hphase hallowed, Or.inl rfl⟩
  · rcases h.saves hs with hold | ⟨hstart, -, -⟩ | ⟨old, hold, hx, hmove⟩
    · exact Or.inl ⟨_, Afloat.prepare hold hkey hphase hallowed, Or.inl rfl⟩
    · exact Or.inr (Or.inr ⟨save.exchange, optimized, hstart, hkey, hallowed, rfl⟩)
    · rw [hphase] at hmove
      rcases hmove with ⟨-, opt, -, -, hput⟩ | ⟨entry, -, hinsert⟩
      · exact SavePhase.noConfusion hput
      · exact SavePhase.noConfusion hinsert

/-! ## The provenance rule -/

/-- The entry is held by a cache level or on its way to one. -/
def Carried (cfg : Config) (s : State) (key : String) (e : MemoryCacheEntry) : Prop :=
  Afloat cfg s key e ∨ ∃ x, s.storage.stored key = some x ∧ e = x.toEntry

/-- What the caches carry after a step they carried before, up to the wire, or it belongs to
the save that the step starts. -/
theorem Step.carried (h : Step cfg s a s') {e : MemoryCacheEntry} (he : Carried cfg s' key e) :
    (∃ e₀, Carried cfg s key e₀ ∧ (e = e₀ ∨ e = e₀.wire)) ∨
    (∃ x optimized, StartsSave s a x ∧ x.key = key ∧
      (optimized.isSome = true → cfg.hasOptimizer = true) ∧ e = preparedEntry cfg x optimized) := by
  rcases he with he | ⟨x, hx, rfl⟩
  · rcases h.afloat he with ⟨e₀, he₀, heq⟩ | ⟨rid, t, x, -, -, -, hstored, -, heq⟩ | hnew
    · exact Or.inl ⟨e₀, Or.inl he₀, heq⟩
    · exact Or.inl ⟨x.toEntry, Or.inr ⟨x, hstored, rfl⟩, Or.inr heq⟩
    · exact Or.inr hnew
  · rcases h.stored_or_afloat hx with hold | ⟨e, he, heq⟩
    · exact Or.inl ⟨x.toEntry, Or.inr ⟨x, hold, rfl⟩, Or.inl rfl⟩
    · exact Or.inl ⟨e, Or.inl he, Or.inr heq⟩

/-- The entry is what the background save of `x` stores, possibly after the wire. -/
def Derives (cfg : Config) (x : Exchange) (e : MemoryCacheEntry) : Prop :=
  ∃ optimized, (optimized.isSome = true → cfg.hasOptimizer = true) ∧
    (e = preparedEntry cfg x optimized ∨ e = (preparedEntry cfg x optimized).wire)

/-- The entry is derived from an exchange for its key that has the property `P`. -/
def From (cfg : Config) (P : Exchange → Prop) (key : String) (e : MemoryCacheEntry) : Prop :=
  P e.body.source ∧ e.body.source.key = key ∧ Derives cfg e.body.source e

/-- The entry of a save is tagged with the exchange that is saved. -/
@[simp] lemma preparedEntry_source (x : Exchange) (optimized : Option Optimized) :
    (preparedEntry cfg x optimized).body.source = x := rfl

/-- The entry of a save derives from the exchange that is saved. -/
lemma From.prepared {P : Exchange → Prop} {x : Exchange} (hP : P x) (hkey : x.key = key)
    {optimized : Option Optimized} (hallowed : optimized.isSome = true → cfg.hasOptimizer = true) :
    From cfg P key (preparedEntry cfg x optimized) := by
  unfold From
  rw [preparedEntry_source]
  exact ⟨hP, hkey, optimized, hallowed, Or.inl rfl⟩

/-- The wire does not change where an entry comes from. -/
lemma From.wire {P : Exchange → Prop} {e : MemoryCacheEntry} (h : From cfg P key e) :
    From cfg P key e.wire := by
  obtain ⟨hP, hkey, optimized, hallowed, heq | heq⟩ := h
  · exact ⟨hP, hkey, optimized, hallowed, Or.inr (congrArg MemoryCacheEntry.wire heq)⟩
  · refine ⟨hP, hkey, optimized, hallowed, Or.inr ?_⟩
    rw [MemoryCacheEntry.wire_body]
    exact (congrArg MemoryCacheEntry.wire heq).trans (MemoryCacheEntry.wire_wire _)

/-- A property that holds of every exchange whose save is started in a run, and that later
steps keep, holds of the source of everything the caches carry at its end. -/
theorem carried_from {C : State → Action → Prop} {P : State → Exchange → Prop} {t : State}
    {as : List Action} (h : Traces.Trace (step cfg) C s as t)
    (hkeep : ∀ s a s' x, step cfg s a = some s' → P s x → P s' x)
    (hstart : ∀ s a s' x, C s a → step cfg s a = some s' → StartsSave s a x → P s' x)
    (hs : ∀ key e, Carried cfg s key e → From cfg (P s) key e) :
    ∀ key e, Carried cfg t key e → From cfg (P t) key e := by
  have hend := h.carried (I := fun _ => True)
    (K := fun s => { i : String × MemoryCacheEntry | Carried cfg s i.1 i.2 })
    (P := fun s i => From cfg (P s) i.1 i.2) (fun _ _ _ _ _ _ => trivial) ?_ trivial
    (fun i hi => hs i.1 i.2 hi)
  · exact fun key e he => hend (key, e) he
  rintro s a s' ⟨key, e⟩ - hC hst he
  rcases (step_cases hst).carried he with ⟨e₀, he₀, rfl | rfl⟩ | ⟨x, optimized, hnew, hkey, hallowed, rfl⟩
  · refine Or.inl ⟨(key, e), he₀, ?_⟩
    rintro ⟨hP, hkey, hderives⟩
    exact ⟨hkeep s a s' _ hst hP, hkey, hderives⟩
  · refine Or.inl ⟨(key, e₀), he₀, ?_⟩
    rintro ⟨hP, hkey, hderives⟩
    exact From.wire ⟨hkeep s a s' _ hst hP, hkey, hderives⟩
  · exact Or.inr (From.prepared (hstart s a s' x hC hst hnew) hkey hallowed)

/-- Nothing is carried at the start. -/
lemma not_carried_initial (maxSizeBytes : UInt64) (e : MemoryCacheEntry) :
    ¬ Carried cfg (State.initial maxSizeBytes) key e := by
  rintro (he | ⟨x, hx, -⟩)
  · cases he with
    | memory hslot => cases hslot
    | promoting ht => cases ht
    | prepare hs => cases hs
    | put hs => cases hs
    | insert hs => cases hs
    | detached hmem => cases hmem
  · rw [State.initial, CacheLayer.stored_new] at hx
    cases hx

end SmartSchoolCdn
