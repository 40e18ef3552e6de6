import SmartSchoolCdn.Proxy.System

/-!
# What a step changes

For each component of the state, what one step can do to it.  These are the only statements
that look into the definitions of the steps; everything later is derived from them.
-/

namespace SmartSchoolCdn

variable {cfg : Config} {s s' : State} {a : Action}

/-! ## Steps that leave the caches alone -/

/-- The components that hold cached entries, and the logs kept about them, are unchanged. -/
structure SameCaches (s s' : State) : Prop where
  memoryCache : s'.memoryCache = s.memoryCache
  storage : s'.storage = s.storage
  saves : s'.saves = s.saves
  saving : s'.saving = s.saving
  detached : s'.detached = s.detached
  served : s'.served = s.served
  log : s'.log = s.log

/-- The actions that leave the caches alone. -/
def Action.leavesCaches : Action → Bool
  | .l2Get _ _ | .promote _ | .staleLookup _ _ | .body _ _ | .savePrepare _ _ | .savePut _ _
  | .saveInsert _ | .memoryEvict _ | .storageEvict _ | .storagePurge _ | .lateCall _
  | .purgeBegin _ | .purgeFinish _ _ => false
  | _ => true

/-- An arrival leaves the caches alone. -/
lemma sameCaches_arrive (cfg : Config) (s : State) (req : Request) :
    SameCaches s (s.arrive cfg req) := by
  unfold State.arrive
  cases req.headers.getStr "host" with
  | none => exact ⟨rfl, rfl, rfl, rfl, rfl, rfl, rfl⟩
  | some raw =>
    simp only
    cases findOrigin s.domainMap (normalizeHost raw) with
    | none => exact ⟨rfl, rfl, rfl, rfl, rfl, rfl, rfl⟩
    | some origin => exact ⟨rfl, rfl, rfl, rfl, rfl, rfl, rfl⟩

/-- A cancelled request leaves the caches alone. -/
lemma sameCaches_cancel (s : State) (rid : ℕ) (t : Task) : SameCaches s (s.cancel rid t) := by
  unfold State.cancel
  cases t.key with
  | none => exact ⟨rfl, rfl, rfl, rfl, rfl, rfl, rfl⟩
  | some key =>
    simp only
    by_cases hleads : t.phase.leads = true
    · simp only [hleads, if_true]
      exact ⟨rfl, rfl, rfl, rfl, rfl, rfl, rfl⟩
    · simp only [hleads]
      exact ⟨rfl, rfl, rfl, rfl, rfl, rfl, rfl⟩

/-- Most steps leave the caches alone. -/
theorem Step.sameCaches (h : Step cfg s a s') (ha : a.leavesCaches = true) : SameCaches s s' := by
  cases h with
  | readBody =>
    unfold State.readBody
    split <;> exact ⟨rfl, rfl, rfl, rfl, rfl, rfl, rfl⟩
  | respond =>
    unfold State.respond
    split
    · exact ⟨rfl, rfl, rfl, rfl, rfl, rfl, rfl⟩
    · split <;> exact ⟨rfl, rfl, rfl, rfl, rfl, rfl, rfl⟩
  | cancel => exact sameCaches_cancel _ _ _
  | l1Get =>
    unfold State.l1Get
    split <;> exact ⟨rfl, rfl, rfl, rfl, rfl, rfl, rfl⟩
  | coalesce =>
    unfold State.coalesce
    split <;> exact ⟨rfl, rfl, rfl, rfl, rfl, rfl, rfl⟩
  | permit =>
    unfold State.permit
    split <;> exact ⟨rfl, rfl, rfl, rfl, rfl, rfl, rfl⟩
  | arrive => exact sameCaches_arrive _ _ _
  | tick => exact ⟨rfl, rfl, rfl, rfl, rfl, rfl, rfl⟩
  | setDomainMap => exact ⟨rfl, rfl, rfl, rfl, rfl, rfl, rfl⟩
  | setStalePolicies => exact ⟨rfl, rfl, rfl, rfl, rfl, rfl, rfl⟩
  | streamStart => exact ⟨rfl, rfl, rfl, rfl, rfl, rfl, rfl⟩
  | streamBusy => exact ⟨rfl, rfl, rfl, rfl, rfl, rfl, rfl⟩
  | stream => exact ⟨rfl, rfl, rfl, rfl, rfl, rfl, rfl⟩
  | directStart => exact ⟨rfl, rfl, rfl, rfl, rfl, rfl, rfl⟩
  | directBusy => exact ⟨rfl, rfl, rfl, rfl, rfl, rfl, rfl⟩
  | direct => exact ⟨rfl, rfl, rfl, rfl, rfl, rfl, rfl⟩
  | sendFailed => exact ⟨rfl, rfl, rfl, rfl, rfl, rfl, rfl⟩
  | head => exact ⟨rfl, rfl, rfl, rfl, rfl, rfl, rfl⟩
  | staleDecide => exact ⟨rfl, rfl, rfl, rfl, rfl, rfl, rfl⟩
  | reserve => exact ⟨rfl, rfl, rfl, rfl, rfl, rfl, rfl⟩
  | bodyFailed => exact ⟨rfl, rfl, rfl, rfl, rfl, rfl, rfl⟩
  | publish => exact ⟨rfl, rfl, rfl, rfl, rfl, rfl, rfl⟩
  | _ => simp [Action.leavesCaches] at ha

/-! ## Storage calls -/

/-- The call that the storage service executes in a step. -/
def executed (s : State) : Action → Option (StorageRequest Copy)
  | .l2Get rid true => (s.tasks rid).bind fun t => t.key.map fun key => .get key false
  | .staleLookup rid true => (s.tasks rid).bind fun t => t.key.map fun key => .get key true
  | .savePut id true =>
    (s.saves id).bind fun save =>
      match save.phase with
      | .put entry => some (saveRequest save.exchange entry)
      | _ => none
  | .storagePurge target => some (.purge target)
  | .lateCall index => s.detached[index]?
  | .purgeFinish id true => (s.purges id).bind fun call => (purgeTarget call).map .purge
  | _ => none

/-- A step of a task on its own executes no storage call. -/
lemma executed_eq_none_of_leavesCaches (ha : a.leavesCaches = true) : executed s a = none := by
  cases a <;> simp_all [Action.leavesCaches, executed]

/-- What an L2 lookup does besides the phase of the request. -/
lemma l2Get_storage (s : State) (rid : ℕ) (t : Task) (key : String) (answered : Bool) :
    (s.l2Get rid t key answered).storage = (s.attempt (.get key false) answered).storage ∧
    (s.l2Get rid t key answered).served = (s.attempt (.get key false) answered).served ∧
    (s.l2Get rid t key answered).detached = (s.attempt (.get key false) answered).detached ∧
    (s.l2Get rid t key answered).memoryCache = s.memoryCache ∧
    (s.l2Get rid t key answered).saves = s.saves ∧
    (s.l2Get rid t key answered).log = s.log ∧
    (s.l2Get rid t key answered).answers = s.answers := by
  unfold State.l2Get
  cases answered with
  | false => exact ⟨rfl, rfl, rfl, rfl, rfl, rfl, rfl⟩
  | true =>
    simp only
    split <;> exact ⟨rfl, rfl, rfl, rfl, rfl, rfl, rfl⟩

/-- What the lookup of `try_serve_stale` does besides the phase of the request. -/
lemma staleLookup_storage (cfg : Config) (s : State) (rid : ℕ) (t : Task) (key : String)
    (fetch : ℕ) (head : Option (ℕ × HeaderMap)) (answered : Bool) :
    let s' := s.staleLookup cfg rid t key fetch head answered
    s'.storage = (s.attempt (.get key true) answered).storage ∧
    s'.served = (s.attempt (.get key true) answered).served ∧
    s'.detached = (s.attempt (.get key true) answered).detached ∧
    s'.memoryCache = s.memoryCache ∧ s'.saves = s.saves ∧ s'.log = s.log ∧
    s'.answers = s.answers := by
  intro s'
  have hs' : s' = s.staleLookup cfg rid t key fetch head answered := rfl
  unfold State.staleLookup at hs'
  cases answered with
  | false => exact hs' ▸ ⟨rfl, rfl, rfl, rfl, rfl, rfl, rfl⟩
  | true =>
    simp only at hs'
    split at hs' <;> exact hs' ▸ ⟨rfl, rfl, rfl, rfl, rfl, rfl, rfl⟩

/-- The promotion of an L2 HIT touches the memory cache only. -/
lemma promote_caches (cfg : Config) (s : State) (rid : ℕ) (t : Task) (key : String)
    (x : Stored Copy) (lookedUpAt : Time) :
    let s' := s.promote cfg rid t key x lookedUpAt
    s'.storage = s.storage ∧ s'.served = s.served ∧ s'.detached = s.detached ∧
    s'.saves = s.saves ∧ s'.log = s.log ∧
    s'.memoryCache =
      if (x.seen lookedUpAt).toEntry.fitsMemory then
        Function.update s.memoryCache key (some
          { entry := (x.seen lookedUpAt).toEntry, insertedAt := s.now,
            origin := .promoted x lookedUpAt })
      else s.memoryCache := by
  intro s'
  have hs' : s' = s.promote cfg rid t key x lookedUpAt := rfl
  unfold State.promote at hs'
  simp only at hs'
  split at hs' <;> rename_i hfits <;> rw [hs'] <;> simp [hfits, State.finish, State.insertMemory]

/-- The body of an origin response touches the log and the background saves only. -/
lemma originBody_caches (s : State) (rid : ℕ) (t : Task) (x : Exchange) :
    let s' := s.originBody rid t x
    s'.storage = s.storage ∧ s'.served = s.served ∧ s'.detached = s.detached ∧
    s'.memoryCache = s.memoryCache ∧ s'.log = x :: s.log ∧
    s'.saves =
      if x.outcome = .miss ∧ s.saving x.key = false then
        Function.update s.saves x.id (some { exchange := x, phase := .prepare })
      else s.saves := by
  intro s'
  have hs' : s' = s.originBody rid t x := rfl
  unfold State.originBody at hs'
  simp only at hs'
  split at hs' <;> rename_i hmiss <;> rw [hs'] <;> simp [hmiss, State.setPhase]

/-- Nothing but the storage, its log and the calls put aside is changed. -/
structure OnlyStorage (s s' : State) : Prop where
  now : s'.now = s.now
  memoryCache : s'.memoryCache = s.memoryCache
  inFlight : s'.inFlight = s.inFlight
  tasks : s'.tasks = s.tasks
  saves : s'.saves = s.saves
  saving : s'.saving = s.saving
  nextId : s'.nextId = s.nextId
  nextFetch : s'.nextFetch = s.nextFetch
  log : s'.log = s.log
  answers : s'.answers = s.answers

/-- A storage call touches the storage only. -/
lemma onlyStorage_attempt (s : State) (m : StorageRequest Copy) (answered : Bool) :
    OnlyStorage s (s.attempt m answered) := by
  cases answered <;> exact ⟨rfl, rfl, rfl, rfl, rfl, rfl, rfl, rfl, rfl, rfl⟩

/-- The storage call of a purge handler touches the storage only. -/
lemma onlyStorage_callPurge (s : State) (call : PurgeCall) (answered : Bool) :
    OnlyStorage s (s.callPurge call answered) := by
  unfold State.callPurge
  cases purgeTarget call with
  | none => exact ⟨rfl, rfl, rfl, rfl, rfl, rfl, rfl, rfl, rfl, rfl⟩
  | some target => exact onlyStorage_attempt s _ answered

/-- What one step does to the storage service: it executes one call, evicts, or does
nothing. -/
theorem Step.storage (h : Step cfg s a s') :
    (∃ m, executed s a = some m ∧ s'.storage = (s.storage.serve s.now m).2 ∧
      s'.served = (s.now, m) :: s.served) ∨
    (executed s a = none ∧ s'.served = s.served ∧
      (s'.storage = s.storage ∨ ∃ needed, a = .storageEvict needed ∧
        s'.storage = s.storage.evictLru needed)) := by
  by_cases ha : a.leavesCaches = true
  · have hsame := h.sameCaches ha
    exact Or.inr ⟨executed_eq_none_of_leavesCaches ha, hsame.served, Or.inl hsame.storage⟩
  have hattempt : ∀ (m : StorageRequest Copy) (answered : Bool),
      (answered = true → executed s a = some m) → (answered = false → executed s a = none) →
      s'.storage = (s.attempt m answered).storage → s'.served = (s.attempt m answered).served →
      (∃ m, executed s a = some m ∧ s'.storage = (s.storage.serve s.now m).2 ∧
        s'.served = (s.now, m) :: s.served) ∨
      (executed s a = none ∧ s'.served = s.served ∧
        (s'.storage = s.storage ∨ ∃ needed, a = .storageEvict needed ∧
          s'.storage = s.storage.evictLru needed)) := by
    intro m answered htrue hfalse hstorage hserved
    cases answered with
    | true => exact Or.inl ⟨m, htrue rfl, hstorage, hserved⟩
    | false => exact Or.inr ⟨hfalse rfl, hserved, Or.inl hstorage⟩
  cases h with
  | @l2Get rid t key answered ht hkey hphase hguard =>
    obtain ⟨hstorage, hserved, -⟩ := l2Get_storage s rid t key answered
    refine hattempt (.get key false) answered ?_ ?_ hstorage hserved
    · rintro rfl
      simp [executed, ht, hkey]
    · rintro rfl
      rfl
  | @staleLookup rid t key fetch head answered ht hkey hphase hguard =>
    obtain ⟨hstorage, hserved, -⟩ := staleLookup_storage cfg s rid t key fetch head answered
    refine hattempt (.get key true) answered ?_ ?_ hstorage hserved
    · rintro rfl
      simp [executed, ht, hkey]
    · rintro rfl
      rfl
  | @promote rid t key x lookedUpAt ht hkey hphase =>
    obtain ⟨hstorage, hserved, -⟩ := promote_caches cfg s rid t key x lookedUpAt
    exact Or.inr ⟨rfl, hserved, Or.inl hstorage⟩
  | body =>
    obtain ⟨hstorage, hserved, -⟩ := originBody_caches s _ _ _
    exact Or.inr ⟨rfl, hserved, Or.inl hstorage⟩
  | savePrepare => exact Or.inr ⟨rfl, rfl, Or.inl rfl⟩
  | @savePut id save entry answered hs hphase hguard =>
    refine hattempt (saveRequest save.exchange entry) answered ?_ ?_ rfl rfl
    · rintro rfl
      simp [executed, hs, hphase]
    · rintro rfl
      rfl
  | saveInsert =>
    refine Or.inr ⟨rfl, ?_, Or.inl ?_⟩ <;> unfold State.saveInsert <;> split <;> rfl
  | memoryEvict => exact Or.inr ⟨rfl, rfl, Or.inl rfl⟩
  | @storageEvict needed => exact Or.inr ⟨rfl, rfl, Or.inr ⟨needed, rfl, rfl⟩⟩
  | storagePurge => exact Or.inl ⟨_, rfl, rfl, rfl⟩
  | lateCall hm => exact Or.inl ⟨_, hm, rfl, rfl⟩
  | purgeBegin => exact Or.inr ⟨rfl, rfl, Or.inl rfl⟩
  | @purgeFinish id call answered hcall hguard =>
    cases htarget : purgeTarget call with
    | none =>
      have hcalls : s.callPurge call answered = s := by rw [State.callPurge, htarget]
      have hserved : (s.callPurge call answered).served = s.served := by rw [hcalls]
      have hstorage : (s.callPurge call answered).storage = s.storage := by rw [hcalls]
      exact Or.inr ⟨by cases answered <;> simp [executed, hcall, htarget], hserved, Or.inl hstorage⟩
    | some target =>
      have hcalls : s.callPurge call answered = s.attempt (.purge target) answered := by
        rw [State.callPurge, htarget]
      have hserved : (s.callPurge call answered).served =
          (s.attempt (.purge target) answered).served := by rw [hcalls]
      have hstorage : (s.callPurge call answered).storage =
          (s.attempt (.purge target) answered).storage := by rw [hcalls]
      refine hattempt (.purge target) answered ?_ ?_ hstorage hserved
      · rintro rfl
        simp [executed, hcall, htarget]
      · rintro rfl
        rfl
  | _ => exact absurd rfl ha

/-! ## The memory cache, the saves and the log -/

/-- The step completes the fetch of `x`. -/
def Completes (s : State) (a : Action) (x : Exchange) : Prop :=
  ∃ rid t key fetch status headers body,
    a = .body rid body ∧ s.tasks rid = some t ∧ t.key = some key ∧
    t.phase = .reading fetch status headers ∧ (t.request.method = .head → body = []) ∧
    x = State.exchangeOf rid t key fetch status headers body

/-- The step starts a background save of `x`. -/
def StartsSave (s : State) (a : Action) (x : Exchange) : Prop :=
  Completes s a x ∧ x.outcome = .miss ∧ s.saving x.key = false

/-- The purge handlers only remove entries from the memory cache. -/
lemma purgeMemory_le (cfg : Config) (call : PurgeCall) (memory : String → Option Slot) (key : String) :
    purgeMemory cfg call memory key = none ∨ purgeMemory cfg call memory key = memory key := by
  unfold purgeMemory
  cases call with
  | domain host => exact Or.inl rfl
  | cache body =>
    simp only
    split
    · exact Or.inl rfl
    · split
      · cases urlPurgeKey cfg body.target with
        | none => exact Or.inr rfl
        | some k =>
          simp only [Function.update_apply]
          split
          · exact Or.inl rfl
          · exact Or.inr rfl
      · exact Or.inr rfl

/-- An entry of the memory cache was there before, or was promoted, or saved. -/
theorem Step.memoryCache (h : Step cfg s a s') {key : String} {slot : Slot}
    (hslot : s'.memoryCache key = some slot) :
    s.memoryCache key = some slot ∨
    (∃ rid t x lookedUpAt, a = .promote rid ∧ s.tasks rid = some t ∧ t.key = some key ∧
      t.phase = .promoting x lookedUpAt ∧
      slot = { entry := (x.seen lookedUpAt).toEntry, insertedAt := s.now,
               origin := .promoted x lookedUpAt }) ∨
    (∃ id save entry, a = .saveInsert id ∧ s.saves id = some save ∧ save.phase = .insert entry ∧
      save.exchange.key = key ∧
      slot = { entry := entry, insertedAt := s.now, origin := .saved }) := by
  have hupdate : ∀ {m : String → Option Slot} {k : String} {new : Slot},
      Function.update m k (some new) key = some slot → m key = some slot ∨ (key = k ∧ slot = new) := by
    intro m k new hnew
    rw [Function.update_apply] at hnew
    split at hnew
    · exact Or.inr ⟨‹_›, (Option.some.inj hnew).symm⟩
    · exact Or.inl hnew
  by_cases ha : a.leavesCaches = true
  · rw [(h.sameCaches ha).memoryCache] at hslot
    exact Or.inl hslot
  cases h with
  | @l2Get rid t k answered =>
    rw [(l2Get_storage s rid t k answered).2.2.2.1] at hslot
    exact Or.inl hslot
  | @staleLookup rid t k fetch head answered =>
    rw [(staleLookup_storage cfg s rid t k fetch head answered).2.2.2.1] at hslot
    exact Or.inl hslot
  | @promote rid t k x lookedUpAt ht hkey hphase =>
    rw [(promote_caches cfg s rid t k x lookedUpAt).2.2.2.2.2] at hslot
    split at hslot
    · rcases hupdate hslot with hold | ⟨rfl, hnew⟩
      · exact Or.inl hold
      · exact Or.inr (Or.inl ⟨rid, t, x, lookedUpAt, rfl, ht, hkey, hphase, hnew⟩)
    · exact Or.inl hslot
  | body =>
    rw [(originBody_caches s _ _ _).2.2.2.1] at hslot
    exact Or.inl hslot
  | savePrepare => exact Or.inl hslot
  | @savePut id save entry answered =>
    refine Or.inl ?_
    cases answered <;> exact hslot
  | @saveInsert id save entry hs hphase =>
    unfold State.saveInsert at hslot
    split at hslot
    · rcases hupdate hslot with hold | ⟨rfl, hnew⟩
      · exact Or.inl hold
      · exact Or.inr (Or.inr ⟨id, save, entry, rfl, hs, hphase, rfl, hnew⟩)
    · exact Or.inl hslot
  | memoryEvict =>
    simp only [Function.update_apply] at hslot
    split at hslot
    · cases hslot
    · exact Or.inl hslot
  | storageEvict => exact Or.inl hslot
  | storagePurge => exact Or.inl hslot
  | lateCall => exact Or.inl hslot
  | @purgeBegin call =>
    change purgeMemory cfg call s.memoryCache key = some slot at hslot
    rcases purgeMemory_le cfg call s.memoryCache key with hgone | hkept
    · rw [hgone] at hslot
      cases hslot
    · exact Or.inl (hkept ▸ hslot)
  | @purgeFinish id call answered =>
    exact Or.inl ((onlyStorage_callPurge s call answered).memoryCache ▸ hslot)
  | _ => exact absurd rfl ha

/-- A background save was there before, or is started by the step, or has gone one phase
further. -/
theorem Step.saves (h : Step cfg s a s') {id : ℕ} {save : Save} (hsave : s'.saves id = some save) :
    s.saves id = some save ∨
    (StartsSave s a save.exchange ∧ id = save.exchange.id ∧ save.phase = .prepare) ∨
    (∃ old, s.saves id = some old ∧ save.exchange = old.exchange ∧
      ((old.phase = .prepare ∧ ∃ optimized, a = .savePrepare id optimized ∧
          (optimized.isSome = true → cfg.hasOptimizer = true) ∧
          save.phase = .put (preparedEntry cfg old.exchange optimized)) ∨
        ∃ entry, old.phase = .put entry ∧ save.phase = .insert entry)) := by
  by_cases ha : a.leavesCaches = true
  · rw [(h.sameCaches ha).saves] at hsave
    exact Or.inl hsave
  cases h with
  | @l2Get rid t k answered =>
    rw [(l2Get_storage s rid t k answered).2.2.2.2.1] at hsave
    exact Or.inl hsave
  | @staleLookup rid t k fetch head answered =>
    rw [(staleLookup_storage cfg s rid t k fetch head answered).2.2.2.2.1] at hsave
    exact Or.inl hsave
  | @promote rid t k x lookedUpAt =>
    rw [(promote_caches cfg s rid t k x lookedUpAt).2.2.2.1] at hsave
    exact Or.inl hsave
  | @body rid t key fetch status headers body ht hkey hphase hbody =>
    rw [(originBody_caches s rid t _).2.2.2.2.2] at hsave
    split at hsave
    · rename_i hstart
      rw [Function.update_apply] at hsave
      split at hsave
      · obtain rfl := Option.some.inj hsave
        refine Or.inr (Or.inl ⟨⟨?_, hstart.1, hstart.2⟩, ‹_›, rfl⟩)
        exact ⟨rid, t, key, fetch, status, headers, body, rfl, ht, hkey, hphase, hbody, rfl⟩
      · exact Or.inl hsave
    · exact Or.inl hsave
  | @savePrepare k old optimized hs hphase hallowed =>
    change Function.update s.saves k _ id = some save at hsave
    rw [Function.update_apply] at hsave
    split at hsave
    · subst id
      obtain rfl := Option.some.inj hsave
      exact Or.inr (Or.inr ⟨old, hs, rfl, Or.inl ⟨hphase, optimized, rfl, hallowed, rfl⟩⟩)
    · exact Or.inl hsave
  | @savePut k old entry answered hs hphase =>
    have hsaves := (onlyStorage_attempt s (saveRequest old.exchange entry) answered).saves
    change Function.update (s.attempt (saveRequest old.exchange entry) answered).saves k _ id =
      some save at hsave
    rw [hsaves, Function.update_apply] at hsave
    split at hsave
    · subst id
      obtain rfl := Option.some.inj hsave
      exact Or.inr (Or.inr ⟨old, hs, rfl, Or.inr ⟨entry, hphase, rfl⟩⟩)
    · exact Or.inl hsave
  | @saveInsert k old entry hs hphase =>
    have hsaves : (s.saveInsert k old.exchange entry).saves = Function.update s.saves k none := by
      unfold State.saveInsert
      split <;> rfl
    rw [hsaves, Function.update_apply] at hsave
    split at hsave
    · cases hsave
    · exact Or.inl hsave
  | purgeFinish => exact Or.inl ((onlyStorage_callPurge s _ _).saves ▸ hsave)
  | memoryEvict => exact Or.inl hsave
  | storageEvict => exact Or.inl hsave
  | storagePurge => exact Or.inl hsave
  | lateCall => exact Or.inl hsave
  | purgeBegin => exact Or.inl hsave
  | _ => exact absurd rfl ha

/-- A call put aside was put aside before, or carries no content, or is the call of a
background save. -/
theorem Step.detached (h : Step cfg s a s') {m : StorageRequest Copy} (hm : m ∈ s'.detached) :
    m ∈ s.detached ∨ (∃ key allowStale, m = .get key allowStale) ∨ (∃ target, m = .purge target) ∨
    (∃ id save entry, s.saves id = some save ∧ save.phase = .put entry ∧
      m = saveRequest save.exchange entry) := by
  have hattempt : ∀ (n : StorageRequest Copy) (answered : Bool),
      m ∈ (s.attempt n answered).detached → m ∈ s.detached ∨ m = n := by
    intro n answered hn
    cases answered with
    | true => exact Or.inl hn
    | false =>
      rcases List.mem_cons.mp hn with rfl | hn
      · exact Or.inr rfl
      · exact Or.inl hn
  by_cases ha : a.leavesCaches = true
  · rw [(h.sameCaches ha).detached] at hm
    exact Or.inl hm
  cases h with
  | @l2Get rid t k answered =>
    rw [(l2Get_storage s rid t k answered).2.2.1] at hm
    rcases hattempt _ _ hm with hold | hnew
    · exact Or.inl hold
    · exact Or.inr (Or.inl ⟨k, false, hnew⟩)
  | @staleLookup rid t k fetch head answered =>
    rw [(staleLookup_storage cfg s rid t k fetch head answered).2.2.1] at hm
    rcases hattempt _ _ hm with hold | hnew
    · exact Or.inl hold
    · exact Or.inr (Or.inl ⟨k, true, hnew⟩)
  | @promote rid t k x lookedUpAt =>
    rw [(promote_caches cfg s rid t k x lookedUpAt).2.2.1] at hm
    exact Or.inl hm
  | body =>
    rw [(originBody_caches s _ _ _).2.2.1] at hm
    exact Or.inl hm
  | savePrepare => exact Or.inl hm
  | @savePut id save entry answered hs hphase =>
    rcases hattempt (saveRequest save.exchange entry) answered hm with hold | hnew
    · exact Or.inl hold
    · exact Or.inr (Or.inr (Or.inr ⟨id, save, entry, hs, hphase, hnew⟩))
  | @saveInsert id save entry =>
    have hdetached : (s.saveInsert id save.exchange entry).detached = s.detached := by
      unfold State.saveInsert
      split <;> rfl
    exact Or.inl (hdetached ▸ hm)
  | memoryEvict => exact Or.inl hm
  | storageEvict => exact Or.inl hm
  | storagePurge => exact Or.inl hm
  | lateCall => exact Or.inl (List.mem_of_mem_eraseIdx hm)
  | purgeBegin => exact Or.inl hm
  | @purgeFinish id call answered hcall hguard =>
    change m ∈ (s.callPurge call answered).detached at hm
    unfold State.callPurge at hm
    cases htarget : purgeTarget call with
    | none =>
      rw [htarget] at hm
      exact Or.inl hm
    | some target =>
      rw [htarget] at hm
      rcases hattempt _ _ hm with hold | hnew
      · exact Or.inl hold
      · exact Or.inr (Or.inr (Or.inl ⟨target, hnew⟩))
  | _ => exact absurd rfl ha

/-- The log of completed fetches grows by what the step completes. -/
theorem Step.log (h : Step cfg s a s') :
    (s'.log = s.log ∧ ∀ x, ¬ Completes s a x) ∨ ∃ x, Completes s a x ∧ s'.log = x :: s.log := by
  have hother : (∀ rid body, a ≠ .body rid body) → ∀ x, ¬ Completes s a x := by
    rintro hne x ⟨rid, t, key, fetch, status, headers, body, rfl, -⟩
    exact hne rid body rfl
  by_cases ha : a.leavesCaches = true
  · refine Or.inl ⟨(h.sameCaches ha).log, hother ?_⟩
    rintro rid body rfl
    cases ha
  cases h with
  | @l2Get rid t k answered =>
    exact Or.inl ⟨(l2Get_storage s rid t k answered).2.2.2.2.2.1, hother (by simp)⟩
  | @staleLookup rid t k fetch head answered =>
    exact Or.inl ⟨(staleLookup_storage cfg s rid t k fetch head answered).2.2.2.2.2.1, hother (by simp)⟩
  | @promote rid t k x lookedUpAt =>
    exact Or.inl ⟨(promote_caches cfg s rid t k x lookedUpAt).2.2.2.2.1, hother (by simp)⟩
  | @body rid t key fetch status headers body ht hkey hphase hbody =>
    refine Or.inr ⟨_, ?_, (originBody_caches s _ _ _).2.2.2.2.1⟩
    exact ⟨rid, t, key, fetch, status, headers, body, rfl, ht, hkey, hphase, hbody, rfl⟩
  | savePrepare => exact Or.inl ⟨rfl, hother (by simp)⟩
  | @savePut id save entry answered =>
    refine Or.inl ⟨?_, hother (by simp)⟩
    cases answered <;> rfl
  | saveInsert =>
    refine Or.inl ⟨?_, hother (by simp)⟩
    unfold State.saveInsert
    split <;> rfl
  | memoryEvict => exact Or.inl ⟨rfl, hother (by simp)⟩
  | storageEvict => exact Or.inl ⟨rfl, hother (by simp)⟩
  | storagePurge => exact Or.inl ⟨rfl, hother (by simp)⟩
  | lateCall => exact Or.inl ⟨rfl, hother (by simp)⟩
  | purgeBegin => exact Or.inl ⟨rfl, hother (by simp)⟩
  | @purgeFinish id call answered =>
    exact Or.inl ⟨(onlyStorage_callPurge s call answered).log, hother (by simp)⟩
  | _ => exact absurd rfl ha

/-! ## Requests -/

/-- An arrival takes the next request number. -/
lemma counters_arrive (cfg : Config) (s : State) (req : Request) :
    (s.arrive cfg req).nextId = s.nextId + 1 ∧ (s.arrive cfg req).now = s.now ∧
    (s.arrive cfg req).nextFetch = s.nextFetch := by
  simp only [State.arrive]
  split
  · exact ⟨rfl, rfl, rfl⟩
  · split <;> exact ⟨rfl, rfl, rfl⟩

/-- The phases a request can go to in one step. -/
inductive Moves (cfg : Config) (s : State) (a : Action) (rid : ℕ) (t : Task) : Phase → Prop
  | l1Miss : t.phase = .l1Lookup → Moves cfg s a rid t .l2Lookup
  | l2Hit {key x} : a = .l2Get rid true → t.phase = .l2Lookup → t.key = some key →
      s.storage.stored key = some x → x.isExpired s.now = false →
      Moves cfg s a rid t (.promoting x s.now)
  | l2Miss : t.phase = .l2Lookup → Moves cfg s a rid t .readBody
  | cached : t.phase = .readBody → t.key.isSome → Moves cfg s a rid t .coalesce
  | uncached : t.phase = .readBody → t.key = none → Moves cfg s a rid t .directPermit
  | subscribe {key leader} : a = .coalesce rid → t.phase = .coalesce → t.key = some key →
      s.inFlight key = some leader → Moves cfg s a rid t (.follower leader)
  | lead {key} : a = .coalesce rid → t.phase = .coalesce → t.key = some key →
      s.inFlight key = none → Moves cfg s a rid t .permit
  | fetch : a = .permit rid true → t.phase = .permit → Moves cfg s a rid t (.sending s.nextFetch)
  | permitTimeout : t.phase = .permit → Moves cfg s a rid t (.publish .permitTimeout)
  | sendFailed {fetch} : t.phase = .sending fetch → Moves cfg s a rid t (.staleLookup fetch none)
  | serverError {fetch status headers} : t.phase = .sending fetch → isServerError status = true →
      Moves cfg s a rid t (.staleLookup fetch (some (status, headers)))
  | head {fetch status headers phase} : t.phase = .sending fetch → isServerError status = false →
      phase = afterHead cfg fetch status headers → Moves cfg s a rid t phase
  | staleFound {key fetch head x} : a = .staleLookup rid true → t.phase = .staleLookup fetch head →
      t.key = some key → s.storage.stored key = some x →
      Moves cfg s a rid t (.staleDecision fetch head (x.seen s.now))
  | staleMissing {key fetch head phase answered} : t.phase = .staleLookup fetch head →
      phase = withoutStale cfg fetch head → a = .staleLookup rid answered → t.key = some key →
      (answered = true → s.storage.stored key = none) → Moves cfg s a rid t phase
  | staleServed {fetch head found} : t.phase = .staleDecision fetch head found →
      a = .staleDecide rid → staleAdmitted s.now (s.staleWindow cfg t.host) found = true →
      Moves cfg s a rid t (.publish (.stale found))
  | staleRefused {fetch head found phase} : t.phase = .staleDecision fetch head found →
      phase = withoutStale cfg fetch head → a = .staleDecide rid →
      staleAdmitted s.now (s.staleWindow cfg t.host) found = false → Moves cfg s a rid t phase
  | reserve {fetch status headers} : t.phase = .reserve fetch status headers →
      Moves cfg s a rid t (.reading fetch status headers)
  | bufferFull {fetch status headers} : t.phase = .reserve fetch status headers →
      Moves cfg s a rid t (.publish .bufferFull)
  | completed {x fetch status headers} : t.phase = .reading fetch status headers →
      Completes s a x → x.rid = rid → Moves cfg s a rid t (.publish (.origin x))
  | bodyFailed {fetch status headers} : t.phase = .reading fetch status headers →
      Moves cfg s a rid t (.publish .failed)
  | published {result} : a = .publish rid → t.phase = .publish result →
      Moves cfg s a rid t (.respond rid result)
  | received {leader tl result} : t.phase = .follower leader → a = .publish leader →
      s.tasks leader = some tl → tl.phase = .publish result →
      Moves cfg s a rid t (.respond leader result)
  | abandoned {leader} : a = .cancel leader → t.phase = .follower leader →
      Moves cfg s a rid t (.respond leader .failed)
  | sentinel {leader result r} : t.phase = .respond leader result → result.response = some r →
      r.isSentinel = true → Moves cfg s a rid t .streamPermit
  | stream : t.phase = .streamPermit → Moves cfg s a rid t .streaming
  | direct : t.phase = .directPermit → Moves cfg s a rid t .direct

/-- After the head of a response a fetch goes on to the buffer or publishes the marker. -/
lemma afterHead_cases (cfg : Config) (fetch status : ℕ) (headers : HeaderMap) :
    afterHead cfg fetch status headers = .reserve fetch status headers ∨
    ∃ cl, afterHead cfg fetch status headers = .publish (.oversize status headers cl) := by
  unfold afterHead
  split
  · split
    · exact Or.inr ⟨_, rfl⟩
    · exact Or.inl rfl
  · exact Or.inl rfl

/-- Without a stale copy a fetch fails or goes on as after its head. -/
lemma withoutStale_cases (cfg : Config) (fetch : ℕ) (head : Option (ℕ × HeaderMap)) :
    withoutStale cfg fetch head = .publish .failed ∨
    ∃ status headers, head = some (status, headers) ∧
      (withoutStale cfg fetch head = .reserve fetch status headers ∨
        ∃ cl, withoutStale cfg fetch head = .publish (.oversize status headers cl)) := by
  cases head with
  | none => exact Or.inl rfl
  | some head => exact Or.inr ⟨head.1, head.2, rfl, afterHead_cases cfg fetch head.1 head.2⟩

/-- The phases in which a fetch goes on after the head of a response or ends without a copy. -/
def Phase.followsHead : Phase → Bool
  | .reserve .. => true
  | .publish (.oversize ..) => true
  | .publish .failed => true
  | _ => false

/-- A fetch goes on after the head of a response in no other phase. -/
lemma afterHead_ne {phase : Phase} {fetch status : ℕ} {headers : HeaderMap}
    (h : phase.followsHead = false) : phase ≠ afterHead cfg fetch status headers := by
  rintro rfl
  rcases afterHead_cases cfg fetch status headers with heq | ⟨cl, heq⟩ <;> rw [heq] at h <;> cases h

/-- A fetch goes on without a stale copy in no other phase. -/
lemma withoutStale_ne {phase : Phase} {fetch : ℕ} {head : Option (ℕ × HeaderMap)}
    (h : phase.followsHead = false) : phase ≠ withoutStale cfg fetch head := by
  rintro rfl
  cases head with
  | none => cases h
  | some head => exact afterHead_ne h rfl

/-- The requests after one of them has changed its phase. -/
lemma tasks_setPhase {r rid : ℕ} {t t' : Task} {phase : Phase}
    (h : (s.setPhase r t phase).tasks rid = some t') :
    s.tasks rid = some t' ∨ (rid = r ∧ t' = { t with phase := phase }) := by
  change Function.update s.tasks r _ rid = some t' at h
  rw [Function.update_apply] at h
  split at h
  · exact Or.inr ⟨‹_›, (Option.some.inj h).symm⟩
  · exact Or.inl h

/-- The request that has changed its phase. -/
lemma tasks_setPhase_self (s : State) (rid : ℕ) (t : Task) (phase : Phase) :
    (s.setPhase rid t phase).tasks rid = some { t with phase := phase } :=
  Function.update_self rid _ s.tasks

/-- The requests after the body of the origin response. -/
lemma tasks_originBody (s : State) (rid : ℕ) (t : Task) (x : Exchange) :
    (s.originBody rid t x).tasks = (s.setPhase rid t (.publish (.origin x))).tasks := by
  unfold State.originBody
  simp only
  split <;> rfl

/-- The request that has been answered or dropped is gone. -/
lemma not_tasks_remove_self {tasks : ℕ → Option Task} {rid : ℕ} {t : Task} :
    Function.update tasks rid none rid ≠ some t := by
  rw [Function.update_self]
  exact Option.some_ne_none t ∘ Eq.symm

/-- The requests after one of them has been answered or dropped. -/
lemma tasks_remove {tasks : ℕ → Option Task} {r rid : ℕ} {t' : Task}
    (h : Function.update tasks r none rid = some t') : tasks rid = some t' := by
  rw [Function.update_apply] at h
  split at h
  · cases h
  · exact h

/-- The requests after a broadcast. -/
lemma tasks_broadcast {leader rid : ℕ} {result : Fetched} {t' : Task}
    (h : (s.broadcast leader result).tasks rid = some t') :
    s.tasks rid = some t' ∨ ∃ t, s.tasks rid = some t ∧ t.phase = .follower leader ∧
      t' = { t with phase := .respond leader result } := by
  change (s.tasks rid).map _ = some t' at h
  rw [Option.map_eq_some_iff] at h
  obtain ⟨t, ht, h⟩ := h
  split at h
  · rename_i hfollows
    refine Or.inr ⟨t, ht, ?_, h.symm⟩
    unfold Phase.follows at hfollows
    split at hfollows
    · rename_i l hphase
      rw [hphase, beq_iff_eq.mp hfollows]
    · cases hfollows
  · exact Or.inl (h ▸ ht)

/-- A request was there before, or arrives, or has moved to another phase. -/
theorem Step.tasks (h : Step cfg s a s') {rid : ℕ} {t' : Task} (ht' : s'.tasks rid = some t') :
    s.tasks rid = some t' ∨
    (∃ req raw, a = .arrive req ∧ rid = s.nextId ∧ s'.nextId = s.nextId + 1 ∧
      t'.request = req ∧ req.headers.getStr "host" = some raw ∧ t'.host = normalizeHost raw ∧
      t'.key = cacheKeyOf cfg (normalizeHost raw) req ∧
      t'.phase = if t'.key.isSome then .l1Lookup else .readBody) ∨
    (∃ t phase, s.tasks rid = some t ∧ t' = { t with phase := phase } ∧
      Moves cfg s a rid t phase) := by
  have hset : ∀ {r : ℕ} {t : Task} {phase : Phase}, s.tasks r = some t →
      (rid = r → Moves cfg s a rid t phase) →
      s.tasks rid = some t' ∨ (rid = r ∧ t' = { t with phase := phase }) →
      s.tasks rid = some t' ∨
      (∃ req raw, a = .arrive req ∧ rid = s.nextId ∧ s'.nextId = s.nextId + 1 ∧
        t'.request = req ∧ req.headers.getStr "host" = some raw ∧ t'.host = normalizeHost raw ∧
        t'.key = cacheKeyOf cfg (normalizeHost raw) req ∧
        t'.phase = if t'.key.isSome then .l1Lookup else .readBody) ∨
      (∃ t phase, s.tasks rid = some t ∧ t' = { t with phase := phase } ∧
        Moves cfg s a rid t phase) := by
    rintro r t phase ht hmove (hold | ⟨rfl, hnew⟩)
    · exact Or.inl hold
    · exact Or.inr (Or.inr ⟨t, phase, ht, hnew, hmove rfl⟩)
  cases h with
  | @readBody r t ok ht hphase =>
    unfold State.readBody at ht'
    split at ht'
    · refine hset ht (fun _ => ?_) (tasks_setPhase ht')
      split
      · exact Moves.cached hphase ‹_›
      · rename_i hnone
        exact Moves.uncached hphase (by simpa using hnone)
    · exact Or.inl (tasks_remove ht')
  | @respond r t leader result ht hphase =>
    unfold State.respond at ht'
    split at ht'
    · exact Or.inl (tasks_remove ht')
    · split at ht'
      · exact hset ht (fun _ => Moves.sentinel hphase ‹_› ‹_›) (tasks_setPhase ht')
      · exact Or.inl (tasks_remove ht')
  | streamStart ht hphase => exact hset ht (fun _ => Moves.stream hphase) (tasks_setPhase ht')
  | streamBusy => exact Or.inl (tasks_remove ht')
  | stream => exact Or.inl (tasks_remove ht')
  | directStart ht hphase => exact hset ht (fun _ => Moves.direct hphase) (tasks_setPhase ht')
  | directBusy => exact Or.inl (tasks_remove ht')
  | direct => exact Or.inl (tasks_remove ht')
  | @cancel r t ht =>
    have hleft := tasks_remove ht'
    split at hleft
    · split at hleft
      · rcases tasks_broadcast hleft with hold | ⟨t₀, ht₀, hphase, hnew⟩
        · exact Or.inl hold
        · exact Or.inr (Or.inr ⟨t₀, _, ht₀, hnew, Moves.abandoned rfl hphase⟩)
      · exact Or.inl hleft
    · exact Or.inl hleft
  | l1Get ht hkey hphase =>
    unfold State.l1Get at ht'
    split at ht'
    · exact Or.inl (tasks_remove ht')
    · exact hset ht (fun _ => Moves.l1Miss hphase) (tasks_setPhase ht')
  | @l2Get r t key answered ht hkey hphase hguard =>
    have htasks := (onlyStorage_attempt s (.get key false) answered).tasks
    simp only [State.l2Get] at ht'
    split at ht'
    · rename_i x hfound
      rw [Option.filter_eq_some_iff] at hfound
      have ht' := tasks_setPhase (s := s.attempt (.get key false) true) ht'
      exact hset ht (fun hr => Moves.l2Hit (hr ▸ rfl) hphase hkey hfound.1 (by simpa using hfound.2)) ht'
    · have ht' := tasks_setPhase ht'
      rw [htasks] at ht'
      exact hset ht (fun _ => Moves.l2Miss hphase) ht'
  | @promote r t key x lookedUpAt =>
    unfold State.promote at ht'
    have hleft := tasks_remove ht'
    split at hleft <;> exact Or.inl hleft
  | coalesce ht hkey hphase =>
    unfold State.coalesce at ht'
    split at ht'
    · exact hset ht (fun hr => Moves.subscribe (hr ▸ rfl) hphase hkey ‹_›) (tasks_setPhase ht')
    · exact hset ht (fun hr => Moves.lead (hr ▸ rfl) hphase hkey ‹_›) (tasks_setPhase ht')
  | @permit r t key ok ht hkey hphase =>
    unfold State.permit at ht'
    split at ht'
    · subst ok
      exact hset ht (fun hr => Moves.fetch (hr ▸ rfl) hphase) (tasks_setPhase ht')
    · exact hset ht (fun _ => Moves.permitTimeout hphase) (tasks_setPhase ht')
  | sendFailed ht hkey hphase => exact hset ht (fun _ => Moves.sendFailed hphase) (tasks_setPhase ht')
  | head ht hkey hphase =>
    refine hset ht (fun _ => ?_) (tasks_setPhase ht')
    split
    · exact Moves.serverError hphase ‹_›
    · rename_i hstatus
      exact Moves.head hphase (by simpa using hstatus) rfl
  | @staleLookup r t key fetch head answered ht hkey hphase hguard =>
    have htasks := (onlyStorage_attempt s (.get key true) answered).tasks
    simp only [State.staleLookup] at ht'
    split at ht'
    · rename_i x hfound
      have ht' := tasks_setPhase (s := s.attempt (.get key true) true) ht'
      exact hset ht (fun hr => Moves.staleFound (hr ▸ rfl) hphase hkey hfound) ht'
    · rename_i answered _ _ hmissing
      have ht' := tasks_setPhase ht'
      rw [htasks] at ht'
      have ha : ∀ {r'}, r' = r → Action.staleLookup r answered = .staleLookup r' answered :=
        fun hr => congrArg (Action.staleLookup · answered) hr.symm
      refine hset ht (fun hr => Moves.staleMissing hphase rfl (ha hr) hkey fun hanswered => ?_) ht'
      exact Option.eq_none_iff_forall_ne_some.mpr fun x hx => hmissing x hanswered hx
  | staleDecide ht hkey hphase =>
    refine hset ht (fun hr => ?_) (tasks_setPhase ht')
    split
    · exact Moves.staleServed hphase (hr ▸ rfl) ‹_›
    · exact Moves.staleRefused hphase rfl (hr ▸ rfl) (Bool.eq_false_iff.mpr ‹_›)
  | reserve ht hkey hphase =>
    refine hset ht (fun _ => ?_) (tasks_setPhase ht')
    split
    · exact Moves.reserve hphase
    · exact Moves.bufferFull hphase
  | @body r t key fetch status headers body ht hkey hphase hbody =>
    rw [tasks_originBody] at ht'
    refine hset ht (fun hr => ?_) (tasks_setPhase ht')
    refine Moves.completed hphase ?_ hr.symm
    exact ⟨r, t, key, fetch, status, headers, body, rfl, ht, hkey, hphase, hbody, rfl⟩
  | bodyFailed ht hkey hphase => exact hset ht (fun _ => Moves.bodyFailed hphase) (tasks_setPhase ht')
  | @publish r t key result ht hkey hphase =>
    rcases tasks_broadcast ht' with hold | ⟨t₀, ht₀, hphase₀, hnew⟩
    · exact hset ht (fun hr => hr ▸ Moves.published rfl hphase) (tasks_setPhase (s := s) hold)
    · rcases tasks_setPhase (s := s) ht₀ with hold | ⟨-, rfl⟩
      · exact Or.inr (Or.inr ⟨t₀, _, hold, hnew, Moves.received hphase₀ rfl ht hphase⟩)
      · cases hphase₀
  | savePrepare => exact Or.inl ht'
  | @savePut id save entry answered =>
    refine Or.inl ?_
    cases answered <;> exact ht'
  | saveInsert =>
    unfold State.saveInsert at ht'
    split at ht' <;> exact Or.inl ht'
  | @arrive req =>
    unfold State.arrive at ht'
    simp only at ht'
    split at ht'
    · exact Or.inl (tasks_remove ht')
    · split at ht'
      · exact Or.inl (tasks_remove ht')
      · rename_i raw hraw _ origin _
        rcases tasks_setPhase (s := { s with nextId := s.nextId + 1 }) ht' with hold | ⟨hr, rfl⟩
        · exact Or.inl hold
        · exact Or.inr (Or.inl ⟨req, raw, rfl, hr, (counters_arrive cfg s req).1, rfl, hraw, rfl, rfl, rfl⟩)
  | purgeFinish => exact Or.inl ((onlyStorage_callPurge s _ _).tasks ▸ ht')
  | _ => exact Or.inl ht'

/-- The phases in which a request arrives. -/
def Phase.arrives : Phase → Bool
  | .l1Lookup | .readBody => true
  | _ => false

/-- A request in a later phase was in it before, or has moved to it. -/
lemma Step.moved (h : Step cfg s a s') {rid : ℕ} {t' : Task} (ht' : s'.tasks rid = some t')
    {phase : Phase} (hphase : t'.phase = phase) (hlater : phase.arrives = false) :
    s.tasks rid = some t' ∨
    ∃ t, s.tasks rid = some t ∧ t' = { t with phase := phase } ∧ Moves cfg s a rid t phase := by
  rcases h.tasks ht' with hold | ⟨req, raw, -, -, -, -, -, -, -, hnew⟩ | ⟨t, moved, ht, rfl, hmove⟩
  · exact Or.inl hold
  · rw [← hphase, hnew] at hlater
    split at hlater <;> cases hlater
  · obtain rfl : moved = phase := hphase
    exact Or.inr ⟨t, ht, rfl, hmove⟩

/-- A property of a request that has arrived is kept when every move of the request keeps it. -/
lemma Step.keeps_task {rid : ℕ} {P : Task → Prop} (h : Step cfg s a s') (hknown : rid < s.nextId)
    (hP : ∀ t, s.tasks rid = some t → P t)
    (hmove : ∀ t phase, s.tasks rid = some t → s'.tasks rid = some { t with phase := phase } →
      Moves cfg s a rid t phase → P t → P { t with phase := phase }) :
    ∀ t', s'.tasks rid = some t' → P t' := by
  intro t' ht'
  rcases h.tasks ht' with hold | ⟨_, _, -, hrid, -⟩ | ⟨t, phase, ht, rfl, hmoves⟩
  · exact hP t' hold
  · omega
  · exact hmove t phase ht ht' hmoves (hP t ht)

/-- A request that goes on from the L2 lookup to its body was not answered, or the storage holds
no fresh copy for it. -/
lemma Step.l2Miss (h : Step cfg s a s') {rid : ℕ} {t t' : Task} (hknown : rid < s.nextId)
    (ht : s.tasks rid = some t) (hphase : t.phase = .l2Lookup) (ht' : s'.tasks rid = some t')
    (hbody : t'.phase = .readBody) :
    ∃ answered, a = .l2Get rid answered ∧ (answered = true → ∀ key x, t.key = some key →
      s.storage.stored key = some x → x.isExpired s.now = true) := by
  have hkept : ∀ {p : Prop}, s.tasks rid = some t' → p := by
    intro p hold
    rw [← Option.some.inj (ht.symm.trans hold), hphase] at hbody
    cases hbody
  -- another request has moved, or this one from another phase
  have hset : ∀ {p : Prop} {r : ℕ} {t₀ : Task} {phase : Phase}, s.tasks r = some t₀ →
      t₀.phase ≠ .l2Lookup → s.tasks rid = some t' ∨ (rid = r ∧ t' = { t₀ with phase := phase }) →
      p := by
    rintro p r t₀ phase ht₀ hne (hold | ⟨rfl, -⟩)
    · exact hkept hold
    · rw [← Option.some.inj (ht.symm.trans ht₀)] at hne
      exact absurd hphase hne
  have hbroadcast : ∀ {p : Prop} {u : State} {leader : ℕ} {result : Fetched},
      (u.tasks rid = some t' → p) → (u.broadcast leader result).tasks rid = some t' → p := by
    intro p u leader result hu hleft
    rcases tasks_broadcast hleft with hold | ⟨t₀, -, -, rfl⟩
    · exact hu hold
    · cases hbody
  cases h with
  | @l2Get r t₀ key answered ht₀ hkey hp hguard =>
    have htasks := (onlyStorage_attempt s (.get key false) answered).tasks
    simp only [State.l2Get] at ht'
    split at ht'
    · rcases tasks_setPhase (s := s.attempt (.get key false) true) ht' with hold | ⟨-, rfl⟩
      · exact hkept hold
      · cases hbody
    · rename_i answered _ _ hnone
      rcases tasks_setPhase ht' with hold | ⟨rfl, -⟩
      · exact hkept (htasks ▸ hold)
      · obtain rfl := Option.some.inj (ht.symm.trans ht₀)
        refine ⟨answered, rfl, fun hanswered k x hk hx => ?_⟩
        obtain rfl : key = k := Option.some.inj (hkey.symm.trans hk)
        by_contra hfresh
        refine hnone x hanswered ?_
        rw [Option.filter_eq_some_iff]
        exact ⟨hx, by simpa using hfresh⟩
  | readBody ht₀ hp =>
    unfold State.readBody at ht'
    split at ht'
    · exact hset ht₀ (by simp [hp]) (tasks_setPhase ht')
    · exact hkept (tasks_remove ht')
  | respond ht₀ hp =>
    unfold State.respond at ht'
    split at ht'
    · exact hkept (tasks_remove ht')
    · split at ht'
      · exact hset ht₀ (by simp [hp]) (tasks_setPhase ht')
      · exact hkept (tasks_remove ht')
  | l1Get ht₀ hkey hp =>
    unfold State.l1Get at ht'
    split at ht'
    · exact hkept (tasks_remove ht')
    · exact hset ht₀ (by simp [hp]) (tasks_setPhase ht')
  | coalesce ht₀ hkey hp =>
    unfold State.coalesce at ht'
    split at ht' <;> exact hset ht₀ (by simp [hp]) (tasks_setPhase ht')
  | permit ht₀ hkey hp =>
    unfold State.permit at ht'
    split at ht' <;> exact hset ht₀ (by simp [hp]) (tasks_setPhase ht')
  | @staleLookup r t₀ key fetch head answered ht₀ hkey hp hguard =>
    have htasks := (onlyStorage_attempt s (.get key true) answered).tasks
    simp only [State.staleLookup] at ht'
    split at ht'
    · exact hset ht₀ (by simp [hp]) (tasks_setPhase (s := s.attempt (.get key true) true) ht')
    · have ht' := tasks_setPhase ht'
      rw [htasks] at ht'
      exact hset ht₀ (by simp [hp]) ht'
  | promote ht₀ hkey hp =>
    unfold State.promote at ht'
    have hleft := tasks_remove ht'
    split at hleft <;> exact hkept hleft
  | @body r t₀ key fetch status headers body ht₀ hkey hp =>
    rw [tasks_originBody] at ht'
    exact hset ht₀ (by simp [hp]) (tasks_setPhase ht')
  | publish ht₀ hkey hp =>
    refine hbroadcast (fun hold => ?_) ht'
    exact hset ht₀ (by simp [hp]) (tasks_setPhase (s := s) hold)
  | @cancel r t₀ ht₀ =>
    have hleft := tasks_remove ht'
    split at hleft
    · split at hleft
      · exact hbroadcast hkept hleft
      · exact hkept hleft
    · exact hkept hleft
  | @savePut id save entry answered =>
    refine hkept ?_
    cases answered <;> exact ht'
  | saveInsert =>
    unfold State.saveInsert at ht'
    split at ht' <;> exact hkept ht'
  | purgeFinish => exact hkept ((onlyStorage_callPurge s _ _).tasks ▸ ht')
  | @arrive req =>
    unfold State.arrive at ht'
    simp only at ht'
    split at ht'
    · exact hkept (tasks_remove ht')
    · split at ht'
      · exact hkept (tasks_remove ht')
      · rcases tasks_setPhase (s := { s with nextId := s.nextId + 1 }) ht' with hold | ⟨hr, -⟩
        · exact hkept hold
        · exact absurd hr (Nat.ne_of_lt hknown)
  | streamBusy | stream | directBusy | direct => exact hkept (tasks_remove ht')
  | streamStart ht₀ hp | directStart ht₀ hp => exact hset ht₀ (by simp [hp]) (tasks_setPhase ht')
  | sendFailed ht₀ hkey hp | head ht₀ hkey hp | staleDecide ht₀ hkey hp | reserve ht₀ hkey hp
  | bodyFailed ht₀ hkey hp => exact hset ht₀ (by simp [hp]) (tasks_setPhase ht')
  | _ => exact hkept ht'

/-! ## Steps that leave the books alone -/

/-- The clock, the counters, the in-flight map and the purge handlers are unchanged. -/
structure SameBooks (s s' : State) : Prop where
  now : s'.now = s.now
  nextId : s'.nextId = s.nextId
  nextFetch : s'.nextFetch = s.nextFetch
  inFlight : s'.inFlight = s.inFlight
  purges : s'.purges = s.purges

/-- The actions that leave the books alone. -/
def Action.leavesBooks : Action → Bool
  | .tick _ | .arrive _ | .coalesce _ | .permit _ _ | .publish _ | .cancel _ | .purgeBegin _
  | .purgeFinish _ _ => false
  | _ => true

/-- Most steps leave the books alone. -/
theorem Step.sameBooks (h : Step cfg s a s') (ha : a.leavesBooks = true) : SameBooks s s' := by
  cases h with
  | readBody =>
    unfold State.readBody
    split <;> exact ⟨rfl, rfl, rfl, rfl, rfl⟩
  | respond =>
    unfold State.respond
    split
    · exact ⟨rfl, rfl, rfl, rfl, rfl⟩
    · split <;> exact ⟨rfl, rfl, rfl, rfl, rfl⟩
  | l1Get =>
    unfold State.l1Get
    split <;> exact ⟨rfl, rfl, rfl, rfl, rfl⟩
  | @l2Get rid t key answered =>
    simp only [State.l2Get]
    cases answered with
    | false => exact ⟨rfl, rfl, rfl, rfl, rfl⟩
    | true => split <;> exact ⟨rfl, rfl, rfl, rfl, rfl⟩
  | promote =>
    simp only [State.promote]
    split <;> exact ⟨rfl, rfl, rfl, rfl, rfl⟩
  | @staleLookup rid t key fetch head answered =>
    simp only [State.staleLookup]
    cases answered with
    | false => exact ⟨rfl, rfl, rfl, rfl, rfl⟩
    | true => split <;> exact ⟨rfl, rfl, rfl, rfl, rfl⟩
  | body =>
    simp only [State.originBody]
    split <;> exact ⟨rfl, rfl, rfl, rfl, rfl⟩
  | @savePut id save entry answered => cases answered <;> exact ⟨rfl, rfl, rfl, rfl, rfl⟩
  | saveInsert =>
    simp only [State.saveInsert]
    split <;> exact ⟨rfl, rfl, rfl, rfl, rfl⟩
  | tick => cases ha
  | arrive => cases ha
  | coalesce => cases ha
  | permit => cases ha
  | publish => cases ha
  | cancel => cases ha
  | purgeBegin => cases ha
  | purgeFinish => cases ha
  | _ => exact ⟨rfl, rfl, rfl, rfl, rfl⟩

/-! ## The in-flight map -/

/-- The broadcast leaves nobody subscribed. -/
lemma not_follows_broadcast {leader rid : ℕ} {result : Fetched} {t : Task}
    (h : (s.broadcast leader result).tasks rid = some t) : t.phase ≠ .follower leader := by
  intro hphase
  change (s.tasks rid).map _ = some t at h
  rw [Option.map_eq_some_iff] at h
  obtain ⟨t₀, -, h⟩ := h
  split at h
  · rw [← h] at hphase
    cases hphase
  · rename_i hfollows
    rw [h, hphase] at hfollows
    exact hfollows (beq_self_eq_true leader)

/-- A leader that publishes or goes away leaves the in-flight map, and nobody follows it any
more; a new leader enters under a free key. -/
theorem Step.inFlight (h : Step cfg s a s') :
    (s'.inFlight = s.inFlight ∧ (∀ rid, a ≠ .publish rid) ∧
      ∀ rid t key, a = .coalesce rid → s.tasks rid = some t → t.key = some key →
        s.inFlight key ≠ none) ∨
    (∃ rid t key, a = .coalesce rid ∧ s.tasks rid = some t ∧ t.key = some key ∧
      s.inFlight key = none ∧ s'.inFlight = Function.update s.inFlight key (some rid) ∧
      s'.tasks rid = some { t with phase := .permit }) ∨
    (∃ rid t key, (a = .publish rid ∨ a = .cancel rid) ∧ s.tasks rid = some t ∧
      t.key = some key ∧ t.phase.leads = true ∧
      s'.inFlight = Function.update s.inFlight key none ∧
      (∀ other t', s'.tasks other = some t' → t'.phase ≠ .follower rid) ∧
      ∀ t', s'.tasks rid = some t' → t'.phase.leads = false) := by
  have hother : (∀ rid, a ≠ .publish rid) → (∀ rid, a ≠ .coalesce rid) →
      s'.inFlight = s.inFlight →
      (s'.inFlight = s.inFlight ∧ (∀ rid, a ≠ .publish rid) ∧
        ∀ rid t key, a = .coalesce rid → s.tasks rid = some t → t.key = some key →
          s.inFlight key ≠ none) :=
    fun hpublish hcoalesce hsame =>
      ⟨hsame, hpublish, fun rid _ _ ha _ _ => absurd ha (hcoalesce rid)⟩
  by_cases ha : a.leavesBooks = true
  · refine Or.inl (hother ?_ ?_ (h.sameBooks ha).inFlight)
    · rintro rid rfl
      cases ha
    · rintro rid rfl
      cases ha
  cases h with
  | @cancel rid t ht =>
    unfold State.cancel at hother ⊢
    cases hkey : t.key with
    | none =>
      rw [hkey] at hother
      exact Or.inl (hother (by simp) (by simp) rfl)
    | some key =>
      rw [hkey] at hother
      simp only at hother ⊢
      by_cases hleads : t.phase.leads = true
      · simp only [hleads, if_true]
        refine Or.inr (Or.inr ⟨rid, t, key, Or.inr rfl, ht, hkey, hleads, rfl, ?_, ?_⟩)
        · intro other t' ht'
          exact not_follows_broadcast (tasks_remove ht')
        · intro t' ht'
          exact absurd ht' not_tasks_remove_self
      · simp only [hleads] at hother ⊢
        exact Or.inl (hother (by simp) (by simp) rfl)
  | @coalesce rid t key ht hkey hphase =>
    unfold State.coalesce
    split
    · rename_i leader hleader
      refine Or.inl ⟨rfl, by simp, ?_⟩
      intro rid' t' key' ha ht' hkey'
      cases ha
      obtain rfl := Option.some.inj (ht.symm.trans ht')
      obtain rfl := Option.some.inj (hkey.symm.trans hkey')
      rw [hleader]
      exact Option.some_ne_none leader
    · rename_i hfree
      exact Or.inr (Or.inl ⟨rid, t, key, rfl, ht, hkey, hfree, rfl, tasks_setPhase_self s rid t .permit⟩)
  | permit =>
    refine Or.inl (hother (by simp) (by simp) ?_)
    unfold State.permit
    split <;> rfl
  | @publish rid t key result ht hkey hphase =>
    refine Or.inr (Or.inr ⟨rid, t, key, Or.inl rfl, ht, hkey, by rw [hphase]; rfl, rfl, ?_, ?_⟩)
    · intro other t' ht'
      exact not_follows_broadcast ht'
    · intro t' ht'
      rcases tasks_broadcast ht' with hold | ⟨t₀, -, -, rfl⟩
      · have hself := tasks_setPhase_self s rid t (.respond rid result)
        obtain rfl := Option.some.inj (hold.symm.trans hself)
        rfl
      · rfl
  | tick => exact Or.inl (hother (by simp) (by simp) rfl)
  | @arrive req =>
    refine Or.inl (hother (by simp) (by simp) ?_)
    simp only [State.arrive]
    split
    · rfl
    · split <;> rfl
  | purgeBegin => exact Or.inl (hother (by simp) (by simp) rfl)
  | purgeFinish =>
    exact Or.inl (hother (by simp) (by simp) (onlyStorage_callPurge s _ _).inFlight)
  | _ => exact absurd rfl ha

/-! ## Answers -/

/-- The response to a requester of a coalesced fetch that is not sent to the streaming path. -/
def coalescedAnswer (req : Request) (result : Fetched) : Response :=
  match result.response with
  | none => fetchFailedResponse
  | some r => missResponse req r

/-- The phases in which a request is answered by the proxy itself or from its own fetch. -/
def Phase.answersAlone : Phase → Bool
  | .readBody | .streamPermit | .streaming | .directPermit | .direct => true
  | _ => false

/-- The answers that a step can send. -/
inductive Replies (cfg : Config) (s : State) (a : Action) : Answer → Prop
  | own {rid request response} :
      (∃ t, s.tasks rid = some t ∧ t.request = request ∧ t.phase.answersAlone = true) ∨
        rid = s.nextId →
      Replies cfg s a { rid := rid, request := request, via := .own, response := response,
                        sentAt := s.now }
  | l1Hit {rid t key slot} : a = .l1Get rid → s.tasks rid = some t → t.key = some key →
      t.phase = .l1Lookup → s.memoryGet cfg key = some slot →
      Replies cfg s a { rid := rid, request := t.request, via := .l1Hit slot,
                        response := hitResponse cfg .l1Hit t.request slot.entry, sentAt := s.now }
  | l2Hit {rid t key x lookedUpAt} : a = .promote rid → s.tasks rid = some t → t.key = some key →
      t.phase = .promoting x lookedUpAt →
      Replies cfg s a { rid := rid, request := t.request, via := .l2Hit x lookedUpAt,
                        response := hitResponse cfg .l2Hit t.request (x.seen lookedUpAt).toEntry,
                        sentAt := s.now }
  | coalesced {rid t leader result} : a = .respond rid → s.tasks rid = some t →
      t.phase = .respond leader result → (∀ r, result.response = some r → r.isSentinel = false) →
      Replies cfg s a { rid := rid, request := t.request, via := .coalesced leader result,
                        response := coalescedAnswer t.request result, sentAt := s.now }

/-- A step sends at most one answer, to a request that is then gone. -/
theorem Step.answers (h : Step cfg s a s') :
    s'.answers = s.answers ∨ ∃ ans, s'.answers = ans :: s.answers ∧ Replies cfg s a ans ∧
      s'.tasks ans.rid = none ∧
      ((∃ t, s.tasks ans.rid = some t) ∨ (ans.rid = s.nextId ∧ s'.nextId = s.nextId + 1)) := by
  have hgone : ∀ rid, Function.update s.tasks rid none rid = none :=
    fun rid => Function.update_self rid none s.tasks
  have halone : ∀ {rid t response}, s.tasks rid = some t → t.phase.answersAlone = true →
      Replies cfg s a { rid := rid, request := t.request, via := .own, response := response,
                        sentAt := s.now } :=
    fun ht hphase => Replies.own (Or.inl ⟨_, ht, rfl, hphase⟩)
  cases h with
  | @readBody rid t ok ht hphase =>
    unfold State.readBody
    split
    · exact Or.inl rfl
    · exact Or.inr ⟨_, rfl, halone ht (hphase ▸ rfl), hgone rid, Or.inl ⟨t, ht⟩⟩
  | @respond rid t leader result ht hphase =>
    have hreply : (∀ r, result.response = some r → r.isSentinel = false) →
        Replies cfg s (.respond rid) _ := Replies.coalesced rfl ht hphase
    unfold State.respond
    unfold coalescedAnswer at hreply
    split
    · rename_i hnone
      rw [hnone] at hreply
      exact Or.inr ⟨_, rfl, hreply (by simp), hgone rid, Or.inl ⟨t, ht⟩⟩
    · rename_i r hsome
      rw [hsome] at hreply
      split
      · exact Or.inl rfl
      · rename_i hmarker
        refine Or.inr ⟨_, rfl, hreply ?_, hgone rid, Or.inl ⟨t, ht⟩⟩
        rintro r' hr'
        cases hr'
        simpa using hmarker
  | @streamBusy rid t ht hphase =>
    exact Or.inr ⟨_, rfl, halone ht (hphase ▸ rfl), hgone rid, Or.inl ⟨t, ht⟩⟩
  | @stream rid t resp ht hphase =>
    exact Or.inr ⟨_, rfl, halone ht (hphase ▸ rfl), hgone rid, Or.inl ⟨t, ht⟩⟩
  | @directBusy rid t ht hphase =>
    exact Or.inr ⟨_, rfl, halone ht (hphase ▸ rfl), hgone rid, Or.inl ⟨t, ht⟩⟩
  | @direct rid t reply ht hphase =>
    exact Or.inr ⟨_, rfl, halone ht (hphase ▸ rfl), hgone rid, Or.inl ⟨t, ht⟩⟩
  | @cancel rid t ht =>
    refine Or.inl ?_
    unfold State.cancel
    cases t.key with
    | none => rfl
    | some key =>
      simp only
      by_cases hleads : t.phase.leads = true
      · simp only [hleads, if_true]
        rfl
      · simp only [hleads]
        rfl
  | @l1Get rid t key ht hkey hphase =>
    unfold State.l1Get
    split
    · rename_i slot hslot
      exact Or.inr ⟨_, rfl, Replies.l1Hit rfl ht hkey hphase hslot, hgone rid, Or.inl ⟨t, ht⟩⟩
    · exact Or.inl rfl
  | @l2Get rid t key answered =>
    exact Or.inl (l2Get_storage s rid t key answered).2.2.2.2.2.2
  | @promote rid t key x lookedUpAt ht hkey hphase =>
    refine Or.inr ⟨_, ?_, Replies.l2Hit rfl ht hkey hphase, ?_, Or.inl ⟨t, ht⟩⟩
    · simp only [State.promote]
      split <;> rfl
    · simp only [State.promote]
      split <;> exact hgone rid
  | coalesce =>
    unfold State.coalesce
    split <;> exact Or.inl rfl
  | permit =>
    unfold State.permit
    split <;> exact Or.inl rfl
  | @staleLookup rid t key fetch head answered =>
    exact Or.inl (staleLookup_storage cfg s rid t key fetch head answered).2.2.2.2.2.2
  | body =>
    refine Or.inl ?_
    simp only [State.originBody]
    split <;> rfl
  | @savePut id save entry answered =>
    refine Or.inl ?_
    cases answered <;> rfl
  | saveInsert =>
    refine Or.inl ?_
    unfold State.saveInsert
    split <;> rfl
  | @arrive req =>
    simp only [State.arrive]
    split
    · exact Or.inr ⟨_, rfl, Replies.own (Or.inr rfl), hgone s.nextId, Or.inr ⟨rfl, rfl⟩⟩
    · split
      · exact Or.inr ⟨_, rfl, Replies.own (Or.inr rfl), hgone s.nextId, Or.inr ⟨rfl, rfl⟩⟩
      · exact Or.inl rfl
  | purgeFinish => exact Or.inl (onlyStorage_callPurge s _ _).answers
  | _ => exact Or.inl rfl

/-- What holds of the answers to a request, and of every answer the step can send to it, holds
after the step. -/
lemma Step.keeps_answers {rid : ℕ} {Q : Answer → Prop} (h : Step cfg s a s')
    (hQ : ∀ ans ∈ s.answers, ans.rid = rid → Q ans)
    (hreply : ∀ ans, Replies cfg s a ans → ans.rid = rid → Q ans) :
    ∀ ans ∈ s'.answers, ans.rid = rid → Q ans := by
  intro ans hans hrid
  rcases h.answers with hsame | ⟨new, hnew, hreplies, -, -⟩
  · exact hQ ans (hsame ▸ hans) hrid
  · rw [hnew, List.mem_cons] at hans
    rcases hans with rfl | hans
    · exact hreply ans hreplies hrid
    · exact hQ ans hans hrid

/-- A purge handler was running before, or begins. -/
theorem Step.purges (h : Step cfg s a s') {id : ℕ} {call : PurgeCall}
    (hcall : s'.purges id = some call) :
    s.purges id = some call ∨ (a = .purgeBegin call ∧ id = s.nextId) := by
  by_cases ha : a.leavesBooks = true
  · exact Or.inl ((h.sameBooks ha).purges ▸ hcall)
  cases h with
  | @cancel rid t ht =>
    unfold State.cancel at hcall
    simp only at hcall
    split at hcall
    · split at hcall <;> exact Or.inl hcall
    · exact Or.inl hcall
  | coalesce =>
    unfold State.coalesce at hcall
    split at hcall <;> exact Or.inl hcall
  | permit =>
    unfold State.permit at hcall
    split at hcall <;> exact Or.inl hcall
  | publish => exact Or.inl hcall
  | tick => exact Or.inl hcall
  | arrive =>
    simp only [State.arrive] at hcall
    split at hcall
    · exact Or.inl hcall
    · split at hcall <;> exact Or.inl hcall
  | @purgeBegin call' =>
    simp only [State.purgeBegin, Function.update_apply] at hcall
    split at hcall
    · rename_i hid
      exact Or.inr ⟨congrArg Action.purgeBegin (Option.some.inj hcall), hid⟩
    · exact Or.inl hcall
  | @purgeFinish id' call' answered =>
    simp only [State.purgeFinish, Function.update_apply] at hcall
    split at hcall
    · cases hcall
    · exact Or.inl hcall
  | _ => exact absurd rfl ha

/-! ## Counters and the clock -/

/-- The clock and the counters never go back. -/
structure Advances (s s' : State) : Prop where
  now : s.now ≤ s'.now
  nextId : s.nextId ≤ s'.nextId
  nextFetch : s.nextFetch ≤ s'.nextFetch

/-- A step that leaves the clock and the counters alone. -/
lemma Advances.of_eq (hnow : s'.now = s.now) (hid : s'.nextId = s.nextId)
    (hfetch : s'.nextFetch = s.nextFetch) : Advances s s' :=
  ⟨hnow.ge, hid.ge, hfetch.ge⟩

/-- A later time is a later time also after other steps. -/
lemma Advances.trans {s t r : State} (h : Advances s t) (h' : Advances t r) : Advances s r :=
  ⟨h.now.trans h'.now, h.nextId.trans h'.nextId, h.nextFetch.trans h'.nextFetch⟩

/-- Every step advances. -/
theorem Step.advances (h : Step cfg s a s') : Advances s s' := by
  by_cases ha : a.leavesBooks = true
  · have hsame := h.sameBooks ha
    exact Advances.of_eq hsame.now hsame.nextId hsame.nextFetch
  cases h with
  | @cancel rid t ht =>
    unfold State.cancel
    cases t.key with
    | none => exact Advances.of_eq rfl rfl rfl
    | some key =>
      simp only
      by_cases hleads : t.phase.leads = true
      · simp only [hleads, if_true]
        exact Advances.of_eq rfl rfl rfl
      · simp only [hleads]
        exact Advances.of_eq rfl rfl rfl
  | coalesce =>
    unfold State.coalesce
    split <;> exact Advances.of_eq rfl rfl rfl
  | permit =>
    unfold State.permit
    split
    · exact ⟨le_rfl, le_rfl, Nat.le_succ s.nextFetch⟩
    · exact Advances.of_eq rfl rfl rfl
  | publish => exact Advances.of_eq rfl rfl rfl
  | tick => exact ⟨Nat.le_add_right _ _, le_rfl, le_rfl⟩
  | @arrive req =>
    obtain ⟨hid, hnow, hfetch⟩ := counters_arrive cfg s req
    exact ⟨hnow.ge, hid ▸ Nat.le_succ _, hfetch.ge⟩
  | purgeBegin => exact ⟨le_rfl, Nat.le_succ s.nextId, le_rfl⟩
  | @purgeFinish id call answered =>
    have hsame := onlyStorage_callPurge s call answered
    exact Advances.of_eq hsame.now hsame.nextId hsame.nextFetch
  | _ => exact absurd rfl ha

/-- The start of a fetch takes the next number. -/
lemma Step.nextFetch_permit {rid : ℕ} (h : Step cfg s (.permit rid true) s') :
    s'.nextFetch = s.nextFetch + 1 := by
  cases h with
  | permit => rfl

end SmartSchoolCdn
