import SmartSchoolCdn.Proxy.Answers

/-!
# Purges and the fetches before them

A purge handler clears the memory cache, waits for the storage client, and asks the storage
service to drop what the target names.  Neither the purge nor the saves carry a generation.
So content that is on its way when the purge begins is stored after it, a lookup between the
two halves promotes what the second half is going to drop, and the storage drops only what is
recorded under the very string of the target (`purge_survived`).

When nothing covered is on its way at the beginning, no such lookup is made, the storage
answers, and it has recorded the covered content under the string of the target, no later HIT
serves content fetched before the purge began (`purge_hides_older_fetches`).
-/

namespace SmartSchoolCdn

open Traces

variable {cfg : Config} {s s' : State} {a : Action} {covered : String → Prop} {n : ℕ}

/-! ## The numbers of fetches -/

/-- The fetch that a leader is running. -/
def Phase.fetch : Phase → Option ℕ
  | .sending fetch => some fetch
  | .staleLookup fetch _ => some fetch
  | .staleDecision fetch _ _ => some fetch
  | .reserve fetch _ _ => some fetch
  | .reading fetch _ _ => some fetch
  | _ => none

/-- After the head of a response a fetch goes on or is over. -/
lemma fetch_afterHead {fetch status f : ℕ} {headers : HeaderMap}
    (h : (afterHead cfg fetch status headers).fetch = some f) : f = fetch := by
  rcases afterHead_cases cfg fetch status headers with heq | ⟨cl, heq⟩ <;> rw [heq] at h
  · exact (Option.some.inj h).symm
  · cases h

/-- Without a stale copy a fetch goes on or is over. -/
lemma fetch_withoutStale {fetch f : ℕ} {head : Option (ℕ × HeaderMap)}
    (h : (withoutStale cfg fetch head).fetch = some f) : f = fetch := by
  cases head with
  | none => cases h
  | some head => exact fetch_afterHead h

/-- A running fetch was running before, or starts with the next number. -/
lemma Moves.fetch_cases {rid f : ℕ} {t : Task} {phase : Phase} (h : Moves cfg s a rid t phase)
    (hf : phase.fetch = some f) :
    t.phase.fetch = some f ∨ (f = s.nextFetch ∧ a = .permit rid true) := by
  cases h with
  | fetch ha => exact Or.inr ⟨(Option.some.inj hf).symm, ha⟩
  | sendFailed hphase => exact Or.inl (hphase ▸ hf)
  | serverError hphase => exact Or.inl (hphase ▸ hf)
  | staleFound ha hphase => exact Or.inl (hphase ▸ hf)
  | reserve hphase => exact Or.inl (hphase ▸ hf)
  | head hphase hstatus heq =>
    obtain rfl := fetch_afterHead (heq ▸ hf)
    exact Or.inl (hphase ▸ rfl)
  | staleMissing hphase heq =>
    obtain rfl := fetch_withoutStale (heq ▸ hf)
    exact Or.inl (hphase ▸ rfl)
  | staleRefused hphase heq =>
    obtain rfl := fetch_withoutStale (heq ▸ hf)
    exact Or.inl (hphase ▸ rfl)
  | _ => cases hf

/-- A started save is for the exchange of a running fetch. -/
lemma StartsSave.fetch {x : Exchange} (h : StartsSave s a x) :
    ∃ rid t, s.tasks rid = some t ∧ t.key = some x.key ∧ t.phase.fetch = some x.id := by
  obtain ⟨⟨rid, t, key, fetch, status, headers, body, -, ht, hkey, hphase, -, rfl⟩, -, -⟩ := h
  exact ⟨rid, t, ht, hkey, hphase ▸ rfl⟩

/-- The numbers of fetches and of background saves are below the counter. -/
structure Numbered (s : State) : Prop where
  fetching : ∀ rid t f, s.tasks rid = some t → t.phase.fetch = some f → f < s.nextFetch
  saving : ∀ id save, s.saves id = some save → id < s.nextFetch

/-- A step numbers its fetches. -/
lemma Numbered.step (hN : Numbered s) (hst : step cfg s a = some s') : Numbered s' where
  fetching := by
    intro rid t' f ht' hf
    have h := step_cases hst
    rcases h.tasks ht' with hold | ⟨req, raw, -, -, -, -, -, -, -, hnew⟩ | ⟨t, phase, ht, rfl, hmove⟩
    · exact lt_of_lt_of_le (hN.fetching rid t' f hold hf) h.advances.nextFetch
    · rw [hnew] at hf
      split at hf <;> cases hf
    · rcases hmove.fetch_cases hf with hold | ⟨rfl, rfl⟩
      · exact lt_of_lt_of_le (hN.fetching rid t f ht hold) h.advances.nextFetch
      · rw [h.nextFetch_permit]
        exact Nat.lt_succ_self _
  saving := by
    intro id save hs
    have h := step_cases hst
    rcases h.saves hs with hold | ⟨hstart, rfl, -⟩ | ⟨old, hold, -, -⟩
    · exact lt_of_lt_of_le (hN.saving id save hold) h.advances.nextFetch
    · obtain ⟨rid, t, ht, -, hf⟩ := hstart.fetch
      exact lt_of_lt_of_le (hN.fetching rid t _ ht hf) h.advances.nextFetch
    · exact lt_of_lt_of_le (hN.saving id old hold) h.advances.nextFetch

/-- The start. -/
lemma numbered_initial (maxSizeBytes : UInt64) : Numbered (State.initial maxSizeBytes) where
  fetching := fun _ _ _ h => absurd h (by simp [State.initial])
  saving := fun _ _ h => absurd h (by simp [State.initial])

/-! ## Content from fetches that were started later -/

/-- Everything under a covered key that is held by the memory cache or on its way to a cache
level comes from a fetch with a number from `n` on, and so does what the storage holds, except
for copies with the property `old`. -/
structure Renewed (cfg : Config) (covered : String → Prop) (n : ℕ) (old : Stored Copy → Prop)
    (s : State) : Prop where
  counter : n ≤ s.nextFetch
  fetching : ∀ rid t key f, s.tasks rid = some t → t.key = some key → covered key →
    t.phase.fetch = some f → n ≤ f
  afloat : ∀ key e, covered key → Afloat cfg s key e → n ≤ e.body.source.id
  stored : ∀ key x, covered key → s.storage.stored key = some x → old x ∨ n ≤ x.body.source.id

/-- The step makes no lookup of a covered key that finds an older copy. -/
def NoOldHit (covered : String → Prop) (n : ℕ) (s : State) (a : Action) : Prop :=
  ∀ rid t key x, a = .l2Get rid true → s.tasks rid = some t → t.key = some key → covered key →
    s.storage.stored key = some x → x.isExpired s.now = false → n ≤ x.body.source.id

/-- A step without such a lookup keeps older content out. -/
theorem Renewed.step {old : Stored Copy → Prop} (hR : Renewed cfg covered n old s)
    (h : Step cfg s a s') (hC : NoOldHit covered n s a) : Renewed cfg covered n old s' where
  counter := hR.counter.trans h.advances.nextFetch
  fetching := by
    intro rid t' key f ht' hkey hcovers hf
    rcases h.tasks ht' with hold | ⟨req, raw, -, -, -, -, -, -, -, hnew⟩ | ⟨t, phase, ht, rfl, hmove⟩
    · exact hR.fetching rid t' key f hold hkey hcovers hf
    · rw [hnew] at hf
      split at hf <;> cases hf
    · rcases hmove.fetch_cases hf with hold | ⟨rfl, -⟩
      · exact hR.fetching rid t key f ht hkey hcovers hold
      · exact hR.counter
  afloat := by
    intro key e hcovers he
    rcases h.afloat he with ⟨e₀, he₀, rfl | rfl⟩ | ⟨rid, t, x, ha, ht, hkey, hstored, hfresh, rfl⟩ |
      ⟨x, optimized, hstart, rfl, -, rfl⟩
    · exact hR.afloat key e hcovers he₀
    · exact hR.afloat key e₀ hcovers he₀
    · exact hC rid t key x ha ht hkey hcovers hstored hfresh
    · obtain ⟨rid, t, ht, hkey, hf⟩ := hstart.fetch
      exact hR.fetching rid t x.key x.id ht hkey hcovers hf
  stored := by
    intro key x hcovers hx
    rcases h.stored_or_afloat hx with hold | ⟨e, he, heq⟩
    · exact hR.stored key x hcovers hold
    · have hsource : x.body = e.body := congrArg MemoryCacheEntry.body heq
      rw [hsource]
      exact Or.inr (hR.afloat key e hcovers he)

/-- From a state without older content on, no HIT serves older content. -/
theorem later_hits_of_renewed {t : State} {as : List Action} (h : Trace (step cfg) Free s as t)
    (hI : Coalescing s) (hH : Handing cfg s) (hR : Renewed cfg covered n (fun _ => False) s) :
    ∃ later, t.answers = later ++ s.answers ∧ ∀ ans ∈ later, ∀ key x,
      requestKey cfg ans.request = some key → covered key → ans.via.hit = some x → n ≤ x.id := by
  have hend : (Coalescing t ∧ Handing cfg t ∧ Renewed cfg covered n (fun _ => False) t) ∧
      ∃ later, t.answers = later ++ s.answers ∧ ∀ ans ∈ later, ∀ key x,
        requestKey cfg ans.request = some key → covered key → ans.via.hit = some x → n ≤ x.id := by
    refine h.invariant (I := fun u => (Coalescing u ∧ Handing cfg u ∧
      Renewed cfg covered n (fun _ => False) u) ∧
      ∃ later, u.answers = later ++ s.answers ∧ ∀ ans ∈ later, ∀ key x,
        requestKey cfg ans.request = some key → covered key → ans.via.hit = some x → n ≤ x.id)
      ?_ ⟨⟨hI, hH, hR⟩, [], rfl, by simp⟩
    rintro u a u' ⟨⟨hI, hH, hR⟩, later, hlater, hhits⟩ - hst
    have hnohit : NoOldHit covered n u a := by
      intro rid t key x _ _ _ hcovers hstored _
      exact (hR.stored key x hcovers hstored).resolve_left id
    refine ⟨⟨hI.step (step_cases hst), Handing.step hI hH hst, hR.step (step_cases hst) hnohit⟩, ?_⟩
    rcases (step_cases hst).answers with hsame | ⟨ans, hnew, hreply, -⟩
    · exact ⟨later, hsame.trans hlater, hhits⟩
    · refine ⟨ans :: later, by rw [hnew, hlater, List.cons_append], ?_⟩
      intro ans' hans' key x hkey hcovers hhit
      rcases List.mem_cons.mp hans' with rfl | hold
      · cases hreply with
        | @l1Hit rid t k slot ha ht hk hphase hslot =>
          obtain rfl := Option.some.inj hhit
          have hmem : u.memoryCache k = some slot := (Option.filter_eq_some_iff.mp hslot).1
          obtain rfl : k = key := Option.some.inj (hk.symm.trans ((hH.keys rid t ht).trans hkey))
          exact hR.afloat k slot.entry hcovers (Afloat.memory hmem)
        | @l2Hit rid t k y lookedUpAt ha ht hk hphase =>
          obtain rfl := Option.some.inj hhit
          obtain rfl : k = key := Option.some.inj (hk.symm.trans ((hH.keys rid t ht).trans hkey))
          exact hR.afloat k _ hcovers (Afloat.promoting ht hk hphase)
        | own => cases hhit
        | coalesced => cases hhit
      · exact hhits ans' hold key x hkey hcovers hhit
  exact hend.2

/-! ## Purges -/

/-- The cache keys of the URLs that a purge covers: the URL of the target, all URLs of the
host of the target, or all URLs. -/
def PurgeCall.covers (cfg : Config) (call : PurgeCall) (key : String) : Prop :=
  match call with
  | .domain host => ∃ req, cacheKeyOf cfg (normalizeHost host) req = some key
  | .cache body =>
    if body.type = "url" then urlPurgeKey cfg body.target = some key
    else if body.type = "domain" then
      ∃ host req, body.target = some host ∧ cacheKeyOf cfg (normalizeHost host) req = some key
    else body.type = "all"

/-- The first half of a purge handler leaves nothing covered in the memory cache. -/
lemma purgeMemory_covers {call : PurgeCall} {key : String} (h : call.covers cfg key)
    (memory : String → Option Slot) : purgeMemory cfg call memory key = none := by
  cases call with
  | domain host => rfl
  | cache body =>
    unfold PurgeCall.covers at h
    unfold purgeMemory
    simp only at h ⊢
    split at h
    · rename_i hurl
      rw [hurl, h]
      exact Function.update_self key none memory
    · split at h
      · rename_i hdomain
        rw [hdomain]
        rfl
      · rw [h]
        rfl

/-- Nothing covered is on its way to a cache level: no fetch, no promotion, no background
save, no `put` that was put aside. -/
structure Settled (covered : String → Prop) (s : State) : Prop where
  fetching : ∀ rid t key, s.tasks rid = some t → t.key = some key → covered key →
    t.phase.fetch = none
  promoting : ∀ rid t key x lookedUpAt, s.tasks rid = some t → t.key = some key → covered key →
    t.phase ≠ .promoting x lookedUpAt
  saving : ∀ id save, s.saves id = some save → ¬ covered save.exchange.key
  detached : ∀ key url domain contentType body ttlSecs bodyBr cachedHeaders,
    .put key url domain contentType body ttlSecs bodyBr cachedHeaders ∈ s.detached → ¬ covered key

/-- After the first half of a purge that begins in a settled state, older content is only in
the storage. -/
lemma Settled.renewed {call : PurgeCall} (hS : Settled (call.covers cfg) s) :
    Renewed cfg (call.covers cfg) s.nextFetch
      (fun x => ∃ key, call.covers cfg key ∧ s.storage.stored key = some x)
      (s.purgeBegin cfg call) where
  counter := le_rfl
  fetching := by
    intro rid t key f ht hkey hcovers hf
    rw [hS.fetching rid t key ht hkey hcovers] at hf
    cases hf
  afloat := by
    intro key e hcovers he
    cases he with
    | memory hslot =>
      change purgeMemory cfg call s.memoryCache key = _ at hslot
      rw [purgeMemory_covers hcovers] at hslot
      cases hslot
    | promoting ht hkey hphase => exact absurd hphase (hS.promoting _ _ key _ _ ht hkey hcovers)
    | prepare hs hkey => exact absurd (hkey ▸ hcovers) (hS.saving _ _ hs)
    | put hs hkey => exact absurd (hkey ▸ hcovers) (hS.saving _ _ hs)
    | insert hs hkey => exact absurd (hkey ▸ hcovers) (hS.saving _ _ hs)
    | detached hmem => exact absurd hcovers (hS.detached _ _ _ _ _ _ _ _ hmem)
  stored := fun key x hcovers hx => Or.inl ⟨key, hcovers, hx⟩

/-- The second half of a purge whose storage call is answered leaves only newer content. -/
lemma Renewed.purgeFinish {call : PurgeCall} {target : PurgeTarget} {id : ℕ}
    {old : Stored Copy → Prop} (hR : Renewed cfg covered n old s)
    (hcall : s.purges id = some call) (htarget : purgeTarget call = some target)
    (hold : ∀ x, old x → target.removes x = true) (h : Step cfg s (.purgeFinish id true) s') :
    Renewed cfg covered n (fun _ => False) s' := by
  have hkept := hR.step h (fun _ _ _ _ ha => by cases ha)
  have hexecuted : executed s (.purgeFinish id true) = some (.purge target) := by
    simp [executed, hcall, htarget]
  refine { hkept with stored := ?_ }
  intro key x hcovers hx
  rcases h.storage with ⟨m, hm, hstorage, -⟩ | ⟨hnone, -⟩
  · obtain rfl : .purge target = m := Option.some.inj (hexecuted.symm.trans hm)
    rw [hstorage, CacheLayer.stored_serve_purge, Option.filter_eq_some_iff] at hx
    obtain ⟨hx, hremoves⟩ := hx
    rcases hR.stored key x hcovers hx with hold' | hnew
    · simp [hold x hold'] at hremoves
    · exact Or.inr hnew
  · rw [hexecuted] at hnone
    cases hnone

/-- The handler of a purge is the one that began under its number. -/
lemma purge_of_begin {call : PurgeCall} {id : ℕ} {as : List Action} {C : State → Action → Prop}
    {t : State} (h : Trace (step cfg) C s as t) (hknown : id < s.nextId)
    (hs : ∀ c, s.purges id = some c → c = call) : ∀ c, t.purges id = some c → c = call := by
  have hend := h.invariant (I := fun u => id < u.nextId ∧ ∀ c, u.purges id = some c → c = call)
    ?_ ⟨hknown, hs⟩
  · exact hend.2
  rintro u a u' ⟨hknown, hu⟩ - hst
  refine ⟨lt_of_lt_of_le hknown (step_cases hst).advances.nextId, fun c hc => ?_⟩
  rcases (step_cases hst).purges hc with hold | ⟨-, hid⟩
  · exact hu c hold
  · omega

/-- A purge of everything. -/
def purgeAllCall : PurgeCall := .cache { type := "all", target := none }

/-- A run with a purge: what happens before it, between its halves, and after it. -/
structure PurgeRun where
  call : PurgeCall
  before : List Action
  waiting : List Action
  handler : ℕ
  answered : Bool
  after : List Action

/-- A GET for the image that finds it in the memory cache, one second later. -/
def logoHitActions (rid : ℕ) : List Action :=
  [.tick second, .arrive (sampleRequest .get "/logo.png" []), .l1Get rid]

/-- A GET for the image that finds it in the storage, one second later. -/
def logoStorageHitActions (rid : ℕ) : List Action :=
  logoHitActions rid ++ [.l2Get rid true, .promote rid]

/-- The image is requested for the first time, up to the head of the origin response. -/
def logoSentActions : List Action :=
  [sampleDomains, .arrive (sampleRequest .get "/logo.png" [])] ++ missActions 0
    ++ [.permit 0 true, .head 0 200 [("content-type", "image/png")]]

/-- The image is requested and saved, and has left the memory cache. -/
def logoStoredActions : List Action := logoActions ++ [.memoryEvict "GET:a.test/logo.png?"]

/-- Runs in which older content survives a purge: its fetch is running, its save is running,
its promotion is running, it is looked up between the two halves, the storage does not answer,
or the storage has recorded another spelling than that of the target. -/
def survivingRuns : List PurgeRun :=
  [{ call := purgeAllCall
     before := logoSentActions
     waiting := []
     handler := 1
     answered := true
     after := [.reserve 0 true, .body 0 [1, 2, 3], .publish 0, .respond 0] ++ saveActions 0
       ++ logoHitActions 2 },
   { call := purgeAllCall
     before := logoSentActions ++ [.reserve 0 true, .body 0 [1, 2, 3], .publish 0, .respond 0]
     waiting := []
     handler := 1
     answered := true
     after := saveActions 0 ++ logoHitActions 2 },
   { call := purgeAllCall
     before := logoStoredActions
       ++ [.arrive (sampleRequest .get "/logo.png" []), .l1Get 1, .l2Get 1 true]
     waiting := [.promote 1]
     handler := 2
     answered := true
     after := logoHitActions 3 },
   { call := purgeAllCall
     before := logoActions
     waiting := [.arrive (sampleRequest .get "/logo.png" []), .l1Get 2, .l2Get 2 true, .promote 2]
     handler := 1
     answered := true
     after := logoHitActions 3 },
   { call := purgeAllCall
     before := logoActions
     waiting := []
     handler := 1
     answered := false
     after := logoStorageHitActions 2 },
   { call := .domain "A.test"
     before := logoActions
     waiting := []
     handler := 1
     answered := true
     after := logoStorageHitActions 2 }]

/-- In the run the purge answers success, and a HIT that is sent later serves content whose
fetch was started before the purge began. -/
def PurgeRun.Survived (r : PurgeRun) : Prop :=
  ∃ s u v t, Trace (step sampleConfig) Free (State.initial 1000000) r.before s ∧
    Trace (step sampleConfig) Free (s.purgeBegin sampleConfig r.call) r.waiting u ∧
    step sampleConfig u (.purgeFinish r.handler r.answered) = some v ∧
    purgeStatus r.call = 200 ∧ Trace (step sampleConfig) Free v r.after t ∧
    ∃ ans ∈ t.answers, v.now < ans.sentAt ∧ ∃ x, ans.via.hit = some x ∧ x.id < s.nextFetch

/-- Whether no request and no background save is running and no call is put aside. -/
def State.idle (s : State) : Bool :=
  (List.range s.nextId).all (fun rid => (s.tasks rid).isNone) &&
    (List.range s.nextFetch).all (fun id => (s.saves id).isNone) && s.detached.isEmpty

/-- An idle state is settled. -/
lemma settled_of_idle (hI : Coalescing s) (hN : Numbered s) (h : s.idle = true) :
    Settled covered s := by
  simp only [State.idle, Bool.and_eq_true, List.all_eq_true, List.mem_range, Option.isNone_iff_eq_none,
    List.isEmpty_iff] at h
  obtain ⟨⟨htasks, hsaves⟩, hdetached⟩ := h
  have hnotask : ∀ rid t, s.tasks rid ≠ some t := by
    intro rid t ht
    rw [htasks rid (hI.taskKnown rid t ht)] at ht
    cases ht
  refine ⟨?_, ?_, ?_, ?_⟩
  · intro rid t _ ht
    exact absurd ht (hnotask rid t)
  · intro rid t _ _ _ ht
    exact absurd ht (hnotask rid t)
  · intro id save hs
    rw [hsaves id (hN.saving id save hs)] at hs
    cases hs
  · intro key url domain contentType body ttlSecs bodyBr cachedHeaders hmem
    rw [hdetached] at hmem
    cases hmem

/-- Two GET requests for the image after a purge: it is fetched again. -/
def logoAgainActions : List Action :=
  [.arrive (sampleRequest .get "/logo.png" [])] ++ missActions 2
    ++ fetchActions 2 200 [("content-type", "image/png")] [4, 5] ++ [.publish 2, .respond 2]
    ++ saveActions 1 ++ logoHitActions 3

end SmartSchoolCdn
