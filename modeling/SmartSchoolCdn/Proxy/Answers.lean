import SmartSchoolCdn.Proxy.Coalescer

/-!
# Where answers come from

Every answer that carries the body of an origin response is backed by an exchange: the
source of the cached entry it was made from, or the exchange its leader completed.  The rule
`backed_answers` turns a property of the exchanges whose saves are started in a run into a
property of the exchanges behind the answers of that run.
-/

namespace SmartSchoolCdn

open Traces

variable {cfg : Config} {s s' : State} {a : Action}

/-- The exchange behind an answer. -/
def Via.source : Via → Option Exchange
  | .l1Hit slot => some slot.entry.body.source
  | .l2Hit x _ => some x.body.source
  | .coalesced _ (.stale found) => some found.body.source
  | .coalesced _ (.origin x) => some x
  | _ => none

/-- The exchange behind a HIT. -/
def Via.hit : Via → Option Exchange
  | .l1Hit slot => some slot.entry.body.source
  | .l2Hit x _ => some x.body.source
  | _ => none

/-- The stale copy in a phase. -/
def Phase.found : Phase → Option (Lookup Copy)
  | .staleDecision _ _ found => some found
  | .publish (.stale found) => some found
  | .respond _ (.stale found) => some found
  | _ => none

/-- A stale copy was there before, or has just been looked up, or comes from the leader. -/
lemma Moves.found {rid : ℕ} {t : Task} {phase : Phase} {found : Lookup Copy}
    (h : Moves cfg s a rid t phase) (hfound : phase.found = some found) :
    t.phase.found = some found ∨
    (∃ key x, t.key = some key ∧ s.storage.stored key = some x ∧ found = x.seen s.now) ∨
    (∃ leader tl, t.phase = .follower leader ∧ s.tasks leader = some tl ∧
      tl.phase.found = some found) := by
  cases h with
  | staleFound ha hold hkey hstored =>
    obtain rfl := Option.some.inj hfound
    exact Or.inr (Or.inl ⟨_, _, hkey, hstored, rfl⟩)
  | staleServed hold =>
    obtain rfl := Option.some.inj hfound
    exact Or.inl (hold ▸ rfl)
  | @published result ha hold =>
    cases result with
    | stale found' =>
      obtain rfl := Option.some.inj hfound
      exact Or.inl (hold ▸ rfl)
    | _ => cases hfound
  | @received leader tl result hold ha htl hpublish =>
    cases result with
    | stale found' =>
      obtain rfl := Option.some.inj hfound
      exact Or.inr (Or.inr ⟨leader, tl, hold, htl, hpublish ▸ rfl⟩)
    | _ => cases hfound
  | @head fetch status headers _ _ _ heq =>
    rcases afterHead_cases cfg fetch status headers with h | ⟨cl, h⟩ <;> rw [heq, h] at hfound <;>
      cases hfound
  | @staleMissing _ fetch head _ _ _ heq =>
    rcases withoutStale_cases cfg fetch head with h | ⟨st, hd, -, h | ⟨cl, h⟩⟩ <;>
      rw [heq, h] at hfound <;> cases hfound
  | @staleRefused fetch head _ _ _ heq =>
    rcases withoutStale_cases cfg fetch head with h | ⟨st, hd, -, h | ⟨cl, h⟩⟩ <;>
      rw [heq, h] at hfound <;> cases hfound
  | _ => cases hfound

/-- Everything the caches carry, and every stale copy on its way to a requester, derives
from an exchange for its key with the property `P`. -/
structure Sourced (cfg : Config) (P : Exchange → Prop) (s : State) : Prop where
  coalescing : Coalescing s
  handing : Handing cfg s
  carried : ∀ key e, Carried cfg s key e → From cfg P key e
  shown : ∀ rid t found, s.tasks rid = some t → t.phase.found = some found →
    ∃ key, t.key = some key ∧ From cfg P key found.toEntry

/-- Exchanges keep a property. -/
lemma From.mono {P Q : Exchange → Prop} (hPQ : ∀ x, P x → Q x) {key : String} {e : MemoryCacheEntry}
    (h : From cfg P key e) : From cfg Q key e :=
  ⟨hPQ _ h.1, h.2⟩

/-- The start. -/
lemma sourced_initial (cfg : Config) (P : Exchange → Prop) (maxSizeBytes : UInt64) :
    Sourced cfg P (State.initial maxSizeBytes) where
  coalescing := coalescing_initial maxSizeBytes
  handing := handing_initial cfg maxSizeBytes
  carried := fun _ e he => absurd he (not_carried_initial maxSizeBytes e)
  shown := fun _ _ _ h => absurd h (by simp [State.initial])

/-- A step keeps every source that it does not introduce. -/
theorem Sourced.step {P Q : Exchange → Prop} (hS : Sourced cfg P s)
    (hst : step cfg s a = some s') (hPQ : ∀ x, P x → Q x) (hstart : ∀ x, StartsSave s a x → Q x) :
    Sourced cfg Q s' where
  coalescing := hS.coalescing.step (step_cases hst)
  handing := Handing.step hS.coalescing hS.handing hst
  carried := by
    intro key e he
    rcases (step_cases hst).carried he with ⟨e₀, he₀, rfl | rfl⟩ | ⟨x, optimized, hnew, hkey, hallowed, rfl⟩
    · exact (hS.carried key e he₀).mono hPQ
    · exact ((hS.carried key e₀ he₀).mono hPQ).wire
    · exact From.prepared (hstart x hnew) hkey hallowed
  shown := by
    intro rid t' found ht' hfound
    rcases (step_cases hst).tasks ht' with hold | ⟨req, raw, -, -, -, -, -, -, -, hnew⟩ |
      ⟨t, phase, ht, rfl, hmove⟩
    · obtain ⟨key, hkey, hfrom⟩ := hS.shown rid t' found hold hfound
      exact ⟨key, hkey, hfrom.mono hPQ⟩
    · rw [hnew] at hfound
      split at hfound <;> cases hfound
    · rcases hmove.found hfound with hold | ⟨key, x, hkey, hstored, rfl⟩ | ⟨leader, tl, hold, htl, hfl⟩
      · obtain ⟨key, hkey, hfrom⟩ := hS.shown rid t found ht hold
        exact ⟨key, hkey, hfrom.mono hPQ⟩
      · have hfrom := hS.carried key x.toEntry (Or.inr ⟨x, hstored, rfl⟩)
        exact ⟨key, hkey, (hfrom.mono hPQ).wire⟩
      · obtain ⟨key, hkey, hfrom⟩ := hS.shown leader tl found htl hfl
        rw [hS.coalescing.follower_key ht hold htl] at hkey
        exact ⟨key, hkey, hfrom.mono hPQ⟩

/-- The exchange behind an answer is what its response was made from. -/
def Answer.Backed (cfg : Config) (P : Exchange → Prop) (ans : Answer) : Prop :=
  match ans.via with
  | .l1Hit slot => ∃ key, requestKey cfg ans.request = some key ∧ From cfg P key slot.entry ∧
      ans.response = hitResponse cfg .l1Hit ans.request slot.entry
  | .l2Hit x lookedUpAt => ∃ key, requestKey cfg ans.request = some key ∧ From cfg P key (x.seen lookedUpAt).toEntry ∧
      ans.response = hitResponse cfg .l2Hit ans.request (x.seen lookedUpAt).toEntry
  | .coalesced _ (.stale found) => ∃ key, requestKey cfg ans.request = some key ∧ From cfg P key found.toEntry ∧
      ans.response = missResponse ans.request (staleResponse found)
  | .coalesced leader (.origin x) => x.rid = leader ∧ requestKey cfg ans.request = some x.key ∧
      (leader = ans.rid → x.request = ans.request) ∧
      ans.response = missResponse ans.request (originResponse x)
  | _ => True

/-- A weaker property backs the same answers. -/
lemma Answer.Backed.mono {P Q : Exchange → Prop} (hPQ : ∀ x, P x → Q x) {ans : Answer}
    (h : ans.Backed cfg P) : ans.Backed cfg Q := by
  have hentry : ∀ {e : MemoryCacheEntry} {response : Response},
      (∃ key, requestKey cfg ans.request = some key ∧ From cfg P key e ∧ ans.response = response) →
      ∃ key, requestKey cfg ans.request = some key ∧ From cfg Q key e ∧ ans.response = response := by
    rintro e response ⟨key, hkey, hfrom, hresp⟩
    exact ⟨key, hkey, hfrom.mono hPQ, hresp⟩
  unfold Answer.Backed at h ⊢
  cases hvia : ans.via with
  | l1Hit slot =>
    rw [hvia] at h
    exact hentry h
  | l2Hit x lookedUpAt =>
    rw [hvia] at h
    exact hentry h
  | coalesced leader result =>
    rw [hvia] at h
    cases result with
    | stale found => exact hentry h
    | origin x => exact h
    | _ => trivial
  | own => trivial

/-- An answer sent from a sourced state is backed. -/
lemma Sourced.replies {P : Exchange → Prop} (hS : Sourced cfg P s) {ans : Answer}
    (h : Replies cfg s a ans) : ans.Backed cfg P := by
  cases h with
  | own => trivial
  | @l1Hit rid t key slot ha ht hkey hphase hslot =>
    have hmem : s.memoryCache key = some slot := (Option.filter_eq_some_iff.mp hslot).1
    have hreq := (hS.handing.keys rid t ht).symm.trans hkey
    exact ⟨key, hreq, hS.carried key slot.entry (Or.inl (Afloat.memory hmem)), rfl⟩
  | @l2Hit rid t key x lookedUpAt ha ht hkey hphase =>
    have hreq := (hS.handing.keys rid t ht).symm.trans hkey
    exact ⟨key, hreq, hS.carried key _ (Or.inl (Afloat.promoting ht hkey hphase)), rfl⟩
  | @coalesced rid t leader result ha ht hphase hmarker =>
    cases result with
    | stale found =>
      obtain ⟨key, hkey, hfrom⟩ := hS.shown rid t found ht (hphase ▸ rfl)
      exact ⟨key, (hS.handing.keys rid t ht).symm.trans hkey, hfrom, rfl⟩
    | origin x =>
      obtain ⟨-, hrid, hkey, hreq⟩ := hS.handing.responds rid t leader x ht hphase
      exact ⟨hrid, (hS.handing.keys rid t ht).symm.trans hkey, hreq, rfl⟩
    | _ => trivial

/-- A property of answers that every step gives to the answer it sends, and that later steps
keep, holds of all answers of a run. -/
theorem answers_of_trace {C : State → Action → Prop} {I : State → Prop}
    {Q : State → Answer → Prop} {t : State} {as : List Action} (h : Trace (step cfg) C s as t)
    (hI : ∀ s a s', I s → C s a → step cfg s a = some s' → I s')
    (hkeep : ∀ s a s' ans, step cfg s a = some s' → Q s ans → Q s' ans)
    (hsend : ∀ s a s' ans, I s → C s a → step cfg s a = some s' → Replies cfg s a ans → Q s' ans)
    (hIs : I s) (hs : ∀ ans ∈ s.answers, Q s ans) : ∀ ans ∈ t.answers, Q t ans := by
  refine h.carried (I := I) (K := fun s => { ans | ans ∈ s.answers }) (P := Q) hI ?_ hIs hs
  intro s a s' ans hIs hC hst hmem
  rcases (step_cases hst).answers with hsame | ⟨new, hnew, hreply, -⟩
  · refine Or.inl ⟨ans, ?_, hkeep s a s' ans hst⟩
    rwa [Set.mem_ofPred_eq, hsame] at hmem
  · rw [Set.mem_ofPred_eq, hnew, List.mem_cons] at hmem
    rcases hmem with rfl | hmem
    · exact Or.inr (hsend s a s' ans hIs hC hst hreply)
    · exact Or.inl ⟨ans, hmem, hkeep s a s' ans hst⟩

/-- The answers of a run are backed by exchanges with a property that every save started
under the side condition has, and that later steps keep. -/
theorem backed_answers {C : State → Action → Prop} {P : State → Exchange → Prop} {t : State}
    {as : List Action} (h : Trace (step cfg) C s as t)
    (hkeep : ∀ s a s' x, step cfg s a = some s' → P s x → P s' x)
    (hstart : ∀ s a s' x, C s a → step cfg s a = some s' → StartsSave s a x → P s' x)
    (hs : Sourced cfg (P s) s) (hans : ∀ ans ∈ s.answers, ans.Backed cfg (P s)) :
    ∀ ans ∈ t.answers, ans.Backed cfg (P t) := by
  refine answers_of_trace (I := fun s => Sourced cfg (P s) s) (Q := fun s ans => ans.Backed cfg (P s))
    h ?_ ?_ ?_ hs hans
  · exact fun s a s' hS hC hst =>
      hS.step hst (fun x => hkeep s a s' x hst) (fun x => hstart s a s' x hC hst)
  · exact fun s a s' ans hst hb => hb.mono fun x => hkeep s a s' x hst
  · exact fun s a s' ans hS _ hst hreply => (hS.replies hreply).mono fun x => hkeep s a s' x hst

/-- The answers of a run from the start are backed by exchanges that may be cached. -/
theorem backed_of_run {C : State → Action → Prop} {maxSizeBytes : UInt64} {t : State}
    {as : List Action} (h : Trace (step cfg) C (State.initial maxSizeBytes) as t) :
    ∀ ans ∈ t.answers, ans.Backed cfg fun x => x.outcome = .miss := by
  refine backed_answers h (P := fun _ x => x.outcome = .miss) ?_ ?_
    (sourced_initial cfg _ maxSizeBytes) ?_
  · exact fun _ _ _ _ _ hmiss => hmiss
  · exact fun _ _ _ _ _ _ hstarts => hstarts.2.1
  · exact fun ans hans => absurd hans (by simp [State.initial])

/-! ## A request is answered once -/

/-- The request has been answered or dropped, and its number is used up. -/
def Gone (s : State) (rid : ℕ) : Prop := s.tasks rid = none ∧ rid < s.nextId

/-- A request that is gone does not come back. -/
lemma Gone.step {rid : ℕ} (hG : Gone s rid) (h : Step cfg s a s') : Gone s' rid := by
  obtain ⟨hnone, hlt⟩ := hG
  refine ⟨?_, lt_of_lt_of_le hlt h.advances.nextId⟩
  by_contra hsome
  obtain ⟨t', ht'⟩ := Option.ne_none_iff_exists'.mp hsome
  rcases h.tasks ht' with hold | ⟨req, raw, -, hrid, -⟩ | ⟨t, phase, ht, -, -⟩
  · rw [hnone] at hold
    cases hold
  · omega
  · rw [hnone] at ht
    cases ht

/-- Answered requests are gone. -/
def Answered (s : State) : Prop := ∀ ans ∈ s.answers, Gone s ans.rid

/-- A step keeps this. -/
lemma Answered.step (hI : Coalescing s) (hA : Answered s) (h : Step cfg s a s') : Answered s' := by
  have hold : ∀ ans ∈ s.answers, Gone s' ans.rid := fun ans hans => (hA ans hans).step h
  intro ans hans
  rcases h.answers with hsame | ⟨new, hnew, -, hgone, hknown⟩
  · rw [hsame] at hans
    exact hold ans hans
  · rw [hnew, List.mem_cons] at hans
    rcases hans with rfl | hans
    · refine ⟨hgone, ?_⟩
      rcases hknown with ⟨t, ht⟩ | ⟨hrid, hnext⟩
      · exact lt_of_lt_of_le (hI.taskKnown _ _ ht) h.advances.nextId
      · omega
    · exact hold ans hans

/-- The start. -/
lemma answered_initial (maxSizeBytes : UInt64) : Answered (State.initial maxSizeBytes) :=
  fun ans hans => absurd hans (by simp [State.initial])

/-- In every reachable state answered requests are gone. -/
lemma answered_of_reaches {maxSizeBytes : UInt64}
    (h : Reaches (step cfg) (State.initial maxSizeBytes) s) : Answered s := by
  have hboth : Coalescing s ∧ Answered s := by
    refine h.invariant (I := fun s => Coalescing s ∧ Answered s) ?_
      ⟨coalescing_initial maxSizeBytes, answered_initial maxSizeBytes⟩
    rintro s a s' ⟨hI, hA⟩ hst
    exact ⟨hI.step (step_cases hst), hA.step hI (step_cases hst)⟩
  exact hboth.2

/-- The number stands for a request that has arrived. -/
structure Belongs (rid : ℕ) (req : Request) (s : State) : Prop where
  known : rid < s.nextId
  task : ∀ t, s.tasks rid = some t → t.request = req
  answer : ∀ ans ∈ s.answers, ans.rid = rid → ans.request = req

/-- A step does not reuse the number. -/
lemma Belongs.step {rid : ℕ} {req : Request} (hB : Belongs rid req s) (h : Step cfg s a s') :
    Belongs rid req s' where
  known := lt_of_lt_of_le hB.known h.advances.nextId
  task := h.keeps_task hB.known hB.task fun _ _ _ _ _ hreq => hreq
  answer := by
    refine h.keeps_answers hB.answer fun ans hreply hrid => ?_
    cases hreply with
    | own hown =>
      rcases hown with ⟨t, ht, hreq, -⟩ | hnext
      · exact hreq.symm.trans (hB.task t (hrid ▸ ht))
      · exact absurd (hrid ▸ hnext) (Nat.ne_of_lt hB.known)
    | l1Hit _ ht => exact hB.task _ (hrid ▸ ht)
    | l2Hit _ ht => exact hB.task _ (hrid ▸ ht)
    | coalesced _ ht => exact hB.task _ (hrid ▸ ht)

/-! ## The runs of a request up to a HIT -/

section Runs

variable {rid : ℕ} {t : Task} {key : String} {x : Stored Copy}

/-- The L1 lookup can be taken. -/
lemma step_l1Get (ht : s.tasks rid = some t) (hkey : t.key = some key) (hphase : t.phase = .l1Lookup) :
    step cfg s (.l1Get rid) = some (s.l1Get cfg rid t key) := by
  simp [step, Action.task, taskStep, cachedStep, ht, hkey, hphase]

/-- The L2 lookup can be taken and answered when the storage client is free. -/
lemma step_l2Get (ht : s.tasks rid = some t) (hkey : t.key = some key) (hphase : t.phase = .l2Lookup)
    (hguard : s.storageGuard = none) :
    step cfg s (.l2Get rid true) = some (s.l2Get rid t key true) := by
  simp [step, Action.task, taskStep, cachedStep, ht, hkey, hphase, hguard]

/-- The promotion can be taken. -/
lemma step_promote {lookedUpAt : Time} (ht : s.tasks rid = some t) (hkey : t.key = some key)
    (hphase : t.phase = .promoting x lookedUpAt) :
    step cfg s (.promote rid) = some (s.promote cfg rid t key x lookedUpAt) := by
  simp [step, Action.task, taskStep, cachedStep, ht, hkey, hphase]

/-- An answered lookup of a fresh copy goes on to its promotion. -/
lemma l2Get_of_fresh (rid : ℕ) (t : Task) (hx : s.storage.stored key = some x)
    (hfresh : x.isExpired s.now = false) :
    (s.l2Get rid t key true).tasks rid = some { t with phase := .promoting x s.now } ∧
      (s.l2Get rid t key true).now = s.now := by
  have hfound : (s.storage.stored key).filter (fun y => !y.isExpired s.now) = some x := by
    rw [Option.filter_eq_some_iff, hfresh]
    exact ⟨hx, rfl⟩
  simp only [State.l2Get, hfound]
  exact ⟨tasks_setPhase_self (s.attempt (.get key false) true) rid t _, rfl⟩

/-- A live entry of the memory cache makes the request a HIT. -/
lemma l1_hit_run {C : State → Action → Prop} (ht : s.tasks rid = some t) (hkey : t.key = some key)
    (hphase : t.phase = .l1Lookup) {slot : Slot} (hslot : s.memoryGet cfg key = some slot)
    (hC : C s (.l1Get rid)) :
    ∃ as u, Trace (step cfg) C s as u ∧ ∃ ans ∈ u.answers, ans.rid = rid ∧ ans.via.hit.isSome = true := by
  refine ⟨[.l1Get rid], _, Trace.cons hC (step_l1Get ht hkey hphase) (Trace.nil _), ?_⟩
  rw [State.l1Get, hslot]
  exact ⟨_, List.mem_cons_self, rfl, rfl⟩

/-- A fresh copy in the storage makes the request a HIT if the memory cache has none. -/
lemma l2_hit_run {C : State → Action → Prop} (ht : s.tasks rid = some t) (hkey : t.key = some key)
    (hphase : t.phase = .l1Lookup) (hguard : s.storageGuard = none)
    (hmemory : s.memoryGet cfg key = none) (hx : s.storage.stored key = some x)
    (hfresh : x.isExpired s.now = false) (hl1 : C s (.l1Get rid))
    (hl2 : ∀ u t', u.tasks rid = some t' → t'.key = some key → u.storage = s.storage →
      u.now = s.now → C u (.l2Get rid true))
    (hpromote : ∀ u, u.now = s.now → C u (.promote rid)) :
    ∃ as u, Trace (step cfg) C s as u ∧ ∃ ans ∈ u.answers, ans.rid = rid ∧ ans.via.hit.isSome = true := by
  have hmiss : s.l1Get cfg rid t key = s.setPhase rid t .l2Lookup := by rw [State.l1Get, hmemory]
  let missed := s.setPhase rid t .l2Lookup
  have htask : missed.tasks rid = some { t with phase := .l2Lookup } :=
    tasks_setPhase_self s rid t .l2Lookup
  -- the state after the L2 lookup
  let looked := missed.l2Get rid { t with phase := .l2Lookup } key true
  obtain ⟨hlooked, hnow⟩ : looked.tasks rid = some { t with phase := .promoting x s.now } ∧
      looked.now = s.now := l2Get_of_fresh rid { t with phase := .l2Lookup } hx hfresh
  have h₁ : step cfg s (.l1Get rid) = some missed :=
    (step_l1Get ht hkey hphase).trans (congrArg some hmiss)
  have h₂ : step cfg missed (.l2Get rid true) = some looked := step_l2Get htask hkey rfl hguard
  have h₃ : step cfg looked (.promote rid) = some (looked.promote cfg rid
      { t with phase := .promoting x s.now } key x s.now) := step_promote hlooked hkey rfl
  refine ⟨[.l1Get rid, .l2Get rid true, .promote rid], _, Trace.cons hl1 h₁
    (Trace.cons (hl2 missed _ htask hkey rfl rfl) h₂
      (Trace.cons (hpromote looked hnow) h₃ (Trace.nil _))), ?_⟩
  simp only [State.promote]
  split <;> exact ⟨_, List.mem_cons_self, rfl, rfl⟩

end Runs

end SmartSchoolCdn
