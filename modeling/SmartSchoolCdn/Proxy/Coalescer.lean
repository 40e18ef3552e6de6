import SmartSchoolCdn.Proxy.Admission

/-!
# The coalescer

The bookkeeping of `coalescer.rs` over whole runs: the in-flight map holds exactly the
running leaders, a follower follows the leader of its own key, and what a requester is
handed is the exchange that its leader completed.
-/

namespace SmartSchoolCdn

open Traces

variable {cfg : Config} {s s' : State} {a : Action}

/-! ## The in-flight map -/

/-- The in-flight map and the phases of the requests agree. -/
structure Coalescing (s : State) : Prop where
  /-- Requests have numbers below the counter. -/
  taskKnown : ∀ rid t, s.tasks rid = some t → rid < s.nextId
  /-- So have the leaders of the in-flight map. -/
  leaderKnown : ∀ key leader, s.inFlight key = some leader → leader < s.nextId
  /-- A request of the in-flight map is the leader of that key. -/
  leader : ∀ key leader t, s.inFlight key = some leader → s.tasks leader = some t →
    t.key = some key ∧ t.phase.leads = true
  /-- Every leader is in the map. -/
  leads : ∀ rid t key, s.tasks rid = some t → t.key = some key → t.phase.leads = true →
    s.inFlight key = some rid
  /-- A follower follows the leader of its key. -/
  follows : ∀ rid t leader, s.tasks rid = some t → t.phase = .follower leader →
    ∃ key, t.key = some key ∧ s.inFlight key = some leader

section Moves

variable {rid : ℕ} {t : Task} {phase : Phase}

/-- The phases after the head of a response lead. -/
lemma leads_afterHead (cfg : Config) (fetch status : ℕ) (headers : HeaderMap) :
    (afterHead cfg fetch status headers).leads = true := by
  rcases afterHead_cases cfg fetch status headers with h | ⟨cl, h⟩ <;> rw [h] <;> rfl

/-- The phases without a stale copy lead. -/
lemma leads_withoutStale (cfg : Config) (fetch : ℕ) (head : Option (ℕ × HeaderMap)) :
    (withoutStale cfg fetch head).leads = true := by
  rcases withoutStale_cases cfg fetch head with h | ⟨st, hd, -, h | ⟨cl, h⟩⟩ <;> rw [h] <;> rfl

/-- Only the coalescer makes a leader. -/
lemma Moves.leads_cases (h : Moves cfg s a rid t phase) (hphase : phase.leads = true) :
    t.phase.leads = true ∨
    ∃ key, a = .coalesce rid ∧ t.key = some key ∧ s.inFlight key = none := by
  cases h with
  | lead ha hold hkey hfree => exact Or.inr ⟨_, ha, hkey, hfree⟩
  | fetch ha hold => exact Or.inl (hold ▸ rfl)
  | permitTimeout hold => exact Or.inl (hold ▸ rfl)
  | sendFailed hold => exact Or.inl (hold ▸ rfl)
  | serverError hold => exact Or.inl (hold ▸ rfl)
  | head hold => exact Or.inl (hold ▸ rfl)
  | staleFound ha hold => exact Or.inl (hold ▸ rfl)
  | staleMissing hold => exact Or.inl (hold ▸ rfl)
  | staleServed hold => exact Or.inl (hold ▸ rfl)
  | staleRefused hold => exact Or.inl (hold ▸ rfl)
  | reserve hold => exact Or.inl (hold ▸ rfl)
  | bufferFull hold => exact Or.inl (hold ▸ rfl)
  | completed hold => exact Or.inl (hold ▸ rfl)
  | bodyFailed hold => exact Or.inl (hold ▸ rfl)
  | _ => exact Bool.noConfusion hphase

/-- A leader stays one until it publishes. -/
lemma Moves.of_leads (h : Moves cfg s a rid t phase) (ht : t.phase.leads = true) :
    phase.leads = true ∨ a = .publish rid := by
  cases h with
  | published ha => exact Or.inr ha
  | head _ _ heq => exact Or.inl (heq ▸ leads_afterHead cfg _ _ _)
  | staleMissing _ heq => exact Or.inl (heq ▸ leads_withoutStale cfg _ _)
  | staleRefused _ heq => exact Or.inl (heq ▸ leads_withoutStale cfg _ _)
  | l1Miss hold => exact Bool.noConfusion ((hold ▸ ht : Phase.leads .l1Lookup = true))
  | l2Hit _ hold => exact Bool.noConfusion ((hold ▸ ht : Phase.leads .l2Lookup = true))
  | l2Miss hold => exact Bool.noConfusion ((hold ▸ ht : Phase.leads .l2Lookup = true))
  | cached hold => exact Bool.noConfusion ((hold ▸ ht : Phase.leads .readBody = true))
  | uncached hold => exact Bool.noConfusion ((hold ▸ ht : Phase.leads .readBody = true))
  | subscribe _ hold => exact Bool.noConfusion ((hold ▸ ht : Phase.leads .coalesce = true))
  | received hold => exact Bool.noConfusion ((hold ▸ ht : Phase.leads (.follower _) = true))
  | abandoned _ hold => exact Bool.noConfusion ((hold ▸ ht : Phase.leads (.follower _) = true))
  | sentinel hold => exact Bool.noConfusion ((hold ▸ ht : Phase.leads (.respond _ _) = true))
  | stream hold => exact Bool.noConfusion ((hold ▸ ht : Phase.leads .streamPermit = true))
  | direct hold => exact Bool.noConfusion ((hold ▸ ht : Phase.leads .directPermit = true))
  | _ => exact Or.inl rfl

/-- Only the coalescer makes a follower. -/
lemma Moves.follower {leader : ℕ} (h : Moves cfg s a rid t (.follower leader)) :
    a = .coalesce rid ∧ ∃ key, t.key = some key ∧ s.inFlight key = some leader := by
  generalize hφ : Phase.follower leader = φ at h
  cases h with
  | subscribe ha hold hkey hleader =>
    cases hφ
    exact ⟨ha, _, hkey, hleader⟩
  | head _ _ heq => exact absurd (hφ.trans heq) (afterHead_ne rfl)
  | staleMissing _ heq => exact absurd (hφ.trans heq) (withoutStale_ne rfl)
  | staleRefused _ heq => exact absurd (hφ.trans heq) (withoutStale_ne rfl)
  | _ => cases hφ

end Moves

/-- The start. -/
lemma coalescing_initial (maxSizeBytes : UInt64) : Coalescing (State.initial maxSizeBytes) where
  taskKnown := fun _ _ h => absurd h (by simp [State.initial])
  leaderKnown := fun _ _ h => absurd h (by simp [State.initial])
  leader := fun _ _ _ h => absurd h (by simp [State.initial])
  leads := fun _ _ _ h => absurd h (by simp [State.initial])
  follows := fun _ _ _ h => absurd h (by simp [State.initial])

/-- Numbers stay below the counter. -/
lemma Coalescing.taskKnown_step (hI : Coalescing s) (h : Step cfg s a s') {rid : ℕ} {t' : Task}
    (ht' : s'.tasks rid = some t') : rid < s'.nextId := by
  have hle := h.advances.nextId
  rcases h.tasks ht' with hold | ⟨req, raw, -, rfl, hnext, -⟩ | ⟨t, phase, ht, -, -⟩
  · exact lt_of_lt_of_le (hI.taskKnown rid t' hold) hle
  · omega
  · exact lt_of_lt_of_le (hI.taskKnown rid t ht) hle

/-- Leaders of the map stay known. -/
lemma Coalescing.leaderKnown_step (hI : Coalescing s) (h : Step cfg s a s') {key : String}
    {leader : ℕ} (hleader : s'.inFlight key = some leader) : leader < s'.nextId := by
  have hle := h.advances.nextId
  rcases h.inFlight with ⟨hsame, -⟩ | ⟨rid, t, k, -, ht, -, -, hnew, -⟩ | ⟨rid, t, k, -, -, -, -, hnew, -⟩
  · exact lt_of_lt_of_le (hI.leaderKnown key leader (hsame ▸ hleader)) hle
  · rw [hnew, Function.update_apply] at hleader
    split at hleader
    · obtain rfl := Option.some.inj hleader
      exact lt_of_lt_of_le (hI.taskKnown rid t ht) hle
    · exact lt_of_lt_of_le (hI.leaderKnown key leader hleader) hle
  · rw [hnew, Function.update_apply] at hleader
    split at hleader
    · cases hleader
    · exact lt_of_lt_of_le (hI.leaderKnown key leader hleader) hle

/-- A request that was in the map and is still there leads its key, unless it publishes. -/
lemma Coalescing.still_leads (hI : Coalescing s) (h : Step cfg s a s') {key : String} {leader : ℕ}
    {t' : Task} (hleader : s.inFlight key = some leader) (ht' : s'.tasks leader = some t') :
    t'.key = some key ∧ (t'.phase.leads = true ∨ a = .publish leader) := by
  rcases h.tasks ht' with hold | ⟨req, raw, -, rfl, -⟩ | ⟨t, phase, ht, rfl, hmove⟩
  · obtain ⟨hkey, hleads⟩ := hI.leader key leader t' hleader hold
    exact ⟨hkey, Or.inl hleads⟩
  · exact absurd (hI.leaderKnown key _ hleader) (lt_irrefl _)
  · obtain ⟨hkey, hleads⟩ := hI.leader key leader t hleader ht
    exact ⟨hkey, hmove.of_leads hleads⟩

/-- The map after a step names leaders of their keys. -/
lemma Coalescing.leader_step (hI : Coalescing s) (h : Step cfg s a s') {key : String} {leader : ℕ}
    {t' : Task} (hleader : s'.inFlight key = some leader) (ht' : s'.tasks leader = some t') :
    t'.key = some key ∧ t'.phase.leads = true := by
  rcases h.inFlight with ⟨hsame, hpublish, -⟩ | ⟨rid, t, k, ha, ht, hkey, hfree, hnew, hself⟩ |
    ⟨rid, t, k, ha, ht, hkey, hleads, hnew, -, -⟩
  · rw [hsame] at hleader
    obtain ⟨hkey, hleads | ha⟩ := hI.still_leads h hleader ht'
    · exact ⟨hkey, hleads⟩
    · exact absurd ha (hpublish leader)
  · rw [hnew, Function.update_apply] at hleader
    split at hleader
    · subst key
      obtain rfl := Option.some.inj hleader
      obtain rfl := Option.some.inj (hself.symm.trans ht')
      exact ⟨hkey, rfl⟩
    · obtain ⟨hkey', hleads | hpublish⟩ := hI.still_leads h hleader ht'
      · exact ⟨hkey', hleads⟩
      · rw [ha] at hpublish
        cases hpublish
  · rw [hnew, Function.update_apply] at hleader
    split at hleader
    · cases hleader
    · rename_i hne
      obtain ⟨hkey', hleads' | hpublish⟩ := hI.still_leads h hleader ht'
      · exact ⟨hkey', hleads'⟩
      · -- the publishing leader had the other key
        rcases ha with ha | ha
        · rw [ha] at hpublish
          obtain rfl := Action.publish.inj hpublish
          exact absurd (Option.some.inj ((hI.leader key _ t hleader ht).1.symm.trans hkey)) hne
        · rw [ha] at hpublish
          cases hpublish

/-- Leaders are in the map after a step. -/
lemma Coalescing.leads_step (hI : Coalescing s) (h : Step cfg s a s') {rid : ℕ} {t' : Task}
    {key : String} (ht' : s'.tasks rid = some t') (hkey : t'.key = some key)
    (hleads : t'.phase.leads = true) : s'.inFlight key = some rid := by
  -- either the request led before, or it has just become a leader
  have hbefore : s.inFlight key = some rid ∨ (a = .coalesce rid ∧ s.inFlight key = none ∧
      ∃ t, s.tasks rid = some t ∧ t.key = some key) := by
    rcases h.tasks ht' with hold | ⟨req, raw, -, -, -, -, -, -, -, hphase⟩ | ⟨t, phase, ht, rfl, hmove⟩
    · exact Or.inl (hI.leads rid t' key hold hkey hleads)
    · rw [hphase] at hleads
      split at hleads <;> exact Bool.noConfusion hleads
    · rcases hmove.leads_cases hleads with hled | ⟨k, ha, hk, hfree⟩
      · exact Or.inl (hI.leads rid t key ht hkey hled)
      · obtain rfl := Option.some.inj (hk.symm.trans hkey)
        exact Or.inr ⟨ha, hfree, t, ht, hkey⟩
  rcases h.inFlight with ⟨hsame, -, hbusy⟩ | ⟨r, t, k, ha, ht, hk, hfree, hnew, hself⟩ |
    ⟨r, t, k, ha, ht, hk, hled, hnew, -, hgone⟩
  · rcases hbefore with hold | ⟨ha, hfree, t, ht, hk⟩
    · rw [hsame]
      exact hold
    · exact absurd hfree (hbusy rid t key ha ht hk)
  · rw [hnew, Function.update_apply]
    rcases hbefore with hold | ⟨ha', -, t₁, ht₁, hk₁⟩
    · rw [if_neg]
      · exact hold
      · rintro rfl
        rw [hfree] at hold
        cases hold
    · rw [ha] at ha'
      cases ha'
      obtain rfl := Option.some.inj (ht.symm.trans ht₁)
      rw [if_pos (Option.some.inj (hk₁.symm.trans hk))]
  · rw [hnew, Function.update_apply]
    rcases hbefore with hold | ⟨ha', -⟩
    · rw [if_neg]
      · exact hold
      · rintro rfl
        have hr := hI.leads r t key ht hk hled
        obtain rfl := Option.some.inj (hold.symm.trans hr)
        rw [hgone t' ht'] at hleads
        cases hleads
    · rcases ha with ha | ha <;> rw [ha] at ha' <;> cases ha'

/-- Followers follow the leader of their key after a step. -/
lemma Coalescing.follows_step (hI : Coalescing s) (h : Step cfg s a s') {rid leader : ℕ} {t' : Task}
    (ht' : s'.tasks rid = some t') (hphase : t'.phase = .follower leader) :
    ∃ key, t'.key = some key ∧ s'.inFlight key = some leader := by
  have hbefore : ∃ key, t'.key = some key ∧ s.inFlight key = some leader := by
    rcases h.moved ht' hphase rfl with hold | ⟨t, ht, rfl, hmove⟩
    · exact hI.follows rid t' leader hold hphase
    · exact hmove.follower.2
  obtain ⟨key, hkey, hleader⟩ := hbefore
  refine ⟨key, hkey, ?_⟩
  rcases h.inFlight with ⟨hsame, -⟩ | ⟨r, t, k, -, -, -, hfree, hnew, -⟩ |
    ⟨r, t, k, -, ht, hk, hled, hnew, hnone, -⟩
  · rw [hsame]
    exact hleader
  · rw [hnew, Function.update_apply, if_neg]
    · exact hleader
    · rintro rfl
      rw [hfree] at hleader
      cases hleader
  · rw [hnew, Function.update_apply, if_neg]
    · exact hleader
    · rintro rfl
      have hr := hI.leads r t key ht hk hled
      obtain rfl := Option.some.inj (hleader.symm.trans hr)
      exact hnone rid t' ht' hphase

/-- The bookkeeping of the coalescer is kept by every step. -/
theorem Coalescing.step (hI : Coalescing s) (h : Step cfg s a s') : Coalescing s' where
  taskKnown := fun _ _ ht => hI.taskKnown_step h ht
  leaderKnown := fun _ _ hleader => hI.leaderKnown_step h hleader
  leader := fun _ _ _ hleader ht => hI.leader_step h hleader ht
  leads := fun _ _ _ ht hkey hleads => hI.leads_step h ht hkey hleads
  follows := fun _ _ _ ht hphase => hI.follows_step h ht hphase

/-- Whether nobody is subscribed to a request: only the requests that have arrived have to be
looked at. -/
def State.unfollowed (s : State) (leader : ℕ) : Bool :=
  (List.range s.nextId).all fun rid => (s.tasks rid).all fun t => !t.phase.follows leader

/-- Where the bookkeeping is right, that test is. -/
lemma Coalescing.of_unfollowed (hI : Coalescing s) {leader : ℕ} (h : s.unfollowed leader = true)
    {rid : ℕ} {t : Task} (ht : s.tasks rid = some t) : t.phase ≠ .follower leader := by
  intro hphase
  have hrid := List.all_eq_true.mp h rid (List.mem_range.mpr (hI.taskKnown rid t ht))
  rw [ht, Option.all_some, hphase, Phase.follows, beq_self_eq_true] at hrid
  cases hrid

/-! ## What requesters are handed -/

/-- Requests and exchanges have the cache key of their URL, and an exchange on its way to a
requester was completed by the leader of the requester's key. -/
structure Handing (cfg : Config) (s : State) : Prop where
  keys : ∀ rid t, s.tasks rid = some t → t.key = requestKey cfg t.request
  logged : ∀ x ∈ s.log, requestKey cfg x.request = some x.key
  publishes : ∀ rid t x, s.tasks rid = some t → t.phase = .publish (.origin x) →
    x ∈ s.log ∧ x.rid = rid ∧ t.key = some x.key ∧ x.request = t.request
  responds : ∀ rid t leader x, s.tasks rid = some t → t.phase = .respond leader (.origin x) →
    x ∈ s.log ∧ x.rid = leader ∧ t.key = some x.key ∧ (leader = rid → x.request = t.request)

/-- The start. -/
lemma handing_initial (cfg : Config) (maxSizeBytes : UInt64) :
    Handing cfg (State.initial maxSizeBytes) where
  keys := fun _ _ h => absurd h (by simp [State.initial])
  logged := fun _ h => absurd h (by simp [State.initial])
  publishes := fun _ _ _ h => absurd h (by simp [State.initial])
  responds := fun _ _ _ _ h => absurd h (by simp [State.initial])

section Moves

variable {rid : ℕ} {t : Task}

/-- An exchange is published by the leader that completes it. -/
lemma Moves.publish_origin {x : Exchange} (h : Moves cfg s a rid t (.publish (.origin x))) :
    Completes s a x ∧ x.rid = rid := by
  generalize hφ : Phase.publish (.origin x) = φ at h
  cases h with
  | completed _ hx hrid =>
    cases hφ
    exact ⟨hx, hrid⟩
  | head _ _ heq => exact absurd (hφ.trans heq) (afterHead_ne rfl)
  | staleMissing _ heq => exact absurd (hφ.trans heq) (withoutStale_ne rfl)
  | staleRefused _ heq => exact absurd (hφ.trans heq) (withoutStale_ne rfl)
  | _ => cases hφ

/-- A result is handed to its leader and to the leader's followers. -/
lemma Moves.respond {leader : ℕ} {result : Fetched} (h : Moves cfg s a rid t (.respond leader result)) :
    (leader = rid ∧ a = .publish rid ∧ t.phase = .publish result) ∨
    (a = .publish leader ∧ t.phase = .follower leader ∧
      ∃ tl, s.tasks leader = some tl ∧ tl.phase = .publish result) ∨
    (a = .cancel leader ∧ t.phase = .follower leader ∧ result = .failed) := by
  generalize hφ : Phase.respond leader result = φ at h
  cases h with
  | published ha hold =>
    cases hφ
    exact Or.inl ⟨rfl, ha, hold⟩
  | received hold ha htl hpublish =>
    cases hφ
    exact Or.inr (Or.inl ⟨ha, hold, _, htl, hpublish⟩)
  | abandoned ha hold =>
    cases hφ
    exact Or.inr (Or.inr ⟨ha, hold, rfl⟩)
  | head _ _ heq => exact absurd (hφ.trans heq) (afterHead_ne rfl)
  | staleMissing _ heq => exact absurd (hφ.trans heq) (withoutStale_ne rfl)
  | staleRefused _ heq => exact absurd (hφ.trans heq) (withoutStale_ne rfl)
  | _ => cases hφ

end Moves

/-- A follower has the key of its leader. -/
lemma Coalescing.follower_key (hI : Coalescing s) {rid leader : ℕ} {t tl : Task}
    (ht : s.tasks rid = some t) (hphase : t.phase = .follower leader)
    (htl : s.tasks leader = some tl) : tl.key = t.key := by
  obtain ⟨key, hkey, hleader⟩ := hI.follows rid t leader ht hphase
  rw [hkey]
  exact (hI.leader key leader tl hleader htl).1

/-- An exchange of the log was fetched with GET or HEAD. -/
lemma Handing.method (hH : Handing cfg s) {x : Exchange} (hx : x ∈ s.log) :
    x.request.method = .get ∨ x.request.method = .head :=
  method_of_requestKey (hH.logged x hx)

/-- What requesters are handed is kept by every step. -/
theorem Handing.step (hI : Coalescing s) (hH : Handing cfg s) (hst : step cfg s a = some s') :
    Handing cfg s' where
  keys := by
    intro rid t' ht'
    rcases (step_cases hst).tasks ht' with hold | ⟨req, raw, -, -, -, hreq, hraw, -, hkey, -⟩ |
      ⟨t, phase, ht, rfl, -⟩
    · exact hH.keys rid t' hold
    · rw [hkey, hreq, requestKey, requestUrl, hraw]
      rfl
    · exact hH.keys rid t ht
  logged := by
    intro x hx
    rcases (step_cases hst).log with ⟨hsame, -⟩ | ⟨y, hy, hlog⟩
    · exact hH.logged x (hsame ▸ hx)
    · rw [hlog, List.mem_cons] at hx
      rcases hx with rfl | hx
      · obtain ⟨r, t, key, fetch, status, headers, body, -, ht, hkey, -, -, rfl⟩ := hy
        exact (hH.keys r t ht).symm.trans hkey
      · exact hH.logged x hx
  publishes := by
    intro rid t' x ht' hphase
    rcases (step_cases hst).moved ht' hphase rfl with hold | ⟨t, ht, rfl, hmove⟩
    · obtain ⟨hlog, hrest⟩ := hH.publishes rid t' x hold hphase
      exact ⟨mem_log_of_step hst hlog, hrest⟩
    · obtain ⟨hx, hrid⟩ := hmove.publish_origin
      refine ⟨hx.mem_log hst, hrid, ?_⟩
      obtain ⟨r, t₀, key, fetch, status, headers, body, -, ht₀, hkey, -, -, rfl⟩ := hx
      obtain rfl : r = rid := hrid
      obtain rfl := Option.some.inj (ht₀.symm.trans ht)
      exact ⟨hkey, rfl⟩
  responds := by
    intro rid t' leader x ht' hphase
    rcases (step_cases hst).moved ht' hphase rfl with hold | ⟨t, ht, rfl, hmove⟩
    · obtain ⟨hlog, hrest⟩ := hH.responds rid t' leader x hold hphase
      exact ⟨mem_log_of_step hst hlog, hrest⟩
    · rcases hmove.respond with ⟨rfl, -, hold⟩ | ⟨-, hold, tl, htl, hpublish⟩ | ⟨-, -, hfailed⟩
      · obtain ⟨hlog, hrid, hkey, hreq⟩ := hH.publishes leader t x ht hold
        exact ⟨mem_log_of_step hst hlog, hrid, hkey, fun _ => hreq⟩
      · obtain ⟨hlog, hrid, hkey, hreq⟩ := hH.publishes leader tl x htl hpublish
        refine ⟨mem_log_of_step hst hlog, hrid, ?_, ?_⟩
        · exact (hI.follower_key ht hold htl).symm.trans hkey
        · rintro rfl
          obtain rfl := Option.some.inj (ht.symm.trans htl)
          exact hreq
      · cases hfailed

/-- A step keeps both. -/
lemma bookkeeping_step (h : Coalescing s ∧ Handing cfg s) (hst : step cfg s a = some s') :
    Coalescing s' ∧ Handing cfg s' :=
  ⟨h.1.step (step_cases hst), Handing.step h.1 h.2 hst⟩

/-- Both hold at the start. -/
lemma bookkeeping_initial (cfg : Config) (maxSizeBytes : UInt64) :
    Coalescing (State.initial maxSizeBytes) ∧ Handing cfg (State.initial maxSizeBytes) :=
  ⟨coalescing_initial maxSizeBytes, handing_initial cfg maxSizeBytes⟩

/-- Both hold in every reachable state. -/
theorem bookkeeping_of_reaches {maxSizeBytes : UInt64}
    (h : Reaches (step cfg) (State.initial maxSizeBytes) s) : Coalescing s ∧ Handing cfg s :=
  h.invariant (fun _ _ _ hI hst => bookkeeping_step hI hst) (bookkeeping_initial cfg maxSizeBytes)

end SmartSchoolCdn
