import SmartSchoolCdn.Proxy.Purge
import Mathlib.Algebra.BigOperators.Group.Finset.Basic
import Mathlib.Algebra.Order.BigOperators.Group.Finset

/-!
# Every request ends

The phases of a request, of a background save and of a purge are ranked so that every step of one of
them lowers its rank: also the broadcast, by which a leader moves its followers, and the end of a body,
which may start a save.  So however the steps interleave and whatever the environment answers, the work
that has come in is over after a bounded number of steps (`work_bounded`).

Nothing can wait for ever either.  The lock of the storage client is held only by a request that can go
on without it, and whoever waits for a fetch waits for a leader that can go on (`work_possible`).
-/

namespace SmartSchoolCdn

open Traces

/-! ## Ranks -/

/-- How many steps a request has before it at most, with those of the save that it may start. -/
def Phase.rank : Phase → ℕ
  | .l1Lookup => 17
  | .l2Lookup => 16
  | .promoting _ _ => 1
  | .readBody => 15
  | .coalesce => 14
  | .permit => 13
  | .sending _ => 12
  | .staleLookup _ _ => 11
  | .staleDecision _ _ _ => 10
  | .reserve _ _ _ => 9
  | .reading _ _ _ => 8
  | .publish _ => 4
  | .follower _ => 4
  | .respond _ _ => 3
  | .streamPermit => 2
  | .streaming => 1
  | .directPermit => 2
  | .direct => 1

/-- How many steps a background save has before it. -/
def SavePhase.rank : SavePhase → ℕ
  | .prepare => 3
  | .put _ => 2
  | .insert _ => 1

/-- The steps of a request that are left, none when it is over. -/
def taskRank : Option Task → ℕ
  | some t => t.phase.rank
  | none => 0

/-- The steps of a background save that are left. -/
def saveRank : Option Save → ℕ
  | some save => save.phase.rank
  | none => 0

/-- The steps of a purge that are left. -/
def purgeRank : Option PurgeCall → ℕ
  | some _ => 1
  | none => 0

lemma Phase.rank_pos (phase : Phase) : 0 < phase.rank := by
  cases phase <;> simp [Phase.rank]

/-! ## What a step changes -/

/-- What the end of a body takes from the rank of its request: enough for the save that it may start. -/
def Action.bodyRank : Action → ℕ
  | .body _ _ => 4
  | _ => 1

/-- The requests after a step: one has moved or is over, or there is a new one. -/
inductive TaskChange (s : State) (a : Action) : (ℕ → Option Task) → Prop
  | same : a.task = none → TaskChange s a s.tasks
  | moves {rid t phase} : a.task = some rid → s.tasks rid = some t → phase.rank < t.phase.rank →
      (phase.leads = false → t.phase.leads = false) → a.bodyRank = 1 →
      TaskChange s a (Function.update s.tasks rid (some { t with phase := phase }))
  | completes {rid t fetch status headers body result} : a = .body rid body → s.tasks rid = some t →
      t.phase = .reading fetch status headers →
      TaskChange s a (Function.update s.tasks rid (some { t with phase := .publish result }))
  | ends {rid t} : a.task = some rid → s.tasks rid = some t → t.phase.leads = false ∨ t.key = none →
      a.bodyRank = 1 →
      (∀ x lookedUpAt, t.phase = .promoting x lookedUpAt → a = .promote rid ∨ a = .cancel rid) →
      TaskChange s a (Function.update s.tasks rid none)
  | publishes {rid t result} : a = .publish rid → s.tasks rid = some t → t.phase = .publish result →
      TaskChange s a ((s.setPhase rid t (.respond rid result)).broadcast rid result).tasks
  | cancels {rid t} : a = .cancel rid → s.tasks rid = some t → t.phase.leads = true →
      TaskChange s a (Function.update (s.broadcast rid .failed).tasks rid none)
  | refuses {req} : a = .arrive req → TaskChange s a (Function.update s.tasks s.nextId none)
  | arrives {req t} : a = .arrive req →
      t.phase = (if t.key.isSome then .l1Lookup else .readBody) →
      TaskChange s a (Function.update s.tasks s.nextId (some t))

variable {cfg : Config} {s s' : State} {a : Action}

lemma rank_afterHead (cfg : Config) (fetch status : ℕ) (headers : HeaderMap) :
    (afterHead cfg fetch status headers).rank ≤ 9 := by
  rcases afterHead_cases cfg fetch status headers with h | ⟨cl, h⟩ <;> rw [h] <;> simp [Phase.rank]

lemma rank_withoutStale (cfg : Config) (fetch : ℕ) (head : Option (ℕ × HeaderMap)) :
    (withoutStale cfg fetch head).rank ≤ 9 := by
  cases head with
  | none => simp [withoutStale, Phase.rank]
  | some head => exact rank_afterHead cfg fetch head.1 head.2

/-- The requests after each step. -/
theorem Step.taskChange (h : Step cfg s a s') : TaskChange s a s'.tasks := by
  cases h with
  | @readBody rid t ok ht hphase =>
    unfold State.readBody
    split
    · refine TaskChange.moves rfl ht ?_ (by simp [hphase, Phase.leads]) rfl
      rw [hphase]
      split <;> simp [Phase.rank]
    · exact TaskChange.ends rfl ht (.inl (by rw [hphase]; rfl)) rfl (by simp [hphase])
  | @respond rid t leader result ht hphase =>
    unfold State.respond
    split
    · exact TaskChange.ends rfl ht (.inl (by rw [hphase]; rfl)) rfl (by simp [hphase])
    · split
      · exact TaskChange.moves rfl ht (by simp [hphase, Phase.rank]) (by simp [hphase, Phase.leads]) rfl
      · exact TaskChange.ends rfl ht (.inl (by rw [hphase]; rfl)) rfl (by simp [hphase])
  | streamStart ht hphase =>
    exact TaskChange.moves rfl ht (by simp [hphase, Phase.rank]) (by simp [hphase, Phase.leads]) rfl
  | streamBusy ht hphase => exact TaskChange.ends rfl ht (.inl (by rw [hphase]; rfl)) rfl (by simp [hphase])
  | stream ht hphase => exact TaskChange.ends rfl ht (.inl (by rw [hphase]; rfl)) rfl (by simp [hphase])
  | directStart ht hphase =>
    exact TaskChange.moves rfl ht (by simp [hphase, Phase.rank]) (by simp [hphase, Phase.leads]) rfl
  | directBusy ht hphase => exact TaskChange.ends rfl ht (.inl (by rw [hphase]; rfl)) rfl (by simp [hphase])
  | direct ht hphase => exact TaskChange.ends rfl ht (.inl (by rw [hphase]; rfl)) rfl (by simp [hphase])
  | @cancel rid t ht =>
    unfold State.cancel
    by_cases hleads : t.phase.leads = true
    · cases hkey : t.key with
      | none => exact TaskChange.ends rfl ht (.inr hkey) rfl fun _ _ _ => .inr rfl
      | some key =>
        simp only [hleads, if_true]
        exact TaskChange.cancels rfl ht hleads
    · rw [Bool.not_eq_true] at hleads
      cases hkey : t.key with
      | none => exact TaskChange.ends rfl ht (.inl hleads) rfl fun _ _ _ => .inr rfl
      | some key =>
        simp only [hleads]
        exact TaskChange.ends rfl ht (.inl hleads) rfl fun _ _ _ => .inr rfl
  | @l1Get rid t key ht hkey hphase =>
    unfold State.l1Get
    split
    · exact TaskChange.ends rfl ht (.inl (by rw [hphase]; rfl)) rfl (by simp [hphase])
    · exact TaskChange.moves rfl ht (by simp [hphase, Phase.rank]) (by simp [hphase, Phase.leads]) rfl
  | @l2Get rid t key answered ht hkey hphase =>
    have htasks := (onlyStorage_attempt s (.get key false) answered).tasks
    simp only [State.l2Get]
    split
    · exact TaskChange.moves rfl ht (by simp [hphase, Phase.rank]) (by simp [hphase, Phase.leads]) rfl
    · simp only [State.setPhase, htasks]
      exact TaskChange.moves rfl ht (by simp [hphase, Phase.rank]) (by simp [hphase, Phase.leads]) rfl
  | @promote rid t key x lookedUpAt ht hkey hphase =>
    unfold State.promote
    have hends : TaskChange s (.promote rid) (Function.update s.tasks rid none) :=
      TaskChange.ends rfl ht (.inl (by rw [hphase]; rfl)) rfl fun _ _ _ => .inl rfl
    simp only
    split <;> exact hends
  | @coalesce rid t key ht hkey hphase =>
    unfold State.coalesce
    split
    · exact TaskChange.moves rfl ht (by simp [hphase, Phase.rank]) (by simp [hphase, Phase.leads]) rfl
    · exact TaskChange.moves rfl ht (by simp [hphase, Phase.rank]) (by simp [hphase, Phase.leads]) rfl
  | @permit rid t key ok ht hkey hphase =>
    unfold State.permit
    split
    · exact TaskChange.moves rfl ht (by simp [hphase, Phase.rank]) (by simp [Phase.leads]) rfl
    · exact TaskChange.moves rfl ht (by simp [hphase, Phase.rank]) (by simp [Phase.leads]) rfl
  | sendFailed ht hkey hphase =>
    exact TaskChange.moves rfl ht (by simp [hphase, Phase.rank]) (by simp [Phase.leads]) rfl
  | @head rid t key fetch status headers ht hkey hphase =>
    unfold State.head
    split
    · exact TaskChange.moves rfl ht (by simp [hphase, Phase.rank]) (by simp [Phase.leads]) rfl
    · have hrank := rank_afterHead cfg fetch status headers
      refine TaskChange.moves rfl ht ?_ (by simp [leads_afterHead]) rfl
      rw [hphase]
      exact lt_of_le_of_lt hrank (by simp [Phase.rank])
  | @staleLookup rid t key fetch head answered ht hkey hphase =>
    have htasks := (onlyStorage_attempt s (.get key true) answered).tasks
    simp only [State.staleLookup]
    split
    · exact TaskChange.moves rfl ht (by simp [hphase, Phase.rank]) (by simp [Phase.leads]) rfl
    · simp only [State.setPhase, htasks]
      have hrank := rank_withoutStale cfg fetch head
      refine TaskChange.moves rfl ht ?_ (by simp [leads_withoutStale]) rfl
      rw [hphase]
      exact lt_of_le_of_lt hrank (by simp [Phase.rank])
  | @staleDecide rid t key fetch head found ht hkey hphase =>
    unfold State.staleDecide
    split
    · exact TaskChange.moves rfl ht (by simp [hphase, Phase.rank]) (by simp [Phase.leads]) rfl
    · have hrank := rank_withoutStale cfg fetch head
      refine TaskChange.moves rfl ht ?_ (by simp [leads_withoutStale]) rfl
      rw [hphase]
      exact lt_of_le_of_lt hrank (by simp [Phase.rank])
  | @reserve rid t key fetch status headers ok ht hkey hphase =>
    unfold State.reserve
    split
    · exact TaskChange.moves rfl ht (by simp [hphase, Phase.rank]) (by simp [Phase.leads]) rfl
    · exact TaskChange.moves rfl ht (by simp [hphase, Phase.rank]) (by simp [Phase.leads]) rfl
  | @body rid t key fetch status headers body ht hkey hphase =>
    rw [tasks_originBody]
    exact TaskChange.completes rfl ht hphase
  | bodyFailed ht hkey hphase =>
    exact TaskChange.moves rfl ht (by simp [hphase, Phase.rank]) (by simp [Phase.leads]) rfl
  | publish ht hkey hphase => exact TaskChange.publishes rfl ht hphase
  | savePrepare => exact TaskChange.same rfl
  | @savePut id save entry answered =>
    have htasks := (onlyStorage_attempt s (saveRequest save.exchange entry) answered).tasks
    simp only [State.savePut, htasks]
    exact TaskChange.same rfl
  | saveInsert =>
    unfold State.saveInsert
    simp only
    split <;> exact TaskChange.same rfl
  | @arrive req =>
    simp only [State.arrive]
    split
    · exact TaskChange.refuses rfl
    · split
      · exact TaskChange.refuses rfl
      · exact TaskChange.arrives rfl rfl
  | @purgeFinish id call answered =>
    have htasks := (onlyStorage_callPurge s call answered).tasks
    simp only [State.purgeFinish, htasks]
    exact TaskChange.same rfl
  | _ => exact TaskChange.same rfl

/-- The background save that an action belongs to. -/
def Action.save : Action → Option ℕ
  | .savePrepare id _ | .savePut id _ | .saveInsert id => some id
  | _ => none

/-- The background saves and the save tracker after a step: one save has started, has moved or is over. -/
inductive SaveChange (s : State) (a : Action) (s' : State) : Prop
  | same : a.save = none → (∀ x, ¬ StartsSave s a x) → s'.saves = s.saves → s'.saving = s.saving →
      SaveChange s a s'
  | starts {x} : StartsSave s a x →
      s'.saves = Function.update s.saves x.id (some { exchange := x, phase := .prepare }) →
      s'.saving = Function.update s.saving x.key true → SaveChange s a s'
  | moves {id save phase} : a.save = some id → s.saves id = some save → phase.rank < save.phase.rank →
      s'.saves = Function.update s.saves id (some { save with phase := phase }) → s'.saving = s.saving →
      SaveChange s a s'
  | ends {id save} : a.save = some id → s.saves id = some save →
      s'.saves = Function.update s.saves id none →
      s'.saving = Function.update s.saving save.exchange.key false → SaveChange s a s'

/-- Only the end of a body starts a save. -/
lemma not_startsSave (ha : ∀ rid body, a ≠ .body rid body) (x : Exchange) : ¬ StartsSave s a x := by
  rintro ⟨⟨rid, t, key, fetch, status, headers, body, hbody, -⟩, -⟩
  exact ha rid body hbody

/-- The background saves after each step. -/
theorem Step.saveChange (h : Step cfg s a s') : SaveChange s a s' := by
  by_cases ha : a.leavesCaches = true
  · have hsame := h.sameCaches ha
    have hsave : a.save = none := by
      cases a <;> first | rfl | cases ha
    refine SaveChange.same hsave (not_startsSave fun rid body hbody => ?_) hsame.saves hsame.saving
    rw [hbody] at ha
    cases ha
  cases h with
  | @l2Get rid t key answered =>
    refine SaveChange.same rfl (not_startsSave (by simp)) (l2Get_storage s rid t key answered).2.2.2.2.1 ?_
    simp only [State.l2Get]
    cases answered with
    | false => rfl
    | true => split <;> rfl
  | @staleLookup rid t key fetch head answered =>
    refine SaveChange.same rfl (not_startsSave (by simp))
      (staleLookup_storage cfg s rid t key fetch head answered).2.2.2.2.1 ?_
    simp only [State.staleLookup]
    cases answered with
    | false => rfl
    | true => split <;> rfl
  | @promote rid t key x lookedUpAt =>
    refine SaveChange.same rfl (not_startsSave (by simp))
      (promote_caches cfg s rid t key x lookedUpAt).2.2.2.1 ?_
    simp only [State.promote]
    split <;> rfl
  | @body rid t key fetch status headers body ht hkey hphase hbody =>
    have hcompletes : Completes s (.body rid body) (State.exchangeOf rid t key fetch status headers body) :=
      ⟨rid, t, key, fetch, status, headers, body, rfl, ht, hkey, hphase, hbody, rfl⟩
    generalize State.exchangeOf rid t key fetch status headers body = x at hcompletes ⊢
    by_cases hmiss : x.outcome = .miss ∧ s.saving x.key = false
    · refine SaveChange.starts ⟨hcompletes, hmiss⟩ ?_ ?_
      · simp only [State.originBody, if_pos hmiss]
      · simp only [State.originBody, if_pos hmiss]
    · refine SaveChange.same rfl (fun y hy => hmiss ?_) ?_ ?_
      · rw [hcompletes.unique hy.1]
        exact hy.2
      · simp only [State.originBody, if_neg hmiss]
        rfl
      · simp only [State.originBody, if_neg hmiss]
        rfl
  | @savePrepare id save optimized hsave hphase _ =>
    exact SaveChange.moves rfl hsave (by simp [hphase, SavePhase.rank]) rfl rfl
  | @savePut id save entry answered hsave hphase =>
    have hsame := onlyStorage_attempt s (saveRequest save.exchange entry) answered
    have hrank : (SavePhase.insert entry).rank < save.phase.rank := by simp [hphase, SavePhase.rank]
    refine SaveChange.moves rfl hsave hrank ?_ hsame.saving
    simp only [State.savePut, hsame.saves]
  | @saveInsert id save entry hsave hphase =>
    refine SaveChange.ends rfl hsave ?_ ?_
    · unfold State.saveInsert
      simp only
      split <;> rfl
    · unfold State.saveInsert
      simp only
      split <;> rfl
  | @purgeFinish id call answered =>
    have hsame := onlyStorage_callPurge s call answered
    exact SaveChange.same rfl (not_startsSave (by simp)) hsame.saves hsame.saving
  | memoryEvict => exact SaveChange.same rfl (not_startsSave (by simp)) rfl rfl
  | storageEvict => exact SaveChange.same rfl (not_startsSave (by simp)) rfl rfl
  | storagePurge => exact SaveChange.same rfl (not_startsSave (by simp)) rfl rfl
  | lateCall => exact SaveChange.same rfl (not_startsSave (by simp)) rfl rfl
  | purgeBegin => exact SaveChange.same rfl (not_startsSave (by simp)) rfl rfl
  | _ => exact absurd rfl ha

/-! ## The work that is left -/

/-- The steps that the requests below a number have left. -/
def tasksWork (n : ℕ) (tasks : ℕ → Option Task) : ℕ := ∑ rid ∈ Finset.range n, taskRank (tasks rid)

/-- The steps that the background saves below a number have left. -/
def savesWork (n : ℕ) (saves : ℕ → Option Save) : ℕ := ∑ id ∈ Finset.range n, saveRank (saves id)

/-- The steps that the purges below a number have left. -/
def purgesWork (n : ℕ) (purges : ℕ → Option PurgeCall) : ℕ :=
  ∑ id ∈ Finset.range n, purgeRank (purges id)

/-- All the steps that are left. -/
def State.work (s : State) : ℕ :=
  tasksWork s.nextId s.tasks + savesWork s.nextFetch s.saves + purgesWork s.nextId s.purges

/-- A sum whose terms do not grow, of which one is lower. -/
lemma sum_lower {f g : ℕ → ℕ} {n i d : ℕ} (hi : i < n) (hle : ∀ j, g j ≤ f j) (hd : g i + d ≤ f i) :
    ∑ j ∈ Finset.range n, g j + d ≤ ∑ j ∈ Finset.range n, f j := by
  have hmem : i ∈ Finset.range n := Finset.mem_range.mpr hi
  have hg := Finset.add_sum_erase (Finset.range n) g hmem
  have hf := Finset.add_sum_erase (Finset.range n) f hmem
  have hrest : ∑ j ∈ (Finset.range n).erase i, g j ≤ ∑ j ∈ (Finset.range n).erase i, f j :=
    Finset.sum_le_sum fun j _ => hle j
  omega

/-- A sum of which only one term grows. -/
lemma sum_raise {f g : ℕ → ℕ} {n i d : ℕ} (hle : ∀ j, j ≠ i → g j ≤ f j) (hd : g i ≤ f i + d) :
    ∑ j ∈ Finset.range n, g j ≤ ∑ j ∈ Finset.range n, f j + d := by
  by_cases hi : i < n
  · have hmem : i ∈ Finset.range n := Finset.mem_range.mpr hi
    have hg := Finset.add_sum_erase (Finset.range n) g hmem
    have hf := Finset.add_sum_erase (Finset.range n) f hmem
    have hrest : ∑ j ∈ (Finset.range n).erase i, g j ≤ ∑ j ∈ (Finset.range n).erase i, f j :=
      Finset.sum_le_sum fun j hj => hle j (Finset.ne_of_mem_erase hj)
    omega
  · refine (Finset.sum_le_sum fun j hj => hle j ?_).trans (Nat.le_add_right _ _)
    rintro rfl
    exact hi (Finset.mem_range.mp hj)

/-- A broadcast lowers the ranks of the followers. -/
lemma taskRank_broadcast (s : State) (leader : ℕ) (result : Fetched) (rid : ℕ) :
    taskRank ((s.broadcast leader result).tasks rid) ≤ taskRank (s.tasks rid) := by
  change taskRank ((s.tasks rid).map _) ≤ _
  cases hr : s.tasks rid with
  | none => exact le_rfl
  | some t =>
    simp only [Option.map_some, taskRank]
    split
    · rename_i hfollows
      unfold Phase.follows at hfollows
      split at hfollows
      · rename_i l hphase
        simp [hphase, Phase.rank]
      · cases hfollows
    · exact le_rfl

/-- The rank after one request has changed. -/
lemma taskRank_update_le {rid i : ℕ} {t : Task} {u : Option Task} (ht : s.tasks rid = some t)
    (hu : taskRank u ≤ t.phase.rank) :
    taskRank (Function.update s.tasks rid u i) ≤ taskRank (s.tasks i) := by
  rw [Function.update_apply]
  split
  · rename_i hi
    rw [hi, ht]
    exact hu
  · exact le_rfl

/-- A step of a request lowers the ranks of the requests. -/
lemma TaskChange.work {tasks : ℕ → Option Task} (h : TaskChange s a tasks)
    (hknown : ∀ rid t, s.tasks rid = some t → rid < s.nextId) (ha : a.task ≠ none) :
    tasksWork s.nextId tasks + a.bodyRank ≤ tasksWork s.nextId s.tasks := by
  cases h with
  | same hnone => exact absurd hnone ha
  | @moves rid t phase _ ht hrank _ hbody =>
    refine sum_lower (hknown rid t ht) (fun i => taskRank_update_le ht hrank.le) ?_
    rw [Function.update_self, ht, hbody]
    exact hrank
  | @completes rid t fetch status headers body result hbody ht hphase =>
    subst hbody
    refine sum_lower (hknown rid t ht) (fun i => taskRank_update_le ht ?_) ?_
    · simp [taskRank, hphase, Phase.rank]
    · simp [taskRank, ht, hphase, Phase.rank, Action.bodyRank]
  | @ends rid t _ ht _ hbody _ =>
    refine sum_lower (hknown rid t ht) (fun i => taskRank_update_le ht (Nat.zero_le _)) ?_
    rw [Function.update_self, ht, hbody]
    exact t.phase.rank_pos
  | @publishes rid t result hpublish ht hphase =>
    subst hpublish
    have hmoved : ∀ i, taskRank ((s.setPhase rid t (.respond rid result)).tasks i) ≤ taskRank (s.tasks i) :=
      fun i => taskRank_update_le ht (by simp [taskRank, hphase, Phase.rank])
    refine sum_lower (hknown rid t ht) (fun i => (taskRank_broadcast _ rid result i).trans (hmoved i)) ?_
    have hself := taskRank_broadcast (s.setPhase rid t (.respond rid result)) rid result rid
    rw [tasks_setPhase_self] at hself
    simp only [taskRank, ht, hphase, Phase.rank, Action.bodyRank] at hself ⊢
    omega
  | @cancels rid t hcancel ht _ =>
    subst hcancel
    refine sum_lower (hknown rid t ht) (fun i => ?_) ?_
    · rw [Function.update_apply]
      split
      · exact Nat.zero_le _
      · exact taskRank_broadcast s rid .failed i
    · rw [Function.update_self, ht]
      exact t.phase.rank_pos
  | refuses harrive => exact absurd (harrive ▸ rfl) ha
  | arrives harrive _ => exact absurd (harrive ▸ rfl) ha

/-- Numbers without work do not count. -/
lemma sum_extend {f : ℕ → ℕ} {n m : ℕ} (hle : n ≤ m) (h : ∀ j, n ≤ j → f j = 0) :
    ∑ j ∈ Finset.range m, f j = ∑ j ∈ Finset.range n, f j := by
  refine (Finset.sum_subset (Finset.range_subset_range.mpr hle) fun j _ hj => ?_).symm
  exact h j (Nat.le_of_not_lt fun hlt => hj (Finset.mem_range.mpr hlt))

/-- Requests, background saves and purges have numbers below the counters. -/
structure Counted (s : State) : Prop where
  coalescing : Coalescing s
  numbered : Numbered s
  purges : ∀ id call, s.purges id = some call → id < s.nextId

lemma eq_none_of_le {α : Type} {f : ℕ → Option α} {n j : ℕ} (h : ∀ i x, f i = some x → i < n)
    (hj : n ≤ j) : f j = none :=
  Option.eq_none_iff_forall_ne_some.mpr fun x hx => Nat.not_lt.mpr hj (h j x hx)

/-- An arrival brings the steps of a request. -/
lemma TaskChange.work_arrive {tasks : ℕ → Option Task} {req : Request} (h : TaskChange s (.arrive req) tasks)
    (hcounted : Counted s) {n : ℕ} (hn : s.nextId ≤ n) :
    tasksWork n tasks ≤ tasksWork s.nextId s.tasks + 17 := by
  have hextend : tasksWork n s.tasks = tasksWork s.nextId s.tasks :=
    sum_extend hn fun j hj => by rw [eq_none_of_le hcounted.coalescing.taskKnown hj]; rfl
  have hnew : ∀ u, taskRank u ≤ 17 →
      tasksWork n (Function.update s.tasks s.nextId u) ≤ tasksWork s.nextId s.tasks + 17 := by
    intro u hu
    rw [← hextend]
    refine sum_raise (i := s.nextId) (fun j hj => by rw [Function.update_of_ne hj]) ?_
    rw [Function.update_self]
    exact hu.trans (Nat.le_add_left _ _)
  cases h with
  | same => exact hextend ▸ Nat.le_add_right _ _
  | refuses => exact hnew none (Nat.zero_le _)
  | arrives _ hphase =>
    refine hnew _ ?_
    rw [taskRank, hphase]
    split <;> simp [Phase.rank]
  | moves hrid => cases hrid
  | ends hrid => cases hrid
  | completes hbody => cases hbody
  | publishes hpublish => cases hpublish
  | cancels hcancel => cases hcancel

/-- The purges after a step. -/
lemma Step.purgeChange (h : Step cfg s a s') :
    (∃ call, a = .purgeBegin call ∧ s'.nextId = s.nextId + 1 ∧
      s'.purges = Function.update s.purges s.nextId (some call)) ∨
    (∃ id call answered, a = .purgeFinish id answered ∧ s.purges id = some call ∧
      s'.purges = Function.update s.purges id none) ∨
    ((∀ call, a ≠ .purgeBegin call) ∧ (∀ id answered, a ≠ .purgeFinish id answered) ∧
      s'.purges = s.purges) := by
  by_cases ha : a.leavesBooks = true
  · refine Or.inr (Or.inr ⟨?_, ?_, (h.sameBooks ha).purges⟩)
    · rintro call rfl
      cases ha
    · rintro id answered rfl
      cases ha
  cases h with
  | purgeBegin => exact Or.inl ⟨_, rfl, rfl, rfl⟩
  | @purgeFinish id call answered hcall =>
    refine Or.inr (Or.inl ⟨id, call, answered, rfl, hcall, ?_⟩)
    rfl
  | @cancel rid t ht =>
    refine Or.inr (Or.inr ⟨by simp, by simp, ?_⟩)
    unfold State.cancel
    cases t.key with
    | none => rfl
    | some key =>
      simp only
      split <;> rfl
  | coalesce =>
    refine Or.inr (Or.inr ⟨by simp, by simp, ?_⟩)
    unfold State.coalesce
    split <;> rfl
  | permit =>
    refine Or.inr (Or.inr ⟨by simp, by simp, ?_⟩)
    unfold State.permit
    split <;> rfl
  | publish => exact Or.inr (Or.inr ⟨by simp, by simp, rfl⟩)
  | tick => exact Or.inr (Or.inr ⟨by simp, by simp, rfl⟩)
  | arrive =>
    refine Or.inr (Or.inr ⟨by simp, by simp, ?_⟩)
    unfold State.arrive
    split
    · rfl
    · simp only
      split <;> rfl
  | _ => exact absurd rfl ha

/-- The numbers after a step. -/
lemma Counted.step (hC : Counted s) (hst : step cfg s a = some s') : Counted s' where
  coalescing := hC.coalescing.step (step_cases hst)
  numbered := hC.numbered.step hst
  purges := by
    intro id call hcall
    have h := step_cases hst
    rcases h.purgeChange with ⟨call', -, hnext, hpurges⟩ | ⟨id', call', answered, -, -, hpurges⟩ |
      ⟨-, -, hpurges⟩
    · rw [hpurges, Function.update_apply] at hcall
      rw [hnext]
      split at hcall
      · rename_i hid
        exact hid ▸ Nat.lt_succ_self _
      · exact Nat.lt_succ_of_lt (hC.purges id call hcall)
    · rw [hpurges, Function.update_apply] at hcall
      split at hcall
      · cases hcall
      · exact lt_of_lt_of_le (hC.purges id call hcall) h.advances.nextId
    · rw [hpurges] at hcall
      exact lt_of_lt_of_le (hC.purges id call hcall) h.advances.nextId

/-- What an action brings to do. -/
def Action.brings : Action → ℕ
  | .arrive _ => 17
  | .purgeBegin _ => 1
  | _ => 0

/-- Whether an action is a step of a request, of a background save or of a purge. -/
def Action.works : Action → Bool
  | .purgeFinish _ _ => true
  | a => a.task.isSome || a.save.isSome

/-- The requests after a step. -/
lemma Counted.tasksWork_step (hC : Counted s) (h : Step cfg s a s') :
    tasksWork s'.nextId s'.tasks + (if a.task.isSome then a.bodyRank else 0) ≤
      tasksWork s.nextId s.tasks + (match a with | .arrive _ => 17 | _ => 0) := by
  have hle := h.advances.nextId
  by_cases harrive : ∃ req, a = .arrive req
  · obtain ⟨req, rfl⟩ := harrive
    exact h.taskChange.work_arrive hC hle
  have hnone : ∀ j, s.nextId ≤ j → taskRank (s'.tasks j) = 0 := by
    intro j hj
    cases hj' : s'.tasks j with
    | none => rfl
    | some t' =>
      rcases h.tasks hj' with hold | ⟨req, raw, ha, -⟩ | ⟨t, phase, ht, -, -⟩
      · exact absurd (hC.coalescing.taskKnown j t' hold) (Nat.not_lt.mpr hj)
      · exact absurd ⟨req, ha⟩ harrive
      · exact absurd (hC.coalescing.taskKnown j t ht) (Nat.not_lt.mpr hj)
  have hextend : tasksWork s'.nextId s'.tasks = tasksWork s.nextId s'.tasks := sum_extend hle hnone
  rw [hextend]
  cases htask : a.task with
  | none =>
    have hsame : s'.tasks = s.tasks := by
      have hchange := h.taskChange
      generalize s'.tasks = tasks at hchange
      cases hchange with
      | same => rfl
      | moves hrid => exact absurd (htask.symm.trans hrid) (by simp)
      | ends hrid => exact absurd (htask.symm.trans hrid) (by simp)
      | completes hbody => exact absurd (hbody ▸ htask) (by simp [Action.task])
      | publishes hpublish => exact absurd (hpublish ▸ htask) (by simp [Action.task])
      | cancels hcancel => exact absurd (hcancel ▸ htask) (by simp [Action.task])
      | refuses ha => exact absurd ⟨_, ha⟩ harrive
      | arrives ha => exact absurd ⟨_, ha⟩ harrive
    rw [hsame]
    exact Nat.le_add_right _ _
  | some rid =>
    have hwork := h.taskChange.work hC.coalescing.taskKnown (by simp [htask])
    exact hwork.trans (Nat.le_add_right _ _)

/-- The background saves after a step. -/
lemma Counted.savesWork_step (hC : Counted s) (h : Step cfg s a s') :
    savesWork s'.nextFetch s'.saves + (if a.save.isSome then 1 else 0) ≤
      savesWork s.nextFetch s.saves + (a.bodyRank - 1) := by
  have hle := h.advances.nextFetch
  have hsaves := hC.numbered.saving
  have hnone : ∀ j, s.nextFetch ≤ j → saveRank (s'.saves j) = 0 := by
    intro j hj
    cases hj' : s'.saves j with
    | none => rfl
    | some save =>
      refine absurd ?_ (Nat.not_lt.mpr hj)
      rcases h.saves hj' with hold | ⟨hstart, rfl, -⟩ | ⟨old, hold, -⟩
      · exact hsaves j save hold
      · obtain ⟨rid, t, ht, -, hf⟩ := hstart.fetch
        exact hC.numbered.fetching rid t _ ht hf
      · exact hsaves j old hold
  have hextend : savesWork s'.nextFetch s'.saves = savesWork s.nextFetch s'.saves := sum_extend hle hnone
  rw [hextend]
  cases h.saveChange with
  | same hsave _ hsame =>
    rw [hsame, hsave]
    exact Nat.le_add_right _ _
  | @starts x hstart hsame =>
    have hbody : a.bodyRank = 4 ∧ a.save = none := by
      obtain ⟨⟨rid, t, key, fetch, status, headers, body, rfl, -⟩, -⟩ := hstart
      exact ⟨rfl, rfl⟩
    rw [hsame, hbody.1, hbody.2]
    refine sum_raise (i := x.id) (fun j hj => by rw [Function.update_of_ne hj]) ?_
    rw [Function.update_self]
    exact Nat.le_add_left 3 _
  | @moves id save phase hid hold hrank hsame =>
    rw [hsame, hid]
    refine (sum_lower (hsaves id save hold) (fun j => ?_) ?_).trans (Nat.le_add_right _ _)
    · rw [Function.update_apply]
      split
      · rename_i hj
        rw [hj, hold]
        exact hrank.le
      · exact le_rfl
    · rw [Function.update_self, hold]
      exact hrank
  | @ends id save hid hold hsame =>
    rw [hsame, hid]
    refine (sum_lower (hsaves id save hold) (fun j => ?_) ?_).trans (Nat.le_add_right _ _)
    · rw [Function.update_apply]
      split
      · exact Nat.zero_le _
      · exact le_rfl
    · rw [Function.update_self, hold]
      cases hphase : save.phase <;> simp [saveRank, hphase, SavePhase.rank]

/-- The purges after a step. -/
lemma Counted.purgesWork_step (hC : Counted s) (h : Step cfg s a s') :
    purgesWork s'.nextId s'.purges + (match a with | .purgeFinish _ _ => 1 | _ => 0) ≤
      purgesWork s.nextId s.purges + (match a with | .purgeBegin _ => 1 | _ => 0) := by
  have hle := h.advances.nextId
  have hextend : purgesWork s'.nextId s.purges = purgesWork s.nextId s.purges :=
    sum_extend hle fun j hj => by rw [eq_none_of_le hC.purges hj]; rfl
  rcases h.purgeChange with ⟨call, rfl, -, hpurges⟩ | ⟨id, call, answered, rfl, hcall, hpurges⟩ |
    ⟨hbegin, hfinish, hpurges⟩
  · rw [hpurges, ← hextend]
    refine sum_raise (i := s.nextId) (fun j hj => by rw [Function.update_of_ne hj]) ?_
    rw [Function.update_self]
    exact Nat.le_add_left _ _
  · rw [hpurges, ← hextend]
    refine sum_lower (lt_of_lt_of_le (hC.purges id call hcall) hle) (fun j => ?_) ?_
    · rw [Function.update_apply]
      split
      · exact Nat.zero_le _
      · exact le_rfl
    · rw [Function.update_self, hcall]
      exact le_rfl
  · rw [hpurges, hextend]
    split
    · exact absurd rfl (hfinish _ _)
    · exact Nat.le_add_right _ _

/-- A step that works leaves less to do, and the others leave as much, up to what they bring. -/
lemma Counted.work_step (hC : Counted s) (h : Step cfg s a s') :
    s'.work + (if a.works then 1 else 0) ≤ s.work + a.brings := by
  have htasks := hC.tasksWork_step h
  have hsaves := hC.savesWork_step h
  have hpurges := hC.purgesWork_step h
  unfold State.work
  cases a <;> simp only [Action.task, Action.save, Action.works, Action.brings, Action.bodyRank, Option.isSome,
    Bool.or_true, Bool.or_false, if_true, Bool.false_eq_true, if_false] at htasks hsaves hpurges ⊢ <;> omega

/-- What all actions of a run bring. -/
def broughtBy (as : List Action) : ℕ := (as.map Action.brings).sum

/-- The work of a run is bounded by what was there and what has come in. -/
lemma Counted.work_trace {as : List Action} {t : State} (hC : Counted s)
    (h : Trace (SmartSchoolCdn.step cfg) Free s as t) :
    t.work + as.countP Action.works ≤ s.work + broughtBy as ∧ Counted t := by
  induction h with
  | nil s => exact ⟨le_rfl, hC⟩
  | @cons s s' t a as _ hst _ ih =>
    have hstep := hC.work_step (step_cases hst)
    obtain ⟨hrest, hC'⟩ := ih (hC.step hst)
    refine ⟨?_, hC'⟩
    have hcount : (a :: as).countP Action.works = as.countP Action.works + if a.works then 1 else 0 :=
      List.countP_cons
    have hbrought : broughtBy (a :: as) = a.brings + broughtBy as := by
      rw [broughtBy, List.map_cons, List.sum_cons, broughtBy]
    rw [hcount, hbrought]
    omega

/-- The start. -/
lemma counted_initial (maxSizeBytes : UInt64) : Counted (State.initial maxSizeBytes) where
  coalescing := coalescing_initial maxSizeBytes
  numbered := numbered_initial maxSizeBytes
  purges := fun _ _ h => absurd h (by simp [State.initial])

lemma work_initial (maxSizeBytes : UInt64) : (State.initial maxSizeBytes).work = 0 := rfl

/-! ## Something can always be done -/

/-- The phases of a request that has a cache key. -/
def Phase.needsKey : Phase → Bool
  | .readBody | .respond _ _ | .streamPermit | .streaming | .directPermit | .direct => false
  | _ => true

/-- The requests that are looked up and fetched have a cache key, the lock of the storage client is held
by a request that promotes, and the leaders of the in-flight map are there. -/
structure Unblocked (s : State) : Prop where
  counted : Counted s
  keyed : ∀ rid t, s.tasks rid = some t → t.phase.needsKey = true → t.key ≠ none
  guarded : ∀ rid, s.storageGuard = some rid →
    ∃ t x lookedUpAt, s.tasks rid = some t ∧ t.phase = .promoting x lookedUpAt
  led : ∀ key rid, s.inFlight key = some rid → s.tasks rid ≠ none

/-- A request comes to a phase with a key from one with a key, or when it has one. -/
lemma Moves.needsKey {rid : ℕ} {t : Task} {phase : Phase} (h : Moves cfg s a rid t phase)
    (hphase : phase.needsKey = true) : t.phase.needsKey = true ∨ t.key ≠ none := by
  cases h with
  | cached _ hkey => exact Or.inr (by simpa [Option.isSome_iff_ne_none] using hkey)
  | uncached => cases hphase
  | published => cases hphase
  | received => cases hphase
  | abandoned => cases hphase
  | sentinel => cases hphase
  | stream => cases hphase
  | direct => cases hphase
  | l1Miss hold => exact Or.inl (hold ▸ rfl)
  | l2Hit _ hold => exact Or.inl (hold ▸ rfl)
  | l2Miss => cases hphase
  | subscribe _ _ hkey => exact Or.inr (by simp [hkey])
  | lead _ _ hkey => exact Or.inr (by simp [hkey])
  | staleFound _ _ hkey => exact Or.inr (by simp [hkey])
  | fetch _ hold => exact Or.inl (hold ▸ rfl)
  | staleMissing _ _ _ hkey => exact Or.inr (by simp [hkey])
  | _ hold => exact Or.inl (hold ▸ rfl)

/-- A request that promotes stays until it has, or goes away. -/
lemma TaskChange.promoting {tasks : ℕ → Option Task} {rid : ℕ} {t : Task} {x : Stored Copy} {lookedUpAt : Time}
    (h : TaskChange s a tasks) (hknown : rid < s.nextId) (ht : s.tasks rid = some t)
    (hphase : t.phase = .promoting x lookedUpAt) :
    tasks rid = some t ∨ a = .promote rid ∨ a = .cancel rid := by
  have hbroadcast : ∀ {u : State} {leader : ℕ} {result : Fetched}, u.tasks rid = some t →
      (u.broadcast leader result).tasks rid = some t := by
    intro u leader result hu
    change (u.tasks rid).map _ = some t
    rw [hu, Option.map_some, hphase]
    rfl
  cases h with
  | same => exact Or.inl ht
  | @moves r u phase _ hu hrank =>
    refine Or.inl ?_
    rw [Function.update_of_ne, ht]
    rintro rfl
    obtain rfl := Option.some.inj (ht.symm.trans hu)
    rw [hphase] at hrank
    exact absurd hrank (Nat.not_lt.mpr phase.rank_pos)
  | @completes r u fetch status headers body result _ hu hreading =>
    refine Or.inl ?_
    rw [Function.update_of_ne, ht]
    rintro rfl
    obtain rfl := Option.some.inj (ht.symm.trans hu)
    exact absurd (hphase.symm.trans hreading) (by simp)
  | @ends r u _ hu _ _ hpromoting =>
    by_cases hr : rid = r
    · subst hr
      obtain rfl := Option.some.inj (ht.symm.trans hu)
      exact Or.inr (hpromoting x lookedUpAt hphase)
    · exact Or.inl (by rw [Function.update_of_ne hr, ht])
  | @publishes r u result _ hu hpublish =>
    refine Or.inl (hbroadcast ?_)
    change Function.update s.tasks r _ rid = some t
    rw [Function.update_of_ne, ht]
    rintro rfl
    obtain rfl := Option.some.inj (ht.symm.trans hu)
    exact absurd (hphase.symm.trans hpublish) (by simp)
  | @cancels r u hcancel hu _ =>
    by_cases hr : rid = r
    · exact Or.inr (Or.inr (hr ▸ hcancel))
    · exact Or.inl (by rw [Function.update_of_ne hr]; exact hbroadcast ht)
  | refuses =>
    refine Or.inl ?_
    rw [Function.update_of_ne hknown.ne, ht]
  | arrives =>
    refine Or.inl ?_
    rw [Function.update_of_ne hknown.ne, ht]

/-- The lock of the storage client after a step. -/
lemma Step.guardChange (h : Step cfg s a s') :
    (s'.storageGuard = s.storageGuard ∧ (∀ rid, a ≠ .promote rid) ∧
      ∀ rid, a = .cancel rid → s.storageGuard ≠ some rid) ∨
    s'.storageGuard = none ∨
    ∃ (rid : ℕ) (t : Task) (x : Stored Copy) (lookedUpAt : Time), s'.storageGuard = some rid ∧
      s'.tasks rid = some { t with phase := .promoting x lookedUpAt } := by
  have hsame : s'.storageGuard = s.storageGuard → (∀ rid, a ≠ .promote rid) → (∀ rid, a ≠ .cancel rid) →
      s'.storageGuard = s.storageGuard ∧ (∀ rid, a ≠ .promote rid) ∧
        ∀ rid, a = .cancel rid → s.storageGuard ≠ some rid :=
    fun hguard hpromote hcancel => ⟨hguard, hpromote, fun rid ha => absurd ha (hcancel rid)⟩
  have hattempt : ∀ (m : StorageRequest Copy) (answered : Bool),
      (s.attempt m answered).storageGuard = s.storageGuard := by
    intro m answered
    cases answered <;> rfl
  cases h with
  | promote => exact Or.inr (Or.inl rfl)
  | @cancel rid t ht =>
    by_cases hown : s.storageGuard = some rid
    · refine Or.inr (Or.inl ?_)
      simp only [State.cancel, if_pos hown]
    · refine Or.inl ⟨?_, by simp, ?_⟩
      · simp only [State.cancel, if_neg hown]
      · intro r hr
        cases hr
        exact hown
  | @l2Get rid t key answered =>
    simp only [State.l2Get]
    split
    · exact Or.inr (Or.inr ⟨rid, t, _, _, rfl, tasks_setPhase_self _ rid t _⟩)
    · exact Or.inl ⟨hattempt _ _, by simp, by simp⟩
  | readBody =>
    refine Or.inl (hsame ?_ (by simp) (by simp))
    unfold State.readBody
    split <;> rfl
  | respond =>
    refine Or.inl (hsame ?_ (by simp) (by simp))
    unfold State.respond
    split
    · rfl
    · split <;> rfl
  | l1Get =>
    refine Or.inl (hsame ?_ (by simp) (by simp))
    unfold State.l1Get
    split <;> rfl
  | coalesce =>
    refine Or.inl (hsame ?_ (by simp) (by simp))
    unfold State.coalesce
    split <;> rfl
  | permit =>
    refine Or.inl (hsame ?_ (by simp) (by simp))
    unfold State.permit
    split <;> rfl
  | @staleLookup rid t key fetch head answered =>
    refine Or.inl (hsame ?_ (by simp) (by simp))
    simp only [State.staleLookup]
    cases answered with
    | false => rfl
    | true => split <;> rfl
  | body =>
    refine Or.inl (hsame ?_ (by simp) (by simp))
    simp only [State.originBody]
    split <;> rfl
  | savePut => exact Or.inl (hsame (hattempt _ _) (by simp) (by simp))
  | saveInsert =>
    refine Or.inl (hsame ?_ (by simp) (by simp))
    simp only [State.saveInsert]
    split <;> rfl
  | arrive =>
    refine Or.inl (hsame ?_ (by simp) (by simp))
    unfold State.arrive
    split
    · rfl
    · simp only
      split <;> rfl
  | @purgeFinish id call answered =>
    refine Or.inl (hsame ?_ (by simp) (by simp))
    change (s.callPurge call answered).storageGuard = s.storageGuard
    unfold State.callPurge
    split
    · exact hattempt _ _
    · rfl
  | _ => exact Or.inl (hsame rfl (by simp) (by simp))

/-- A request that is gone after a step did not lead, or it was cancelled. -/
lemma TaskChange.gone {tasks : ℕ → Option Task} {rid : ℕ} {t : Task} (h : TaskChange s a tasks)
    (hknown : rid < s.nextId) (ht : s.tasks rid = some t) (hgone : tasks rid = none) :
    (t.phase.leads = false ∨ t.key = none) ∨ a = .cancel rid := by
  have hstays : ∀ {u : State} {leader : ℕ} {result : Fetched},
      (u.broadcast leader result).tasks rid = none → u.tasks rid = none :=
    fun hnone => Option.map_eq_none_iff.mp hnone
  cases h with
  | same => exact absurd (ht.symm.trans hgone) (by simp)
  | @moves r u phase _ hu =>
    rw [Function.update_apply] at hgone
    split at hgone
    · cases hgone
    · exact absurd (ht.symm.trans hgone) (by simp)
  | @completes r u fetch status headers body result =>
    rw [Function.update_apply] at hgone
    split at hgone
    · cases hgone
    · exact absurd (ht.symm.trans hgone) (by simp)
  | @ends r u _ hu hleads =>
    rw [Function.update_apply] at hgone
    split at hgone
    · rename_i hr
      subst hr
      obtain rfl := Option.some.inj (ht.symm.trans hu)
      exact Or.inl hleads
    · exact absurd (ht.symm.trans hgone) (by simp)
  | @publishes r u result =>
    have hnone : Function.update s.tasks r _ rid = none := hstays hgone
    rw [Function.update_apply] at hnone
    split at hnone
    · cases hnone
    · exact absurd (ht.symm.trans hnone) (by simp)
  | @cancels r u hcancel =>
    rw [Function.update_apply] at hgone
    split at hgone
    · rename_i hr
      exact Or.inr (hr ▸ hcancel)
    · exact absurd (ht.symm.trans (hstays hgone)) (by simp)
  | refuses =>
    rw [Function.update_of_ne hknown.ne] at hgone
    exact absurd (ht.symm.trans hgone) (by simp)
  | arrives =>
    rw [Function.update_of_ne hknown.ne] at hgone
    exact absurd (ht.symm.trans hgone) (by simp)

/-- The leaders of the in-flight map are there after a step. -/
lemma Unblocked.led_step (hU : Unblocked s) (h : Step cfg s a s') {key : String} {rid : ℕ}
    (hleader : s'.inFlight key = some rid) : s'.tasks rid ≠ none := by
  have hstays : s.inFlight key = some rid → a ≠ .cancel rid → s'.tasks rid ≠ none := by
    intro hold hcancel hgone
    obtain ⟨t, ht⟩ := Option.ne_none_iff_exists'.mp (hU.led key rid hold)
    obtain ⟨hkey, hleads⟩ := hU.counted.coalescing.leader key rid t hold ht
    have hknown := hU.counted.coalescing.taskKnown rid t ht
    rcases h.taskChange.gone hknown ht hgone with (hnot | hnone) | hdrop
    · exact absurd (hleads.symm.trans hnot) (by simp)
    · exact absurd (hkey.symm.trans hnone) (by simp)
    · exact hcancel hdrop
  rcases h.inFlight with ⟨hsame, -, -⟩ | ⟨r, t, k, rfl, -, -, -, hnew, hself⟩ |
    ⟨r, t, k, ha, ht, hkey, hleads, hnew, -, -⟩
  · rw [hsame] at hleader
    refine hstays hleader ?_
    rintro rfl
    cases h with
    | @cancel _ t ht =>
      obtain ⟨hkey, hleads⟩ := hU.counted.coalescing.leader key rid t hleader ht
      have hleft : (s.cancel rid t).inFlight = Function.update s.inFlight key none := by
        simp [State.cancel, hkey, hleads, State.broadcast, State.leave]
      have hsame' := congrFun (hleft.symm.trans hsame) key
      rw [Function.update_self, hleader] at hsame'
      cases hsame'
  · rw [hnew, Function.update_apply] at hleader
    split at hleader
    · obtain rfl := Option.some.inj hleader
      exact hself ▸ Option.some_ne_none _
    · exact hstays hleader (by simp)
  · rw [hnew, Function.update_apply] at hleader
    split at hleader
    · cases hleader
    · rename_i hne
      refine hstays hleader ?_
      rintro rfl
      rcases ha with ha | ha <;> cases ha
      exact hne (Option.some.inj ((hU.counted.coalescing.leader key rid t hleader ht).1.symm.trans hkey))

/-- A step blocks nobody. -/
lemma Unblocked.step (hU : Unblocked s) (hst : step cfg s a = some s') : Unblocked s' where
  counted := hU.counted.step hst
  keyed := by
    intro rid t' ht' hneeds
    rcases (step_cases hst).tasks ht' with hold | ⟨req, raw, -, -, -, -, -, -, -, hnew⟩ |
      ⟨t, phase, ht, rfl, hmove⟩
    · exact hU.keyed rid t' hold hneeds
    · rw [hnew] at hneeds
      split at hneeds
      · rename_i hsome
        exact Option.isSome_iff_ne_none.mp hsome
      · cases hneeds
    · rcases hmove.needsKey hneeds with hold | hkey
      · exact hU.keyed rid t ht hold
      · exact hkey
  guarded := by
    intro rid hguard
    have h := step_cases hst
    rcases h.guardChange with ⟨hsame, hpromote, hcancel⟩ | hnone | ⟨r, t, x, lookedUpAt, hnew, hself⟩
    · obtain ⟨t, x, lookedUpAt, ht, hphase⟩ := hU.guarded rid (hsame ▸ hguard)
      have hknown := hU.counted.coalescing.taskKnown rid t ht
      rcases h.taskChange.promoting hknown ht hphase with hkept | ha | ha
      · exact ⟨t, x, lookedUpAt, hkept, hphase⟩
      · exact absurd ha (hpromote rid)
      · exact absurd (hsame ▸ hguard) (hcancel rid ha)
    · exact absurd (hnone.symm.trans hguard) (by simp)
    · obtain rfl := Option.some.inj (hnew.symm.trans hguard)
      exact ⟨_, x, lookedUpAt, hself, rfl⟩
  led := fun _ _ hleader => hU.led_step (step_cases hst) hleader

/-- The start. -/
lemma unblocked_initial (maxSizeBytes : UInt64) : Unblocked (State.initial maxSizeBytes) where
  counted := counted_initial maxSizeBytes
  keyed := fun _ _ h => absurd h (by simp [State.initial])
  guarded := fun _ h => absurd h (by simp [State.initial])
  led := fun _ _ h => absurd h (by simp [State.initial])

/-- A step of a request, of a background save or of a purge that needs nobody to go away. -/
def Possible (cfg : Config) (s : State) : Prop :=
  ∃ a s', a.works = true ∧ (∀ rid, a ≠ .cancel rid) ∧ step cfg s a = some s'

section Possible

variable {rid : ℕ} {t : Task} {key : String}

/-- A step of a request in its phase. -/
lemma possible_of_task {a : Action} (ht : s.tasks rid = some t) (ha : a.task = some rid)
    (hcancel : ∀ r, a ≠ .cancel r)
    (hsome : ((taskStep s rid t a).or (t.key.bind fun key => cachedStep cfg s rid t key a)).isSome = true) :
    Possible cfg s := by
  obtain ⟨s', hs'⟩ := Option.isSome_iff_exists.mp hsome
  refine ⟨a, s', ?_, hcancel, ?_⟩
  · cases a <;> first | rfl | cases ha
  · rw [← hs']
    cases a <;> cases ha <;> simp [step, Action.task, ht]

/-- A request that promotes can go on. -/
lemma possible_promote {x : Stored Copy} {lookedUpAt : Time} (ht : s.tasks rid = some t)
    (hkey : t.key = some key) (hphase : t.phase = .promoting x lookedUpAt) : Possible cfg s :=
  possible_of_task (a := .promote rid) ht rfl (by simp) (by simp [taskStep, hkey, cachedStep, hphase])

/-- The lock of the storage client is free, or its holder can go on. -/
lemma Unblocked.guard_free (cfg : Config) (hU : Unblocked s) : s.storageGuard = none ∨ Possible cfg s := by
  cases hguard : s.storageGuard with
  | none => exact Or.inl rfl
  | some rid =>
    obtain ⟨t, x, lookedUpAt, ht, hphase⟩ := hU.guarded rid hguard
    obtain ⟨key, hkey⟩ := Option.ne_none_iff_exists'.mp (hU.keyed rid t ht (by rw [hphase]; rfl))
    exact Or.inr (possible_promote ht hkey hphase)

/-- A leader can go on, whatever the origin does. -/
lemma possible_of_leads (hfree : s.storageGuard = none) (ht : s.tasks rid = some t) (hkey : t.key = some key)
    (hleads : t.phase.leads = true) : Possible cfg s := by
  cases hphase : t.phase with
  | permit =>
    exact possible_of_task (a := .permit rid true) ht rfl (by simp)
      (by simp [taskStep, hkey, cachedStep, hphase])
  | sending fetch =>
    exact possible_of_task (a := .sendFailed rid) ht rfl (by simp)
      (by simp [taskStep, hkey, cachedStep, hphase])
  | staleLookup fetch head =>
    exact possible_of_task (a := .staleLookup rid true) ht rfl (by simp)
      (by simp [taskStep, hkey, cachedStep, hphase, hfree])
  | staleDecision fetch head found =>
    exact possible_of_task (a := .staleDecide rid) ht rfl (by simp)
      (by simp [taskStep, hkey, cachedStep, hphase])
  | reserve fetch status headers =>
    exact possible_of_task (a := .reserve rid true) ht rfl (by simp)
      (by simp [taskStep, hkey, cachedStep, hphase])
  | reading fetch status headers =>
    exact possible_of_task (a := .bodyFailed rid) ht rfl (by simp)
      (by simp [taskStep, hkey, cachedStep, hphase])
  | publish result =>
    exact possible_of_task (a := .publish rid) ht rfl (by simp)
      (by simp [taskStep, hkey, cachedStep, hphase])
  | _ =>
    rw [hphase] at hleads
    cases hleads

/-- A request before its fetch can go on. -/
lemma possible_of_keyed (hfree : s.storageGuard = none) (ht : s.tasks rid = some t) (hkey : t.key = some key)
    (hphase : t.phase = .l1Lookup ∨ t.phase = .l2Lookup ∨ t.phase = .coalesce) : Possible cfg s := by
  rcases hphase with hphase | hphase | hphase
  · exact possible_of_task (a := .l1Get rid) ht rfl (by simp)
      (by simp [taskStep, hkey, cachedStep, hphase])
  · exact possible_of_task (a := .l2Get rid true) ht rfl (by simp)
      (by simp [taskStep, hkey, cachedStep, hphase, hfree])
  · exact possible_of_task (a := .coalesce rid) ht rfl (by simp)
      (by simp [taskStep, hkey, cachedStep, hphase])

/-- A request can go on, or the leader that it waits for can, or the holder of the lock. -/
lemma Unblocked.possible_task (hU : Unblocked s) (ht : s.tasks rid = some t) : Possible cfg s := by
  rcases hU.guard_free cfg with hfree | hpossible
  swap
  · exact hpossible
  by_cases hneeds : t.phase.needsKey = true
  · obtain ⟨key, hkey⟩ := Option.ne_none_iff_exists'.mp (hU.keyed rid t ht hneeds)
    by_cases hleads : t.phase.leads = true
    · exact possible_of_leads hfree ht hkey hleads
    · cases hphase : t.phase with
      | l1Lookup => exact possible_of_keyed hfree ht hkey (.inl hphase)
      | l2Lookup => exact possible_of_keyed hfree ht hkey (.inr (.inl hphase))
      | coalesce => exact possible_of_keyed hfree ht hkey (.inr (.inr hphase))
      | promoting x lookedUpAt => exact possible_promote ht hkey hphase
      | follower leader =>
        -- the leader is in the in-flight map, so it is there and leads
        obtain ⟨k, -, hleader⟩ := hU.counted.coalescing.follows rid t leader ht hphase
        obtain ⟨l, hl⟩ := Option.ne_none_iff_exists'.mp (hU.led k leader hleader)
        obtain ⟨hlkey, hlleads⟩ := hU.counted.coalescing.leader k leader l hleader hl
        exact possible_of_leads hfree hl hlkey hlleads
      | _ => simp [hphase, Phase.needsKey, Phase.leads] at hneeds hleads
  · cases hphase : t.phase with
    | readBody =>
      exact possible_of_task (a := .readBody rid true) ht rfl (by simp) (by simp [taskStep, hphase])
    | respond leader result =>
      exact possible_of_task (a := .respond rid) ht rfl (by simp) (by simp [taskStep, hphase])
    | streamPermit =>
      exact possible_of_task (a := .streamPermit rid true) ht rfl (by simp) (by simp [taskStep, hphase])
    | streaming =>
      exact possible_of_task (a := .stream rid none) ht rfl (by simp) (by simp [taskStep, hphase])
    | directPermit =>
      exact possible_of_task (a := .directPermit rid true) ht rfl (by simp) (by simp [taskStep, hphase])
    | direct =>
      exact possible_of_task (a := .direct rid .unreachable) ht rfl (by simp) (by simp [taskStep, hphase])
    | _ => exact absurd (by rw [hphase]; rfl) hneeds

/-- A background save can go on, or the holder of the lock can. -/
lemma Unblocked.possible_save (hU : Unblocked s) {id : ℕ} {save : Save} (hsave : s.saves id = some save) :
    Possible cfg s := by
  rcases hU.guard_free cfg with hfree | hpossible
  swap
  · exact hpossible
  cases hphase : save.phase with
  | prepare =>
    exact ⟨.savePrepare id none, s.savePrepare cfg id save.exchange none, rfl, by simp,
      by simp [SmartSchoolCdn.step, hsave, saveStep, hphase]⟩
  | put entry =>
    exact ⟨.savePut id true, s.savePut id save.exchange entry true, rfl, by simp,
      by simp [SmartSchoolCdn.step, hsave, saveStep, hphase, hfree]⟩
  | insert entry =>
    exact ⟨.saveInsert id, s.saveInsert id save.exchange entry, rfl, by simp,
      by simp [SmartSchoolCdn.step, hsave, saveStep, hphase]⟩

/-- A purge can go on, or the holder of the lock can. -/
lemma Unblocked.possible_purge (hU : Unblocked s) {id : ℕ} {call : PurgeCall}
    (hcall : s.purges id = some call) : Possible cfg s := by
  rcases hU.guard_free cfg with hfree | hpossible
  · exact ⟨.purgeFinish id true, s.purgeFinish id call true, rfl, by simp,
      by simp [SmartSchoolCdn.step, Action.task, environmentStep, hcall, hfree]⟩
  · exact hpossible

end Possible

/-- No request, background save or purge is on its way. -/
def State.Idle (s : State) : Prop :=
  (∀ rid, s.tasks rid = none) ∧ (∀ id, s.saves id = none) ∧ ∀ id, s.purges id = none

/-- Whenever something is on its way, something can go on. -/
lemma Unblocked.idle_or_possible (cfg : Config) (hU : Unblocked s) : s.Idle ∨ Possible cfg s := by
  by_cases htasks : ∃ rid, s.tasks rid ≠ none
  · obtain ⟨rid, hrid⟩ := htasks
    obtain ⟨t, ht⟩ := Option.ne_none_iff_exists'.mp hrid
    exact Or.inr (hU.possible_task ht)
  by_cases hsaves : ∃ id, s.saves id ≠ none
  · obtain ⟨id, hid⟩ := hsaves
    obtain ⟨save, hsave⟩ := Option.ne_none_iff_exists'.mp hid
    exact Or.inr (hU.possible_save hsave)
  by_cases hpurges : ∃ id, s.purges id ≠ none
  · obtain ⟨id, hid⟩ := hpurges
    obtain ⟨call, hcall⟩ := Option.ne_none_iff_exists'.mp hid
    exact Or.inr (hU.possible_purge hcall)
  push Not at htasks hsaves hpurges
  exact Or.inl ⟨htasks, hsaves, hpurges⟩

/-- A step that works and sends nobody away. -/
def Finishes (_ : State) (a : Action) : Prop :=
  a.works = true ∧ ∀ rid, a ≠ .cancel rid

/-- What is on its way can be brought to its end. -/
lemma Unblocked.finishes (cfg : Config) {n : ℕ} (hU : Unblocked s) (hn : s.work ≤ n) :
    ∃ as t, Trace (SmartSchoolCdn.step cfg) Finishes s as t ∧ t.Idle := by
  induction n generalizing s with
  | zero =>
    rcases hU.idle_or_possible cfg with hidle | ⟨a, s', hworks, -, hst⟩
    · exact ⟨[], s, Trace.nil s, hidle⟩
    · have hstep := hU.counted.work_step (step_cases hst)
      cases a <;> simp [Action.works, Action.task, Action.save, Action.brings] at hworks hstep <;> omega
  | succ n ih =>
    rcases hU.idle_or_possible cfg with hidle | ⟨a, s', hworks, hcancel, hst⟩
    · exact ⟨[], s, Trace.nil s, hidle⟩
    · have hstep := hU.counted.work_step (step_cases hst)
      have hless : s'.work ≤ n := by
        cases a <;> simp [Action.works, Action.task, Action.save, Action.brings] at hworks hstep <;> omega
      obtain ⟨as, t, htrace, hidle⟩ := ih (hU.step hst) hless
      exact ⟨a :: as, t, Trace.cons ⟨hworks, hcancel⟩ hst htrace, hidle⟩

/-- In every run the steps of requests, background saves and purges are at most seventeen for each
request that has arrived and one for each purge that has begun, whatever the order of the steps and
whatever the origin and the storage answer. -/
theorem work_bounded (cfg : Config) (maxSizeBytes : UInt64) (as : List Action) (t : State)
    (h : Trace (step cfg) Free (State.initial maxSizeBytes) as t) :
    as.countP Action.works ≤ broughtBy as := by
  have hwork := ((counted_initial maxSizeBytes).work_trace h).1
  rw [work_initial] at hwork
  omega

/-- The steps of the sample run for one request. -/
theorem work_bounded_logo : logoActions.countP Action.works ≤ broughtBy logoActions := by
  have hrun : ((run (step sampleConfig) sampleStart logoActions).any fun _ => true) = true := by
    decide +kernel
  obtain ⟨t, ht, -⟩ := exists_trace_of_run hrun
  exact work_bounded sampleConfig 1000000 logoActions t ht

/-- In every reachable state in which a request, a background save or a purge is on its way, one of
them can take a step without anybody going away: nothing waits for ever for the lock of the storage
client or for a leader.  So whatever is on its way can be brought to its end. -/
theorem work_possible (cfg : Config) (maxSizeBytes : UInt64) (s : State)
    (h : Reaches (step cfg) (State.initial maxSizeBytes) s) :
    (s.Idle ∨ ∃ a s', Finishes s a ∧ step cfg s a = some s') ∧
      ∃ as t, Trace (step cfg) Finishes s as t ∧ t.Idle := by
  have hU : Unblocked s :=
    h.invariant (fun _ _ _ hU hst => hU.step hst) (unblocked_initial maxSizeBytes)
  refine ⟨?_, hU.finishes cfg le_rfl⟩
  rcases hU.idle_or_possible cfg with hidle | ⟨a, s', hworks, hcancel, hst⟩
  · exact Or.inl hidle
  · exact Or.inr ⟨a, s', ⟨hworks, hcancel⟩, hst⟩

/-- From the middle of the sample run everything can be brought to its end. -/
theorem work_possible_logo :
    ∃ s, Reaches (step sampleConfig) sampleStart s ∧ (s.tasks 0).isSome = true ∧
      ∃ as t, Trace (step sampleConfig) Finishes s as t ∧ t.Idle := by
  have hrun : ((run (step sampleConfig) sampleStart (logoActions.take 6)).any fun s =>
      (s.tasks 0).isSome) = true := by
    decide +kernel
  obtain ⟨s, hs, ht⟩ := exists_trace_of_run hrun
  exact ⟨s, hs.reaches, ht, (work_possible sampleConfig 1000000 s hs.reaches).2⟩

end SmartSchoolCdn
