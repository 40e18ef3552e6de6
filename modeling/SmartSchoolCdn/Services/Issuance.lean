import SmartSchoolCdn.Foundation.Trace
import SmartSchoolCdn.Services.Tls

/-!
# Concurrent issuance

`get_or_issue` looks into the cache under the lock, generates a certificate without it, and stores
the certificate under the lock again.  `sync_domains` does this for one domain of its list after
the other and then prunes under the lock.  A step is one of these parts, and any number of calls
interleave.

A call that generates a certificate while a sync prunes can put a pruned domain back.  In the runs
in which no call stores a certificate so late (`Timely`), the cache follows the list of the last
sync (`cache_follows_sync`).  Alone, the calls are `getOrIssue` and `syncDomains` (`sync_alone`).
-/

namespace SmartSchoolCdn.Tls

open Traces

/-! ## Calls -/

/-- The part of `get_or_issue` that comes next. -/
inductive Part
  | check
  | generate
  | store (cert : CachedCert)
  deriving DecidableEq, Repr

/-- A call under way: the domains that it has still to go through, and the part that is next for
the first of them.  `synced` is the list of a `sync_domains`. -/
structure Call where
  synced : Option (List String)
  pending : List String
  part : Part
  deriving DecidableEq, Repr

/-- The call is done with a domain. -/
def Call.next (c : Call) (rest : List String) : Call := { c with pending := rest, part := .check }

/-- A `get_or_issue` that has gone through its domain has returned; a `sync_domains` has still to
prune. -/
def Call.hasReturned (c : Call) : Bool := c.synced.isNone && c.pending.isEmpty

/-- The manager with the calls under way.  The ghost `lists` has the lists of the syncs that have
finished, the last one first, and the ghost `requested` the domains that `get_or_issue` has been
called for since then. -/
structure Service where
  manager : TlsManager
  calls : List Call
  lists : List (List String)
  requested : List String

/-- The service without calls. -/
def Service.idle (m : TlsManager) : Service := ⟨m, [], [], []⟩

/-- A call arrives, or takes its next part; `ok` is whether the certificate could be signed. -/
inductive Action
  | getOrIssue (domain : String)
  | syncDomains (list : List String)
  | check (i now : ℕ)
  | generate (i now : ℕ) (ok : Bool)
  | store (i now : ℕ)
  | prune (i : ℕ)
  deriving DecidableEq, Repr

namespace Service

variable (s : Service)

/-- A call goes on, or is over. -/
def proceed (i : ℕ) (c : Call) : Service :=
  { s with calls := if c.hasReturned then s.calls.eraseIdx i else s.calls.set i c }

/-- The locked look into the cache. -/
def check (i now : ℕ) (c : Call) (d : String) (rest : List String) : Service :=
  match s.manager.cached now d with
  | some _ => s.proceed i (c.next rest)
  | none => s.proceed i { c with part := .generate }

/-- `issue_domain_cert`. -/
def generate (i now : ℕ) (ok : Bool) (c : Call) (d : String) (rest : List String) : Service :=
  match issueDomainCert (fun _ => ok) now d with
  | none => s.proceed i (c.next rest)
  | some cert => s.proceed i { c with part := .store cert }

/-- The locked insertion. -/
def store (i now : ℕ) (c : Call) (d : String) (rest : List String) (cert : CachedCert) : Service :=
  { s with manager := (s.manager.store now d cert).2 }.proceed i (c.next rest)

/-- The locked end of `sync_domains`. -/
def prune (i : ℕ) (list : List String) : Service where
  manager := s.manager.pruneTo fun host => list.contains host
  calls := s.calls.eraseIdx i
  lists := list :: s.lists
  requested := []

end Service

/-- One step. -/
def step (s : Service) : Action → Option Service
  | .getOrIssue domain =>
    some
      { s with
        calls := s.calls ++ [{ synced := none, pending := [domain], part := .check }]
        requested := domain :: s.requested }
  | .syncDomains list =>
    some { s with calls := s.calls ++ [{ synced := some list, pending := list, part := .check }] }
  | .check i now =>
    match s.calls[i]? with
    | some ⟨synced, d :: rest, .check⟩ => some (s.check i now ⟨synced, d :: rest, .check⟩ d rest)
    | _ => none
  | .generate i now ok =>
    match s.calls[i]? with
    | some ⟨synced, d :: rest, .generate⟩ =>
      some (s.generate i now ok ⟨synced, d :: rest, .generate⟩ d rest)
    | _ => none
  | .store i now =>
    match s.calls[i]? with
    | some ⟨synced, d :: rest, .store cert⟩ =>
      some (s.store i now ⟨synced, d :: rest, .store cert⟩ d rest cert)
    | _ => none
  | .prune i =>
    match s.calls[i]? with
    | some ⟨some list, [], _⟩ => some (s.prune i list)
    | _ => none

/-! ## The condition -/

/-- A sync is under way. -/
def Service.syncing (s : Service) : Bool := s.calls.any fun c => c.synced.isSome

/-- A domain belongs to the last list, or has been requested since that sync has finished; before
the first sync every domain does. -/
def Service.Follows (s : Service) (d : String) : Prop :=
  ∀ list older, s.lists = list :: older → d ∈ list ∨ d ∈ s.requested

/-- No `get_or_issue` stores a certificate for a domain outside of the last list, nor requested
since that sync has finished, when no other sync is there to prune it. -/
def Timely (s : Service) : Action → Prop
  | .store i now => ∀ d rest cert, s.calls[i]? = some ⟨none, d :: rest, .store cert⟩ →
      s.manager.cached now d = none → s.syncing = true ∨ s.Follows d
  | _ => True

variable {s s' : Service} {a : Action} {i now : ℕ} {c : Call} {d host : String} {rest list : List String}

/-! ## What a step does -/

/-- What a step can do to the cache, the calls, and the ghosts. -/
inductive Effect (s : Service) : Action → Service → Prop
  | arrive {a : Action} (c : Call) (requested : List String) (hsub : s.requested ⊆ requested) :
      Effect s a { s with calls := s.calls ++ [c], requested := requested }
  | proceed {a : Action} (i : ℕ) (c c' : Call) (hi : s.calls[i]? = some c)
      (hsynced : c'.synced = c.synced) : Effect s a (s.proceed i c')
  | store (i now : ℕ) (synced : Option (List String)) (d : String) (rest : List String)
      (cert : CachedCert) (hi : s.calls[i]? = some ⟨synced, d :: rest, .store cert⟩) :
      Effect s (.store i now) (s.store i now ⟨synced, d :: rest, .store cert⟩ d rest cert)
  | prune (i : ℕ) (list : List String) : Effect s (.prune i) (s.prune i list)

/-- Everything that a step can do. -/
theorem step_effect (h : step s a = some s') : Effect s a s' := by
  cases a with
  | getOrIssue domain =>
    obtain rfl := Option.some.inj h
    exact .arrive _ _ (List.subset_cons_self domain s.requested)
  | syncDomains list =>
    obtain rfl := Option.some.inj h
    exact .arrive _ _ fun _ hd => hd
  | check i now =>
    simp only [step] at h
    split at h
    · rename_i hi
      obtain rfl := Option.some.inj h
      unfold Service.check
      split
      · exact .proceed i _ _ hi rfl
      · exact .proceed i _ _ hi rfl
    · cases h
  | generate i now ok =>
    simp only [step] at h
    split at h
    · rename_i hi
      obtain rfl := Option.some.inj h
      unfold Service.generate
      split
      · exact .proceed i _ _ hi rfl
      · exact .proceed i _ _ hi rfl
    · cases h
  | store i now =>
    simp only [step] at h
    split at h
    · rename_i synced d rest cert hi
      obtain rfl := Option.some.inj h
      exact .store i now synced d rest cert hi
    · cases h
  | prune i =>
    simp only [step] at h
    split at h
    · rename_i list part hi
      obtain rfl := Option.some.inj h
      exact .prune i list
    · cases h

/-- A part of `get_or_issue` neither starts nor ends a sync. -/
lemma syncing_proceed (c' : Call) (hi : s.calls[i]? = some c) (hsynced : c'.synced = c.synced) :
    (s.proceed i c').syncing = s.syncing := by
  rw [Bool.eq_iff_iff, Service.syncing, Service.syncing, List.any_eq_true, List.any_eq_true]
  constructor
  · rintro ⟨c₀, hmem, hsome⟩
    unfold Service.proceed at hmem
    dsimp only at hmem
    split at hmem
    · exact ⟨c₀, List.mem_of_mem_eraseIdx hmem, hsome⟩
    · rcases List.mem_or_eq_of_mem_set hmem with hold | rfl
      · exact ⟨c₀, hold, hsome⟩
      · exact ⟨c, List.mem_of_getElem? hi, hsynced ▸ hsome⟩
  · rintro ⟨c₀, hmem, hsome⟩
    obtain ⟨j, hj⟩ := List.mem_iff_getElem?.mp hmem
    have hlt : i < s.calls.length := (List.getElem?_eq_some_iff.mp hi).1
    unfold Service.proceed
    dsimp only
    split
    · rename_i hreturned
      -- the call that returns is no sync, so that the sync is another one
      have hne : j ≠ i := by
        rintro rfl
        obtain rfl := Option.some.inj (hi.symm.trans hj)
        rw [← hsynced] at hsome
        simp [Call.hasReturned, Option.isNone_iff_eq_none] at hreturned
        rw [hreturned.1] at hsome
        cases hsome
      exact ⟨c₀, List.mem_eraseIdx_iff_getElem?.mpr ⟨j, hne, hj⟩, hsome⟩
    · by_cases hne : j = i
      · subst hne
        obtain rfl := Option.some.inj (hi.symm.trans hj)
        exact ⟨c', List.mem_set hlt c', hsynced ▸ hsome⟩
      · refine ⟨c₀, List.mem_iff_getElem?.mpr ⟨j, ?_⟩, hsome⟩
        rw [List.getElem?_set_ne (Ne.symm hne)]
        exact hj

/-- What a locked insertion adds to the cache. -/
lemma isSome_store {m : TlsManager} {cert : CachedCert}
    (h : ((m.store now d cert).2.certCache host).isSome = true) :
    (m.certCache host).isSome = true ∨ m.cached now d = none ∧ host = d := by
  unfold TlsManager.store at h
  split at h
  · exact .inl h
  · rename_i hnone
    by_cases hhost : host = d
    · exact .inr ⟨hnone, hhost⟩
    · refine .inl ?_
      rw [← Function.update_of_ne hhost (some cert) m.certCache]
      exact h

/-! ## Runs -/

/-- The invariant: when no sync is under way the cache follows the last list. -/
def Following (s : Service) : Prop :=
  s.syncing = false → ∀ d, (s.manager.certCache d).isSome = true → s.Follows d

/-- A timely step. -/
lemma Following.step (hs : Following s) (hC : Timely s a) (h : step s a = some s') : Following s' := by
  intro hquiet d hd
  cases step_effect h with
  | arrive c requested hsub =>
    have hsyncing : s.syncing = false := by
      simp only [Service.syncing, List.any_append, Bool.or_eq_false_iff] at hquiet
      exact hquiet.1
    intro list older hlists
    exact (hs hsyncing d hd list older hlists).imp_right fun hmem => hsub hmem
  | proceed i c c' hi hsynced =>
    rw [syncing_proceed c' hi hsynced] at hquiet
    exact hs hquiet d hd
  | store i now synced d' rest cert hi =>
    have hsame := syncing_proceed (s := { s with manager := (s.manager.store now d' cert).2 })
      (Call.next ⟨synced, d' :: rest, .store cert⟩ rest) hi rfl
    have hsyncing : s.syncing = false := hsame.symm.trans hquiet
    rcases isSome_store hd with hold | ⟨hnone, rfl⟩
    · exact hs hsyncing d hold
    · cases synced with
      | some list =>
        have hyes : s.syncing = true := List.any_eq_true.mpr ⟨_, List.mem_of_getElem? hi, rfl⟩
        rw [hsyncing] at hyes
        cases hyes
      | none =>
        refine (hC d rest cert hi hnone).resolve_left fun hyes => ?_
        rw [hsyncing] at hyes
        cases hyes
  | prune i list =>
    intro list' older hlists
    obtain ⟨rfl, -⟩ := List.cons.inj hlists
    refine .inl ?_
    by_contra hnot
    simp [Service.prune, TlsManager.pruneTo, hnot] at hd

/-- In every run in which every certificate is stored in time, when all calls have returned the
domains of the cache belong to the list of the sync that has finished last, or have been requested
since. -/
theorem cache_follows_sync {m : TlsManager} {as : List Action} {older : List (List String)}
    (h : Trace step Timely (Service.idle m) as s) (hquiet : s.calls = []) (hlists : s.lists = list :: older)
    (hd : (s.manager.certCache d).isSome = true) : d ∈ list ∨ d ∈ s.requested := by
  have hend : Following s := by
    refine h.invariant (fun s a s' hs hC hst => hs.step hC hst) ?_
    intro _ d _ list older hlists
    cases hlists
  have hsyncing : s.syncing = false := by rw [Service.syncing, hquiet, List.any_nil]
  exact hend hsyncing d hd list older hlists

/-- The condition is not too strong: after a step that does not meet it there is a certificate out
of the last list, not requested since, and no sync under way that could prune it. -/
theorem not_following_of_not_timely (h : step s a = some s') (hC : ¬ Timely s a) : ¬ Following s' := by
  cases a with
  | store i now =>
    simp only [Timely, not_forall, not_or] at hC
    obtain ⟨d, rest, cert, hi, hnone, hsyncing, hfollows⟩ := hC
    have hs' : s.store i now ⟨none, d :: rest, .store cert⟩ d rest cert = s' := by
      simpa [step, hi] using h
    subst hs'
    intro hfollowing
    refine hfollows (hfollowing ?_ d ?_)
    · have hsame := syncing_proceed (s := { s with manager := (s.manager.store now d cert).2 })
        (Call.next ⟨none, d :: rest, .store cert⟩ rest) hi rfl
      exact hsame.trans (Bool.not_eq_true _ ▸ hsyncing)
    · simp [Service.store, Service.proceed, TlsManager.store, hnone]
  | _ => exact absurd trivial hC

/-! ## Calls alone -/

section Alone

/-- The service with one call. -/
def Service.alone (s : Service) (m : TlsManager) (c : Call) : Service :=
  { s with manager := m, calls := [c] }

/-- Without others, a call does `getOrIssue` for its next domain. -/
lemma trace_next (synced : Option (List String)) (s : Service) (m : TlsManager)
    (issues : String → Bool) (now : ℕ) (d : String) (rest : List String) :
    ∃ as, Trace step Free (s.alone m ⟨synced, d :: rest, .check⟩) as
      ((s.alone (m.getOrIssue issues now d).2 ⟨synced, d :: rest, .check⟩).proceed 0
        ⟨synced, rest, .check⟩) := by
  have hcheck : step (s.alone m ⟨synced, d :: rest, .check⟩) (.check 0 now) =
      some ((s.alone m ⟨synced, d :: rest, .check⟩).check 0 now
        ⟨synced, d :: rest, .check⟩ d rest) := rfl
  unfold Service.check at hcheck
  cases hcached : m.cached now d with
  | some existing =>
    have hsame : (m.getOrIssue issues now d).2 = m := by simp only [TlsManager.getOrIssue, hcached]
    rw [hsame]
    simp only [Service.alone, hcached] at hcheck ⊢
    exact ⟨_, .cons trivial hcheck (.nil _)⟩
  | none =>
    have hwaits : step (s.alone m ⟨synced, d :: rest, .check⟩) (.check 0 now) =
        some (s.alone m ⟨synced, d :: rest, .generate⟩) := by
      simp only [Service.alone, hcached] at hcheck ⊢
      rw [hcheck]
      simp [Service.proceed, Call.hasReturned]
    cases hissues : issues d with
    | false =>
      have hsame : (m.getOrIssue issues now d).2 = m := by
        simp [TlsManager.getOrIssue, hcached, issueDomainCert, hissues]
      rw [hsame]
      exact ⟨_, .cons trivial hwaits (.cons (a := .generate 0 now false) trivial rfl (.nil _))⟩
    | true =>
      have hissued : (m.getOrIssue issues now d).2 =
          (m.store now d { domain := d, issuedAt := now, expiresAt := now + lifetime }).2 := by
        simp [TlsManager.getOrIssue, hcached, issueDomainCert, hissues]
      rw [hissued]
      have hsigned : step (s.alone m ⟨synced, d :: rest, .generate⟩) (.generate 0 now true) =
          some (s.alone m ⟨synced, d :: rest, .store ⟨d, now, now + lifetime⟩⟩) := by
        simp [step, Service.generate, Service.alone, issueDomainCert, Service.proceed, Call.hasReturned]
      exact ⟨_, .cons trivial hwaits (.cons trivial hsigned
        (.cons (a := .store 0 now) trivial rfl (.nil _)))⟩

/-- Without others, a sync does `issueAll` for the domains it has still to go through. -/
lemma trace_issueAll (s : Service) (issues : String → Bool) (now : ℕ) (list pending : List String)
    (m : TlsManager) : ∃ as, Trace step Free (s.alone m ⟨some list, pending, .check⟩) as
      (s.alone (m.issueAll issues now pending) ⟨some list, [], .check⟩) := by
  induction pending generalizing m with
  | nil => exact ⟨[], .nil _⟩
  | cons d rest ih =>
    obtain ⟨as, has⟩ := trace_next (some list) s m issues now d rest
    obtain ⟨bs, hbs⟩ := ih (m.getOrIssue issues now d).2
    exact ⟨as ++ bs, has.append hbs⟩

/-- Without others, the calls do what `getOrIssue` and `syncDomains` do. -/
theorem sync_alone (m : TlsManager) (issues : String → Bool) (now : ℕ) (domain : String)
    (domains : List (String × String)) :
    (∃ as s, Trace step Free (Service.idle m) (.getOrIssue domain :: as) s ∧ s.calls = [] ∧
        s.manager = (m.getOrIssue issues now domain).2) ∧
      ∃ as s, Trace step Free (Service.idle m) (.syncDomains (domains.map Prod.fst) :: as) s ∧
        s.calls = [] ∧ s.manager = m.syncDomains issues now domains := by
  constructor
  · obtain ⟨as, has⟩ := trace_next none { Service.idle m with requested := [domain] } m
      issues now domain []
    exact ⟨as, _, .cons trivial rfl has, rfl, rfl⟩
  · obtain ⟨as, has⟩ := trace_issueAll (Service.idle m) issues now (domains.map Prod.fst)
      (domains.map Prod.fst) m
    have hprune := has.append (.cons (a := .prune 0) trivial rfl (.nil _))
    exact ⟨_, _, .cons trivial rfl hprune, rfl, rfl⟩

end Alone

/-! ## Sample runs -/

/-- A sync with an empty list prunes while a certificate is being generated. -/
def lateActions : List Action :=
  [.getOrIssue "a.test", .check 0 10, .generate 0 10 true, .syncDomains [], .prune 1, .store 0 10]

/-- A domain that is not in the last list, and has not been requested since, is back in the cache
after all calls have returned. -/
theorem cache_holds_pruned : ∃ s, Trace step Free (Service.idle TlsManager.empty) lateActions s ∧
    s.calls = [] ∧ s.lists = [[]] ∧ s.requested = [] ∧
      (s.manager.certCache "a.test").isSome = true := by
  have hrun : ((run step (Service.idle TlsManager.empty) lateActions).any fun s =>
      decide (s.calls = [] ∧ s.lists = [[]] ∧ s.requested = [] ∧
        (s.manager.certCache "a.test").isSome = true)) = true := by
    decide +kernel
  obtain ⟨s, hs, hp⟩ := exists_trace_of_run hrun
  exact ⟨s, hs, of_decide_eq_true hp⟩

/-- A certificate is stored before a sync starts, and one by the sync. -/
def timelyActions : List Action :=
  [.getOrIssue "a.test", .check 0 10, .generate 0 10 true, .store 0 10, .syncDomains ["b.test"],
   .check 0 11, .generate 0 11 true, .store 0 11, .prune 0]

/-- Whether no sync has finished yet. -/
def beforeSyncs (s : Service) : Action → Bool
  | .store _ _ => s.lists.isEmpty
  | _ => true

/-- Before the first sync has finished every step is timely. -/
lemma timely_of_beforeSyncs (h : beforeSyncs s a = true) : Timely s a := by
  cases a with
  | store i now =>
    intro d rest cert _ _
    refine .inr fun list older hlists => ?_
    rw [beforeSyncs, hlists] at h
    cases h
  | _ => trivial

/-- The certificate in the cache is that of the list. -/
theorem cache_follows_sync_sample : ∃ s : Service, s.calls = [] ∧
    (s.manager.certCache "b.test").isSome = true ∧
      ("b.test" ∈ ["b.test"] ∨ "b.test" ∈ s.requested) := by
  have hrun : ((checkedRun step beforeSyncs (Service.idle TlsManager.empty) timelyActions).any fun s =>
      decide (s.calls = [] ∧ s.lists = [["b.test"]] ∧
        (s.manager.certCache "b.test").isSome = true)) = true := by
    decide +kernel
  obtain ⟨s, hs, hp⟩ := exists_trace_of_checkedRun (I := fun _ => True) (C := Timely)
    (fun _ _ _ _ _ => trivial) (fun _ _ _ hc => timely_of_beforeSyncs hc) trivial hrun
  obtain ⟨hcalls, hlists, hcert⟩ := of_decide_eq_true hp
  exact ⟨s, hcalls, hcert, cache_follows_sync hs hcalls hlists hcert⟩

end SmartSchoolCdn.Tls
