import SmartSchoolCdn.Admin.DomainRoutes
import SmartSchoolCdn.Foundation.Trace

/-!
# A failed sync alone

What is left of a request whose call of the proxy has failed, when no other request is under way.
A rollback leaves the tables as they were.  The compensating update of `PUT` and of the toggle
writes the old values back, but stamps the row with the time at which it does so: the table of
domains is as before when the row already carried that second as the time of its last change
(`failed_sync_restores_iff`).
-/

namespace SmartSchoolCdn.Admin

open Journals Traces

/-! ## Requests -/

/-- The row that a handler changes by an update and compensates by another. -/
def Request.compensates : Request → Option String
  | .update host _ => some host
  | .toggle host => some host
  | _ => none

/-- The requests whose handlers undo their changes when the sync fails. -/
def Request.undoes : Request → Bool
  | .create _ _ => true
  | .update _ _ => true
  | .toggle _ => true
  | .delete _ => true
  | .bulkDelete _ => true
  | _ => false

/-- A row that the handler compensates carries the given second as the time of its last change. -/
def Stamped (request : Request) (db : Database) (now : ℕ) : Prop :=
  ∀ host d, request.compensates = some host → db.domains.find host = some d → d.updatedAt = now

/-- Whether an action is the arrival of a request. -/
def Action.isArrival : Action → Bool
  | .receive _ => true
  | _ => false

/-- No other request arrives. -/
def Alone (_ : State) (a : Action) : Prop := a.isArrival = false

/-- The state in which a request has just arrived. -/
def State.received (s : State) (request : Request) : State :=
  { s with tasks := s.tasks ++ [{ request := request, phase := .queued }] }

variable {s₀ s s' : State} {request : Request} {a : Action} {host : String} {d : Domain}

/-! ## The compensating update -/

/-- The compensating update leaves the row with a new time of change. -/
lemma execAll_restored {writes : List Statement} {data : DomainUpdate} {db : Database} (now : ℕ)
    (hd : db.domains.find host = some d) (h : Restores host d writes data) :
    execAll Database.exec (data.statements host now) (execAll Database.exec writes db) =
      db.updateRow host (DomainUpdate.apply {} now) (DomainUpdate.host_apply {} now) := by
  obtain ⟨f, hf, hwrites, happly⟩ := h.change
  have hstatements : data.statements host now = [.updateDomain host data now] :=
    if_neg h.nonempty
  have hexec : execAll Database.exec (data.statements host now) (db.updateRow host f hf) =
      (db.updateRow host f hf).updateRow host (data.apply now) (data.host_apply now) := by
    rw [hstatements]
    rfl
  rw [hwrites, hexec, updateRow_updateRow]
  exact updateRow_congr _ _ hd (happly now)

/-- The table of domains is as before when the time of the change is. -/
lemma domains_stamped_iff {db : Database} {now : ℕ} (hd : db.domains.find host = some d) :
    (db.updateRow host (DomainUpdate.apply {} now) (DomainUpdate.host_apply {} now)).domains =
      db.domains ↔ d.updatedAt = now := by
  constructor
  · intro heq
    have hfind : (db.updateRow host (DomainUpdate.apply {} now) (DomainUpdate.host_apply {} now)).domains.find
        host = (db.domains.find host).map (DomainUpdate.apply {} now) :=
      Tables.Table.find_modify_self (DomainUpdate.host_apply {} now)
    rw [heq, hd, Option.map_some] at hfind
    exact congrArg Domain.updatedAt (Option.some.inj hfind)
  · rintro rfl
    have hsame : db.updateRow host (DomainUpdate.apply {} d.updatedAt) (DomainUpdate.host_apply {} _) =
        db.updateRow host id (fun _ => rfl) := updateRow_congr _ _ hd rfl
    rw [hsame, updateRow_id]

/-! ## The request under way -/

/-- Where the handler is, and what it has done to the database. -/
def Holds (s₀ : State) (request : Request) (s : State) : Phase → Prop
  | .queued => s.db = s₀.db ∧ s.transaction = none
  | .syncing _ .rollback => request.compensates = none ∧ s.transaction.map Prod.snd = some s₀.db
  | .syncing _ (.restore host data) => request.compensates = some host ∧
      ∃ d writes, s₀.db.domains.find host = some d ∧ Restores host d writes data ∧
        s.db = execAll Database.exec writes s₀.db
  | .syncing _ .keep => False
  | _ => True

/-- The request is the only one that has not finished. -/
structure Solo (s₀ : State) (request : Request) (s : State) : Prop where
  task : ∃ phase, s.tasks[s₀.tasks.length]? = some ⟨request, phase⟩ ∧ Holds s₀ request s phase
  others : ∀ r t, r ≠ s₀.tasks.length → s.tasks[r]? = some t → t.phase.isDone = true

/-- Steps that move no handler and leave the database. -/
lemma Solo.congr (h : Solo s₀ request s) (htasks : s'.tasks = s.tasks) (hdb : s'.db = s.db)
    (htransaction : s'.transaction = s.transaction) : Solo s₀ request s' where
  task := by
    obtain ⟨phase, ht, hholds⟩ := h.task
    refine ⟨phase, htasks ▸ ht, ?_⟩
    unfold Holds at hholds ⊢
    rw [hdb, htransaction]
    exact hholds
  others := by
    rw [htasks]
    exact h.others

/-- A handler that has not finished is the one of the request. -/
lemma Solo.running (h : Solo s₀ request s) {r : ℕ} {t : Task} (ht : s.tasks[r]? = some t)
    (hphase : t.phase.isDone = false) :
    r = s₀.tasks.length ∧ t.request = request ∧ Holds s₀ request s t.phase := by
  by_cases hr : r = s₀.tasks.length
  · obtain ⟨phase, ht', hholds⟩ := h.task
    rw [← hr, ht] at ht'
    obtain rfl := Option.some.inj ht'
    exact ⟨hr, rfl, hholds⟩
  · have hdone := h.others r t hr ht
    rw [hphase] at hdone
    cases hdone

/-- The handler moves. -/
lemma Solo.moved (h : Solo s₀ request s) {t : Task} {phase : Phase}
    (hm : Moved s s' s₀.tasks.length t phase) (hrequest : t.request = request)
    (hholds : Holds s₀ request s' phase) : Solo s₀ request s' where
  task := by
    refine ⟨phase, ?_, hholds⟩
    rw [hm.self, ← hrequest]
  others r t' hr ht' := by
    rw [hm.other hr] at ht'
    exact h.others r t' hr ht'

/-! ## Steps -/

/-- A handler that opens a transaction. -/
lemma Solo.begun (h : Solo s₀ request s) {writes : List Statement}
    (ht : s.tasks[s₀.tasks.length]? = some ⟨request, .queued⟩) (hcomp : request.compensates = none)
    (hdb : s.db = s₀.db) (hopen : s.transaction = none) :
    Solo s₀ request (s.runInTransactionAsync s₀.tasks.length writes) := by
  unfold State.runInTransactionAsync
  rw [hopen, if_neg (by simp)]
  refine h.moved (?_ : Moved s _ _ ⟨request, .queued⟩ (.syncing s.syncs.length .rollback)) rfl
    ⟨hcomp, ?_⟩
  · exact ⟨ht, rfl, rfl⟩
  · exact congrArg some hdb

/-- A handler that compensates. -/
lemma Solo.restorable (h : Solo s₀ request s) {writes : List Statement} {data : DomainUpdate}
    (ht : s.tasks[s₀.tasks.length]? = some ⟨request, .queued⟩)
    (hcomp : request.compensates = some host) (hdb : s.db = s₀.db)
    (hd : s₀.db.domains.find host = some d) (hrestores : Restores host d writes data) :
    Solo s₀ request
      ((s.record s₀.tasks.length writes).awaitSync s₀.tasks.length (.restore host data)) := by
  refine h.moved
    (?_ : Moved s _ _ ⟨request, .queued⟩ (.syncing s.syncs.length (.restore host data))) rfl
    ⟨hcomp, d, writes, hd, hrestores, ?_⟩
  · exact ⟨ht, rfl, rfl⟩
  · exact congrArg (execAll Database.exec writes) hdb

/-- The first step. -/
lemma Solo.start (h : Solo s₀ request s) (hundo : request.undoes = true)
    (ht : s.tasks[s₀.tasks.length]? = some ⟨request, .queued⟩) (hdb : s.db = s₀.db)
    (hopen : s.transaction = none) : Solo s₀ request (s.start s₀.tasks.length request) := by
  have hrefused : ∀ r : Reply, Solo s₀ request (s.reply s₀.tasks.length r) := by
    intro r
    refine h.moved (?_ : Moved s _ _ ⟨request, .queued⟩ (.done r)) rfl trivial
    exact ⟨ht, rfl, rfl⟩
  cases request with
  | create host origin => exact h.begun ht rfl hdb hopen
  | bulkDelete hosts => exact h.begun ht rfl hdb hopen
  | update host data =>
    simp only [State.start]
    split
    · exact hrefused _
    · rename_i d hd
      exact h.restorable ht rfl hdb (hdb ▸ hd) (restores_update host d data s.now)
  | toggle host =>
    simp only [State.start]
    split
    · exact hrefused _
    · rename_i d hd
      exact h.restorable ht rfl hdb (hdb ▸ hd) (restores_toggle host d s.now)
  | delete host =>
    simp only [State.start]
    split
    · exact h.begun ht rfl hdb hopen
    · exact hrefused _
  | bulkCreate domains => cases hundo
  | bulkToggle hosts enabled => cases hundo
  | write writer => cases hundo

/-- A step while no other request arrives. -/
lemma Solo.step (h : Solo s₀ request s) (hundo : request.undoes = true) (halone : Alone s a)
    (hstep : Admin.step s a = some s') : Solo s₀ request s' := by
  have hfinished : ∀ {rid : ℕ} {t : Task} {phase : Phase}, s.tasks[rid]? = some t →
      t.phase.isDone = false → Moved s s' rid t phase → Holds s₀ request s' phase →
        Solo s₀ request s' := by
    intro rid t phase ht hphase hm hholds
    obtain ⟨rfl, hrequest, -⟩ := h.running ht hphase
    exact h.moved hm hrequest hholds
  have hstarted : ∀ {rid : ℕ} {request' : Request}, s.Ready rid request' → a = .start rid →
      Solo s₀ request s' := by
    rintro rid request' hready rfl
    obtain ⟨rfl, hrequest, hdb, hopen⟩ := h.running hready.queued rfl
    obtain rfl : request' = request := hrequest
    have hs' : s.start s₀.tasks.length request' = s' := by
      simpa [Admin.step, hready.queued, hready.lock] using hstep
    exact hs' ▸ h.start hundo hready.queued hdb hopen
  cases step_cases hstep with
  | tick => exact h.congr rfl rfl rfl
  | receive => cases halone
  | monitor => exact h.congr rfl rfl rfl
  | deliver _ => exact h.congr rfl rfl rfl
  | lose _ => exact h.congr rfl rfl rfl
  | answer _ => exact h.congr rfl rfl rfl
  | giveUp _ => exact h.congr rfl rfl rfl
  | committed ht _ => exact hfinished ht rfl ⟨ht, rfl, rfl⟩ trivial
  | synced ht _ => exact hfinished ht rfl ⟨ht, rfl, rfl⟩ trivial
  | rolledBack ht _ _ => exact hfinished ht rfl ⟨ht, rfl, rfl⟩ trivial
  | restored ht _ _ => exact hfinished ht rfl ⟨ht, rfl, rfl⟩ trivial
  | left ht _ _ => exact hfinished ht rfl ⟨ht, rfl, rfl⟩ trivial
  | @proceeded rid request' phase phase' writes ht hphase hphase' _ =>
    have hrunning : phase.isDone = false := by
      rcases hphase with rfl | rfl
      · rfl
      · rfl
    have hm : Moved s ((s.write rid writes).setPhase rid phase') rid ⟨request', phase⟩ phase' := by
      refine ⟨ht, hrunning, ?_⟩
      unfold State.write
      split
      · rfl
      · rfl
    refine hfinished ht hrunning hm ?_
    rcases hphase' with rfl | rfl
    · trivial
    · trivial
  | refused hready _ => exact hstarted hready rfl
  | begun hready _ => exact hstarted hready rfl
  | kept hready => exact hstarted hready rfl
  | restorable hready _ _ _ => exact hstarted hready rfl
  | written hready => exact hstarted hready rfl

/-- The start: a request arrives while no other is under way. -/
lemma solo_received (hidle : s₀.idle = true) (hopen : s₀.transaction = none) (request : Request) :
    Solo s₀ request (s₀.received request) where
  task := by
    refine ⟨.queued, ?_, rfl, hopen⟩
    simp [State.received]
  others r t hr ht := by
    have hold : s₀.tasks[r]? = some t := by
      have hlt := (List.getElem?_eq_some_iff.mp ht).1
      simp only [State.received, List.length_append, List.length_singleton] at hlt ht
      rwa [List.getElem?_append_left (by omega)] at ht
    exact List.all_eq_true.mp hidle t (List.mem_of_getElem? hold)

/-- The answer of a handler whose call has failed, and the database it leaves. -/
lemma Solo.failed (h : Solo s₀ request s) (hstep : Admin.step s (.resume s₀.tasks.length) = some s')
    (hfail : s'.tasks[s₀.tasks.length]? = some ⟨request, .done (.failure (syncFailed request))⟩) :
    request.compensates = none ∧ s'.db = s₀.db ∨
      ∃ host d, request.compensates = some host ∧ s₀.db.domains.find host = some d ∧
        s'.db = s₀.db.updateRow host (DomainUpdate.apply {} s.now) (DomainUpdate.host_apply {} s.now) := by
  have hsynced : ∀ {t : Task}, s.tasks[s₀.tasks.length]? = some t → t.phase.isDone = false →
      s'.tasks = s.tasks.modify s₀.tasks.length (fun t => { t with phase := .fanOut }) → False := by
    intro t ht hphase htasks
    have hm : Moved s s' s₀.tasks.length t .fanOut := ⟨ht, hphase, htasks⟩
    rw [hm.self] at hfail
    cases hfail
  cases step_cases hstep with
  | committed ht _ => exact (hsynced ht rfl rfl).elim
  | synced ht _ => exact (hsynced ht rfl rfl).elim
  | rolledBack ht _ _ =>
    obtain ⟨-, -, hcomp, hopen⟩ := h.running ht rfl
    refine .inl ⟨hcomp, ?_⟩
    change (s.transaction.map Prod.snd).getD s.db = s₀.db
    rw [hopen, Option.getD_some]
  | restored ht _ _ =>
    obtain ⟨-, -, hcomp, d, writes, hd, hrestores, hdb⟩ := h.running ht rfl
    refine .inr ⟨_, d, hcomp, hd, ?_⟩
    rw [← execAll_restored s.now hd hrestores, ← hdb]
    rfl
  | left ht _ _ => exact ((h.running ht rfl).2.2).elim

/-! ## The result -/

/-- A request that arrives while no other is under way, and whose call of the proxy fails, leaves
the tables of domains, statistics and optimisation events as they were exactly when it is undone
by a rollback or the row it compensates already carries the second of the compensating update. -/
theorem failed_sync_restores_iff {s₁ : State} {as : List Action} (hundo : request.undoes = true)
    (hidle : s₀.idle = true) (hopen : s₀.transaction = none)
    (h : Trace Admin.step Alone (s₀.received request) as s₁)
    (hstep : Admin.step s₁ (.resume s₀.tasks.length) = some s)
    (hfail : s.tasks[s₀.tasks.length]? = some ⟨request, .done (.failure (syncFailed request))⟩) :
    (s.db.domains = s₀.db.domains ∧ s.db.domainStats = s₀.db.domainStats ∧
        s.db.optimizationEvents = s₀.db.optimizationEvents) ↔ Stamped request s₀.db s₁.now := by
  have hsolo : Solo s₀ request s₁ :=
    h.invariant (fun s a s' hs halone hst => hs.step hundo halone hst) (solo_received hidle hopen request)
  rcases hsolo.failed hstep hfail with ⟨hcomp, hdb⟩ | ⟨host, d, hcomp, hd, hdb⟩
  · rw [hdb]
    refine ⟨fun _ host d hcomp' => ?_, fun _ => ⟨rfl, rfl, rfl⟩⟩
    rw [hcomp] at hcomp'
    cases hcomp'
  · rw [hdb]
    constructor
    · rintro ⟨hdomains, -⟩ host' d' hcomp' hd'
      obtain rfl : host = host' := Option.some.inj (hcomp.symm.trans hcomp')
      obtain rfl : d = d' := Option.some.inj (hd.symm.trans hd')
      exact (domains_stamped_iff hd).mp hdomains
    · intro hstamped
      exact ⟨(domains_stamped_iff hd).mpr (hstamped host d hcomp hd), rfl, rfl⟩

/-! ## Sample runs -/

/-- The call of a request alone fails after some seconds. -/
def failingActions (seconds : ℕ) : List Action := [.start 0, .tick seconds, .giveUp 0]

/-- The sample database, where a request has arrived. -/
abbrev sampleReceived (request : Request) : State :=
  (State.initial sampleDatabase fun _ => none).received request

/-- A failing call of a request alone, with the answer that the request gets. -/
lemma exists_failing {request : Request} {seconds : ℕ} {p : State → State → Bool}
    (hrun : ((run Admin.step (sampleReceived request) (failingActions seconds)).any fun s₁ =>
      (Admin.step s₁ (.resume 0)).any fun s => p s₁ s) = true) :
    ∃ s₁ s, Trace Admin.step Alone (sampleReceived request) (failingActions seconds) s₁ ∧
      Admin.step s₁ (.resume 0) = some s ∧ p s₁ s = true := by
  obtain ⟨s₁, htrace, hany⟩ := exists_trace_of_run hrun
  obtain ⟨s, hs, hp⟩ := Option.any_eq_true _ _ |>.mp hany
  have halone : ∀ a ∈ failingActions seconds, a.isArrival = false := by
    intro a ha
    simp only [failingActions, List.mem_cons, List.not_mem_nil, or_false] at ha
    rcases ha with rfl | rfl | rfl
    · rfl
    · rfl
    · rfl
  exact ⟨s₁, s, htrace.restrict halone, hs, hp⟩

/-- The answer and the domains at the end of a failing call. -/
def failedWith (request : Request) (changed : Bool) (s : State) : Bool :=
  decide (s.tasks[0]? = some ⟨request, .done (.failure (syncFailed request))⟩) &&
    decide (s.db.domains.rows ≠ sampleDatabase.domains.rows) == changed

/-- After a failed `PUT` and after a failed toggle the domain has another time of change. -/
theorem failed_sync_stamps : [Request.update "school.example" { description := some "new" },
    .toggle "school.example"].Forall fun request =>
      ∃ s₁ s, Trace Admin.step Alone (sampleReceived request) (failingActions 5) s₁ ∧
        Admin.step s₁ (.resume 0) = some s ∧
        s.tasks[0]? = some ⟨request, .done (.failure (syncFailed request))⟩ ∧
        s.db.domains ≠ sampleDatabase.domains := by
  rw [List.forall_iff_forall_mem]
  intro request hrequest
  have hrun : ∀ request ∈ [Request.update "school.example" { description := some "new" },
      .toggle "school.example"], ((run Admin.step (sampleReceived request) (failingActions 5)).any
        fun s₁ => (Admin.step s₁ (.resume 0)).any fun s => failedWith request true s) = true := by
    decide +kernel
  obtain ⟨s₁, s, htrace, hs, hp⟩ := exists_failing (hrun request hrequest)
  rw [failedWith, Bool.and_eq_true, decide_eq_true_eq, beq_true, decide_eq_true_eq] at hp
  exact ⟨s₁, s, htrace, hs, hp.1, fun heq => hp.2 (congrArg _ heq)⟩

/-- A failed `DELETE` leaves the domain as it was. -/
theorem failed_sync_restores_delete : ∃ s₁ s,
    Trace Admin.step Alone (sampleReceived (.delete "school.example")) (failingActions 5) s₁ ∧
      Admin.step s₁ (.resume 0) = some s ∧ s.db.domains = sampleDatabase.domains := by
  have hrun : ((run Admin.step (sampleReceived (.delete "school.example")) (failingActions 5)).any
      fun s₁ => (Admin.step s₁ (.resume 0)).any fun s =>
        failedWith (.delete "school.example") false s) = true := by
    decide +kernel
  obtain ⟨s₁, s, htrace, hs, hp⟩ := exists_failing hrun
  rw [failedWith, Bool.and_eq_true, decide_eq_true_eq] at hp
  have hiff := failed_sync_restores_iff rfl rfl rfl htrace hs hp.1
  exact ⟨s₁, s, htrace, hs, (hiff.mpr fun host d hcomp => by cases hcomp).1⟩

end SmartSchoolCdn.Admin
