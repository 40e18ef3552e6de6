import SmartSchoolCdn.Admin.Database
import SmartSchoolCdn.Admin.Reply
import SmartSchoolCdn.Foundation.FiniteMap
import Mathlib.Logic.Function.Basic

/-!
# The domain routes of the admin server

The handlers of `routes/domains.ts` that change domains, as a transition system.  A handler
runs up to its next `await` in one step, so that a step reads and writes the shared connection
without interruption, and handlers interleave between steps.

A handler writes and posts the enabled domains to the proxy in its first step, waits for that
call, and then commits or undoes: `POST`, `DELETE` and the bulk `DELETE` hold a transaction of
the connection while they wait, `PUT` and the toggle write the old values back, the other two
bulk routes leave their writes.

The messages to the proxy are delivered, lost and answered by steps of their own, in any order;
a call can fail at any time, whether or not its message is applied.  Other writers of the
connection write in one step.
-/

namespace SmartSchoolCdn.Admin

open Journals

/-! ## The proxy -/

/-- An entry of `POST /domains`; the admin server leaves out `enabled`. -/
structure DomainEntry where
  host : String
  origin : String
  enabled : ℤ := 1
  staleIfErrorSecs : Option ℤ
  coalesceCapacity : Option ℤ
  deriving DecidableEq, Repr

/-- The entry that is sent for a row. -/
def entryOf (d : Domain) : DomainEntry where
  host := d.host
  origin := d.origin
  staleIfErrorSecs := d.staleIfErrorSecs
  coalesceCapacity := d.coalesceCapacity

/-- The body of the loop of `update_domains_handler`: disabled domains are left out. -/
def insertEntry (map : String → Option String) (entry : DomainEntry) : String → Option String :=
  if entry.enabled = 1 then Function.update map entry.host (some entry.origin) else map

/-- `update_domains_handler`: the whole domain map is replaced. -/
def updateDomainsHandler (domains : List DomainEntry) : String → Option String :=
  domains.foldl insertEntry fun _ => none

/-- The hosts of the map are those of the enabled entries. -/
theorem isSome_updateDomainsHandler {domains : List DomainEntry} {host : String} :
    (updateDomainsHandler domains host).isSome = true ↔ ∃ e ∈ domains, e.enabled = 1 ∧ e.host = host := by
  have hinsert : ∀ (map : String → Option String) (e : DomainEntry),
      (insertEntry map e host).isSome = true ↔ (map host).isSome = true ∨ e.enabled = 1 ∧ e.host = host := by
    intro map e
    unfold insertEntry
    split
    · rename_i henabled
      by_cases hhost : e.host = host
      · simp [← hhost, henabled]
      · simp [Function.update_of_ne (Ne.symm hhost), hhost]
    · rename_i hdisabled
      simp [hdisabled]
  rw [updateDomainsHandler, FiniteMaps.isSome_foldl hinsert]
  simp

/-! ## Requests and tasks -/

/-- The writers beside the domain routes; each writes in one step. -/
inductive Writer
  | events (batch : List OptimizationEvent)
  | stats (row : DomainStatsRow)
  | user (change : UserChange)
  deriving DecidableEq, Repr

/-- The requests, after validation: hosts and origins are normalised. -/
inductive Request
  | create (host origin : String)
  | bulkCreate (domains : List (String × String))
  | bulkDelete (hosts : List String)
  | bulkToggle (hosts : List String) (enabled : Bool)
  | update (host : String) (data : DomainUpdate)
  | toggle (host : String)
  | delete (host : String)
  | write (writer : Writer)
  deriving DecidableEq, Repr

/-- The host whose lock a handler runs under. -/
def Request.lockHost : Request → Option String
  | .update host _ => some host
  | .toggle host => some host
  | .delete host => some host
  | _ => none

/-- What a handler does when its call of the proxy fails. -/
inductive Undo
  | rollback
  | restore (host : String) (data : DomainUpdate)
  | keep
  deriving DecidableEq, Repr

/-- The reply of a handler; the bodies of successful replies are left out. -/
inductive Reply
  | success
  | failure (e : ErrorReply)
  deriving DecidableEq, Repr

/-- Where a handler is: before its first step, waiting for the call of the proxy with the given
number, for the gRPC fan-out or for the optimizer, or finished. -/
inductive Phase
  | queued
  | syncing (message : ℕ) (undo : Undo)
  | fanOut
  | profile
  | done (reply : Reply)
  deriving DecidableEq, Repr

/-- Whether a handler has finished. -/
def Phase.isDone : Phase → Bool
  | .done _ => true
  | _ => false

/-- A handler with its request. -/
structure Task where
  request : Request
  phase : Phase
  deriving DecidableEq, Repr

/-! ## Messages and states -/

/-- What has become of a message. -/
inductive Delivery
  | inFlight
  | lost
  | applied
  deriving DecidableEq, Repr

/-- What the caller knows. -/
inductive Call
  | waiting
  | answered
  | failed
  deriving DecidableEq, Repr

/-- A `POST /domains`. -/
structure Sync where
  domains : List DomainEntry
  delivery : Delivery
  call : Call
  deriving DecidableEq, Repr

/-- The admin server with its connection, the messages to the proxy in the order in which they
were sent, and the domain map of the proxy.

`transaction` is the request that opened the transaction of the connection, with the database
at its `BEGIN`.  `history` lists, the newest first, what was executed on the connection and
what was undone. -/
structure State where
  now : ℕ
  db : Database
  transaction : Option (ℕ × Database)
  tasks : List Task
  syncs : List Sync
  domainMap : String → Option String
  history : List (Event ℕ Statement)

/-- The admin server without requests. -/
def State.initial (db : Database) (domainMap : String → Option String) : State where
  now := 0
  db := db
  transaction := none
  tasks := []
  syncs := []
  domainMap := domainMap
  history := []

/-- A database with one domain, for runs. -/
def sampleDatabase : Database :=
  Database.ofDomains
    { rows := [{ host := "school.example", origin := "https://school.example", createdAt := 0, updatedAt := 0 }]
      keys_nodup := by decide }

/-! ## Replies -/

/-- What `BEGIN` throws in a transaction. -/
def transactionOpen : ErrorReply :=
  { status := 500
    error := "internal_error"
    message := "cannot start a transaction within a transaction" }

/-- The reply for a host that is no domain. -/
def domainNotFound : ErrorReply :=
  { status := 404, error := "domain_not_found", message := "도메인을 찾을 수 없습니다." }

/-- The reply when the call of the proxy has failed. -/
def syncFailed (request : Request) : ErrorReply where
  status := 502
  error := "proxy_sync_failed"
  message :=
    match request with
    | .bulkToggle _ _ => "Proxy 동기화 실패 (DB 는 갱신됨)"
    | _ => "Proxy 동기화 실패"

namespace Writer

/-- The statement of a writer. -/
def statement (now : ℕ) : Writer → Statement
  | .events batch => .insertEvents batch
  | .stats row => .insertStats row
  | .user change => .changeUser change now

/-- What a writer makes of a constraint that fails. -/
def refused : Writer → ErrorReply
  | .user _ => { status := 409, error := "username_already_exists", message := "" }
  | _ => { status := 500, error := "internal_error", message := "FOREIGN KEY constraint failed" }

end Writer

/-! ## Steps of the handlers -/

namespace State

variable (s : State) (rid : ℕ)

/-- Move a handler to another phase. -/
def setPhase (phase : Phase) : State :=
  { s with tasks := s.tasks.modify rid fun t => { t with phase := phase } }

/-- Finish a handler. -/
def reply (r : Reply) : State := s.setPhase rid (.done r)

/-- Execute statements for a request. -/
def record (writes : List Statement) : State :=
  { s with
    db := execAll Database.exec writes s.db
    history := .wrote rid writes :: s.history }

/-- Execute statements for a request, if there are any. -/
def write (writes : List Statement) : State := if writes = [] then s else s.record rid writes

/-- Post the enabled domains to the proxy. -/
def syncToProxy : State :=
  { s with
    syncs := s.syncs ++
      [{ domains := s.db.enabledDomains.map entryOf, delivery := .inFlight, call := .waiting }] }

/-- Post the enabled domains and wait for the answer. -/
def awaitSync (undo : Undo) : State :=
  s.syncToProxy.setPhase rid (.syncing s.syncs.length undo)

/-- `runInTransactionAsync`, up to the `await` in its callback. -/
def runInTransactionAsync (writes : List Statement) : State :=
  if s.transaction.isSome then s.reply rid (.failure transactionOpen)
  else (({ s with transaction := some (rid, s.db) } : State).record rid writes).awaitSync rid .rollback

/-- `COMMIT`. -/
def commit : State := { s with transaction := none }

/-- `ROLLBACK`. -/
def rollback : State :=
  { s with
    db := (s.transaction.map Prod.snd).getD s.db
    transaction := none
    history := .rolledBack rid :: s.history }

/-- The compensating update.  It is meant to leave the time of the change and nothing else. -/
def restore (host : String) (data : DomainUpdate) : State :=
  { s with
    db := execAll Database.exec (data.statements host s.now) s.db
    history := .restored rid [.updateDomain host {} s.now] :: s.history }

/-- The first step of a handler. -/
def start : Request → State
  | .create host origin => s.runInTransactionAsync rid [.upsertDomain host origin "" s.now]
  | .bulkCreate domains =>
    (s.write rid (domains.map fun d => .insertDomain d.1 d.2 s.now)).awaitSync rid .keep
  | .bulkDelete hosts => s.runInTransactionAsync rid [.deleteDomains hosts, .deleteEvents hosts]
  | .bulkToggle hosts enabled =>
    -- unknown hosts are reported and skipped; an update makes no host known
    let known := hosts.filter fun host => (s.db.domains.find host).isSome
    let data : DomainUpdate := { enabled := some (if enabled then 1 else 0) }
    (s.write rid (known.map fun host => .updateDomain host data s.now)).awaitSync rid .keep
  | .update host data =>
    match s.db.domains.find host with
    | none => s.reply rid (.failure domainNotFound)
    | some original =>
      (s.record rid (data.statements host s.now)).awaitSync rid (.restore host original.values)
  | .toggle host =>
    match s.db.domains.find host with
    | none => s.reply rid (.failure domainNotFound)
    | some original =>
      (s.record rid [.toggleDomain host s.now]).awaitSync rid
        (.restore host { enabled := some original.enabled })
  | .delete host =>
    -- the row is still there at the `DELETE`: both run in this step
    if (s.db.domains.find host).isSome then s.runInTransactionAsync rid [.deleteDomains [host]]
    else s.reply rid (.failure domainNotFound)
  | .write writer =>
    if (s.db.run (writer.statement s.now)).isSome then
      (s.record rid [writer.statement s.now]).reply rid .success
    else s.reply rid (.failure writer.refused)

/-- The step of a handler after the proxy has answered. -/
def synced : Undo → State
  | .rollback => s.commit.setPhase rid .fanOut
  | _ => s.setPhase rid .fanOut

/-- The step of a handler after the call of the proxy has failed. -/
def notSynced (request : Request) : Undo → State
  | .rollback => (s.rollback rid).reply rid (.failure (syncFailed request))
  | .restore host data => (s.restore rid host data).reply rid (.failure (syncFailed request))
  | .keep => s.reply rid (.failure (syncFailed request))

/-- The step of a handler after the gRPC fan-out. -/
def afterFanOut : Request → State
  | .delete host => (s.write rid [.deleteEvents [host]]).setPhase rid .profile
  | .create _ _ | .bulkCreate _ | .bulkDelete _ => s.setPhase rid .profile
  | .bulkToggle _ _ | .update _ _ | .toggle _ | .write _ => s.reply rid .success

/-- The last step of a handler, after the optimizer. -/
def afterProfile : Request → State
  | .create host _ =>
    (s.write rid [.insertAudit
      { action := "domain.create", targetType := "domain", targetId := some host
        createdAt := s.now }]).reply rid .success
  | .delete host =>
    (s.write rid [.insertAudit
      { action := "domain.delete", targetType := "domain", targetId := some host
        createdAt := s.now }]).reply rid .success
  | _ => s.reply rid .success

/-- `withHostLock`: every earlier handler under the lock of the same host has finished. -/
def lockFree (request : Request) : Bool :=
  match request.lockHost with
  | none => true
  | some host => (s.tasks.take rid).all fun t => t.request.lockHost ≠ some host || t.phase.isDone

end State

/-- No handler is running. -/
def State.idle (s : State) : Bool := s.tasks.all fun t => t.phase.isDone

/-! ## The transition system -/

/-- What happens next: time passes, a request arrives, a handler takes a step, the health
monitor re-syncs, or a message or its call moves on. -/
inductive Action
  | tick (seconds : ℕ)
  | receive (request : Request)
  | start (rid : ℕ)
  | resume (rid : ℕ)
  | proceed (rid : ℕ)
  | monitor
  | deliver (message : ℕ)
  | lose (message : ℕ)
  | answer (message : ℕ)
  | giveUp (message : ℕ)
  deriving DecidableEq, Repr

/-- Execute an action. -/
def step (s : State) : Action → Option State
  | .tick seconds => some { s with now := s.now + seconds }
  | .receive request => some { s with tasks := s.tasks ++ [{ request := request, phase := .queued }] }
  | .start rid =>
    match s.tasks[rid]? with
    | some ⟨request, .queued⟩ => if s.lockFree rid request then some (s.start rid request) else none
    | _ => none
  | .resume rid =>
    match s.tasks[rid]? with
    | some ⟨request, .syncing message undo⟩ =>
      match s.syncs[message]? with
      | some ⟨_, _, .answered⟩ => some (s.synced rid undo)
      | some ⟨_, _, .failed⟩ => some (s.notSynced rid request undo)
      | _ => none
    | _ => none
  | .proceed rid =>
    match s.tasks[rid]? with
    | some ⟨request, .fanOut⟩ => some (s.afterFanOut rid request)
    | some ⟨request, .profile⟩ => some (s.afterProfile rid request)
    | _ => none
  | .monitor => some s.syncToProxy
  | .deliver message =>
    match s.syncs[message]? with
    | some ⟨domains, .inFlight, call⟩ =>
      some
        { s with
          syncs := s.syncs.set message ⟨domains, .applied, call⟩
          domainMap := updateDomainsHandler domains }
    | _ => none
  | .lose message =>
    match s.syncs[message]? with
    | some ⟨domains, .inFlight, call⟩ =>
      some { s with syncs := s.syncs.set message ⟨domains, .lost, call⟩ }
    | _ => none
  | .answer message =>
    match s.syncs[message]? with
    | some ⟨domains, .applied, .waiting⟩ =>
      some { s with syncs := s.syncs.set message ⟨domains, .applied, .answered⟩ }
    | _ => none
  | .giveUp message =>
    match s.syncs[message]? with
    | some ⟨domains, delivery, .waiting⟩ =>
      some { s with syncs := s.syncs.set message ⟨domains, delivery, .failed⟩ }
    | _ => none

/-! ## What a step can do -/

/-- The statements change one row, and writing the given values back leaves nothing of the
change but its time. -/
structure Restores (host : String) (original : Domain) (writes : List Statement)
    (data : DomainUpdate) : Prop where
  nonempty : data ≠ {}
  rows : ∀ w ∈ writes, w.hosts = [host]
  change : ∃ (f : Domain → Domain) (hf : ∀ d, (f d).host = d.host),
    (∀ db, execAll Database.exec writes db = db.updateRow host f hf) ∧
      ∀ now, data.apply now (f original) = DomainUpdate.apply {} now original

/-- Whether the first step of a handler opens a transaction. -/
def Request.opensTransaction (request : Request) (db : Database) : Bool :=
  match request with
  | .create _ _ | .bulkDelete _ => true
  | .delete host => (db.domains.find host).isSome
  | _ => false

/-- A handler that can take its first step. -/
structure State.Ready (s : State) (rid : ℕ) (request : Request) : Prop where
  queued : s.tasks[rid]? = some ⟨request, .queued⟩
  lock : s.lockFree rid request = true

/-- The steps, with what each finds and leaves. -/
inductive Step (s : State) : Action → State → Prop
  | tick {seconds : ℕ} : Step s (.tick seconds) { s with now := s.now + seconds }
  | receive {request : Request} :
      Step s (.receive request) { s with tasks := s.tasks ++ [{ request := request, phase := .queued }] }
  | refused {rid : ℕ} {request : Request} {e : ErrorReply} :
      s.Ready rid request →
      (e = transactionOpen → request.opensTransaction s.db = true ∧ s.transaction.isSome = true) →
      Step s (.start rid) (s.reply rid (.failure e))
  | begun {rid : ℕ} {request : Request} {writes : List Statement} :
      s.Ready rid request → s.transaction = none →
      Step s (.start rid)
        ((({ s with transaction := some (rid, s.db) } : State).record rid writes).awaitSync rid .rollback)
  | kept {rid : ℕ} {request : Request} {writes : List Statement} :
      s.Ready rid request →
      Step s (.start rid) ((s.write rid writes).awaitSync rid .keep)
  | restorable {rid : ℕ} {request : Request} {writes : List Statement} {host : String}
      {original : Domain} {data : DomainUpdate} :
      s.Ready rid request → request.lockHost = some host →
      s.db.domains.find host = some original → Restores host original writes data →
      Step s (.start rid) ((s.record rid writes).awaitSync rid (.restore host data))
  | written {rid : ℕ} {writer : Writer} :
      s.Ready rid (.write writer) →
      Step s (.start rid) ((s.record rid [writer.statement s.now]).reply rid .success)
  | committed {rid message : ℕ} {request : Request} {domains : List DomainEntry} {delivery : Delivery} :
      s.tasks[rid]? = some ⟨request, .syncing message .rollback⟩ →
      s.syncs[message]? = some ⟨domains, delivery, .answered⟩ →
      Step s (.resume rid) (s.commit.setPhase rid .fanOut)
  | synced {rid message : ℕ} {request : Request} {undo : Undo} :
      s.tasks[rid]? = some ⟨request, .syncing message undo⟩ → undo ≠ .rollback →
      Step s (.resume rid) (s.setPhase rid .fanOut)
  | rolledBack {rid message : ℕ} {request : Request} {domains : List DomainEntry} {delivery : Delivery}
      {e : ErrorReply} :
      s.tasks[rid]? = some ⟨request, .syncing message .rollback⟩ →
      s.syncs[message]? = some ⟨domains, delivery, .failed⟩ → e ≠ transactionOpen →
      Step s (.resume rid) ((s.rollback rid).reply rid (.failure e))
  | restored {rid message : ℕ} {request : Request} {host : String} {data : DomainUpdate}
      {domains : List DomainEntry} {delivery : Delivery} {e : ErrorReply} :
      s.tasks[rid]? = some ⟨request, .syncing message (.restore host data)⟩ →
      s.syncs[message]? = some ⟨domains, delivery, .failed⟩ → e ≠ transactionOpen →
      Step s (.resume rid) ((s.restore rid host data).reply rid (.failure e))
  | left {rid message : ℕ} {request : Request} {domains : List DomainEntry} {delivery : Delivery}
      {e : ErrorReply} :
      s.tasks[rid]? = some ⟨request, .syncing message .keep⟩ →
      s.syncs[message]? = some ⟨domains, delivery, .failed⟩ → e ≠ transactionOpen →
      Step s (.resume rid) (s.reply rid (.failure e))
  | proceeded {rid : ℕ} {request : Request} {phase phase' : Phase} {writes : List Statement} :
      s.tasks[rid]? = some ⟨request, phase⟩ → phase = .fanOut ∨ phase = .profile →
      phase' = .profile ∨ phase' = .done .success → (∀ w ∈ writes, w.hosts = []) →
      Step s (.proceed rid) ((s.write rid writes).setPhase rid phase')
  | monitor : Step s .monitor s.syncToProxy
  | deliver {message : ℕ} {domains : List DomainEntry} {call : Call} :
      s.syncs[message]? = some ⟨domains, .inFlight, call⟩ →
      Step s (.deliver message)
        { s with
          syncs := s.syncs.set message ⟨domains, .applied, call⟩
          domainMap := updateDomainsHandler domains }
  | lose {message : ℕ} {domains : List DomainEntry} {call : Call} :
      s.syncs[message]? = some ⟨domains, .inFlight, call⟩ →
      Step s (.lose message) { s with syncs := s.syncs.set message ⟨domains, .lost, call⟩ }
  | answer {message : ℕ} {domains : List DomainEntry} :
      s.syncs[message]? = some ⟨domains, .applied, .waiting⟩ →
      Step s (.answer message) { s with syncs := s.syncs.set message ⟨domains, .applied, .answered⟩ }
  | giveUp {message : ℕ} {domains : List DomainEntry} {delivery : Delivery} :
      s.syncs[message]? = some ⟨domains, delivery, .waiting⟩ →
      Step s (.giveUp message) { s with syncs := s.syncs.set message ⟨domains, delivery, .failed⟩ }

variable {s s' : State} {a : Action} {rid : ℕ}

/-- The update of `PUT` is undone by the values that were there. -/
lemma restores_update (host : String) (original : Domain) (data : DomainUpdate) (now : ℕ) :
    Restores host original (data.statements host now) original.values where
  nonempty := by simp [Domain.values]
  rows w hw := by
    unfold DomainUpdate.statements at hw
    split at hw
    · cases hw
    · obtain rfl := List.mem_singleton.mp hw
      rfl
  change := by
    unfold DomainUpdate.statements
    split
    · exact ⟨id, fun _ => rfl, fun db => updateRow_id.symm, fun later => rfl⟩
    · exact ⟨data.apply now, data.host_apply now, fun db => rfl, fun later => apply_values data now later⟩

/-- The toggle is undone by the switch that was there. -/
lemma restores_toggle (host : String) (original : Domain) (now : ℕ) :
    Restores host original [.toggleDomain host now] { enabled := some original.enabled } where
  nonempty := by simp
  rows w hw := by
    obtain rfl := List.mem_singleton.mp hw
    rfl
  change :=
    ⟨Domain.toggled now, Domain.host_toggled now, fun db => rfl, fun later => apply_enabled now later⟩

/-- A step that opens a transaction is refused when there is one. -/
lemma step_of_runInTransactionAsync {request : Request} {writes : List Statement}
    (ht : s.Ready rid request) (hopens : request.opensTransaction s.db = true) :
    Step s (.start rid) (s.runInTransactionAsync rid writes) := by
  unfold State.runInTransactionAsync
  by_cases hopen : s.transaction.isSome
  · rw [if_pos hopen]
    exact Step.refused ht fun _ => ⟨hopens, hopen⟩
  · rw [if_neg hopen]
    exact Step.begun ht (by simpa using hopen)

/-- The first steps of the handlers. -/
lemma step_of_start {request : Request} (ht : s.Ready rid request) :
    Step s (.start rid) (s.start rid request) := by
  have hnotFound : Step s (.start rid) (s.reply rid (.failure domainNotFound)) :=
    Step.refused ht fun h => absurd h (by decide)
  cases request with
  | create host origin => exact step_of_runInTransactionAsync ht rfl
  | bulkCreate domains => exact Step.kept ht
  | bulkDelete hosts => exact step_of_runInTransactionAsync ht rfl
  | bulkToggle hosts enabled => exact Step.kept ht
  | update host data =>
    simp only [State.start]
    split
    · exact hnotFound
    · rename_i original hfind
      exact Step.restorable ht rfl hfind (restores_update host original data s.now)
  | toggle host =>
    simp only [State.start]
    split
    · exact hnotFound
    · rename_i original hfind
      exact Step.restorable ht rfl hfind (restores_toggle host original s.now)
  | delete host =>
    simp only [State.start]
    split
    · rename_i hfind
      exact step_of_runInTransactionAsync ht hfind
    · exact hnotFound
  | write writer =>
    simp only [State.start]
    split
    · exact Step.written ht
    · refine Step.refused ht fun h => absurd h ?_
      cases writer <;> simp [Writer.refused, transactionOpen]

lemma syncFailed_ne (request : Request) : syncFailed request ≠ transactionOpen := by
  simp [syncFailed, transactionOpen]

/-- Every action that is possible is one of the steps. -/
lemma step_cases (h : step s a = some s') : Step s a s' := by
  cases a with
  | tick seconds => exact Option.some.inj h ▸ Step.tick
  | receive request => exact Option.some.inj h ▸ Step.receive
  | start rid =>
    simp only [step] at h
    split at h
    · rename_i request ht
      split at h
      · rename_i hlock
        exact Option.some.inj h ▸ step_of_start ⟨ht, hlock⟩
      · cases h
    · cases h
  | resume rid =>
    simp only [step] at h
    split at h
    · rename_i request message undo ht
      split at h
      · rename_i domains delivery hm
        obtain rfl := Option.some.inj h
        cases undo with
        | rollback => exact Step.committed ht hm
        | restore host data => exact Step.synced ht (by simp)
        | keep => exact Step.synced ht (by simp)
      · rename_i domains delivery hm
        obtain rfl := Option.some.inj h
        cases undo with
        | rollback => exact Step.rolledBack ht hm (syncFailed_ne request)
        | restore host data => exact Step.restored ht hm (syncFailed_ne request)
        | keep => exact Step.left ht hm (syncFailed_ne request)
      · cases h
    · cases h
  | proceed rid =>
    have no_writes : s.write rid [] = s := rfl
    simp only [step] at h
    split at h
    · rename_i request ht
      obtain rfl := Option.some.inj h
      cases request
      case delete host => exact Step.proceeded ht (.inl rfl) (.inl rfl) (by simp [Statement.hosts])
      case create host origin => exact no_writes ▸ Step.proceeded ht (.inl rfl) (.inl rfl) (by simp)
      case bulkCreate domains => exact no_writes ▸ Step.proceeded ht (.inl rfl) (.inl rfl) (by simp)
      case bulkDelete hosts => exact no_writes ▸ Step.proceeded ht (.inl rfl) (.inl rfl) (by simp)
      all_goals exact no_writes ▸ Step.proceeded ht (.inl rfl) (.inr rfl) (by simp)
    · rename_i request ht
      obtain rfl := Option.some.inj h
      cases request
      case create host origin => exact Step.proceeded ht (.inr rfl) (.inr rfl) (by simp [Statement.hosts])
      case delete host => exact Step.proceeded ht (.inr rfl) (.inr rfl) (by simp [Statement.hosts])
      all_goals exact no_writes ▸ Step.proceeded ht (.inr rfl) (.inr rfl) (by simp)
    · cases h
  | monitor => exact Option.some.inj h ▸ Step.monitor
  | deliver message =>
    simp only [step] at h
    split at h
    · rename_i domains call hm
      exact Option.some.inj h ▸ Step.deliver hm
    · cases h
  | lose message =>
    simp only [step] at h
    split at h
    · rename_i domains call hm
      exact Option.some.inj h ▸ Step.lose hm
    · cases h
  | answer message =>
    simp only [step] at h
    split at h
    · rename_i domains hm
      exact Option.some.inj h ▸ Step.answer hm
    · cases h
  | giveUp message =>
    simp only [step] at h
    split at h
    · rename_i domains delivery hm
      exact Option.some.inj h ▸ Step.giveUp hm
    · cases h

/-! ## Phases along a step -/

/-- A handler that has not finished moves to another phase. -/
structure Moved (s s' : State) (rid : ℕ) (task : Task) (phase : Phase) : Prop where
  was : s.tasks[rid]? = some task
  running : task.phase.isDone = false
  tasks : s'.tasks = s.tasks.modify rid fun t => { t with phase := phase }

variable {task t : Task} {phase : Phase} {r : ℕ}

/-- The handler itself after its move. -/
lemma Moved.self (h : Moved s s' rid task phase) :
    s'.tasks[rid]? = some { task with phase := phase } := by
  rw [h.tasks, List.getElem?_modify, h.was]
  simp

/-- The other handlers stay. -/
lemma Moved.other (h : Moved s s' rid task phase) (hr : r ≠ rid) : s'.tasks[r]? = s.tasks[r]? := by
  rw [h.tasks, List.getElem?_modify]
  simp [Ne.symm hr]

/-- A handler after the move is the one that moved or one that was there. -/
lemma Moved.cases (h : Moved s s' rid task phase) (ht : s'.tasks[r]? = some t) :
    (r = rid ∧ t = { task with phase := phase }) ∨ (r ≠ rid ∧ s.tasks[r]? = some t) := by
  by_cases hr : r = rid
  · subst hr
    rw [h.self] at ht
    exact .inl ⟨rfl, (Option.some.inj ht).symm⟩
  · rw [h.other hr] at ht
    exact .inr ⟨hr, ht⟩

/-- Handlers may arrive, and those that are there stay as they are. -/
structure Arrived (s s' : State) : Prop where
  stays : ∀ (r : ℕ) (t : Task), s.tasks[r]? = some t → s'.tasks[r]? = some t
  queued : ∀ (r : ℕ) (t : Task), s'.tasks[r]? = some t → s.tasks[r]? = some t ∨ t.phase = .queued

/-- Without a change of the handlers none arrives. -/
lemma Arrived.of_eq (h : s'.tasks = s.tasks) : Arrived s s' where
  stays _ _ ht := h ▸ ht
  queued _ _ ht := .inl (h ▸ ht)

/-- A request that arrives is queued. -/
lemma Arrived.of_append {request : Request}
    (h : s'.tasks = s.tasks ++ [{ request := request, phase := .queued }]) : Arrived s s' where
  stays r t ht := by
    have hlt : r < s.tasks.length := (List.getElem?_eq_some_iff.mp ht).choose
    rw [h, List.getElem?_append_left hlt]
    exact ht
  queued r t ht := by
    rw [h, List.getElem?_append] at ht
    split at ht
    · exact .inl ht
    · have hmem := List.mem_of_getElem? ht
      obtain rfl := List.mem_singleton.mp hmem
      exact .inr rfl

/-- The lock of a host: when a handler under it has started, the earlier ones have finished. -/
def LocksHeld (s : State) : Prop :=
  ∀ (i j : ℕ) (ti tj : Task) (host : String), i < j → s.tasks[i]? = some ti → s.tasks[j]? = some tj →
    ti.request.lockHost = some host → tj.request.lockHost = some host → tj.phase ≠ .queued →
    ti.phase.isDone = true

/-- Arrivals keep the locks. -/
lemma LocksHeld.arrived (h : LocksHeld s) (ha : Arrived s s') : LocksHeld s' := by
  intro i j ti tj host hij hi hj hli hlj hphase
  have hj' : s.tasks[j]? = some tj := (ha.queued j tj hj).resolve_right hphase
  have hlt : i < s.tasks.length := lt_trans hij (List.getElem?_eq_some_iff.mp hj').choose
  have hi' : s.tasks[i]? = some ti := by
    obtain ⟨ti', hti'⟩ : ∃ ti', s.tasks[i]? = some ti' := ⟨_, List.getElem?_eq_getElem hlt⟩
    rw [ha.stays i ti' hti'] at hi
    rw [hti', hi]
  exact h i j ti tj host hij hi' hj' hli hlj hphase

/-- A handler that has the lock, or needs none, moves without breaking the locks. -/
lemma LocksHeld.moved (h : LocksHeld s) (hm : Moved s s' rid task phase)
    (hlock : task.phase = .queued → s.lockFree rid task.request = true) : LocksHeld s' := by
  intro i j ti tj host hij hi hj hli hlj hphase
  rcases hm.cases hi with ⟨rfl, rfl⟩ | ⟨hine, hi'⟩
  · -- a later handler under the lock cannot have started before this one has finished
    have hj' : s.tasks[j]? = some tj := by rw [← hm.other (Nat.ne_of_gt hij)]; exact hj
    have hdone := h i j task tj host hij hm.was hj' hli hlj hphase
    rw [hm.running] at hdone
    cases hdone
  · rcases hm.cases hj with ⟨rfl, rfl⟩ | ⟨hjne, hj'⟩
    · by_cases hqueued : task.phase = .queued
      · have hfree := hlock hqueued
        unfold State.lockFree at hfree
        rw [hlj] at hfree
        have hmem : ti ∈ s.tasks.take j :=
          List.mem_of_getElem? ((List.getElem?_take_of_lt hij).trans hi')
        have hti := List.all_eq_true.mp hfree ti hmem
        simpa [hli] using hti
      · exact h i j ti task host hij hi' hm.was hli hlj hqueued
    · exact h i j ti tj host hij hi' hj' hli hlj hphase

/-- Two handlers under the lock of one host are not both between start and end. -/
lemma LocksHeld.eq_of_running (h : LocksHeld s) {i j : ℕ} {ti tj : Task} {host : String}
    (hi : s.tasks[i]? = some ti) (hj : s.tasks[j]? = some tj)
    (hli : ti.request.lockHost = some host) (hlj : tj.request.lockHost = some host)
    (hqi : ti.phase ≠ .queued) (hqj : tj.phase ≠ .queued) (hdi : ti.phase.isDone = false)
    (hdj : tj.phase.isDone = false) : i = j := by
  rcases Nat.lt_trichotomy i j with hlt | heq | hgt
  · rw [h i j ti tj host hlt hi hj hli hlj hqj] at hdi
    cases hdi
  · exact heq
  · rw [h j i tj ti host hgt hj hi hlj hli hqi] at hdj
    cases hdj

end SmartSchoolCdn.Admin
