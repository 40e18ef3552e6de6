import SmartSchoolCdn.Admin.DomainSync
import SmartSchoolCdn.Admin.Switches
import SmartSchoolCdn.Services.Dns
import SmartSchoolCdn.Services.Tls

/-!
# The services behind the domains table

A handler of the domain routes feeds three services: the proxy gets the enabled domains
(`syncToProxy`), tls-service and dns-service get what `fanOutGrpc` sends, which is every row of
the table.  The health monitor sends the enabled domains to all three.

For requests that are served one after the other, with every call succeeding, the first part
says what a request does to the switch of a host (`Request.onSwitch`), without the table.  The
services hold one set of hosts after a run of requests exactly when the requests leave no host
switched off (`oneEnabledSet_iff`).
-/

namespace SmartSchoolCdn.Admin

open Journals Tables Traces

/-! ## What the requests mean -/

/-- What a request means for the switch of a host. -/
def Request.onSwitch (host : String) (x : Option Bool) : Request → Option Bool
  | .create h _ => if h = host then some (x.getD true) else x
  | .bulkCreate domains => if host ∈ domains.map Prod.fst then some (x.getD true) else x
  | .bulkDelete hosts => if host ∈ hosts then none else x
  | .bulkToggle hosts enabled => if host ∈ hosts then x.map fun _ => enabled else x
  | .update h data => if h = host then x.map data.switch else x
  | .toggle h => if h = host then x.map not else x
  | .delete h => if h = host then none else x
  | .write _ => x

/-- The statements on `domains` that a request executes. -/
def Request.statements (db : Database) (now : ℕ) : Request → List Statement
  | .create host origin => [.upsertDomain host origin "" now]
  | .bulkCreate domains => domains.map fun d => .insertDomain d.1 d.2 now
  | .bulkDelete hosts => [.deleteDomains hosts, .deleteEvents hosts]
  | .bulkToggle hosts enabled =>
    (hosts.filter fun host => (db.domains.find host).isSome).map fun host =>
      .updateDomain host { enabled := some (if enabled then 1 else 0) } now
  | .update host data => data.statements host now
  | .toggle host => [.toggleDomain host now]
  | .delete host => [.deleteDomains [host]]
  | .write writer => [writer.statement now]

variable {db : Database} {host : String}

/-- The statements of a request do to the switches what the request means. -/
theorem switchOf_statements (request : Request) (now : ℕ) :
    switchOf (execAll Database.exec (request.statements db now) db) host =
      request.onSwitch host (switchOf db host) := by
  rw [switchOf_execAll]
  cases request with
  | create h origin => rfl
  | bulkCreate domains =>
    refine foldl_onSwitch (k := Prod.fst) (g := fun x => some (x.getD true)) host _ (fun d y => rfl) ?_
    intro y
    rfl
  | bulkDelete hosts => rfl
  | bulkToggle hosts enabled =>
    have hset : ∀ (h : String) (y : Option Bool),
        Statement.onSwitch host y (.updateDomain h { enabled := some (if enabled then 1 else 0) } now) =
          if id h = host then y.map fun _ => enabled else y := by
      intro h y
      have hswitch : DomainUpdate.switch { enabled := some (if enabled then 1 else 0) } =
          fun _ => enabled := by
        funext on
        cases enabled <;> rfl
      rw [Statement.onSwitch, hswitch, id_eq]
    have htwice : ∀ y : Option Bool, (y.map fun _ => enabled).map (fun _ => enabled) = y.map fun _ => enabled := by
      intro y
      rw [Option.map_map]
      rfl
    refine (foldl_onSwitch host (switchOf db host) hset htwice).trans ?_
    rw [List.map_id, Request.onSwitch]
    by_cases hmem : host ∈ hosts
    · by_cases hknown : (db.domains.find host).isSome
      · simp [hmem, hknown]
      · have hnone : db.domains.find host = none := by simpa using hknown
        simp [hmem, switchOf, hnone]
    · simp [hmem]
  | update h data =>
    change (data.statements h now).foldl _ _ = _
    unfold DomainUpdate.statements
    split
    · rename_i hempty
      subst hempty
      have hkeep : (DomainUpdate.switch {}) = id := rfl
      simp [Request.onSwitch, hkeep]
    · rfl
  | toggle h => rfl
  | delete h =>
    by_cases hhost : h = host
    · simp [Request.statements, Statement.onSwitch, Request.onSwitch, hhost]
    · simp [Request.statements, Statement.onSwitch, Request.onSwitch, hhost, Ne.symm hhost]
  | write writer => cases writer <;> rfl

/-! ## The services -/

/-- `findAll()`, the newest first. -/
def allDomains (db : Database) : List Domain :=
  db.domains.rows.insertionSort fun a b => b.createdAt ≤ a.createdAt

/-- What is sent of the rows to tls-service and dns-service. -/
def syncEntries (domains : List Domain) : List (String × String) :=
  domains.map fun d => (d.host, d.origin)

/-- The admin server with the services it feeds; `tlsSynced` is the list tls-service was last
synced with. -/
structure Fleet where
  admin : State
  dnsMap : String → Option String
  tls : Tls.TlsManager
  tlsSynced : List (String × String)

/-- A step that takes a handler into the gRPC fan-out. -/
def State.fansOut (s' : State) : Action → Bool
  | .resume rid => s'.tasks[rid]?.any fun t => t.phase = .fanOut
  | _ => false

namespace Fleet

variable (issues : String → Bool) (f : Fleet)

/-- `syncDomains` of both clients, when the calls succeed. -/
def syncDomains (domains : List Domain) : Fleet :=
  { f with
    dnsMap := Dns.syncDomains (syncEntries domains)
    tls := f.tls.syncDomains issues f.admin.now (syncEntries domains)
    tlsSynced := syncEntries domains }

/-- `fanOutGrpc`: the rows are not filtered. -/
def fanOutGrpc : Fleet := f.syncDomains issues (allDomains f.admin.db)

/-- `syncDomainsToGrpcServices` of the health monitor. -/
def syncDomainsToGrpcServices : Fleet := f.syncDomains issues f.admin.db.enabledDomains

/-- Execute an action of the admin server; the calls of tls-service and dns-service succeed. -/
def step (a : Action) : Option Fleet :=
  (Admin.step f.admin a).map fun s =>
    let f' := { f with admin := s }
    if s.fansOut a then f'.fanOutGrpc issues
    else if a = .monitor then f'.syncDomainsToGrpcServices issues
    else f'

end Fleet

/-! ## Requests one after the other -/

/-- A request up to the answer of the proxy, while nothing else happens. -/
def State.opening (s : State) (wait : ℕ) (request : Request) : List Action :=
  [.tick wait, .receive request, .start s.tasks.length, .deliver s.syncs.length, .answer s.syncs.length]

/-- The steps of a handler after the gRPC fan-out. -/
def Request.closing (rid : ℕ) : Request → List Action
  | .create _ _ | .bulkCreate _ | .bulkDelete _ | .delete _ => [.proceed rid, .proceed rid]
  | _ => [.proceed rid]

/-- Serve a request, some time after the one before: every call succeeds.  A request that is
answered with an error posts nothing and is not served here. -/
def Fleet.serve (issues : String → Bool) (f : Fleet) (op : ℕ × Request) : Option Fleet :=
  run (Fleet.step issues) f
    (f.admin.opening op.1 op.2 ++ .resume f.admin.tasks.length :: op.2.closing f.admin.tasks.length)

/-- No handler runs and no transaction is open. -/
structure State.Rests (s : State) : Prop where
  done : ∀ (i : ℕ) (t : Task), s.tasks[i]? = some t → t.phase.isDone = true
  closed : s.transaction = none

/-- The first step of a handler that posts. -/
structure Posts (s s' : State) (rid : ℕ) (request : Request) (undo : Undo) : Prop where
  tasks : s'.tasks = s.tasks.modify rid fun t => { t with phase := .syncing s.syncs.length undo }
  syncs : s'.syncs = s.syncs ++
    [{ domains := s'.db.enabledDomains.map entryOf, delivery := .inFlight, call := .waiting }]
  db : s'.db = execAll Database.exec (request.statements s.db s.now) s.db
  closed : undo ≠ .rollback → s'.transaction = none

variable {s s' : State} {rid : ℕ} {request : Request}

/-- The writes of a handler that leaves its writes. -/
lemma posts_write {writes : List Statement} (hclosed : s.transaction = none)
    (hwrites : writes = request.statements s.db s.now) :
    Posts s ((s.write rid writes).awaitSync rid .keep) rid request .keep := by
  subst hwrites
  unfold State.write
  split
  · rename_i hempty
    refine ⟨rfl, rfl, ?_, fun _ => hclosed⟩
    rw [hempty]
    rfl
  · exact ⟨rfl, rfl, rfl, fun _ => hclosed⟩

/-- The first step of a handler posts, or sends no message. -/
lemma start_posts (hclosed : s.transaction = none) (request : Request) :
    (∃ undo, Posts s (s.start rid request) rid request undo) ∨
      (s.start rid request).syncs = s.syncs := by
  have htx : s.transaction.isSome = false := by rw [hclosed]; rfl
  have hbegun : ∀ {writes : List Statement}, writes = request.statements s.db s.now →
      Posts s (s.runInTransactionAsync rid writes) rid request .rollback := by
    rintro writes rfl
    rw [State.runInTransactionAsync, if_neg (by simp [htx])]
    exact ⟨rfl, rfl, rfl, fun h => absurd rfl h⟩
  cases request with
  | create host origin => exact .inl ⟨_, hbegun rfl⟩
  | bulkCreate domains => exact .inl ⟨_, posts_write hclosed rfl⟩
  | bulkDelete hosts => exact .inl ⟨_, hbegun rfl⟩
  | bulkToggle hosts enabled => exact .inl ⟨_, posts_write hclosed rfl⟩
  | update host data =>
    simp only [State.start]
    split
    · exact .inr rfl
    · exact .inl ⟨_, rfl, rfl, rfl, fun _ => hclosed⟩
  | toggle host =>
    simp only [State.start]
    split
    · exact .inr rfl
    · exact .inl ⟨_, rfl, rfl, rfl, fun _ => hclosed⟩
  | delete host =>
    simp only [State.start]
    split
    · exact .inl ⟨_, hbegun rfl⟩
    · exact .inr rfl
  | write writer =>
    simp only [State.start]
    split
    · exact .inr rfl
    · exact .inr rfl

/-- A handler whose message was applied and answered, while nothing else happened. -/
structure Answered (s s' : State) (rid : ℕ) (request : Request) (undo : Undo) : Prop where
  task : s'.tasks[rid]? = some ⟨request, .syncing s.syncs.length undo⟩
  others : ∀ (i : ℕ) (t : Task), i ≠ rid → s'.tasks[i]? = some t → t.phase.isDone = true
  call : ∃ domains delivery, s'.syncs[s.syncs.length]? = some ⟨domains, delivery, .answered⟩
  map : s'.domainMap = enabledOrigins s'.db
  switches : ∀ host, switchOf s'.db host = request.onSwitch host (switchOf s.db host)
  closed : undo ≠ .rollback → s'.transaction = none

/-- The opening of a request takes its handler to the answer of the proxy. -/
lemma answered_of_opening {wait : ℕ} (hrests : s.Rests)
    (h : run step s (s.opening wait request) = some s') :
    ∃ undo, Answered s s' s.tasks.length request undo := by
  obtain ⟨r, hr⟩ : ∃ r : State, r = { s with
    now := s.now + wait
    tasks := s.tasks ++ [{ request := request, phase := .queued }] } := ⟨_, rfl⟩
  have hqueued : r.tasks[s.tasks.length]? = some ⟨request, .queued⟩ := by
    rw [hr]
    exact List.getElem?_concat_length
  have hlock : r.lockFree s.tasks.length request = true := by
    unfold State.lockFree
    split
    · rfl
    · rw [List.all_eq_true]
      intro t ht
      have htake : r.tasks.take s.tasks.length = s.tasks := by rw [hr]; exact List.take_left
      rw [htake] at ht
      obtain ⟨i, hi⟩ := List.getElem?_of_mem ht
      rw [hrests.done i t hi, Bool.or_true]
  have hclosed : r.transaction = none := by rw [hr]; exact hrests.closed
  have hsame : r.syncs = s.syncs ∧ r.db = s.db := by rw [hr]; exact ⟨rfl, rfl⟩
  have hstart : step r (.start s.tasks.length) = some (r.start s.tasks.length request) := by
    simp only [step, hqueued, hlock, if_true]
  have hopen : run step s (s.opening wait request) = run step (r.start s.tasks.length request)
      [.deliver s.syncs.length, .answer s.syncs.length] := by
    rw [State.opening, run, step, Option.bind_some, run, step, Option.bind_some, ← hr, run, hstart,
      Option.bind_some]
  rw [hopen] at h
  have hfirst : (∃ undo, Posts r (r.start s.tasks.length request) s.tasks.length request undo) ∨
      (r.start s.tasks.length request).syncs = r.syncs := start_posts hclosed request
  rcases hfirst with ⟨undo, hposts⟩ | hnone
  · refine ⟨undo, ?_⟩
    obtain ⟨q, hq⟩ : ∃ q, q = r.start s.tasks.length request := ⟨_, rfl⟩
    rw [← hq] at h hposts
    have hmessage : q.syncs[s.syncs.length]? =
        some ⟨q.db.enabledDomains.map entryOf, .inFlight, .waiting⟩ := by
      rw [hposts.syncs, hsame.1]
      exact List.getElem?_concat_length
    have hlt := (List.getElem?_eq_some_iff.mp hmessage).choose
    have hend : s' = { q with
        syncs := (q.syncs.set s.syncs.length ⟨q.db.enabledDomains.map entryOf, .applied, .waiting⟩).set
          s.syncs.length ⟨q.db.enabledDomains.map entryOf, .applied, .answered⟩
        domainMap := updateDomainsHandler (q.db.enabledDomains.map entryOf) } := by
      simp only [run, step, hmessage, Option.bind_some, List.getElem?_set_self hlt] at h
      exact (Option.some.inj h).symm
    have htask : q.tasks[s.tasks.length]? = some ⟨request, .syncing s.syncs.length undo⟩ := by
      rw [hposts.tasks, List.getElem?_modify, hqueued, hsame.1]
      simp
    refine
      { task := by rw [hend]; exact htask
        others := ?_
        call := ⟨q.db.enabledDomains.map entryOf, .applied, ?_⟩
        map := ?_
        switches := ?_
        closed := fun hundo => by rw [hend]; exact hposts.closed hundo }
    · intro i t hi ht
      rw [hend] at ht
      have hstays : q.tasks[i]? = r.tasks[i]? := by
        rw [hposts.tasks, List.getElem?_modify]
        simp [Ne.symm hi]
      have ht' : r.tasks[i]? = some t := hstays.symm.trans ht
      rw [hr] at ht'
      have ht' : (s.tasks ++ [{ request := request, phase := .queued }])[i]? = some t := ht'
      have hlen := (List.getElem?_eq_some_iff.mp ht').choose
      rw [List.length_append, List.length_singleton] at hlen
      rw [List.getElem?_append_left (by omega)] at ht'
      exact hrests.done i t ht'
    · rw [hend]
      exact List.getElem?_set_self (by simpa using hlt)
    · rw [hend]
      exact updateDomainsHandler_enabledDomains q.db
    · intro host
      have hdb : s'.db = q.db := by rw [hend]
      rw [hdb, hposts.db, switchOf_statements, hsame.2]
  · have hmissing : (r.start s.tasks.length request).syncs[s.syncs.length]? = none := by
      rw [hnone, hsame.1, List.getElem?_eq_none_iff]
    simp only [run, step, hmissing, Option.bind_none] at h
    cases h

/-- What a handler does after the gRPC fan-out: no row of `domains` changes. -/
structure Proceeds (s s' : State) (rid : ℕ) (phase : Phase) : Prop where
  tasks : s'.tasks = s.tasks.modify rid fun t => { t with phase := phase }
  domains : s'.db.domains = s.db.domains
  map : s'.domainMap = s.domainMap
  transaction : s'.transaction = s.transaction

lemma proceeds_write {writes : List Statement} {phase : Phase} (hrows : ∀ w ∈ writes, w.hosts = []) :
    Proceeds s ((s.write rid writes).setPhase rid phase) rid phase where
  tasks := by
    unfold State.write
    split <;> rfl
  domains := domains_write hrows
  map := domainMap_write s rid writes
  transaction := by
    unfold State.write
    split <;> rfl

/-- The handler after its step. -/
lemma Proceeds.self {phase phase' : Phase} (h : Proceeds s s' rid phase')
    (ht : s.tasks[rid]? = some ⟨request, phase⟩) : s'.tasks[rid]? = some ⟨request, phase'⟩ := by
  rw [h.tasks, List.getElem?_modify, ht]
  simp

/-- The other handlers stay. -/
lemma Proceeds.other {phase : Phase} {i : ℕ} (h : Proceeds s s' rid phase) (hi : i ≠ rid) :
    s'.tasks[i]? = s.tasks[i]? := by
  rw [h.tasks, List.getElem?_modify]
  simp [Ne.symm hi]

/-- The last step of a handler finishes it. -/
lemma proceeds_profile (ht : s.tasks[rid]? = some ⟨request, .profile⟩)
    (h : step s (.proceed rid) = some s') : Proceeds s s' rid (.done .success) := by
  have hreply : Proceeds s ((s.write rid []).setPhase rid (.done .success)) rid (.done .success) :=
    proceeds_write (by simp)
  simp only [step, ht] at h
  obtain rfl := Option.some.inj h
  cases request with
  | create host origin => exact proceeds_write (by simp [Statement.hosts])
  | delete host => exact proceeds_write (by simp [Statement.hosts])
  | _ => exact hreply

/-- The closing of a request finishes its handler. -/
lemma proceeds_closing (ht : s.tasks[rid]? = some ⟨request, .fanOut⟩)
    (h : run step s (request.closing rid) = some s') :
    ∃ r, (r = s ∨ Proceeds s r rid .profile) ∧ Proceeds r s' rid (.done .success) := by
  have hlast : ∀ {phase : Phase}, Proceeds s (s.setPhase rid phase) rid phase := by
    intro phase
    have hwrite : Proceeds s ((s.write rid []).setPhase rid phase) rid phase := proceeds_write (by simp)
    exact hwrite
  have hfirst : step s (.proceed rid) = some (s.afterFanOut rid request) := by simp only [step, ht]
  have hlong : ∀ {r : State}, s.afterFanOut rid request = r → Proceeds s r rid .profile →
      run step s [.proceed rid, .proceed rid] = some s' →
      ∃ r, (r = s ∨ Proceeds s r rid .profile) ∧ Proceeds r s' rid (.done .success) := by
    intro r hr hp hrun
    rw [run, hfirst, Option.bind_some, hr, run] at hrun
    obtain ⟨q, hq, hend⟩ := Option.bind_eq_some_iff.mp hrun
    obtain rfl : q = s' := by simpa [run] using hend
    exact ⟨r, .inr hp, proceeds_profile (hp.self ht) hq⟩
  have hshort : s.afterFanOut rid request = s.reply rid .success →
      run step s [.proceed rid] = some s' →
      ∃ r, (r = s ∨ Proceeds s r rid .profile) ∧ Proceeds r s' rid (.done .success) := by
    intro hr hrun
    rw [run, hfirst, Option.bind_some, hr] at hrun
    obtain rfl : s.reply rid .success = s' := by simpa [run] using hrun
    exact ⟨s, .inl rfl, hlast⟩
  cases request with
  | create host origin => exact hlong rfl hlast h
  | bulkCreate domains => exact hlong rfl hlast h
  | bulkDelete hosts => exact hlong rfl hlast h
  | delete host => exact hlong rfl (proceeds_write (by simp [Statement.hosts])) h
  | bulkToggle hosts enabled => exact hshort rfl h
  | update host data => exact hshort rfl h
  | toggle host => exact hshort rfl h
  | write writer => exact hshort rfl h

/-- The actions that concern the admin server and the proxy only. -/
def Action.local : Action → Bool
  | .resume _ | .monitor => false
  | _ => true

variable {issues : String → Bool} {f f' : Fleet}

/-- A step that concerns the admin server and the proxy only leaves the other services. -/
lemma step_local {a : Action} (ha : a.local = true) :
    Fleet.step issues f a = (step f.admin a).map fun s => { f with admin := s } := by
  cases a with
  | resume rid => cases ha
  | monitor => cases ha
  | _ => rfl

lemma run_local {as : List Action} (has : ∀ a ∈ as, a.local = true) :
    run (Fleet.step issues) f as = (run step f.admin as).map fun s => { f with admin := s } := by
  induction as generalizing f with
  | nil => rfl
  | cons a as ih =>
    rw [run, run, step_local (has a List.mem_cons_self)]
    cases step f.admin a with
    | none => rfl
    | some s => exact ih fun a' ha' => has a' (List.mem_cons_of_mem _ ha')

/-- What every service holds once a request was served. -/
structure Fleet.Fed (f : Fleet) : Prop where
  domainMap : f.admin.domainMap = enabledOrigins f.admin.db
  dnsMap : f.dnsMap = Dns.syncDomains (syncEntries (allDomains f.admin.db))
  tlsSynced : f.tlsSynced = syncEntries (allDomains f.admin.db)

/-- Serving a request feeds the services, and does to the switches what the request means. -/
theorem serve_spec {wait : ℕ} (hrests : f.admin.Rests) (h : f.serve issues (wait, request) = some f') :
    f'.admin.Rests ∧ f'.Fed ∧
      ∀ host, switchOf f'.admin.db host = request.onSwitch host (switchOf f.admin.db host) := by
  obtain ⟨rid, hrid⟩ : ∃ rid, rid = f.admin.tasks.length := ⟨_, rfl⟩
  have hopening : ∀ a ∈ f.admin.opening wait request, a.local = true := by
    intro a ha
    simp only [State.opening, List.mem_cons, List.not_mem_nil, or_false] at ha
    rcases ha with rfl | rfl | rfl | rfl | rfl <;> rfl
  have hclosing : ∀ a ∈ request.closing rid, a.local = true := by
    intro a ha
    cases request <;> simp only [Request.closing, List.mem_cons, List.not_mem_nil, or_false, or_self] at ha <;>
      subst ha <;> rfl
  rw [Fleet.serve, ← hrid, run_append, run_local hopening, Option.bind_eq_some_iff] at h
  obtain ⟨g, hg, h⟩ := h
  obtain ⟨s, hs, rfl⟩ := Option.map_eq_some_iff.mp hg
  obtain ⟨undo, hanswered⟩ := answered_of_opening hrests hs
  rw [← hrid] at hanswered
  obtain ⟨domains, delivery, hcall⟩ := hanswered.call
  -- the handler resumes, and its rows are sent to the other services
  have hresume : step s (.resume rid) = some (s.synced rid undo) := by
    simp only [step, hanswered.task, hcall]
  have hsynced : (s.synced rid undo).db = s.db ∧ (s.synced rid undo).domainMap = s.domainMap ∧
      (s.synced rid undo).transaction = none ∧
      (s.synced rid undo).tasks = s.tasks.modify rid fun t => { t with phase := .fanOut } := by
    cases undo with
    | rollback => exact ⟨rfl, rfl, rfl, rfl⟩
    | restore host data => exact ⟨rfl, rfl, hanswered.closed (by simp), rfl⟩
    | keep => exact ⟨rfl, rfl, hanswered.closed (by simp), rfl⟩
  obtain ⟨hdb, hmap, hclosed, htasks⟩ := hsynced
  have htask : (s.synced rid undo).tasks[rid]? = some ⟨request, .fanOut⟩ := by
    rw [htasks, List.getElem?_modify, hanswered.task]
    simp
  have hfan : (s.synced rid undo).fansOut (.resume rid) = true := by
    simp [State.fansOut, htask]
  rw [run, Fleet.step, hresume, Option.map_some, Option.bind_some, if_pos hfan, run_local hclosing] at h
  obtain ⟨t, ht, rfl⟩ := Option.map_eq_some_iff.mp h
  obtain ⟨r, hr, hlast⟩ := proceeds_closing htask ht
  have hdomains : t.db.domains = s.db.domains := by
    rcases hr with rfl | hp
    · rw [hlast.domains, hdb]
    · rw [hlast.domains, hp.domains, hdb]
  have hkept : t.domainMap = s.domainMap ∧ t.transaction = none := by
    rcases hr with rfl | hp
    · exact ⟨hlast.map.trans hmap, hlast.transaction.trans hclosed⟩
    · exact ⟨hlast.map.trans (hp.map.trans hmap), hlast.transaction.trans (hp.transaction.trans hclosed)⟩
  have hothers : ∀ i, i ≠ rid → t.tasks[i]? = s.tasks[i]? := by
    intro i hi
    have hfirst : (s.synced rid undo).tasks[i]? = s.tasks[i]? := by
      rw [htasks, List.getElem?_modify]
      simp [Ne.symm hi]
    rcases hr with rfl | hp
    · rw [hlast.other hi, hfirst]
    · rw [hlast.other hi, hp.other hi, hfirst]
  have hself : t.tasks[rid]? = some ⟨request, .done .success⟩ := by
    rcases hr with rfl | hp
    · exact hlast.self htask
    · exact hlast.self (hp.self htask)
  have horigins : enabledOrigins t.db = enabledOrigins s.db := by
    funext host
    rw [enabledOrigins, enabledOrigins, hdomains]
  have hall : allDomains t.db = allDomains (s.synced rid undo).db := by
    rw [allDomains, allDomains, hdomains, hdb]
  refine ⟨⟨?_, hkept.2⟩, ⟨?_, ?_, ?_⟩, ?_⟩
  · intro i u hu
    by_cases hi : i = rid
    · subst hi
      obtain rfl := Option.some.inj (hself.symm.trans hu)
      rfl
    · rw [hothers i hi] at hu
      exact hanswered.others i u hi hu
  · exact hkept.1.trans (hanswered.map.trans horigins.symm)
  · exact congrArg (fun ds => Dns.syncDomains (syncEntries ds)) hall.symm
  · exact congrArg syncEntries hall.symm
  · intro host
    have hswitch : switchOf t.db host = switchOf s.db host := by
      rw [switchOf, switchOf, hdomains]
    exact hswitch.trans (hanswered.switches host)

/-! ## One set of hosts -/

/-- All three services hold the set of enabled hosts. -/
structure Fleet.OneEnabledSet (f : Fleet) : Prop where
  dns : ∀ host, (f.dnsMap host).isSome = true ↔ switchOf f.admin.db host = some true
  tls : ∀ host, host ∈ f.tlsSynced.map Prod.fst ↔ switchOf f.admin.db host = some true
  proxy : ∀ host, (f.admin.domainMap host).isSome = true ↔ switchOf f.admin.db host = some true

/-- The hosts of the enabled rows. -/
lemma isSome_enabledOrigins (db : Database) (host : String) :
    (enabledOrigins db host).isSome = true ↔ switchOf db host = some true := by
  unfold enabledOrigins switchOf
  cases db.domains.find host with
  | none => simp
  | some d =>
    by_cases henabled : d.enabled = 1
    · simp [henabled]
    · simp [henabled]

/-- The hosts of all rows. -/
lemma mem_allDomains (db : Database) (host : String) :
    host ∈ (syncEntries (allDomains db)).map Prod.fst ↔ (switchOf db host).isSome = true := by
  have hrows : host ∈ (syncEntries (allDomains db)).map Prod.fst ↔
      ∃ d ∈ db.domains.rows, d.host = host := by
    simp [syncEntries, allDomains, List.mem_insertionSort]
  rw [hrows, switchOf, Option.isSome_map, Table.isSome_find_iff]

/-- The hosts of the rows that the health monitor sends. -/
lemma mem_enabledDomains (db : Database) (host : String) :
    host ∈ (syncEntries db.enabledDomains).map Prod.fst ↔ switchOf db host = some true := by
  have hrows : host ∈ (syncEntries db.enabledDomains).map Prod.fst ↔
      ∃ d ∈ (enabledTable db).rows, d.host = host := by
    simp [syncEntries, enabledTable]
  rw [hrows, ← isSome_enabledOrigins, enabledOrigins, ← find_enabledTable, Option.isSome_map,
    Table.isSome_find_iff]

/-- The services hold one set when no domain is switched off. -/
lemma Fleet.Fed.sameSet_iff (h : f.Fed) :
    f.OneEnabledSet ↔ ∀ host, switchOf f.admin.db host ≠ some false := by
  have hdns : ∀ host, (f.dnsMap host).isSome = true ↔ (switchOf f.admin.db host).isSome = true := by
    intro host
    rw [h.dnsMap, Dns.isSome_syncDomains, mem_allDomains]
  have htls : ∀ host, host ∈ f.tlsSynced.map Prod.fst ↔ (switchOf f.admin.db host).isSome = true := by
    intro host
    rw [h.tlsSynced, mem_allDomains]
  constructor
  · intro hone host hoff
    have hon := (hone.dns host).mp ((hdns host).mpr (by rw [hoff]; rfl))
    rw [hoff] at hon
    cases hon
  · intro hall
    have hset : ∀ host, (switchOf f.admin.db host).isSome = true ↔ switchOf f.admin.db host = some true := by
      intro host
      have hoff := hall host
      cases hswitch : switchOf f.admin.db host with
      | none => simp
      | some on =>
        cases on with
        | false => exact absurd hswitch hoff
        | true => simp
    refine ⟨fun host => (hdns host).trans (hset host), fun host => (htls host).trans (hset host), ?_⟩
    intro host
    rw [h.domainMap, isSome_enabledOrigins]

/-- A run of requests feeds the services, and does to the switches what the requests mean. -/
lemma serve_run {ops : List (ℕ × Request)} (hrests : f.admin.Rests) (hfed : ops = [] → f.Fed)
    (hrun : Trace (Fleet.serve issues) Free f ops f') :
    f'.Fed ∧ ∀ host, switchOf f'.admin.db host =
      ops.foldl (fun x op => op.2.onSwitch host x) (switchOf f.admin.db host) := by
  induction hrun with
  | nil f => exact ⟨hfed rfl, fun host => rfl⟩
  | cons _ hserve _ ih =>
    rename_i op _
    obtain ⟨wait, request⟩ := op
    obtain ⟨hrests', hfed', hswitch⟩ := serve_spec hrests hserve
    obtain ⟨hend, hall⟩ := ih hrests' fun _ => hfed'
    refine ⟨hend, fun host => ?_⟩
    rw [hall host, hswitch host, List.foldl_cons]

/-- After requests that are served one after the other, the services hold the set of enabled
hosts exactly when the requests leave no domain switched off. -/
theorem oneEnabledSet_iff {ops : List (ℕ × Request)} (hrests : f.admin.Rests)
    (hfed : ops = [] → f.Fed) (hrun : Trace (Fleet.serve issues) Free f ops f') :
    f'.OneEnabledSet ↔
      ∀ host, ops.foldl (fun x op => op.2.onSwitch host x) (switchOf f.admin.db host) ≠ some false := by
  obtain ⟨hend, hall⟩ := serve_run hrests hfed hrun
  rw [hend.sameSet_iff]
  constructor
  · intro h host
    rw [← hall host]
    exact h host
  · intro h host
    rw [hall host]
    exact h host

/-- Services that have not been fed yet, beside a database with one domain. -/
def sampleFleet : Fleet where
  admin := State.initial sampleDatabase fun _ => none
  dnsMap _ := none
  tls := Tls.TlsManager.empty
  tlsSynced := []

lemma sampleFleet_rests : sampleFleet.admin.Rests where
  done i t ht := by
    have hnone : sampleFleet.admin.tasks[i]? = none := List.getElem?_nil
    rw [hnone] at ht
    cases ht
  closed := rfl

/-- Two domains, one of them switched off and on again. -/
theorem oneEnabledSet_after_toggles : ∃ t, t.OneEnabledSet ∧
    Trace (Fleet.serve fun _ => true) Free sampleFleet
      [(60, .create "lab.example" "https://lab.example"), (5, .toggle "lab.example"),
        (5, .bulkToggle ["lab.example"] true)] t := by
  have hrun : (run (Fleet.serve fun _ => true) sampleFleet
      [(60, .create "lab.example" "https://lab.example"), (5, .toggle "lab.example"),
        (5, .bulkToggle ["lab.example"] true)]).any (fun _ => true) = true := by
    decide +kernel
  obtain ⟨t, ht, -⟩ := exists_trace_of_run hrun
  refine ⟨t, (oneEnabledSet_iff sampleFleet_rests (by simp) ht).mpr fun host => ?_, ht⟩
  by_cases hlab : "lab.example" = host
  · subst hlab
    decide +kernel
  · by_cases hschool : "school.example" = host
    · subst hschool
      decide +kernel
    · simp [Request.onSwitch, hlab, Ne.symm hlab, switchOf, sampleFleet, State.initial, sampleDatabase,
        Database.ofDomains, Table.find, hschool]

/-- The bulk switch turns a domain off: the proxy drops it, dns-service and tls-service are sent
it again. -/
theorem disabled_domain_stays : ∃ t, Trace (Fleet.serve fun _ => true) Free sampleFleet
    [(60, .bulkToggle ["school.example"] false)] t ∧ ¬ t.OneEnabledSet := by
  have hrun : (run (Fleet.serve fun _ => true) sampleFleet [(60, .bulkToggle ["school.example"] false)]).any
      (fun t => (t.dnsMap "school.example").isSome && !(switchOf t.admin.db "school.example" = some true)) =
      true := by
    decide +kernel
  obtain ⟨t, ht, hp⟩ := exists_trace_of_run hrun
  simp only [Bool.and_eq_true, Bool.not_eq_true', decide_eq_false_iff_not] at hp
  exact ⟨t, ht, fun hone => hp.2 ((hone.dns _).mp hp.1)⟩

/-- The re-sync of the health monitor sends dns-service and tls-service the enabled hosts. -/
theorem grpc_sets_after_monitor (h : Fleet.step issues f .monitor = some f') (host : String) :
    ((f'.dnsMap host).isSome = true ↔ switchOf f'.admin.db host = some true) ∧
      (host ∈ f'.tlsSynced.map Prod.fst ↔ switchOf f'.admin.db host = some true) := by
  obtain rfl : f' = Fleet.syncDomainsToGrpcServices issues { f with admin := f.admin.syncToProxy } :=
    (Option.some.inj h).symm
  constructor
  · exact Dns.isSome_syncDomains.trans (mem_enabledDomains f.admin.db host)
  · exact mem_enabledDomains f.admin.db host

/-- After a sync, tls-service has certificates for the hosts of the list and no others. -/
theorem certCache_after_sync (hissues : ∀ host, issues host = true) (domains : List Domain) (host : String) :
    ((f.syncDomains issues domains).tls.certCache host).isSome = true ↔
      host ∈ (f.syncDomains issues domains).tlsSynced.map Prod.fst :=
  Tls.TlsManager.isSome_syncDomains fun d _ => hissues d.1

end SmartSchoolCdn.Admin
