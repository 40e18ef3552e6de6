import SmartSchoolCdn.Foundation.Journal
import SmartSchoolCdn.Foundation.Table
import Mathlib.Data.Int.Notation
import Mathlib.Data.List.Sort
import Mathlib.Data.Nat.Notation

/-!
# The database of the admin server

The tables that the handlers of `services/admin-server` write through their one shared
connection, and the statements of the repositories on them.  A statement whose constraint
fails writes nothing.

The last part says which rows of `domains` a statement can change (`Statement.hosts`): the
other rows stay (`find_exec`), and updates of them commute with it (`exec_updateRow`).
-/

namespace SmartSchoolCdn

open Tables

/-! ## Tables -/

/-- A row of `domains`. -/
structure Domain where
  host : String
  origin : String
  enabled : ℤ := 1
  description : String := ""
  createdAt : ℕ
  updatedAt : ℕ
  staleIfErrorSecs : Option ℤ := none
  coalesceCapacity : Option ℤ := none
  deriving DecidableEq, Repr

/-- A row of `domain_stats`. -/
structure DomainStatsRow where
  host : String
  timestamp : ℕ
  requests : ℕ
  cacheHits : ℕ
  cacheMisses : ℕ
  bandwidth : ℕ
  avgResponseTime : ℕ
  l1Hits : ℕ
  l2Hits : ℕ
  bypassMethod : ℕ
  bypassNocache : ℕ
  bypassSize : ℕ
  bypassOther : ℕ
  deriving DecidableEq, Repr

/-- The primary key of `domain_stats`. -/
def DomainStatsRow.key (row : DomainStatsRow) : String × ℕ := (row.host, row.timestamp)

/-- A row of `optimization_events`, without its number and the hash of its URL. -/
structure OptimizationEvent where
  ts : ℕ
  eventType : String
  host : String
  url : String
  decision : String
  origSize : Option ℕ := none
  outSize : Option ℕ := none
  rangeHeader : Option String := none
  contentType : Option String := none
  elapsedMs : ℕ
  deriving DecidableEq, Repr

/-- A row of `users`. -/
structure User where
  id : ℕ
  username : String
  passwordHash : String
  createdAt : ℕ
  updatedAt : ℕ
  disabledAt : Option ℕ := none
  lastLoginAt : Option ℕ := none
  tokenVersion : ℕ := 0
  deriving DecidableEq, Repr

/-- A row of `audit_logs`, without the actor and the values before and after. -/
structure AuditLogRow where
  action : String
  targetType : String
  targetId : Option String
  createdAt : ℕ
  deriving DecidableEq, Repr

/-- The database; `lastUserId` is what `AUTOINCREMENT` remembers. -/
structure Database where
  domains : Table Domain.host
  domainStats : Table DomainStatsRow.key
  optimizationEvents : List OptimizationEvent
  users : Table User.id
  lastUserId : ℕ
  auditLogs : List AuditLogRow

/-- The database with the given domains and nothing else. -/
def Database.ofDomains (domains : Table Domain.host) : Database where
  domains := domains
  domainStats := Table.empty
  optimizationEvents := []
  users := Table.empty
  lastUserId := 0
  auditLogs := []

/-! ## Statements -/

/-- The fields that `DomainRepository.update` sets; the policies can be set to `NULL`. -/
structure DomainUpdate where
  origin : Option String := none
  enabled : Option ℤ := none
  description : Option String := none
  staleIfErrorSecs : Option (Option ℤ) := none
  coalesceCapacity : Option (Option ℤ) := none
  deriving DecidableEq, Repr

/-- Set the given fields and `updated_at`. -/
def DomainUpdate.apply (data : DomainUpdate) (now : ℕ) (d : Domain) : Domain :=
  { d with
    origin := data.origin.getD d.origin
    enabled := data.enabled.getD d.enabled
    description := data.description.getD d.description
    staleIfErrorSecs := data.staleIfErrorSecs.getD d.staleIfErrorSecs
    coalesceCapacity := data.coalesceCapacity.getD d.coalesceCapacity
    updatedAt := now }

/-- `CASE WHEN enabled = 1 THEN 0 ELSE 1 END`, and the time of the change. -/
def Domain.toggled (now : ℕ) (d : Domain) : Domain :=
  { d with enabled := if d.enabled = 1 then 0 else 1, updatedAt := now }

/-- What `upsert` sets in a row that is there. -/
def Domain.registered (origin description : String) (now : ℕ) (d : Domain) : Domain :=
  { d with origin := origin, description := description, updatedAt := now }

theorem DomainUpdate.host_apply (data : DomainUpdate) (now : ℕ) (d : Domain) :
    (data.apply now d).host = d.host := rfl

theorem Domain.host_toggled (now : ℕ) (d : Domain) : (d.toggled now).host = d.host := rfl

theorem Domain.host_registered (origin description : String) (now : ℕ) (d : Domain) :
    (d.registered origin description now).host = d.host := rfl

/-- The updates of `UserRepository`. -/
inductive UserChange
  | create (username passwordHash : String)
  | updatePassword (id : ℕ) (passwordHash : String)
  | updateLastLogin (id : ℕ)
  | disable (id : ℕ)
  | bumpTokenVersion (id : ℕ)
  | enable (id : ℕ)
  deriving DecidableEq, Repr

/-- The statements of the repositories. -/
inductive Statement
  | upsertDomain (host origin description : String) (now : ℕ)
  | insertDomain (host origin : String) (now : ℕ)
  | updateDomain (host : String) (data : DomainUpdate) (now : ℕ)
  | toggleDomain (host : String) (now : ℕ)
  | deleteDomains (hosts : List String)
  | deleteEvents (hosts : List String)
  | insertEvents (events : List OptimizationEvent)
  | insertStats (row : DomainStatsRow)
  | changeUser (change : UserChange) (now : ℕ)
  | insertAudit (row : AuditLogRow)
  deriving DecidableEq, Repr

namespace Database

variable (db : Database)

/-- Change one row of `domains`. -/
def updateRow (host : String) (f : Domain → Domain) (hf : ∀ d, (f d).host = d.host) : Database :=
  { db with domains := db.domains.modify host f hf }

/-- `INSERT … ON CONFLICT(host) DO UPDATE`. -/
def upsertDomain (host origin description : String) (now : ℕ) : Database :=
  { db with
    domains := db.domains.upsert
      { host := host, origin := origin, description := description, createdAt := now, updatedAt := now }
      (Domain.registered origin description now) (Domain.host_registered origin description now) }

/-- `INSERT … ON CONFLICT(host) DO NOTHING`. -/
def insertDomain (host origin : String) (now : ℕ) : Database :=
  { db with
    domains := db.domains.insertNew
      { host := host, origin := origin, createdAt := now, updatedAt := now } }

/-- `DELETE FROM domains`; the statistics of the hosts go with them. -/
def deleteDomains (hosts : List String) : Database :=
  { db with
    domains := db.domains.eraseWhere fun host => hosts.contains host
    domainStats := db.domainStats.eraseWhere fun key => hosts.contains key.1 }

/-- `DELETE FROM optimization_events WHERE host IN …`. -/
def deleteEvents (hosts : List String) : Database :=
  { db with
    optimizationEvents := db.optimizationEvents.filter fun ev => !hosts.contains ev.host }

/-- What an inserted row adds to the one that has its key. -/
def accumulate (row old : DomainStatsRow) : DomainStatsRow :=
  { old with
    requests := old.requests + row.requests
    cacheHits := old.cacheHits + row.cacheHits
    cacheMisses := old.cacheMisses + row.cacheMisses
    bandwidth := old.bandwidth + row.bandwidth
    avgResponseTime := row.avgResponseTime
    l1Hits := old.l1Hits + row.l1Hits
    l2Hits := old.l2Hits + row.l2Hits
    bypassMethod := old.bypassMethod + row.bypassMethod
    bypassNocache := old.bypassNocache + row.bypassNocache
    bypassSize := old.bypassSize + row.bypassSize
    bypassOther := old.bypassOther + row.bypassOther }

/-- `DomainStatsRepository.insert`: the host has to be a domain. -/
def insertStats (row : DomainStatsRow) : Option Database :=
  if (db.domains.find row.host).isSome then
    some { db with domainStats := db.domainStats.upsert row (accumulate row) fun _ => rfl }
  else none

/-- Change one row of `users`. -/
def updateUser (id : ℕ) (f : User → User) (hf : ∀ u, (f u).id = u.id) : Database :=
  { db with users := db.users.modify id f hf }

/-- `UserRepository`: user names are unique up to ASCII case. -/
def changeUser (now : ℕ) : UserChange → Option Database
  | .create username passwordHash =>
    if db.users.rows.any fun u => u.username.toLower = username.toLower then none
    else
      some
        { db with
          users := db.users.insertNew
            { id := db.lastUserId + 1, username := username, passwordHash := passwordHash
              createdAt := now, updatedAt := now }
          lastUserId := db.lastUserId + 1 }
  | .updatePassword id passwordHash =>
    some (db.updateUser id (fun u => { u with passwordHash := passwordHash, updatedAt := now }) fun _ => rfl)
  | .updateLastLogin id =>
    some (db.updateUser id (fun u => { u with lastLoginAt := some now, updatedAt := now }) fun _ => rfl)
  | .disable id =>
    some (db.updateUser id (fun u => { u with disabledAt := some now, updatedAt := now }) fun _ => rfl)
  | .bumpTokenVersion id =>
    some (db.updateUser id (fun u => { u with tokenVersion := u.tokenVersion + 1, updatedAt := now }) fun _ => rfl)
  | .enable id =>
    some (db.updateUser id (fun u => { u with disabledAt := none, updatedAt := now }) fun _ => rfl)

/-- Run a statement; `none` when a constraint fails. -/
def run (db : Database) : Statement → Option Database
  | .upsertDomain host origin description now => some (db.upsertDomain host origin description now)
  | .insertDomain host origin now => some (db.insertDomain host origin now)
  | .updateDomain host data now => some (db.updateRow host (data.apply now) (data.host_apply now))
  | .toggleDomain host now => some (db.updateRow host (Domain.toggled now) (Domain.host_toggled now))
  | .deleteDomains hosts => some (db.deleteDomains hosts)
  | .deleteEvents hosts => some (db.deleteEvents hosts)
  | .insertEvents events => some { db with optimizationEvents := db.optimizationEvents ++ events }
  | .insertStats row => db.insertStats row
  | .changeUser change now => db.changeUser now change
  | .insertAudit row => some { db with auditLogs := db.auditLogs ++ [row] }

/-- The database after a statement. -/
def exec (w : Statement) (db : Database) : Database := (db.run w).getD db

/-- `findAll({ enabled: true })`, the newest first. -/
def enabledDomains : List Domain :=
  (db.domains.rows.filter fun d => d.enabled = 1).insertionSort fun a b => b.createdAt ≤ a.createdAt

end Database

/-! ## The repository of domains -/

/-- `DomainRepository.update`: no statement when no field is given. -/
def DomainUpdate.statements (host : String) (data : DomainUpdate) (now : ℕ) : List Statement :=
  if data = {} then [] else [.updateDomain host data now]

/-- The values that the compensating update of `PUT` writes back. -/
def Domain.values (d : Domain) : DomainUpdate where
  origin := some d.origin
  enabled := some d.enabled
  description := some d.description
  staleIfErrorSecs := some d.staleIfErrorSecs
  coalesceCapacity := some d.coalesceCapacity

/-! ## The rows a statement can change -/

/-- The rows of `domains` that a statement can change. -/
def Statement.hosts : Statement → List String
  | .upsertDomain host _ _ _ => [host]
  | .insertDomain host _ _ => [host]
  | .updateDomain host _ _ => [host]
  | .toggleDomain host _ => [host]
  | .deleteDomains hosts => hosts
  | _ => []

/-- The rows of `domains` in which a statement can change more than the time of the change. -/
def Statement.overwrites : Statement → List String
  | .updateDomain host data _ => if data = {} then [] else [host]
  | w => w.hosts

variable {db : Database} {w : Statement} {host : String} {f g : Domain → Domain}

/-- A statement that can change no row of `domains` keeps the table. -/
lemma domains_exec (h : w.hosts = []) :
    (db.exec w).domains = db.domains := by
  cases w with
  | deleteDomains hosts =>
    obtain rfl : hosts = [] := h
    apply Table.eq_of_rows
    simp [Database.exec, Database.run, Database.deleteDomains]
  | deleteEvents hosts => rfl
  | insertEvents events => rfl
  | insertStats row =>
    simp only [Database.exec, Database.run, Database.insertStats]
    split <;> rfl
  | changeUser change now =>
    cases change with
    | create username passwordHash =>
      simp only [Database.exec, Database.run, Database.changeUser]
      split <;> rfl
    | _ => rfl
  | insertAudit row => rfl
  | _ => cases h

/-- A statement keeps the rows it cannot change. -/
theorem find_exec (h : host ∉ w.hosts) : (db.exec w).domains.find host = db.domains.find host := by
  cases w with
  | upsertDomain host' origin description now =>
    have hne : host' ≠ host := fun heq => h (by simp [Statement.hosts, heq])
    exact Table.find_upsert_ne (Domain.host_registered origin description now) hne
  | insertDomain host' origin now =>
    have hne : host' ≠ host := fun heq => h (by simp [Statement.hosts, heq])
    exact Table.find_insertNew_ne hne
  | updateDomain host' data now =>
    have hne : host ≠ host' := fun heq => h (by simp [Statement.hosts, heq])
    exact Table.find_modify_ne (data.host_apply now) hne
  | toggleDomain host' now =>
    have hne : host ≠ host' := fun heq => h (by simp [Statement.hosts, heq])
    exact Table.find_modify_ne (Domain.host_toggled now) hne
  | deleteDomains hosts =>
    have hnot : hosts.contains host = false := by simpa [Statement.hosts] using h
    exact Table.find_eraseWhere.trans (by rw [hnot]; rfl)
  | _ =>
    rw [domains_exec]
    rfl

/-- What becomes of a row depends on the row only. -/
theorem find_exec_congr {db' : Database} (h : db.domains.find host = db'.domains.find host) :
    (db.exec w).domains.find host = (db'.exec w).domains.find host := by
  by_cases hhost : host ∈ w.hosts
  · cases w with
    | upsertDomain host' origin description now =>
      obtain rfl : host = host' := by simpa [Statement.hosts] using hhost
      have hleft := Table.find_upsert_self (t := db.domains)
        (r := { host := host, origin := origin, description := description, createdAt := now, updatedAt := now })
        (Domain.host_registered origin description now)
      have hright := Table.find_upsert_self (t := db'.domains)
        (r := { host := host, origin := origin, description := description, createdAt := now, updatedAt := now })
        (Domain.host_registered origin description now)
      rw [← h] at hright
      exact hleft.trans hright.symm
    | insertDomain host' origin now =>
      obtain rfl : host = host' := by simpa [Statement.hosts] using hhost
      have hleft := Table.find_insertNew_self (t := db.domains)
        (r := { host := host, origin := origin, createdAt := now, updatedAt := now })
      have hright := Table.find_insertNew_self (t := db'.domains)
        (r := { host := host, origin := origin, createdAt := now, updatedAt := now })
      rw [← h] at hright
      exact hleft.trans hright.symm
    | updateDomain host' data now =>
      obtain rfl : host = host' := by simpa [Statement.hosts] using hhost
      have hleft := Table.find_modify_self (t := db.domains) (k := host) (data.host_apply now)
      have hright := Table.find_modify_self (t := db'.domains) (k := host) (data.host_apply now)
      rw [← h] at hright
      exact hleft.trans hright.symm
    | toggleDomain host' now =>
      obtain rfl : host = host' := by simpa [Statement.hosts] using hhost
      have hleft := Table.find_modify_self (t := db.domains) (k := host) (Domain.host_toggled now)
      have hright := Table.find_modify_self (t := db'.domains) (k := host) (Domain.host_toggled now)
      rw [← h] at hright
      exact hleft.trans hright.symm
    | deleteDomains hosts =>
      have hleft := Table.find_eraseWhere (t := db.domains) (k := host) (p := fun k => hosts.contains k)
      have hright := Table.find_eraseWhere (t := db'.domains) (k := host) (p := fun k => hosts.contains k)
      rw [← h] at hright
      exact hleft.trans hright.symm
    | _ => simp [Statement.hosts] at hhost
  · rw [find_exec hhost, find_exec hhost, h]

/-- An update of a row commutes with the statements that cannot change the row. -/
theorem exec_updateRow {hf : ∀ d, (f d).host = d.host} (h : host ∉ w.hosts) :
    (db.updateRow host f hf).exec w = (db.exec w).updateRow host f hf := by
  have domains_congr : ∀ {s t : Table Domain.host}, s = t →
      ({ db with domains := s } : Database) = { db with domains := t } := by
    rintro s t rfl
    rfl
  cases w with
  | upsertDomain host' origin description now =>
    have hne : host' ≠ host := fun heq => h (by simp [Statement.hosts, heq])
    exact domains_congr (Table.modify_upsert hf (Domain.host_registered origin description now) hne)
  | insertDomain host' origin now =>
    have hne : host' ≠ host := fun heq => h (by simp [Statement.hosts, heq])
    exact domains_congr (Table.modify_insertNew hf hne)
  | updateDomain host' data now =>
    have hne : host' ≠ host := fun heq => h (by simp [Statement.hosts, heq])
    exact domains_congr (Table.modify_comm hf (data.host_apply now) hne)
  | toggleDomain host' now =>
    have hne : host' ≠ host := fun heq => h (by simp [Statement.hosts, heq])
    exact domains_congr (Table.modify_comm hf (Domain.host_toggled now) hne)
  | deleteDomains hosts =>
    have hcomm := Table.modify_eraseWhere (t := db.domains) (k := host) hf fun k => hosts.contains k
    simp only [Database.exec, Database.run, Database.deleteDomains, Database.updateRow,
      Option.getD_some, hcomm]
  | deleteEvents hosts => rfl
  | insertEvents events => rfl
  | insertStats row =>
    have hsome : ((db.domains.modify host f hf).find row.host).isSome =
        (db.domains.find row.host).isSome := Table.isSome_find_modify hf
    by_cases hhost : (db.domains.find row.host).isSome
    · simp [Database.exec, Database.run, Database.insertStats, Database.updateRow, hsome, hhost]
    · simp [Database.exec, Database.run, Database.insertStats, Database.updateRow, hsome, hhost]
  | changeUser change now =>
    cases change with
    | create username passwordHash =>
      by_cases htaken : db.users.rows.any fun u => u.username.toLower = username.toLower
      · simp only [Database.exec, Database.run, Database.changeUser, Database.updateRow, htaken,
          if_true, Option.getD_none]
      · simp only [Database.exec, Database.run, Database.changeUser, Database.updateRow, htaken,
          Bool.false_eq_true, if_false, Option.getD_some]
    | _ => rfl
  | insertAudit row => rfl

/-- Two updates of one row are one. -/
theorem updateRow_updateRow {hf : ∀ d, (f d).host = d.host} {hg : ∀ d, (g d).host = d.host} :
    (db.updateRow host f hf).updateRow host g hg =
      db.updateRow host (fun d => g (f d)) fun d => (hg _).trans (hf d) := by
  simp [Database.updateRow, Table.modify_modify]

/-- An update is what it does to the row. -/
theorem updateRow_congr {d : Domain} (hf : ∀ d, (f d).host = d.host)
    (hg : ∀ d, (g d).host = d.host) (hd : db.domains.find host = some d) (h : f d = g d) :
    db.updateRow host f hf = db.updateRow host g hg := by
  simp [Database.updateRow, Table.modify_congr hf hg hd h]

/-- The update that changes nothing. -/
theorem updateRow_id : db.updateRow host id (fun _ => rfl) = db := by
  simp [Database.updateRow, Table.modify_id]

/-- Writing the old values back leaves only the time of the change. -/
theorem apply_values {d : Domain} (data : DomainUpdate) (now later : ℕ) :
    d.values.apply later (data.apply now d) = (DomainUpdate.apply {} later d) := rfl

/-- Writing the old switch back leaves only the time of the change. -/
theorem apply_enabled {d : Domain} (now later : ℕ) :
    DomainUpdate.apply { enabled := some d.enabled } later (d.toggled now) =
      DomainUpdate.apply {} later d := rfl

end SmartSchoolCdn
