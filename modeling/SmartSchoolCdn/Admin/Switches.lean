import SmartSchoolCdn.Admin.Database

/-!
# The switches of the domains

What the operations on the domains table do to its hosts and their switches: the part of the
table that decides which hosts the services behind it serve.
-/

namespace SmartSchoolCdn

open Journals Tables

/-- Whether a host is a domain, and whether it is enabled. -/
def switchOf (db : Database) (host : String) : Option Bool :=
  (db.domains.find host).map fun d => decide (d.enabled = 1)

/-- What a field of `DomainUpdate` makes of a switch. -/
def DomainUpdate.switch (data : DomainUpdate) (on : Bool) : Bool :=
  (data.enabled.map fun e => decide (e = 1)).getD on

/-- What a statement does to the switch of a host. -/
def Statement.onSwitch (host : String) (x : Option Bool) : Statement → Option Bool
  | .upsertDomain h _ _ _ => if h = host then some (x.getD true) else x
  | .insertDomain h _ _ => if h = host then some (x.getD true) else x
  | .updateDomain h data _ => if h = host then x.map data.switch else x
  | .toggleDomain h _ => if h = host then x.map not else x
  | .deleteDomains hosts => if host ∈ hosts then none else x
  | _ => x

variable {db : Database} {host : String}

/-- The switches after a statement. -/
lemma switchOf_exec (w : Statement) : switchOf (db.exec w) host = w.onSwitch host (switchOf db host) := by
  by_cases hhost : host ∈ w.hosts
  · cases w with
    | upsertDomain h origin description now =>
      obtain rfl : host = h := by simpa [Statement.hosts] using hhost
      have hfind := Table.find_upsert_self (t := db.domains)
        (r := { host := host, origin := origin, description := description, createdAt := now, updatedAt := now })
        (Domain.host_registered origin description now)
      have hrow : (db.exec (.upsertDomain host origin description now)).domains.find host = _ := hfind
      rw [switchOf, hrow, Statement.onSwitch, if_pos rfl, switchOf]
      cases db.domains.find host with
      | none => rfl
      | some d => rfl
    | insertDomain h origin now =>
      obtain rfl : host = h := by simpa [Statement.hosts] using hhost
      have hfind := Table.find_insertNew_self (t := db.domains)
        (r := { host := host, origin := origin, createdAt := now, updatedAt := now })
      have hrow : (db.exec (.insertDomain host origin now)).domains.find host = _ := hfind
      rw [switchOf, hrow, Statement.onSwitch, if_pos rfl, switchOf]
      cases db.domains.find host with
      | none => rfl
      | some d => rfl
    | updateDomain h data now =>
      obtain rfl : host = h := by simpa [Statement.hosts] using hhost
      have hfind := Table.find_modify_self (t := db.domains) (k := host) (data.host_apply now)
      have hrow : (db.exec (.updateDomain host data now)).domains.find host = _ := hfind
      rw [switchOf, hrow, Statement.onSwitch, if_pos rfl, switchOf, Option.map_map, Option.map_map]
      congr 1
      funext d
      cases henabled : data.enabled with
      | none => simp [DomainUpdate.apply, DomainUpdate.switch, henabled]
      | some e => simp [DomainUpdate.apply, DomainUpdate.switch, henabled]
    | toggleDomain h now =>
      obtain rfl : host = h := by simpa [Statement.hosts] using hhost
      have hfind := Table.find_modify_self (t := db.domains) (k := host) (Domain.host_toggled now)
      have hrow : (db.exec (.toggleDomain host now)).domains.find host = _ := hfind
      rw [switchOf, hrow, Statement.onSwitch, if_pos rfl, switchOf, Option.map_map, Option.map_map]
      congr 1
      funext d
      by_cases henabled : d.enabled = 1
      · simp [Domain.toggled, henabled]
      · simp [Domain.toggled, henabled]
    | deleteDomains hosts =>
      have hmem : host ∈ hosts := hhost
      have hfind := Table.find_eraseWhere (t := db.domains) (k := host) (p := fun k => hosts.contains k)
      have hrow : (db.exec (.deleteDomains hosts)).domains.find host = _ := hfind
      rw [switchOf, hrow, Statement.onSwitch, if_pos hmem, if_pos (List.contains_iff_mem.mpr hmem)]
      rfl
    | _ => simp [Statement.hosts] at hhost
  · have hstay : w.onSwitch host (switchOf db host) = switchOf db host := by
      cases w with
      | upsertDomain h origin description now => exact if_neg fun heq => hhost (by simp [Statement.hosts, heq])
      | insertDomain h origin now => exact if_neg fun heq => hhost (by simp [Statement.hosts, heq])
      | updateDomain h data now => exact if_neg fun heq => hhost (by simp [Statement.hosts, heq])
      | toggleDomain h now => exact if_neg fun heq => hhost (by simp [Statement.hosts, heq])
      | deleteDomains hosts => exact if_neg hhost
      | _ => rfl
    rw [hstay, switchOf, switchOf, find_exec hhost]

/-- The switches after several statements. -/
lemma switchOf_execAll (writes : List Statement) :
    switchOf (execAll Database.exec writes db) host =
      writes.foldl (fun x w => w.onSwitch host x) (switchOf db host) := by
  induction writes generalizing db with
  | nil => rfl
  | cons w writes ih =>
    have htail : switchOf (execAll Database.exec writes (db.exec w)) host =
        writes.foldl (fun x w => w.onSwitch host x) (switchOf (db.exec w) host) := ih
    rw [switchOf_exec] at htail
    exact htail

/-- Statements of one kind, each on a host of a list: an idempotent change is made once. -/
lemma foldl_onSwitch {ι : Type*} {l : List ι} {k : ι → String} {w : ι → Statement}
    {g : Option Bool → Option Bool} (host : String) (x : Option Bool)
    (hw : ∀ i y, (w i).onSwitch host y = if k i = host then g y else y) (hg : ∀ y, g (g y) = g y) :
    (l.map w).foldl (fun x w => w.onSwitch host x) x = if host ∈ l.map k then g x else x := by
  induction l generalizing x with
  | nil => simp
  | cons i l ih =>
    rw [List.map_cons, List.foldl_cons, ih, hw, List.map_cons]
    by_cases hi : k i = host
    · by_cases htail : host ∈ l.map k
      · simp [hi, htail, hg]
      · simp [hi, htail]
    · simp [hi, Ne.symm hi]

end SmartSchoolCdn
