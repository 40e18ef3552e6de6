import SmartSchoolCdn.Admin.Database
import SmartSchoolCdn.Proxy.Policy

/-!
# Orphans among the optimization events

`optimization_events` has no foreign key, so the pruner deletes from time to time the events whose
host is no domain.  It compares the host with the names in `domains`.  The proxy also records hosts
that a wildcard entry routes, and the storage service records its evictions under the host `*`;
neither is a name in `domains`, so their events go as well (`reconcile_exact_iff`).
-/

namespace SmartSchoolCdn.Admin

open Tables

/-! ## The pruner -/

/-- The rows of a table that satisfy a condition, and how many do not. -/
def keepEvents (db : Database) (p : OptimizationEvent → Bool) : ℕ × Database :=
  (db.optimizationEvents.countP fun ev => !p ev,
    { db with optimizationEvents := db.optimizationEvents.filter p })

/-- The host is a name in `domains`. -/
def isDomain (db : Database) (host : String) : Bool := (db.domains.find host).isSome

/-- `DELETE FROM optimization_events WHERE ts < ?`. -/
def pruneEvents (db : Database) (beforeSec : ℤ) : ℕ × Database :=
  keepEvents db fun ev => beforeSec ≤ ev.ts

/-- `DELETE FROM optimization_events WHERE host NOT IN (SELECT host FROM domains)`. -/
def reconcileOrphans (db : Database) : ℕ × Database :=
  keepEvents db fun ev => isDomain db ev.host

/-- `tick` of the pruner, in milliseconds; each of its two parts may throw, and the other one is
tried all the same. -/
def prunerTick (db : Database) (nowMs retentionMs : ℤ) (pruneOk reconcileOk : Bool) : ℕ × Database :=
  let pruned := if pruneOk then pruneEvents db ((nowMs - retentionMs) / 1000) else (0, db)
  let reconciled := if reconcileOk then reconcileOrphans pruned.2 else (0, pruned.2)
  (pruned.1 + reconciled.1, reconciled.2)

/-! ## Orphans -/

/-- The origins of the registered domains. -/
def originOf (db : Database) (host : String) : Option String := (db.domains.find host).map Domain.origin

/-- Some registered domain, exact or wildcard, routes the host. -/
def isRouted (db : Database) (host : String) : Bool := (findOrigin (originOf db) host).isSome

/-- The placeholder under which the storage service records its evictions. -/
def evictionHost : String := "*"

/-- An event that nothing registered accounts for. -/
def isOrphan (db : Database) (ev : OptimizationEvent) : Bool :=
  ev.host != evictionHost && !isRouted db ev.host

/-- Exactly the orphans are deleted, and nothing else changes. -/
def RemovesOrphans (db db' : Database) : Prop :=
  db' = { db with optimizationEvents := db.optimizationEvents.filter fun ev => !isOrphan db ev }

/-- Every event of the table that is not an orphan is recorded under the very name of a domain. -/
def RecordedByName (db : Database) : Prop :=
  ∀ ev ∈ db.optimizationEvents, isOrphan db ev = false → isDomain db ev.host = true

variable {db db' : Database} {ev : OptimizationEvent} {host : String}

/-- A domain routes its own name. -/
lemma isRouted_of_isDomain (h : isDomain db host = true) : isRouted db host = true := by
  rw [isRouted, findOrigin, Option.isSome_or, originOf, Option.isSome_map, ← isDomain, h, Bool.true_or]

/-- An event under the name of a domain is no orphan. -/
lemma isOrphan_of_isDomain (h : isDomain db ev.host = true) : isOrphan db ev = false := by
  rw [isOrphan, isRouted_of_isDomain h, Bool.not_true, Bool.and_false]

/-- Two conditions keep the same rows of a table exactly if they agree on its rows. -/
lemma filter_eq_filter_iff {α : Type} {p q : α → Bool} {l : List α} :
    l.filter p = l.filter q ↔ ∀ x ∈ l, p x = q x := by
  refine ⟨fun h x hx => ?_, List.filter_congr⟩
  rw [Bool.eq_iff_iff]
  constructor
  · intro hp
    exact (List.mem_filter.mp (h ▸ List.mem_filter.mpr ⟨hx, hp⟩)).2
  · intro hq
    exact (List.mem_filter.mp (h.symm ▸ List.mem_filter.mpr ⟨hx, hq⟩)).2

/-- The reconciliation deletes exactly the orphans if and only if all other events are recorded under
the very name of a domain. -/
lemma removesOrphans_reconcileOrphans_iff :
    RemovesOrphans db (reconcileOrphans db).2 ↔ RecordedByName db := by
  have hevents : RemovesOrphans db (reconcileOrphans db).2 ↔
      db.optimizationEvents.filter (fun ev => isDomain db ev.host) =
        db.optimizationEvents.filter fun ev => !isOrphan db ev := by
    constructor
    · intro h
      exact congrArg Database.optimizationEvents h
    · intro h
      unfold RemovesOrphans reconcileOrphans keepEvents
      rw [h]
  rw [hevents, filter_eq_filter_iff]
  refine forall_congr' fun ev => imp_congr_right fun _ => ?_
  cases hname : isDomain db ev.host with
  | true => simp [isOrphan_of_isDomain hname]
  | false => cases isOrphan db ev <;> simp

/-- For every table of events and all domains, the reconciliation deletes exactly the events that no
registered domain routes, those of the storage service excepted, if and only if all other events are
recorded under the very name of a domain; the same holds of every round of the pruner, for the
events that its retention has left. -/
theorem reconcile_exact_iff (db : Database) :
    (RemovesOrphans db (reconcileOrphans db).2 ↔ RecordedByName db) ∧
    ∀ (nowMs retentionMs : ℤ) (pruneOk : Bool),
      let pruned := if pruneOk then (pruneEvents db ((nowMs - retentionMs) / 1000)).2 else db
      RemovesOrphans pruned (prunerTick db nowMs retentionMs pruneOk true).2 ↔
        RecordedByName pruned := by
  refine ⟨removesOrphans_reconcileOrphans_iff, fun nowMs retentionMs pruneOk => ?_⟩
  cases pruneOk with
  | true => exact removesOrphans_reconcileOrphans_iff
  | false => exact removesOrphans_reconcileOrphans_iff

/-- A wildcard entry, with an event of a host that it routes, one of the storage service, and one of
a domain that is gone. -/
def wildcardDatabase : Database :=
  { Database.ofDomains (Table.empty.insertNew
      { host := "*.school.example", origin := "http://origin", createdAt := 0, updatedAt := 0 }) with
    optimizationEvents :=
      [{ ts := 0, eventType := "media_cache", host := "math.school.example", url := "/v.mp4"
         decision := "served_200", elapsedMs := 1 },
       { ts := 0, eventType := "storage_evict", host := "*", url := "storage://evict"
         decision := "auto_evict", elapsedMs := 0 },
       { ts := 0, eventType := "media_cache", host := "gone.example", url := "/v.mp4"
         decision := "served_200", elapsedMs := 1 }] }

/-- All three events are deleted, of which only the last one is an orphan. -/
theorem reconcile_deletes_routed :
    isRouted wildcardDatabase "math.school.example" = true ∧
    (reconcileOrphans wildcardDatabase).1 = 3 ∧
    (reconcileOrphans wildcardDatabase).2.optimizationEvents = [] ∧
    ¬ RemovesOrphans wildcardDatabase (reconcileOrphans wildcardDatabase).2 := by
  refine ⟨by decide, by decide, by decide, fun h => ?_⟩
  have hevents := congrArg (fun d => d.optimizationEvents.length) h
  exact absurd hevents (by decide)

end SmartSchoolCdn.Admin
