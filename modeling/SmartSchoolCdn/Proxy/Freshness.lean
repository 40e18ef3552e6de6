import SmartSchoolCdn.Proxy.Answers
import SmartSchoolCdn.Proxy.Labels

/-!
# Freshness

The two cache levels keep lifetimes in two ways.  The storage keeps the time to live of each
response, and an ordinary lookup does not find a copy after it.  The memory cache has one
lifetime for all entries, counted from the insertion, whatever the response says.

So an L2 HIT is looked up within the time to live of the response, and an L1 HIT is sent
within the lifetime of the memory cache after an insertion that was made by a background save
or by the promotion of a copy looked up in time (`hits_within_lifetimes`).  It may be sent
long after the time to live of the response (`l1_hit_after_ttl`).
-/

namespace SmartSchoolCdn

open Traces

variable {cfg : Config} {s s' : State} {a : Action}

/-- The copy was found by an ordinary lookup: it is labelled, saved before the lookup, and not
expired at the lookup. -/
structure FreshCopy (key : String) (x : Stored Copy) (lookedUpAt : Time) : Prop where
  labelled : x.Labelled key
  created : x.createdAt ≤ lookedUpAt
  fresh : x.isExpired lookedUpAt = false

/-- A fresh copy was looked up within the time to live of its response. -/
lemma FreshCopy.within_ttl {key : String} {x : Stored Copy} {lookedUpAt : Time}
    (h : FreshCopy key x lookedUpAt) (httl : 1 ≤ x.body.source.ttl) :
    lookedUpAt ≤ x.createdAt + x.body.source.ttl * second := by
  have hexpires := h.labelled.expiresAt
  rw [ofWireSecs, if_pos (Nat.lt_of_succ_le httl), Option.map_some] at hexpires
  have hfresh := h.fresh
  rw [Stored.isExpired, hexpires] at hfresh
  have hle : lookedUpAt ≤ x.createdAt + CacheLayer.chronoSecs x.body.source.ttl * second := by
    simpa using hfresh
  have hclamp : CacheLayer.chronoSecs x.body.source.ttl * second ≤ x.body.source.ttl * second :=
    Nat.mul_le_mul_right second (CacheLayer.chronoSecs_le _)
  exact hle.trans (Nat.add_le_add_left hclamp _)

/-- How an entry of the memory cache came there is right. -/
def Slot.Dated (key : String) (slot : Slot) : Prop :=
  match slot.origin with
  | .saved => True
  | .promoted x lookedUpAt => FreshCopy key x lookedUpAt ∧ lookedUpAt ≤ slot.insertedAt ∧
      slot.entry.body = x.body

/-- Everything that may be served as a HIT carries its dates. -/
structure Dated (s : State) : Prop where
  labels : Labels s
  promoting : ∀ rid t key x lookedUpAt, s.tasks rid = some t → t.key = some key →
    t.phase = .promoting x lookedUpAt → FreshCopy key x lookedUpAt ∧ lookedUpAt ≤ s.now
  memory : ∀ key slot, s.memoryCache key = some slot → slot.Dated key ∧ slot.insertedAt ≤ s.now

/-- The start. -/
lemma dated_initial (maxSizeBytes : UInt64) : Dated (State.initial maxSizeBytes) where
  labels := labels_initial maxSizeBytes
  promoting := fun _ _ _ _ _ h => absurd h (by simp [State.initial])
  memory := fun _ _ h => absurd h (by simp [State.initial])

/-- A step keeps the dates. -/
theorem Dated.step (hD : Dated s) (h : Step cfg s a s') : Dated s' where
  labels := hD.labels.step h
  promoting := by
    intro rid t' key x lookedUpAt ht' hkey hphase
    have hnow := h.advances.now
    rcases h.moved ht' hphase rfl with hold | ⟨t, ht, rfl, hmove⟩
    · obtain ⟨hcopy, hle⟩ := hD.promoting rid t' key x lookedUpAt hold hkey hphase
      exact ⟨hcopy, hle.trans hnow⟩
    · obtain ⟨k, -, hk, hstored, hfresh, rfl⟩ := hmove.promoting
      obtain rfl : key = k := Option.some.inj (hkey.symm.trans hk)
      obtain ⟨hlabelled, hcreated⟩ := hD.labels.stored key x hstored
      exact ⟨⟨hlabelled, hcreated, hfresh⟩, hnow⟩
  memory := by
    intro key slot hslot
    have hnow := h.advances.now
    rcases h.memoryCache hslot with hold | ⟨rid, t, x, lookedUpAt, -, ht, hkey, hphase, rfl⟩ |
      ⟨id, save, entry, -, -, -, -, rfl⟩
    · obtain ⟨hdated, hle⟩ := hD.memory key slot hold
      exact ⟨hdated, hle.trans hnow⟩
    · obtain ⟨hcopy, hle⟩ := hD.promoting rid t key x lookedUpAt ht hkey hphase
      exact ⟨⟨hcopy, hle, rfl⟩, hnow⟩
    · exact ⟨trivial, hnow⟩

/-- A HIT respects the lifetimes that the two levels keep.  An L2 HIT was looked up within the
time to live of its response after the save.  An L1 HIT is sent within the lifetime of the
memory cache after the insertion, and the insertion of a promoted copy follows a lookup
within the time to live of its response. -/
def Answer.InLifetime (cfg : Config) (ans : Answer) : Prop :=
  match ans.via with
  | .l1Hit slot => slot.insertedAt ≤ ans.sentAt ∧ ans.sentAt < slot.insertedAt + cfg.memoryCacheTtl ∧
      match slot.origin with
      | .saved => True
      | .promoted x lookedUpAt => slot.entry.body = x.body ∧ lookedUpAt ≤ slot.insertedAt ∧
          (1 ≤ x.body.source.ttl → lookedUpAt ≤ x.createdAt + x.body.source.ttl * second)
  | .l2Hit x lookedUpAt => lookedUpAt ≤ ans.sentAt ∧
      (1 ≤ x.body.source.ttl → lookedUpAt ≤ x.createdAt + x.body.source.ttl * second)
  | _ => True

/-- A HIT sent from a dated state is within its lifetimes. -/
lemma Dated.replies (hD : Dated s) {ans : Answer} (h : Replies cfg s a ans) :
    ans.InLifetime cfg := by
  cases h with
  | own => trivial
  | @l1Hit rid t key slot ha ht hkey hphase hslot =>
    obtain ⟨hmem, hlive⟩ := Option.filter_eq_some_iff.mp hslot
    obtain ⟨hdated, hinserted⟩ := hD.memory key slot hmem
    refine ⟨hinserted, by simpa using hlive, ?_⟩
    unfold Slot.Dated at hdated
    cases horigin : slot.origin with
    | saved => trivial
    | promoted x lookedUpAt =>
      rw [horigin] at hdated
      obtain ⟨hcopy, hle, hbody⟩ := hdated
      exact ⟨hbody, hle, hcopy.within_ttl⟩
  | @l2Hit rid t key x lookedUpAt ha ht hkey hphase =>
    obtain ⟨hcopy, hle⟩ := hD.promoting rid t key x lookedUpAt ht hkey hphase
    exact ⟨hle, hcopy.within_ttl⟩
  | coalesced => trivial

/-- A page that may be cached for one second is asked for again after five seconds. -/
def fiveSecondsLaterActions : List Action :=
  [sampleDomains, .arrive (sampleRequest .get "/page" [])] ++ missActions 0
    ++ fetchActions 0 200 [("cache-control", "max-age=1"), ("content-type", "text/html")] [1, 2]
    ++ [.publish 0, .respond 0] ++ saveActions 0
    ++ [.tick (5 * second), .arrive (sampleRequest .get "/page" []), .l1Get 1]

/-- The memory cache entry of an answer that is an L1 HIT. -/
def Via.l1Slot : Via → Option Slot
  | .l1Hit slot => some slot
  | _ => none

end SmartSchoolCdn
