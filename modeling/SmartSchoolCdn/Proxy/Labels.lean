import SmartSchoolCdn.Proxy.Provenance

/-!
# What stored copies record

The background save of an exchange writes the URL, the host and the time to live of that
exchange next to the body.  These labels stay right on every way a `put` message can take,
the late execution of an unanswered call included, so what the storage records of a copy is
a function of the exchange behind it and of the time of the save.
-/

namespace SmartSchoolCdn

open Traces

variable {cfg : Config} {s s' : State} {a : Action}

/-- The URL under which the background save of an exchange stores it (`full_url`). -/
def Exchange.fullUrl (x : Exchange) : String := "https://" ++ x.host ++ x.request.uri.toText

/-- A `put` message carries the labels of the exchange behind its body. -/
def StorageRequest.Labelled : StorageRequest Copy → Prop
  | .put key url domain _ body ttlSecs _ _ =>
    key = body.source.key ∧ url = body.source.fullUrl ∧ domain = body.source.host ∧
      ttlSecs = body.source.ttl
  | _ => True

/-- The message of a save is labelled when its entry is tagged with the saved exchange. -/
lemma labelled_saveRequest {x : Exchange} {entry : MemoryCacheEntry} (h : entry.body.source = x) :
    (saveRequest x entry).Labelled := by
  subst h
  exact ⟨rfl, rfl, rfl, rfl⟩

/-- The stored copy records the labels of the exchange behind it, saved at `createdAt`. -/
structure Stored.Labelled (key : String) (x : Stored Copy) : Prop where
  key : x.body.source.key = key
  url : x.url = x.body.source.fullUrl
  domain : x.domain = x.body.source.host
  expiresAt : x.expiresAt =
    (ofWireSecs x.body.source.ttl).map fun secs => x.createdAt + CacheLayer.chronoSecs secs * second

/-- Labels in the background saves, in the calls put aside, and in the storage. -/
structure Labels (s : State) : Prop where
  put : ∀ id save entry, s.saves id = some save → save.phase = .put entry →
    entry.body.source = save.exchange
  insert : ∀ id save entry, s.saves id = some save → save.phase = .insert entry →
    entry.body.source = save.exchange
  detached : ∀ m ∈ s.detached, m.Labelled
  stored : ∀ key x, s.storage.stored key = some x → x.Labelled key ∧ x.createdAt ≤ s.now

/-- The start. -/
lemma labels_initial (maxSizeBytes : UInt64) : Labels (State.initial maxSizeBytes) where
  put := fun _ _ _ h => absurd h (by simp [State.initial])
  insert := fun _ _ _ h => absurd h (by simp [State.initial])
  detached := fun _ h => absurd h (by simp [State.initial])
  stored := by
    intro key x hx
    rw [State.initial, CacheLayer.stored_new] at hx
    cases hx

/-- A `put` that the storage executes is labelled. -/
lemma Labels.executed_put (hL : Labels s) {key url domain contentType : String} {body : Copy}
    {ttlSecs : ℕ} {bodyBr : Option Copy} {cachedHeaders : HeaderMap}
    (h : executed s a = some (.put key url domain contentType body ttlSecs bodyBr cachedHeaders)) :
    (StorageRequest.put key url domain contentType body ttlSecs bodyBr cachedHeaders).Labelled := by
  rcases SmartSchoolCdn.executed_put h with ⟨id, save, entry, -, hs, hphase, hmsg⟩ | ⟨index, -, hmem⟩
  · rw [hmsg]
    exact labelled_saveRequest (hL.put id save entry hs hphase)
  · exact hL.detached _ hmem

/-- A step keeps the labels. -/
theorem Labels.step (hL : Labels s) (h : Step cfg s a s') : Labels s' where
  put := by
    intro id save entry hs hphase
    rcases h.saves hs with hold | ⟨-, -, hprepare⟩ | ⟨old, hold, hx, hmove⟩
    · exact hL.put id save entry hold hphase
    · rw [hphase] at hprepare
      cases hprepare
    · rw [hphase] at hmove
      rcases hmove with ⟨-, optimized, -, -, hput⟩ | ⟨entry', -, hinsert⟩
      · rw [SavePhase.put.inj hput, preparedEntry_source, hx]
      · exact SavePhase.noConfusion hinsert
  insert := by
    intro id save entry hs hphase
    rcases h.saves hs with hold | ⟨-, -, hprepare⟩ | ⟨old, hold, hx, hmove⟩
    · exact hL.insert id save entry hold hphase
    · rw [hphase] at hprepare
      cases hprepare
    · rw [hphase] at hmove
      rcases hmove with ⟨-, optimized, -, -, hput⟩ | ⟨entry', hput, hinsert⟩
      · exact SavePhase.noConfusion hput
      · rw [SavePhase.insert.inj hinsert, hx]
        exact hL.put id old entry' hold hput
  detached := by
    intro m hm
    rcases h.detached hm with hold | ⟨key, allowStale, rfl⟩ | ⟨target, rfl⟩ |
      ⟨id, save, entry, hs, hphase, rfl⟩
    · exact hL.detached m hold
    · trivial
    · trivial
    · exact labelled_saveRequest (hL.put id save entry hs hphase)
  stored := by
    intro key x hx
    rcases h.stored hx with hold | ⟨url, domain, contentType, body, ttlSecs, bodyBr, cachedHeaders,
      hexec, rfl⟩
    · obtain ⟨hlabels, hcreated⟩ := hL.stored key x hold
      exact ⟨hlabels, hcreated.trans h.advances.now⟩
    · obtain ⟨hkey, hurl, hdomain, httl⟩ := hL.executed_put hexec
      refine ⟨⟨hkey.symm, hurl, hdomain, ?_⟩, h.advances.now⟩
      rw [httl]
      rfl

/-- Labels are right in every state that can be reached. -/
theorem labels_of_reaches {maxSizeBytes : UInt64} {t : State}
    (h : Reaches (step cfg) (State.initial maxSizeBytes) t) : Labels t :=
  h.invariant (fun _ _ _ hL hst => hL.step (step_cases hst)) (labels_initial maxSizeBytes)

end SmartSchoolCdn
