import SmartSchoolCdn.Proxy.Provenance

/-!
# What may enter the caches

In every reachable state, everything that either cache level holds derives from an origin
response that may be stored: the saves are started by `miss` outcomes only, and a `miss`
outcome says that the response is storable.
-/

namespace SmartSchoolCdn

open Traces

variable {cfg : Config} {s s' : State} {a : Action}

/-- An action completes at most one fetch. -/
lemma Completes.unique {x y : Exchange} (hx : Completes s a x) (hy : Completes s a y) : x = y := by
  obtain ⟨rid, t, key, fetch, status, headers, body, rfl, ht, hkey, hphase, -, rfl⟩ := hx
  obtain ⟨rid', t', key', fetch', status', headers', body', ha, ht', hkey', hphase', -, rfl⟩ := hy
  cases ha
  obtain rfl := Option.some.inj (ht.symm.trans ht')
  obtain rfl := Option.some.inj (hkey.symm.trans hkey')
  cases hphase.symm.trans hphase'
  rfl

/-- A completed fetch is logged. -/
lemma Completes.mem_log {x : Exchange} (hx : Completes s a x) (h : step cfg s a = some s') :
    x ∈ s'.log := by
  rcases (step_cases h).log with ⟨-, hnone⟩ | ⟨y, hy, hlog⟩
  · exact absurd hx (hnone x)
  · rw [hlog, hx.unique hy]
    exact List.mem_cons_self

/-- What has been logged stays logged. -/
lemma mem_log_of_step {x : Exchange} (h : step cfg s a = some s') (hx : x ∈ s.log) : x ∈ s'.log := by
  rcases (step_cases h).log with ⟨hlog, -⟩ | ⟨y, -, hlog⟩
  · exact hlog ▸ hx
  · exact hlog ▸ List.mem_cons_of_mem y hx

/-- The exchange is logged and its response may be stored. -/
def Admissible (s : State) (x : Exchange) : Prop :=
  x ∈ s.log ∧ Storable x.request.uri.path x.response

/-- A started save is one of an admissible exchange. -/
lemma StartsSave.admissible {x : Exchange} (hx : StartsSave s a x) (h : step cfg s a = some s') :
    Admissible s' x :=
  ⟨hx.1.mem_log h, (originOutcome_eq_miss_iff _ _).mp hx.2.1⟩

/-- Everything the caches carry in a reachable state derives from an admissible exchange. -/
theorem carried_admissible {maxSizeBytes : UInt64}
    (h : Reaches (step cfg) (State.initial maxSizeBytes) s) {key : String} {e : MemoryCacheEntry}
    (he : Carried cfg s key e) : From cfg (Admissible s) key e := by
  obtain ⟨as, has⟩ := h
  refine carried_from has ?_ ?_ ?_ key e he
  · rintro s a s' x hst ⟨hlog, hstorable⟩
    exact ⟨mem_log_of_step hst hlog, hstorable⟩
  · intro s a s' x _ hst hx
    exact hx.admissible hst
  · intro key e he
    exact absurd he (not_carried_initial maxSizeBytes e)

/-- In every reachable state, every entry of the memory cache and every copy in the storage
is what the background save of a logged origin response stores, under the key of that
response, and the response may be stored. -/
theorem cached_entries_storable (cfg : Config) (maxSizeBytes : UInt64) (s : State)
    (h : Reaches (step cfg) (State.initial maxSizeBytes) s) (key : String) :
    (∀ slot, s.memoryCache key = some slot →
      ∃ x ∈ s.log, x.key = key ∧ Derives cfg x slot.entry ∧
        Storable x.request.uri.path x.response) ∧
    (∀ copy, s.storage.stored key = some copy →
      ∃ x ∈ s.log, x.key = key ∧ Derives cfg x copy.toEntry ∧
        Storable x.request.uri.path x.response) := by
  constructor
  · intro slot hslot
    obtain ⟨⟨hlog, hstorable⟩, hkey, hderives⟩ :=
      carried_admissible h (Or.inl (Afloat.memory hslot) : Carried cfg s key slot.entry)
    exact ⟨slot.entry.body.source, hlog, hkey, hderives, hstorable⟩
  · intro copy hcopy
    obtain ⟨⟨hlog, hstorable⟩, hkey, hderives⟩ :=
      carried_admissible h (Or.inr ⟨copy, hcopy, rfl⟩ : Carried cfg s key copy.toEntry)
    exact ⟨copy.body.source, hlog, hkey, hderives, hstorable⟩

/-- After the sample run the memory cache holds an entry, which derives from a storable
response. -/
theorem cached_entries_storable_logo :
    ∃ s slot, Reaches (step sampleConfig) (State.initial 1000000) s ∧
      s.memoryCache "GET:a.test/logo.png?" = some slot ∧
      ∃ x ∈ s.log, Derives sampleConfig x slot.entry ∧ Storable x.request.uri.path x.response := by
  have hrun : ((run (step sampleConfig) sampleStart logoActions).any fun t =>
      (t.memoryCache "GET:a.test/logo.png?").isSome) = true := by
    decide +kernel
  obtain ⟨s, hs, hslot⟩ := exists_trace_of_run hrun
  obtain ⟨slot, hslot⟩ := Option.isSome_iff_exists.mp hslot
  obtain ⟨x, hx, -, hderives, hstorable⟩ :=
    (cached_entries_storable sampleConfig 1000000 s hs.reaches "GET:a.test/logo.png?").1 slot hslot
  exact ⟨s, slot, hs.reaches, hslot, x, hx, hderives, hstorable⟩

end SmartSchoolCdn
