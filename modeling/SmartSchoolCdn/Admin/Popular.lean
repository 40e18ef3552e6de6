import SmartSchoolCdn.Admin.Reply
import SmartSchoolCdn.Foundation.Ranking
import SmartSchoolCdn.Storage.CacheLayer
import Mathlib.Data.Rat.Defs

/-!
# Popular content

`GET /api/cache/popular`: the storage ranks its index by hits and cuts the ranking, and the
route filters what is left by the host of the URL.  The index has the iteration order of its
entries, which decides between as many hits, since the sort is stable.

With a filter the route therefore shows the top of the domain only when the cut leaves all of
its entries or only its entries (`popular_top_iff`).
-/

namespace SmartSchoolCdn

open Ranking

/-! ## The storage -/

/-- `PopularEntry` of the RPC. -/
structure PopularEntry where
  url : String
  domain : String
  sizeBytes : UInt64
  hitCount : ℕ
  deriving DecidableEq, Repr

/-- The most hits first. -/
def CacheEntry.byHits : Comparison CacheEntry := (Comparison.column CacheEntry.hitCount).descending

/-- `get_popular`. -/
def CacheLayer.getPopular {β : Type} (c : CacheLayer β) (limit : ℕ) : List CacheEntry :=
  (CacheEntry.byHits.sort (c.index.entries.map Sigma.snd)).take limit

/-- The entry as the RPC reports it. -/
def CacheEntry.popular (e : CacheEntry) : PopularEntry := ⟨e.url, e.domain, e.sizeBytes, e.hitCount⟩

/-- `StorageGrpc::popular`. -/
def StorageGrpc.popular {β : Type} (c : CacheLayer β) (limit : ℕ) : List PopularEntry :=
  (c.getPopular limit).map CacheEntry.popular

/-! ## The route -/

/-- What `popularQuerySchema` accepts. -/
structure PopularQuery where
  limit : ℕ := 20
  domain : Option String := none
  limit_pos : 1 ≤ limit
  limit_le : limit ≤ 100
  domain_ne : domain ≠ some ""

/-- `popularQuerySchema.safeParse`, after the coercion of the limit: there may be no limit, and
what is there may not be a finite number. -/
def PopularQuery.safeParse (limit : Option (Option ℚ)) (domain : Option String) : Option PopularQuery :=
  if hdomain : domain = some "" then none
  else
    match limit with
    | none => some { domain := domain, limit_pos := by decide, limit_le := by decide, domain_ne := hdomain }
    | some none => none
    | some (some q) =>
      if h : q.den = 1 ∧ 1 ≤ q.num.toNat ∧ q.num.toNat ≤ 100 then
        some ⟨q.num.toNat, domain, h.2.1, h.2.2, hdomain⟩
      else none

/-- Whether the URL of an entry has the host. -/
def PopularEntry.hasHost (js : Runtime) (host : String) (e : PopularEntry) : Bool :=
  (js.parseUrl e.url).any fun url => url.hostname = host

/-- The answer to a query; `storage` is `none` where the call of the storage fails. -/
def PopularQuery.answer (js : Runtime) (query : PopularQuery)
    (storage : ℕ → Option (List PopularEntry)) : List PopularEntry :=
  match storage query.limit with
  | none => []
  | some entries =>
    match query.domain with
    | some domain => entries.filter (PopularEntry.hasHost js domain)
    | none => entries

/-- `GET /api/cache/popular`. -/
def popularRoute (js : Runtime) (limit : Option (Option ℚ)) (domain : Option String)
    (storage : ℕ → Option (List PopularEntry)) : Except ErrorReply (List PopularEntry) :=
  match PopularQuery.safeParse limit domain with
  | none => .error ⟨400, "invalid_input", "limit은 1~100 정수여야 합니다."⟩
  | some query => .ok (query.answer js storage)

/-- The route accepts a limit from 1 to 100 and a domain that is not empty, and answers the query
of the two. -/
theorem popularRoute_of_query (js : Runtime) (query : PopularQuery)
    (storage : ℕ → Option (List PopularEntry)) :
    popularRoute js (some (some (query.limit : ℚ))) query.domain storage =
      .ok (query.answer js storage) := by
  have hparse : PopularQuery.safeParse (some (some (query.limit : ℚ))) query.domain = some query := by
    have hlimit : ((query.limit : ℕ) : ℚ).den = 1 ∧ 1 ≤ ((query.limit : ℕ) : ℚ).num.toNat ∧
        ((query.limit : ℕ) : ℚ).num.toNat ≤ 100 := by
      rw [Rat.den_natCast, Rat.num_natCast, Int.toNat_natCast]
      exact ⟨rfl, query.limit_pos, query.limit_le⟩
    rw [PopularQuery.safeParse, dif_neg query.domain_ne]
    simp only [dif_pos hlimit]
    congr
  rw [popularRoute, hparse]

/-! ## The top of a domain -/

section Top

variable {β : Type}

/-- The most hits first. -/
def PopularEntry.byHits : Comparison PopularEntry := (Comparison.column PopularEntry.hitCount).descending

/-- The entries of the whole index whose URLs have the host. -/
def CacheLayer.entriesOf (js : Runtime) (host : String) (c : CacheLayer β) : List PopularEntry :=
  (c.index.entries.map fun row => row.2.popular).filter (PopularEntry.hasHost js host)

/-- The rows of the index, the most hits first. -/
def rowsByHits : Comparison (Sigma fun _ : String => CacheEntry) :=
  (Comparison.column fun row : Sigma fun _ : String => CacheEntry => row.2.hitCount).descending

/-- How many rows of the index are ahead of one: those with more hits, and of those with as many
hits the earlier ones. -/
def CacheLayer.place (c : CacheLayer β) (row : Sigma fun _ : String => CacheEntry) : ℕ :=
  c.index.entries.countP fun r => rowsByHits.ahead c.index.entries r row

/-- The cut at a limit leaves all entries of the host or only entries of the host: all of them
have fewer than `limit` rows ahead of them, or only they have. -/
def CacheLayer.CutSettles (js : Runtime) (host : String) (limit : ℕ) (c : CacheLayer β) : Prop :=
  (∀ row ∈ c.index.entries, row.2.popular.hasHost js host = true → c.place row < limit) ∨
    ∀ row ∈ c.index.entries, c.place row < limit → row.2.popular.hasHost js host = true

/-- What the storage answers is the beginning of the sorted rows. -/
lemma popular_eq (c : CacheLayer β) (limit : ℕ) :
    StorageGrpc.popular c limit =
      ((rowsByHits.sort c.index.entries).take limit).map fun row => row.2.popular := by
  have hsort : (rowsByHits.sort c.index.entries).map Sigma.snd =
      CacheEntry.byHits.sort (c.index.entries.map Sigma.snd) :=
    List.map_insertionSort _ _ _ _ fun _ _ _ _ => Iff.rfl
  rw [StorageGrpc.popular, CacheLayer.getPopular, ← hsort, ← List.map_take, List.map_map]
  rfl

/-- The answer to a query for a host is the part of the cut that has the host. -/
lemma answer_eq {js : Runtime} {query : PopularQuery} {host : String}
    (hdomain : query.domain = some host) (c : CacheLayer β) :
    query.answer js (fun limit => some (StorageGrpc.popular c limit)) =
      (((rowsByHits.sort c.index.entries).take query.limit).filter fun row =>
        row.2.popular.hasHost js host).map fun row => row.2.popular := by
  simp only [PopularQuery.answer, hdomain, popular_eq, List.filter_map]
  rfl

lemma entriesOf_eq (js : Runtime) (host : String) (c : CacheLayer β) :
    c.entriesOf js host = (c.index.entries.filter fun row => row.2.popular.hasHost js host).map
      fun row => row.2.popular := by
  rw [CacheLayer.entriesOf, List.filter_map]
  rfl

/-- The answer to a query for a host is the top of the entries of that host, out of the whole
index, exactly when the cut settles it. -/
theorem popular_top_iff (js : Runtime) (query : PopularQuery) {host : String}
    (hdomain : query.domain = some host) (c : CacheLayer β) :
    PopularEntry.byHits.IsTop query.limit (c.entriesOf js host)
        (query.answer js fun limit => some (StorageGrpc.popular c limit)) ↔
      c.CutSettles js host query.limit := by
  have hrows : c.index.entries.Nodup := List.NodupKeys.nodup c.index.nodupKeys
  have hrank : rowsByHits.IsRanking c.index.entries (rowsByHits.sort c.index.entries) :=
    Comparison.isRanking_sort
  have hcut : c.CutSettles js host query.limit ↔
      Settles (fun row => row.2.popular.hasHost js host) query.limit (rowsByHits.sort c.index.entries) :=
    (Comparison.settles_sort_iff hrows).symm
  rw [hcut, answer_eq hdomain, entriesOf_eq]
  constructor
  · intro htop
    have hlength := htop.length
    rw [List.length_map, List.length_map, ← (hrank.1.filter _).length_eq, ← List.countP_eq_length_filter,
      ← List.countP_eq_length_filter] at hlength
    exact settles_of_countP hlength
  · intro hsettles
    refine ⟨_, (hrank.filter _).map (fun _ _ _ _ h => h), ?_⟩
    rw [hsettles.filter_take, List.map_take]

end Top

/-! ## Samples -/

/-- A runtime that reads the host out of a URL. -/
def urlRuntime : Runtime where
  trim := Text.trim
  toLowerCase := Text.lower
  parseUrl url :=
    (Text.stripHead url "http://").map fun rest =>
      { protocol := "http:", hostname := Text.beforeFirst rest '/', pathname := "/", query := "" }

/-- An entry with a number of hits. -/
def sampleEntry (url domain : String) (hits : ℕ) : CacheEntry :=
  { url := url, domain := domain, contentType := none, sizeBytes := 1, hitCount := hits, createdAt := 0,
    accessedAt := 0, expiresAt := none, hasBr := false, cachedHeaders := [] }

/-- An index in which `b.test` has the most hits. -/
def sampleIndex : CacheLayer Bytes :=
  { CacheLayer.new 10 with
    index :=
      ((∅ : AList fun _ : String => CacheEntry).insert "k2" (sampleEntry "http://b.test/2" "b.test" 9)).insert
        "k1" (sampleEntry "http://a.test/1" "a.test" 3) }

/-- The first entry of `a.test` is asked for. -/
def topOfA : PopularQuery where
  limit := 1
  domain := some "a.test"
  limit_pos := by decide
  limit_le := by decide
  domain_ne := by decide

/-- The answer has no entry, though `a.test` has one. -/
theorem popular_misses_domain :
    (topOfA.answer urlRuntime fun limit => some (StorageGrpc.popular sampleIndex limit)) = [] ∧
    ¬ PopularEntry.byHits.IsTop topOfA.limit (sampleIndex.entriesOf urlRuntime "a.test")
      (topOfA.answer urlRuntime fun limit => some (StorageGrpc.popular sampleIndex limit)) := by
  have hempty : (topOfA.answer urlRuntime fun limit => some (StorageGrpc.popular sampleIndex limit)) = [] := by
    decide +kernel
  refine ⟨hempty, fun htop => ?_⟩
  have hlength := htop.length
  rw [hempty] at hlength
  have hone : min topOfA.limit (sampleIndex.entriesOf urlRuntime "a.test").length = 1 := by decide +kernel
  rw [hone] at hlength
  cases hlength

/-- The first two entries are enough to find it. -/
def topTwoOfA : PopularQuery where
  limit := 2
  domain := some "a.test"
  limit_pos := by decide
  limit_le := by decide
  domain_ne := by decide

/-- With a limit of two the cut has the entry. -/
theorem popular_top_of_two :
    sampleIndex.CutSettles urlRuntime "a.test" 2 ∧
    PopularEntry.byHits.IsTop topTwoOfA.limit (sampleIndex.entriesOf urlRuntime "a.test")
      (topTwoOfA.answer urlRuntime fun limit => some (StorageGrpc.popular sampleIndex limit)) := by
  have hcut : sampleIndex.CutSettles urlRuntime "a.test" 2 := Or.inl (by decide +kernel)
  exact ⟨hcut, (popular_top_iff urlRuntime topTwoOfA rfl sampleIndex).mpr hcut⟩

end SmartSchoolCdn
