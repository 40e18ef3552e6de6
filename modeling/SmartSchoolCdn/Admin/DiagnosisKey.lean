import SmartSchoolCdn.Admin.HostNames
import SmartSchoolCdn.Admin.Reply
import SmartSchoolCdn.Proxy.System

/-!
# The cache key of a diagnosis

`GET /api/domains/:host/diagnose` takes the path and the query of a URL apart, checks them, and
computes the cache key that it asks the proxy and the storage for.  The proxy computes the key from
the request target, which it cuts at the first question mark.

A question mark that stands in the path of the diagnosis is therefore where the proxy cuts.  The text
that is hashed is still the same unless the query is empty: then the route adds a question mark
that the proxy does not (`diagnosis_key_iff`).
-/

namespace SmartSchoolCdn.Admin

open Text

/-! ## The schema -/

/-- `\s` of a JavaScript regular expression. -/
def isJsSpace (c : Char) : Bool :=
  [0x09, 0x0a, 0x0b, 0x0c, 0x0d, 0x20, 0xa0, 0x1680, 0x2028, 0x2029, 0x202f, 0x205f, 0x3000,
      0xfeff].contains c.toNat ||
    (0x2000 ≤ c.toNat && c.toNat ≤ 0x200a)

/-- `[^\s#\x00-\x1f\x7f]`. -/
def isSafeChar (c : Char) : Bool :=
  !isJsSpace c && c != '#' && 0x1f < c.toNat && c.toNat != 0x7f

/-- `PATH_SAFE_RE.test(path)`. -/
def pathSafe (path : String) : Bool :=
  match path.toList with
  | '/' :: rest => rest.all isSafeChar
  | _ => false

/-- `QUERY_SAFE_RE.test(query)`. -/
def querySafe (query : String) : Bool := query.toList.all isSafeChar

/-- The `length` of a string, in UTF-16 code units. -/
def jsLength (s : String) : ℕ := (s.toList.map fun c => if c.toNat < 0x10000 then 1 else 2).sum

/-- The messages that the schema library gives by itself. -/
structure ZodMessages where
  required : String
  invalidEnum : String → String

/-- The period of a diagnosis. -/
inductive Period
  | oneHour
  | oneDay
  | sevenDays
  deriving DecidableEq, Repr

/-- The labels of the periods. -/
def Period.ofLabel : String → Option Period
  | "1h" => some .oneHour
  | "24h" => some .oneDay
  | "7d" => some .sevenDays
  | _ => none

/-- The query string of a request for a diagnosis. -/
structure RawQuery where
  path : Option String
  query : Option String
  range : Option String
  deriving DecidableEq, Repr

/-- What the schema makes of it. -/
structure DiagnoseInput where
  path : String
  query : String
  range : Period
  deriving DecidableEq, Repr

/-- The issue of a check, if it fails. -/
def issueUnless (ok : Bool) (message : String) : List String := if ok then [] else [message]

/-- The issues of `path`. -/
def pathIssues (zod : ZodMessages) : Option String → List String
  | none => [zod.required]
  | some path =>
    issueUnless (startsWith path "/") "path must start with /"
      ++ issueUnless (jsLength path ≤ 2048) "path too long (max 2048)"
      ++ issueUnless (pathSafe path) "path must not contain whitespace, control chars or #"

/-- The issues of `query`, which may be left out. -/
def queryIssues : Option String → List String
  | none => []
  | some query =>
    issueUnless (jsLength query ≤ 4096) "query too long (max 4096)"
      ++ issueUnless (querySafe query) "query must not contain whitespace, control chars or #"

/-- The issues of `range`, which may be left out. -/
def rangeIssues (zod : ZodMessages) : Option String → List String
  | none => []
  | some range => issueUnless (Period.ofLabel range).isSome (zod.invalidEnum range)

/-- `querySchema.safeParse`. -/
def safeParse (zod : ZodMessages) (raw : RawQuery) : Except (List String) DiagnoseInput :=
  match pathIssues zod raw.path ++ queryIssues raw.query ++ rangeIssues zod raw.range with
  | [] =>
    .ok
      { path := raw.path.getD ""
        query := raw.query.getD ""
        range := (raw.range.bind Period.ofLabel).getD .oneHour }
  | issues => .error issues

/-! ## The route -/

/-- `cacheKey` of the route. -/
def diagnoseCacheKey (sha256Hex : String → String) (host path query : String) : String :=
  sha256Hex ("GET:" ++ host ++ path ++ "?" ++ query)

/-- The route up to the cache key. -/
def diagnoseKey (js : Runtime) (zod : ZodMessages) (sha256Hex : String → String) (hosts : List String)
    (param : String) (raw : RawQuery) : Except ErrorReply String :=
  let host := js.normalizeHost param
  match safeParse zod raw with
  | .error issues =>
    .error
      { status := 400
        error := "invalid_input"
        message := issues.head?.getD "잘못된 입력입니다." }
  | .ok input =>
    if hosts.contains host then .ok (diagnoseCacheKey sha256Hex host input.path input.query)
    else
      .error
        { status := 404
          error := "domain_not_found"
          message := "도메인을 찾을 수 없습니다." }

/-! ## The request -/

/-- The request target for a path and a query. -/
def requestTarget (path query : String) : String := if query = "" then path else path ++ "?" ++ query

/-- What `http` documents of its parser: a target in origin form is cut at its first question mark. -/
def CutsTargets (parseTarget : String → Option Uri) : Prop :=
  ∀ target uri, startsWith target "/" = true → '#' ∉ target.toList → parseTarget target = some uri →
    uri.path = beforeFirst target '?' ∧ uri.query = (splitOnce target '?').map Prod.snd

/-- A GET request for a target on a host. -/
def getRequest (host : String) (uri : Uri) : SmartSchoolCdn.Request where
  method := .get
  uri := uri
  headers := [("host", host)]

/-- A host as the domain routes store it. -/
structure StoredHost (host : String) : Prop where
  wellFormed : matchesDomainRe host = true
  lowerCase : lower host = host

variable {js : Runtime} {zod : ZodMessages} {raw : RawQuery} {input : DiagnoseInput} {uri : Uri}
  {host path query target : String} {cfg : Config} {parseTarget : String → Option Uri}

/-! ## What the schema lets through -/

lemma issueUnless_eq_nil {ok : Bool} {message : String} : issueUnless ok message = [] ↔ ok = true := by
  cases ok <;> simp [issueUnless]

/-- An accepted path and query have passed the two expressions. -/
lemma safe_of_safeParse (h : safeParse zod raw = .ok input) :
    pathSafe input.path = true ∧ querySafe input.query = true := by
  unfold safeParse at h
  split at h
  · rename_i hissues
    obtain ⟨hpath, hquery⟩ := List.append_eq_nil_iff.mp (List.append_eq_nil_iff.mp hissues).1
    obtain rfl := Except.ok.inj h
    constructor
    · cases hraw : raw.path with
      | none =>
        rw [hraw] at hpath
        cases hpath
      | some path =>
        rw [hraw, pathIssues] at hpath
        exact issueUnless_eq_nil.mp (List.append_eq_nil_iff.mp hpath).2
    · cases hraw : raw.query with
      | none => rfl
      | some query =>
        rw [hraw, queryIssues] at hquery
        exact issueUnless_eq_nil.mp (List.append_eq_nil_iff.mp hquery).2
  · cases h

/-- A safe path starts with a slash. -/
lemma startsWith_of_pathSafe (h : pathSafe path = true) : startsWith path "/" = true := by
  unfold pathSafe at h
  split at h
  · rename_i rest hpath
    refine decide_eq_true ?_
    rw [hpath]
    exact ⟨rest, rfl⟩
  · cases h

/-- There is no hash sign in a safe path, -/
lemma hash_not_mem_path (h : pathSafe path = true) : '#' ∉ path.toList := by
  unfold pathSafe at h
  split at h
  · rename_i rest hpath
    rw [hpath, List.mem_cons, not_or]
    refine ⟨by decide, fun hmem => ?_⟩
    exact absurd (List.all_eq_true.mp h '#' hmem) (by decide)
  · cases h

/-- nor in a safe query, -/
lemma hash_not_mem_query (h : querySafe query = true) : '#' ∉ query.toList :=
  fun hmem => absurd (List.all_eq_true.mp h '#' hmem) (by decide)

/-- nor in the target that is made of them. -/
lemma hash_not_mem_target (hpath : pathSafe path = true) (hquery : querySafe query = true) :
    '#' ∉ (requestTarget path query).toList := by
  have hpath' := hash_not_mem_path hpath
  have hquery' := hash_not_mem_query hquery
  unfold requestTarget
  split
  · exact hpath'
  · simp [hpath', hquery']

lemma startsWith_target (hpath : pathSafe path = true) :
    startsWith (requestTarget path query) "/" = true := by
  have hslash := of_decide_eq_true (startsWith_of_pathSafe hpath)
  unfold requestTarget
  split
  · exact startsWith_of_pathSafe hpath
  · refine decide_eq_true ?_
    simp only [String.toList_append]
    exact (hslash.trans (List.prefix_append _ _)).trans (List.prefix_append _ _)

/-! ## Hosts -/

/-- The proxy reads a stored host from a header as it is. -/
lemma normalizeHost_stored (h : StoredHost host) : normalizeHost host = host := by
  have hport : beforeFirst host ':' = host :=
    beforeFirst_eq_self (not_mem_of_matches h.wellFormed (by decide))
  have hdots : host.toList.rdropWhile (· == '.') = host.toList := by
    refine List.rdropWhile_eq_self_iff.mpr fun hne hdot => ?_
    refine not_dot_last_of_matches h.wellFormed host.toList.dropLast ?_
    rw [← eq_of_beq hdot]
    exact (List.dropLast_append_getLast hne).symm
  rw [normalizeHost, hport, hdots, String.ofList_toList]
  exact h.lowerCase

/-- It is a header value that can be read. -/
lemma toStr_stored (h : StoredHost host) : toStr host = some host := by
  unfold toStr
  rw [if_pos]
  refine List.all_eq_true.mpr fun c hc => ?_
  obtain ⟨hlow, hhigh⟩ := visible_of_isHostChar (hostChar_of_mem h.wellFormed hc)
  simp [hlow, hhigh]

/-! ## The two texts -/

/-- What the proxy hashes behind the host: the target, with a question mark at the end if it has
none. -/
lemma cut_target (target : String) :
    beforeFirst target '?' ++ "?" ++ ((splitOnce target '?').map Prod.snd).getD "" =
      if '?' ∈ target.toList then target else target ++ "?" := by
  have hbefore : ∀ {p q}, splitOnce target '?' = some (p, q) → p = beforeFirst target '?' := by
    intro p q h
    unfold splitOnce at h
    split at h
    · cases h
    · exact (Prod.mk.inj (Option.some.inj h)).1.symm
  cases hcut : splitOnce target '?' with
  | none =>
    have hno := splitOnce_eq_none_iff.mp hcut
    rw [if_neg hno, beforeFirst_eq_self hno]
    exact String.append_empty
  | some parts =>
    obtain ⟨p, q⟩ := parts
    obtain ⟨htarget, -⟩ := splitOnce_eq_some_iff.mp hcut
    have hmark : '?' ∈ target.toList := by
      rw [htarget]
      exact List.mem_append_right _ List.mem_cons_self
    rw [if_pos hmark, ← hbefore hcut, ← String.toList_inj, htarget]
    simp

/-- The key of a GET request for a target on a stored host. -/
lemma requestKey_getRequest (h : StoredHost host) (hparse : CutsTargets parseTarget)
    (hslash : startsWith target "/" = true) (hhash : '#' ∉ target.toList)
    (huri : parseTarget target = some uri) :
    requestKey cfg (getRequest host uri) = some (cfg.sha256Hex ("GET:" ++ host ++
      if '?' ∈ target.toList then target else target ++ "?")) := by
  obtain ⟨hpath, hquery⟩ := hparse target uri hslash hhash huri
  have hhost : (getRequest host uri).headers.getStr "host" = some host := by
    rw [HeaderMap.getStr]
    exact toStr_stored h
  have htext : cacheTextOf host (getRequest host uri) =
      some (cacheKeyText "GET" host uri.path uri.queryOrEmpty) := if_pos (Or.inl rfl)
  rw [requestKey, requestUrl, hhost, Option.bind_some, normalizeHost_stored h, htext, Option.map_some,
    ← cut_target, ← hpath, ← hquery]
  simp [cacheKeyText, Uri.queryOrEmpty, String.append_assoc]

/-- What the route hashes behind the host is that text exactly if there is no question mark in the
path, or the query is not empty. -/
lemma target_text_iff :
    path ++ "?" ++ query = (if '?' ∈ (requestTarget path query).toList then requestTarget path query
      else requestTarget path query ++ "?") ↔ '?' ∉ path.toList ∨ query ≠ "" := by
  by_cases hquery : query = ""
  · subst hquery
    have htarget : requestTarget path "" = path := if_pos rfl
    rw [htarget, or_iff_left (not_not.mpr rfl), String.append_empty]
    by_cases hmark : '?' ∈ path.toList
    · rw [if_pos hmark]
      refine iff_of_false (fun heq => ?_) (not_not.mpr hmark)
      have hlength := congrArg (fun s => s.toList.length) heq
      simp at hlength
    · rw [if_neg hmark]
      exact iff_of_true rfl hmark
  · have htarget : requestTarget path query = path ++ "?" ++ query := if_neg hquery
    have hmark : '?' ∈ (path ++ "?" ++ query).toList := by simp
    rw [htarget, if_pos hmark]
    exact iff_of_true rfl (Or.inr hquery)

/-! ## The keys -/

/-- For a stored host, and a path and a query that the schema accepts and that make a request target,
the route computes a key, and it is the one of the proxy exactly if there is no question mark in the
path, or the query is not empty. -/
theorem diagnosis_key_iff (js : Runtime) (zod : ZodMessages) (cfg : Config)
    (parseTarget : String → Option Uri) (hosts : List String) (host param : String) (raw : RawQuery)
    (input : DiagnoseInput) (uri : Uri) (hsha : Function.Injective cfg.sha256Hex)
    (hparse : CutsTargets parseTarget) (hhost : host ∈ hosts) (hstored : StoredHost host)
    (hparam : js.normalizeHost param = host) (haccepted : safeParse zod raw = .ok input)
    (huri : parseTarget (requestTarget input.path input.query) = some uri) :
    ∃ key, diagnoseKey js zod cfg.sha256Hex hosts param raw = .ok key ∧
      (requestKey cfg (getRequest host uri) = some key ↔
        '?' ∉ input.path.toList ∨ input.query ≠ "") := by
  obtain ⟨hpath, hquery⟩ := safe_of_safeParse haccepted
  have hroute : diagnoseKey js zod cfg.sha256Hex hosts param raw =
      .ok (diagnoseCacheKey cfg.sha256Hex host input.path input.query) := by
    unfold diagnoseKey
    simp only [haccepted, hparam, List.contains_iff_mem.mpr hhost, if_true]
  have hjoin : "GET:" ++ host ++ input.path ++ "?" ++ input.query =
      "GET:" ++ host ++ (input.path ++ "?" ++ input.query) := by
    simp only [String.append_assoc]
  refine ⟨_, hroute, ?_⟩
  rw [requestKey_getRequest hstored hparse (startsWith_target hpath) (hash_not_mem_target hpath hquery)
    huri, Option.some_inj, diagnoseCacheKey, hsha.eq_iff, hjoin, String.append_right_inj, eq_comm]
  exact target_text_iff

/-! ## Samples -/

/-- The runtime on ASCII text. -/
def asciiRuntime : Runtime where
  trim := trim
  toLowerCase := lower
  parseUrl _ := none

/-- The parser of request targets in origin form. -/
def cutTarget (target : String) : Option Uri :=
  some
    { schemeAuthority := ""
      path := beforeFirst target '?'
      query := (splitOnce target '?').map Prod.snd }

/-- The messages of the schema library. -/
def sampleMessages : ZodMessages where
  required := "Required"
  invalidEnum received :=
    "Invalid enum value. Expected '1h' | '24h' | '7d', received '" ++ received ++ "'"

lemma cutsTargets_cutTarget : CutsTargets cutTarget := by
  intro target uri _ _ h
  obtain rfl := Option.some.inj h
  exact ⟨rfl, rfl⟩

/-- A question mark in the path does no harm when there is a query as well. -/
theorem diagnosis_key_with_query :
    ∃ key, diagnoseKey asciiRuntime sampleMessages sampleConfig.sha256Hex ["a.test"] " A.test "
        ⟨some "/page?a", some "b", none⟩ = .ok key ∧
      requestKey sampleConfig (getRequest "a.test" ⟨"", "/page", some "a?b"⟩) = some key := by
  obtain ⟨key, hroute, hsame⟩ := diagnosis_key_iff asciiRuntime sampleMessages sampleConfig cutTarget
    ["a.test"] "a.test" " A.test " ⟨some "/page?a", some "b", none⟩ ⟨"/page?a", "b", .oneHour⟩
    ⟨"", "/page", some "a?b"⟩ Function.injective_id cutsTargets_cutTarget (by decide)
    ⟨by decide, by decide⟩ (by decide) (by rfl) (by decide)
  exact ⟨key, hroute, hsame.mpr (Or.inr (by decide))⟩

/-- The path `/page?a` without a query: the route asks for the key of another URL than the proxy
stores the page under. -/
theorem diagnosis_key_differs :
    diagnoseKey asciiRuntime sampleMessages sampleConfig.sha256Hex ["a.test"] "a.test"
        ⟨some "/page?a", none, none⟩ = .ok "GET:a.test/page?a?" ∧
      cutTarget (requestTarget "/page?a" "") = some ⟨"", "/page", some "a"⟩ ∧
      requestKey sampleConfig (getRequest "a.test" ⟨"", "/page", some "a"⟩) = some "GET:a.test/page?a" ∧
      "GET:a.test/page?a?" ≠ "GET:a.test/page?a" :=
  ⟨by rfl, by decide, by decide +kernel, by decide⟩

end SmartSchoolCdn.Admin
