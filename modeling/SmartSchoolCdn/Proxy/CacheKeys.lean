import SmartSchoolCdn.Admin.HostNames
import SmartSchoolCdn.Proxy.System

/-!
# Cache keys of routed requests

The text that is hashed for a cache key joins the host, the path and the query without an escape.
It can be taken apart again for a request that `proxy_handler` routes: behind its first dot the host
is an entry of the domain map or the rest of one, and these have no slash, so that the first slash
behind that dot begins the path (`cacheKeyText_inj`).
-/

namespace SmartSchoolCdn

open Admin Text

/-! ## Requests that are routed -/

/-- The hosts of a domain map have come through the checks of the domain routes. -/
def Registered (domainMap : String → Option String) : Prop :=
  ∀ host, (domainMap host).isSome = true → matchesDomainRe host = true

/-- `proxy_handler` routes a request with a domain map, to a normalised host. -/
def RoutedTo (domainMap : String → Option String) (req : Request) (host : String) : Prop :=
  ∃ raw, req.headers.getStr "host" = some raw ∧ normalizeHost raw = host ∧
    (findOrigin domainMap host).isSome = true

/-- A request target in origin form, cut into path and query. -/
structure OriginForm (uri : Uri) : Prop where
  slash : ∃ rest, uri.path.toList = '/' :: rest
  noMark : '?' ∉ uri.path.toList

/-- What a host looks like that is routed: behind its first dot there is no slash. -/
structure CutAtDot (host : String) (label base : List Char) : Prop where
  cut : host.toList = label ++ '.' :: base
  first : '.' ∉ label
  noSlash : '/' ∉ base

variable {domainMap domainMap' : String → Option String} {host host' path path' query query' : String}
  {req req' : Request}

/-! ## The text of a key -/

/-- A registered host is cut at its first dot. -/
lemma cutAtDot_of_matches (h : matchesDomainRe host = true) :
    ∃ label base, CutAtDot host label base := by
  obtain ⟨label, base, hcut, hfirst⟩ := List.eq_append_cons_of_mem (dot_mem_of_matches h)
  have hslash : '/' ∉ host.toList := not_mem_of_matches h (by decide)
  refine ⟨label, base, hcut, hfirst, fun hmem => hslash ?_⟩
  rw [hcut]
  exact List.mem_append_right _ (List.mem_cons_of_mem _ hmem)

/-- So is every host that the domain map routes. -/
lemma cutAtDot_of_findOrigin (hmap : Registered domainMap)
    (h : (findOrigin domainMap host).isSome = true) : ∃ label base, CutAtDot host label base := by
  rw [findOrigin, Option.isSome_or, Bool.or_eq_true] at h
  rcases h with hexact | hwildcard
  · exact cutAtDot_of_matches (hmap host hexact)
  · obtain ⟨origin, hbind⟩ := Option.isSome_iff_exists.mp hwildcard
    obtain ⟨⟨label, base⟩, hparts, hentry⟩ := Option.bind_eq_some_iff.mp hbind
    obtain ⟨hcut, hfirst⟩ := splitOnce_eq_some_iff.mp hparts
    have hmatches : matchesDomainRe ("*." ++ base) = true :=
      hmap _ (Option.isSome_iff_exists.mpr ⟨origin, hentry⟩)
    have hslash : '/' ∉ ("*." ++ base).toList := not_mem_of_matches hmatches (by decide)
    refine ⟨label.toList, base.toList, hcut, hfirst, fun hmem => hslash ?_⟩
    rw [String.toList_append]
    exact List.mem_append_right _ hmem

/-- The characters of the text of a key. -/
lemma toList_cacheKeyText (method host path query : String) :
    (cacheKeyText method host path query).toList =
      (method ++ ":").toList ++ (host.toList ++ (path.toList ++ '?' :: query.toList)) := by
  simp [cacheKeyText]

/-- The text is taken apart at the first dot, the first slash behind it, and the first question mark
behind that. -/
theorem cacheKeyText_inj {label base label' base' : List Char} (hhost : CutAtDot host label base)
    (hhost' : CutAtDot host' label' base') (hslash : ∃ rest, path.toList = '/' :: rest)
    (hslash' : ∃ rest, path'.toList = '/' :: rest) (hmark : '?' ∉ path.toList)
    (hmark' : '?' ∉ path'.toList)
    (h : cacheKeyText "GET" host path query = cacheKeyText "GET" host' path' query') :
    host = host' ∧ path = path' ∧ query = query' := by
  obtain ⟨rest, hpath⟩ := hslash
  obtain ⟨rest', hpath'⟩ := hslash'
  have hchars : label ++ '.' :: (base ++ '/' :: (rest ++ '?' :: query.toList)) =
      label' ++ '.' :: (base' ++ '/' :: (rest' ++ '?' :: query'.toList)) := by
    have htext := congrArg String.toList h
    rw [toList_cacheKeyText, toList_cacheKeyText, hhost.cut, hhost'.cut, hpath, hpath'] at htext
    simpa only [List.append_assoc, List.cons_append] using List.append_cancel_left htext
  obtain ⟨rfl, hbehind⟩ := cut_unique hchars hhost.first hhost'.first
  obtain ⟨rfl, htarget⟩ := cut_unique hbehind hhost.noSlash hhost'.noSlash
  rw [hpath, List.mem_cons, not_or] at hmark
  rw [hpath', List.mem_cons, not_or] at hmark'
  obtain ⟨rfl, hquery⟩ := cut_unique htarget hmark.2 hmark'.2
  refine ⟨String.toList_inj.mp ?_, String.toList_inj.mp ?_, String.toList_inj.mp hquery⟩
  · rw [hhost.cut, hhost'.cut]
  · rw [hpath, hpath']

/-! ## Keys -/

/-- The key of a request that is routed is the hash of such a text. -/
lemma requestKey_eq_some {cfg : Config} {key : String} (hrouted : RoutedTo domainMap req host)
    (h : requestKey cfg req = some key) :
    key = cfg.sha256Hex (cacheKeyText "GET" host req.uri.path req.uri.queryOrEmpty) := by
  obtain ⟨raw, hraw, rfl, -⟩ := hrouted
  obtain ⟨text, htext, rfl⟩ := Option.map_eq_some_iff.mp h
  rw [requestUrl, hraw, Option.bind_some, cacheTextOf] at htext
  split at htext
  · rw [← Option.some.inj htext]
  · cases htext

/-- Two requests that are routed and have one cache key have the same host, path and query. -/
theorem cache_keys_separate (cfg : Config) (domainMap domainMap' : String → Option String)
    (req req' : Request) (host host' key : String) (hsha : Function.Injective cfg.sha256Hex)
    (hmap : Registered domainMap) (hmap' : Registered domainMap')
    (hrouted : RoutedTo domainMap req host) (hrouted' : RoutedTo domainMap' req' host')
    (hform : OriginForm req.uri) (hform' : OriginForm req'.uri)
    (hkey : requestKey cfg req = some key) (hkey' : requestKey cfg req' = some key) :
    host = host' ∧ req.uri.path = req'.uri.path ∧ req.uri.queryOrEmpty = req'.uri.queryOrEmpty := by
  obtain ⟨label, base, hcut⟩ : ∃ label base, CutAtDot host label base := by
    obtain ⟨raw, -, -, hfound⟩ := hrouted
    exact cutAtDot_of_findOrigin hmap hfound
  obtain ⟨label', base', hcut'⟩ : ∃ label base, CutAtDot host' label base := by
    obtain ⟨raw, -, -, hfound⟩ := hrouted'
    exact cutAtDot_of_findOrigin hmap' hfound
  have htext := hsha ((requestKey_eq_some hrouted hkey).symm.trans (requestKey_eq_some hrouted' hkey'))
  exact cacheKeyText_inj hcut hcut' hform.slash hform'.slash hform.noMark hform'.noMark htext

/-- A domain map with one wildcard entry. -/
def schoolDomains (host : String) : Option String :=
  if host = "*.school.example" then some "http://origin" else none

/-- A GET request for the wildcard domain, and a HEAD request for the same URL whose header and
target are written in another way. -/
def schoolGet : Request where
  method := .get
  uri := { schemeAuthority := "", path := "/a/b", query := none }
  headers := [("host", "math.school.example")]

def schoolHead : Request where
  method := .head
  uri := { schemeAuthority := "", path := "/a/b", query := some "" }
  headers := [("host", "Math.School.Example.:443")]

theorem cache_keys_separate_school :
    requestKey sampleConfig schoolGet = requestKey sampleConfig schoolHead ∧
      schoolGet.uri.path = schoolHead.uri.path ∧
      schoolGet.uri.queryOrEmpty = schoolHead.uri.queryOrEmpty := by
  have hmap : Registered schoolDomains := by
    intro host hfound
    unfold schoolDomains at hfound
    split at hfound
    · rename_i hhost
      rw [hhost]
      decide
    · cases hfound
  have hget : RoutedTo schoolDomains schoolGet "math.school.example" :=
    ⟨"math.school.example", by decide, by decide, by decide⟩
  have hhead : RoutedTo schoolDomains schoolHead "math.school.example" :=
    ⟨"Math.School.Example.:443", by decide, by decide, by decide⟩
  have hslash : ∃ rest, schoolGet.uri.path.toList = '/' :: rest := ⟨"a/b".toList, by decide⟩
  have hkey : requestKey sampleConfig schoolGet = some "GET:math.school.example/a/b?" := by
    decide +kernel
  have hkey' : requestKey sampleConfig schoolHead = some "GET:math.school.example/a/b?" := by
    decide +kernel
  obtain ⟨-, hpath, hquery⟩ := cache_keys_separate sampleConfig schoolDomains schoolDomains schoolGet
    schoolHead _ _ _ Function.injective_id hmap hmap hget hhead ⟨hslash, by decide⟩ ⟨hslash, by decide⟩
    hkey hkey'
  exact ⟨hkey.trans hkey'.symm, hpath, hquery⟩

end SmartSchoolCdn
