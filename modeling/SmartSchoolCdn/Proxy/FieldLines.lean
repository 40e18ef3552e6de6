import SmartSchoolCdn.Foundation.Grammar
import SmartSchoolCdn.Proxy.Policy

/-!
# Lists over several field lines

The lines of a list header are one list, wherever it is cut into lines.  `has_vary_star` looks at
every `Vary` line but only for a star that stands alone on it; `parse_cache_control` is given the
first `Cache-Control` line only, cuts it at every comma, quoted or not, and compares whole pieces, so
that it knows no argument.  Without a readable first line it reads `Pragma`.

So the flags of a response are those of its combined lists exactly when the first line names what
the list forbids, and a star stands alone on a line (`follows_lists`).
-/

namespace SmartSchoolCdn

open Text

variable {headers headers' : HeaderMap} {name v w : String}

/-! ## Combined lists -/

/-- The members on one line: what it has between commas that are not quoted, without the white space
around it.  Empty members do not count. -/
def lineMembers (line : String) : List String :=
  ((splitUnquoted ',' .outside line.toList).map fun piece => trim (String.ofList piece)).filter
    fun member => !member.isEmpty

/-- The members of a list header, those of all its lines. -/
def HeaderMap.listMembers (headers : HeaderMap) (name : String) : List String :=
  (headers.getAll name).flatMap lineMembers

/-- Two lines joined by a comma have the same members, if the first one closes its quotes. -/
theorem listMembers_join {before after : List String}
    (hlines : headers.getAll name = before ++ v :: w :: after)
    (hjoined : headers'.getAll name = before ++ (v ++ "," ++ w) :: after)
    (hclosed : v.toList.foldl Quote.next .outside = .outside) :
    headers.listMembers name = headers'.listMembers name := by
  have hcut : splitUnquoted ',' .outside (v ++ "," ++ w).toList =
      splitUnquoted ',' .outside v.toList ++ splitUnquoted ',' .outside w.toList := by
    rw [← splitUnquoted_append (by decide) hclosed]
    simp
  have hline : lineMembers (v ++ "," ++ w) = lineMembers v ++ lineMembers w := by
    simp only [lineMembers, hcut, List.map_append, List.filter_append]
  simp only [HeaderMap.listMembers, hlines, hjoined, List.flatMap_append, List.flatMap_cons, hline,
    List.append_assoc]

/-- The names of the directives that forbid a shared cache to store a response. -/
def forbiddingDirectives : List String := ["no-store", "no-cache", "private"]

/-- The name of a directive, without its argument. -/
def directiveName (directive : String) : String := lower (trim (beforeFirst directive '='))

/-- Some directive of the `Cache-Control` list forbids to store the response. -/
def ForbidsStoring (headers : HeaderMap) : Prop :=
  ∃ directive ∈ headers.listMembers "cache-control", directiveName directive ∈ forbiddingDirectives

/-- The star is a member of the `Vary` list. -/
def VariesOnEverything (headers : HeaderMap) : Prop := "*" ∈ headers.listMembers "vary"

/-- The lists of both headers are the same, however they are cut into lines. -/
structure SameLists (headers headers' : HeaderMap) : Prop where
  cacheControl : headers.listMembers "cache-control" = headers'.listMembers "cache-control"
  vary : headers.listMembers "vary" = headers'.listMembers "vary"

/-- The two flags of a response are those of its lists. -/
structure FollowsLists (headers : HeaderMap) : Prop where
  noStore : cacheDirectiveOf headers = .noStore ↔ ForbidsStoring headers
  varyStar : hasVaryStar headers = true ↔ VariesOnEverything headers

/-! ## What is read -/

/-- The first `Cache-Control` line is readable and has one of the names alone between two commas. -/
def NamedOnFirstLine (headers : HeaderMap) : Prop :=
  ∃ line, headers.getStr "cache-control" = some line ∧
    ∃ piece ∈ split line ',', lower (trim piece) ∈ forbiddingDirectives

/-- There is no readable first line, and the `Pragma` line says `no-cache`. -/
def ForbiddenByPragma (headers : HeaderMap) : Prop :=
  headers.getStr "cache-control" = none ∧
    ∃ pragma, headers.getStr "pragma" = some pragma ∧ contains pragma "no-cache" = true

/-- The star stands alone on some readable `Vary` line. -/
def StarAlone (headers : HeaderMap) : Prop :=
  ∃ line ∈ headers.getAll "vary", (toStr line).isSome = true ∧ trim line = "*"

/-- A readable value is read as it stands. -/
lemma toStr_eq_some (h : toStr v = some w) : w = v := by
  unfold toStr at h
  split at h
  · exact (Option.some.inj h).symm
  · cases h

/-- What the parser makes of the lines. -/
lemma cacheDirectiveOf_eq_noStore_iff :
    cacheDirectiveOf headers = .noStore ↔ NamedOnFirstLine headers ∨ ForbiddenByPragma headers := by
  unfold cacheDirectiveOf NamedOnFirstLine ForbiddenByPragma
  cases hline : headers.getStr "cache-control" with
  | none =>
    cases hpragma : headers.getStr "pragma" with
    | none => simp [parseCacheControl]
    | some pragma =>
      cases hsays : contains pragma "no-cache" <;> simp [parseCacheControl, hsays]
  | some line =>
    have hnames : ∀ word : String, (word == "no-store" || word == "no-cache" || word == "private") =
        true ↔ word ∈ forbiddingDirectives := by
      simp [forbiddingDirectives, or_assoc]
    simp only [parseCacheControl]
    split
    · rename_i hany
      obtain ⟨piece, hpiece, hword⟩ := List.any_eq_true.mp hany
      exact iff_of_true rfl (Or.inl ⟨line, rfl, piece, hpiece, (hnames _).mp hword⟩)
    · rename_i hany
      refine iff_of_false ?_ ?_
      · split <;> exact CacheDirective.noConfusion
      · rintro (⟨line', hsame, piece, hpiece, hword⟩ | ⟨hnone, -⟩)
        · obtain rfl := Option.some.inj hsame
          exact hany (List.any_eq_true.mpr ⟨piece, hpiece, (hnames _).mpr hword⟩)
        · cases hnone

/-- What `has_vary_star` finds. -/
lemma hasVaryStar_iff : hasVaryStar headers = true ↔ StarAlone headers := by
  unfold hasVaryStar StarAlone
  rw [List.any_eq_true]
  refine exists_congr fun line => and_congr_right fun _ => ?_
  cases hread : toStr line with
  | none => simp
  | some text =>
    obtain rfl := toStr_eq_some hread
    simp

/-- A star alone on a line is a member of the list. -/
lemma StarAlone.variesOnEverything (h : StarAlone headers) : VariesOnEverything headers := by
  obtain ⟨line, hline, -, hstar⟩ := h
  have hcomma : ',' ∉ line.toList := by
    intro hmem
    rcases isSpace_or_mem_trim hmem with hspace | hkept
    · exact absurd hspace (by decide)
    · rw [hstar] at hkept
      exact absurd hkept (by decide)
  refine List.mem_flatMap.mpr ⟨line, hline, ?_⟩
  rw [lineMembers, splitUnquoted_eq_singleton hcomma]
  simp [hstar]

/-! ## The condition -/

/-- The first line decides as the list does: what the list forbids, the first line names without an
argument, or `Pragma` stands in for it; and neither says more than the list. -/
structure CacheControlRead (headers : HeaderMap) : Prop where
  named : ForbidsStoring headers → NamedOnFirstLine headers ∨ ForbiddenByPragma headers
  unquoted : NamedOnFirstLine headers → ForbidsStoring headers
  withoutPragma : ForbiddenByPragma headers → ForbidsStoring headers

/-- A star of the list stands alone on some line. -/
def VaryRead (headers : HeaderMap) : Prop := VariesOnEverything headers → StarAlone headers

/-- The first flag is that of the list exactly when the first line decides as the list. -/
lemma noStore_iff_cacheControlRead :
    (cacheDirectiveOf headers = .noStore ↔ ForbidsStoring headers) ↔ CacheControlRead headers := by
  rw [cacheDirectiveOf_eq_noStore_iff]
  constructor
  · intro h
    exact ⟨h.mpr, fun hnamed => h.mp (Or.inl hnamed), fun hpragma => h.mp (Or.inr hpragma)⟩
  · intro h
    exact ⟨fun hread => hread.elim h.unquoted h.withoutPragma, h.named⟩

/-- The second flag is that of the list exactly when a star of the list stands alone. -/
lemma varyStar_iff_varyRead :
    (hasVaryStar headers = true ↔ VariesOnEverything headers) ↔ VaryRead headers := by
  rw [hasVaryStar_iff]
  exact ⟨fun h => h.mpr, fun h => ⟨StarAlone.variesOnEverything, h⟩⟩

/-- Two facts agree exactly when they agree or disagree with a third one alike. -/
lemma agree_iff {p p' q : Prop} : (p ↔ p') ↔ ((p ↔ q) ↔ (p' ↔ q)) := by
  by_cases hp : p <;> by_cases hp' : p' <;> by_cases hq : q <;> simp [hp, hp', hq]

/-- For every response, the flags are those of its combined lists if and only if the first
`Cache-Control` line decides as the list and a star of the `Vary` list stands alone; and two ways to
cut the same lists into lines have the same flags if and only if this holds of both or of none, for
either header.  Joining two lines by a comma is such a way. -/
theorem follows_lists (headers headers' : HeaderMap) :
    (FollowsLists headers ↔ CacheControlRead headers ∧ VaryRead headers) ∧
    (∀ name v w before after,
      headers.getAll name = before ++ v :: w :: after →
      headers'.getAll name = before ++ (v ++ "," ++ w) :: after →
      v.toList.foldl Quote.next .outside = .outside →
      headers.listMembers name = headers'.listMembers name) ∧
    (SameLists headers headers' →
      ((cacheDirectiveOf headers = .noStore ↔ cacheDirectiveOf headers' = .noStore) ↔
        (CacheControlRead headers ↔ CacheControlRead headers')) ∧
      ((hasVaryStar headers = true ↔ hasVaryStar headers' = true) ↔
        (VaryRead headers ↔ VaryRead headers'))) := by
  refine ⟨?_, fun name v w before after => listMembers_join, ?_⟩
  · constructor
    · intro h
      exact ⟨noStore_iff_cacheControlRead.mp h.noStore, varyStar_iff_varyRead.mp h.varyStar⟩
    · rintro ⟨hcontrol, hvary⟩
      exact ⟨noStore_iff_cacheControlRead.mpr hcontrol, varyStar_iff_varyRead.mpr hvary⟩
  · intro hsame
    have hforbids : ForbidsStoring headers ↔ ForbidsStoring headers' := by
      rw [ForbidsStoring, ForbidsStoring, hsame.cacheControl]
    have hvaries : VariesOnEverything headers ↔ VariesOnEverything headers' := by
      rw [VariesOnEverything, VariesOnEverything, hsame.vary]
    rw [← noStore_iff_cacheControlRead, ← noStore_iff_cacheControlRead, ← varyStar_iff_varyRead,
      ← varyStar_iff_varyRead, hforbids, hvaries]
    exact ⟨agree_iff, agree_iff⟩

/-- `no-store` on a second line, `no-cache` with an argument, `private` between quoted commas, and a
star after another member; joined in one line the first response is not stored. -/
theorem lists_not_followed :
    ¬ FollowsLists [("cache-control", "max-age=60"), ("cache-control", "no-store")] ∧
    ¬ FollowsLists [("cache-control", "no-cache=\"set-cookie\"")] ∧
    ¬ FollowsLists [("cache-control", "community=\"a, private, b\"")] ∧
    ¬ FollowsLists [("vary", "accept-encoding, *")] ∧
    SameLists [("cache-control", "max-age=60"), ("cache-control", "no-store")]
      [("cache-control", "max-age=60,no-store")] ∧
    cacheDirectiveOf [("cache-control", "max-age=60"), ("cache-control", "no-store")] =
      .cacheable (some 60) ∧
    cacheDirectiveOf [("cache-control", "max-age=60,no-store")] = .noStore := by
  refine ⟨?_, ?_, ?_, ?_, ⟨by decide, by decide⟩, by decide, by decide⟩
  · intro h
    exact absurd (h.noStore.mpr ⟨"no-store", by decide, by decide⟩) (by decide)
  · intro h
    exact absurd (h.noStore.mpr ⟨"no-cache=\"set-cookie\"", by decide, by decide⟩) (by decide)
  · intro h
    obtain ⟨directive, hmem, hname⟩ := h.noStore.mp (by decide)
    rw [show HeaderMap.listMembers [("cache-control", "community=\"a, private, b\"")]
      "cache-control" = ["community=\"a, private, b\""] by decide, List.mem_singleton] at hmem
    rw [hmem] at hname
    exact absurd hname (by decide)
  · intro h
    exact absurd (h.varyStar.mpr (by decide : "*" ∈ _)) (by decide)

end SmartSchoolCdn
