import SmartSchoolCdn.Foundation.Grammar
import SmartSchoolCdn.Proxy.ContentCoding
import SmartSchoolCdn.Proxy.IfRange

/-!
# Range requests from end to end

The parser reads the single-range form of RFC 7233 between white space at the two ends
(`parseByteRange_eq_some_iff`).  The interval that is sent is exactly the set of positions that the
range selects, and a range that selects none is refused (`resolveRange_spec`).  Nothing on the way
can overflow or cut out of the body (`resolveChecked_eq`, `sliceChecked_eq`).

The answers of the cache levels and of the fetches follow it (`range_requests`).  Those to HEAD
requests have the same status and `Content-Range`, but no body, and announce the length of the whole
one.
-/

namespace SmartSchoolCdn

open Traces Text

/-! ## The grammar -/

/-- The two sides of the hyphen: first and last position, a first position, or a length of at least
one, in numbers of 64 bits. -/
inductive RangeParts : List Char → List Char → ByteRange → Prop
  | bounded {a b : List Char} {m n : ℕ} : Decimal a m → Decimal b n → m < 2 ^ 64 → n < 2 ^ 64 →
      m ≤ n → RangeParts a b (.bounded m n)
  | openEnd {a : List Char} {m : ℕ} : Decimal a m → m < 2 ^ 64 → RangeParts a [] (.openEnd m)
  | suffix {b : List Char} {n : ℕ} : Decimal b n → n < 2 ^ 64 → 0 < n → RangeParts [] b (.suffix n)

/-- The single-range form: `bytes=first-last`, `bytes=first-` or `bytes=-suffix`. -/
def RangeText (text : List Char) (range : ByteRange) : Prop :=
  ∃ a b, text = "bytes=".toList ++ (a ++ '-' :: b) ∧ RangeParts a b range

variable {header s spec : String} {range : ByteRange} {n total start stop : ℕ}

/-- `parse_u64_strict` reads numerals of 64 bits. -/
lemma parseU64Strict_eq_some_iff : parseU64Strict s = some n ↔ Decimal s.toList n ∧ n < 2 ^ 64 := by
  unfold parseU64Strict
  rw [Option.bind_eq_some_iff]
  constructor
  · rintro ⟨m, hm, h⟩
    split at h
    · obtain rfl := Option.some.inj h
      exact ⟨digits?_eq_some_iff.mp hm, ‹_›⟩
    · cases h
  · rintro ⟨hn, hlt⟩
    exact ⟨n, digits?_eq_some_iff.mpr hn, if_pos hlt⟩

/-- What the parser does with the two parts around the hyphen. -/
def parseParts (parts : String × String) : Option ByteRange :=
  match parts.1.isEmpty, parts.2.isEmpty with
  | true, false =>
    (parseU64Strict parts.2).bind fun length => if length = 0 then none else some (.suffix length)
  | false, true => (parseU64Strict parts.1).map .openEnd
  | false, false =>
    (parseU64Strict parts.1).bind fun start =>
      (parseU64Strict parts.2).bind fun stop =>
        if stop < start then none else some (.bounded start stop)
  | true, true => none

/-- The numerals are on the sides where the string is not empty. -/
lemma isEmpty_of_decimal (h : Decimal s.toList n) : s.isEmpty = false := by
  refine Bool.eq_false_iff.mpr fun hempty => h.ne_nil ?_
  rw [String.isEmpty_iff.mp hempty]
  rfl

/-- The parser reads the two sides. -/
lemma parseParts_eq_some_iff {parts : String × String} :
    parseParts parts = some range ↔ RangeParts parts.1.toList parts.2.toList range := by
  obtain ⟨p, q⟩ := parts
  constructor
  · intro h
    unfold parseParts at h
    split at h
    · rename_i hp hq
      obtain ⟨length, hlength, h⟩ := Option.bind_eq_some_iff.mp h
      obtain ⟨hdecimal, hlt⟩ := parseU64Strict_eq_some_iff.mp hlength
      split at h
      · cases h
      · rename_i hpos
        obtain rfl := Option.some.inj h
        rw [String.isEmpty_iff.mp hp]
        exact RangeParts.suffix hdecimal hlt (Nat.pos_of_ne_zero hpos)
    · rename_i hp hq
      obtain ⟨first, hfirst, rfl⟩ := Option.map_eq_some_iff.mp h
      obtain ⟨hdecimal, hlt⟩ := parseU64Strict_eq_some_iff.mp hfirst
      rw [String.isEmpty_iff.mp hq]
      exact RangeParts.openEnd hdecimal hlt
    · obtain ⟨first, hfirst, h⟩ := Option.bind_eq_some_iff.mp h
      obtain ⟨last, hlast, h⟩ := Option.bind_eq_some_iff.mp h
      obtain ⟨ha, hfirst⟩ := parseU64Strict_eq_some_iff.mp hfirst
      obtain ⟨hb, hlast⟩ := parseU64Strict_eq_some_iff.mp hlast
      split at h
      · cases h
      · rename_i hle
        obtain rfl := Option.some.inj h
        exact RangeParts.bounded ha hb hfirst hlast (Nat.le_of_not_lt hle)
    · cases h
  · intro h
    generalize hcs : p.toList = as at h
    generalize hds : q.toList = bs at h
    cases h with
    | @bounded _ _ m n ha hb hm hn hle =>
      subst hcs hds
      have hfirst := parseU64Strict_eq_some_iff.mpr ⟨ha, hm⟩
      have hlast := parseU64Strict_eq_some_iff.mpr ⟨hb, hn⟩
      simp only [parseParts, isEmpty_of_decimal ha, isEmpty_of_decimal hb, hfirst, hlast,
        Option.bind_some, if_neg (Nat.not_lt.mpr hle)]
    | @openEnd _ m ha hm =>
      subst hcs
      have hq : q.isEmpty = true := String.isEmpty_iff.mpr (String.toList_eq_nil_iff.mp hds)
      have hfirst := parseU64Strict_eq_some_iff.mpr ⟨ha, hm⟩
      simp only [parseParts, isEmpty_of_decimal ha, hq, hfirst, Option.map_some]
    | @suffix _ n hb hn hpos =>
      subst hds
      have hp : p.isEmpty = true := String.isEmpty_iff.mpr (String.toList_eq_nil_iff.mp hcs)
      have hlength := parseU64Strict_eq_some_iff.mpr ⟨hb, hn⟩
      simp only [parseParts, isEmpty_of_decimal hb, hp, hlength, Option.bind_some, if_neg hpos.ne']

/-- There is no comma in the two sides. -/
lemma RangeParts.not_mem_comma {a b : List Char} (h : RangeParts a b range) :
    ',' ∉ a ++ '-' :: b ∧ '-' ∉ a := by
  have hnone : ∀ {cs : List Char} {n : ℕ}, Decimal cs n → ',' ∉ cs ∧ '-' ∉ cs :=
    fun h => ⟨h.not_mem (by decide), h.not_mem (by decide)⟩
  cases h with
  | bounded ha hb =>
    refine ⟨fun hmem => ?_, (hnone ha).2⟩
    simp [(hnone ha).1, (hnone hb).1] at hmem
  | openEnd ha =>
    refine ⟨fun hmem => ?_, (hnone ha).2⟩
    simp [(hnone ha).1] at hmem
  | suffix hb =>
    refine ⟨fun hmem => ?_, List.not_mem_nil⟩
    simp [(hnone hb).1] at hmem

/-- `parse_byte_range` reads the single-range form, with white space at its two ends. -/
theorem parseByteRange_eq_some_iff :
    parseByteRange header = some range ↔ RangeText (trim header).toList range := by
  change ((stripHead (trim header) "bytes=").bind fun spec =>
    if spec.toList.contains ',' then none else (splitOnce spec '-').bind parseParts) = some range ↔ _
  constructor
  · intro h
    obtain ⟨spec, hspec, h⟩ := Option.bind_eq_some_iff.mp h
    split at h
    · cases h
    · obtain ⟨parts, hparts, h⟩ := Option.bind_eq_some_iff.mp h
      refine ⟨parts.1.toList, parts.2.toList, ?_, parseParts_eq_some_iff.mp h⟩
      rw [stripHead_eq_some_iff.mp hspec, (splitOnce_eq_some_iff.mp hparts).1]
  · rintro ⟨a, b, htext, hparts⟩
    obtain ⟨hcomma, hhyphen⟩ := hparts.not_mem_comma
    have hspec : stripHead (trim header) "bytes=" = some (String.ofList (a ++ '-' :: b)) := by
      rw [stripHead_eq_some_iff, htext, String.toList_ofList (l := a ++ '-' :: b)]
    have hcut : splitOnce (String.ofList (a ++ '-' :: b)) '-' = some (String.ofList a, String.ofList b) := by
      rw [splitOnce_eq_some_iff]
      simp only [String.toList_ofList]
      exact ⟨trivial, hhyphen⟩
    have hno : ¬ (String.ofList (a ++ '-' :: b)).toList.contains ',' = true := by
      rw [String.toList_ofList, List.contains_iff_mem]
      exact hcomma
    rw [hspec, Option.bind_some, if_neg hno, hcut, Option.bind_some, parseParts_eq_some_iff]
    simp only [String.toList_ofList]
    exact hparts

/-! ## The interval -/

/-- The positions of a body of some length that a range asks for (RFC 7233, section 2.1). -/
def ByteRange.Selects (range : ByteRange) (total i : ℕ) : Prop :=
  i < total ∧
    match range with
    | .bounded first last => first ≤ i ∧ i ≤ last
    | .openEnd first => first ≤ i
    | .suffix length => total ≤ i + length

/-- The interval is what the range selects. -/
structure ByteRange.Interval (range : ByteRange) (total start stop : ℕ) : Prop where
  ordered : start ≤ stop
  within : stop < total
  selects : ∀ i, range.Selects total i ↔ start ≤ i ∧ i ≤ stop

/-- There is one interval at most. -/
lemma ByteRange.Interval.unique {start' stop' : ℕ} (h : range.Interval total start stop)
    (h' : range.Interval total start' stop') : start = start' ∧ stop = stop' := by
  have hsame : ∀ i, (start ≤ i ∧ i ≤ stop) ↔ (start' ≤ i ∧ i ≤ stop') :=
    fun i => (h.selects i).symm.trans (h'.selects i)
  have hordered := h.ordered
  have hordered' := h'.ordered
  have hstart := (hsame start).mp ⟨le_rfl, hordered⟩
  have hstop := (hsame stop).mp ⟨hordered, le_rfl⟩
  have hstart' := (hsame start').mpr ⟨le_rfl, hordered'⟩
  have hstop' := (hsame stop').mpr ⟨hordered', le_rfl⟩
  omega

/-- A range is resolved to the interval that it selects, or selects nothing. -/
theorem resolveRange_spec (hrange : range.WellFormed) (total : ℕ) :
    (∃ start stop, resolveRange range total = some (start, stop) ∧ range.Interval total start stop) ∨
      (resolveRange range total = none ∧ ∀ i, ¬ range.Selects total i) := by
  by_cases hempty : total = 0
  · refine Or.inr ⟨if_pos hempty, fun i hi => ?_⟩
    have hlt := hi.1
    omega
  · rw [resolveRange, if_neg hempty]
    cases range with
    | bounded first last =>
      have hordered : first ≤ last := hrange
      by_cases hbeyond : first > total - 1
      · refine Or.inr ⟨if_pos hbeyond, fun i hi => ?_⟩
        obtain ⟨hlt, hfirst, -⟩ := hi
        omega
      · refine Or.inl ⟨first, min last (total - 1), if_neg hbeyond, by omega, by omega, fun i => ?_⟩
        change (i < total ∧ first ≤ i ∧ i ≤ last) ↔ _
        omega
    | openEnd first =>
      by_cases hbeyond : first > total - 1
      · refine Or.inr ⟨if_pos hbeyond, fun i hi => ?_⟩
        obtain ⟨hlt, hfirst⟩ := hi
        omega
      · refine Or.inl ⟨first, total - 1, if_neg hbeyond, by omega, by omega, fun i => ?_⟩
        change (i < total ∧ first ≤ i) ↔ _
        omega
    | suffix length =>
      have hlength : 0 < length := hrange
      refine Or.inl ⟨total - length, total - 1, rfl, by omega, by omega, fun i => ?_⟩
      change (i < total ∧ total ≤ i + length) ↔ _
      omega

/-! ## No panic -/

/-- A subtraction of unsigned numbers, which panics below zero. -/
def checkedSub (a b : ℕ) : Option ℕ := if b ≤ a then some (a - b) else none

/-- `resolve_range` with its one subtraction that can panic. -/
def resolveChecked (range : ByteRange) (totalSize : ℕ) : Option (Option (ℕ × ℕ)) :=
  if totalSize = 0 then some none
  else
    (checkedSub totalSize 1).map fun last =>
      match range with
      | .bounded start stop => if start > last then none else some (start, min stop last)
      | .openEnd start => if start > last then none else some (start, last)
      | .suffix length => some (totalSize - length, last)

/-- `body.slice(start..=end)`, which panics when the end has no successor, the interval is reversed
or the end is not in the body. -/
def sliceChecked (body : Bytes) (start stop : ℕ) : Option Bytes :=
  if stop + 1 < 2 ^ 64 ∧ start ≤ stop + 1 ∧ stop + 1 ≤ body.length then
    some ((body.drop start).take (stop + 1 - start))
  else none

/-- The subtraction never panics. -/
lemma resolveChecked_eq (range : ByteRange) (total : ℕ) :
    resolveChecked range total = some (resolveRange range total) := by
  unfold resolveChecked resolveRange
  by_cases hempty : total = 0
  · rw [if_pos hempty, if_pos hempty]
  · have hpos : 1 ≤ total := Nat.one_le_iff_ne_zero.mpr hempty
    rw [if_neg hempty, if_neg hempty, checkedSub, if_pos hpos]
    cases range with
    | bounded start stop => rfl
    | openEnd start => rfl
    | suffix length => rfl

/-- The slice of an interval never panics; the body has at most as many bytes as there are
addresses. -/
lemma sliceChecked_eq {body : Bytes} (hbody : body.length < 2 ^ 64)
    (h : range.Interval body.length start stop) :
    sliceChecked body start stop = some (sliceBody body start stop) := by
  have hwithin := h.within
  have hordered := h.ordered
  rw [sliceChecked, if_pos ⟨by omega, by omega, by omega⟩]
  rfl

/-- The slice has the bytes of the interval, at their positions. -/
lemma sliceBody_getElem? (body : Bytes) (start stop i : ℕ) :
    (sliceBody body start stop)[i]? = if start + i ≤ stop then body[start + i]? else none := by
  rw [sliceBody, List.getElem?_take, List.getElem?_drop]
  by_cases hle : start + i ≤ stop
  · rw [if_pos hle, if_pos (by omega)]
  · rw [if_neg hle, if_neg (by omega)]

/-- It has as many bytes as the interval has positions. -/
lemma length_sliceBody {body : Bytes} (h : range.Interval body.length start stop) :
    (sliceBody body start stop).length = stop + 1 - start := by
  have hwithin := h.within
  have hordered := h.ordered
  rw [sliceBody, List.length_take, List.length_drop]
  omega

/-! ## Responses -/

variable {headers : HeaderMap} {req : Request}

/-- The outcome of a range that the parser follows is the interval that it selects, or a refusal if
it selects nothing. -/
lemma evaluateRange_spec (h : (headers.getStr "range").bind parseByteRange = some range) (total : ℕ) :
    (∃ start stop, evaluateRange headers total = .partialBody start stop ∧
        range.Interval total start stop) ∨
      (evaluateRange headers total = .invalid ∧ ∀ i, ¬ range.Selects total i) := by
  obtain ⟨raw, hraw, hparse⟩ := Option.bind_eq_some_iff.mp h
  rcases resolveRange_spec (wellFormed_of_parseByteRange hparse) total with
    ⟨start, stop, hresolve, hinterval⟩ | ⟨hresolve, hnone⟩
  · refine Or.inl ⟨start, stop, ?_, hinterval⟩
    simp only [evaluateRange, hraw, hparse, hresolve]
  · refine Or.inr ⟨?_, hnone⟩
    simp only [evaluateRange, hraw, hparse, hresolve]

/-- The response is the interval that the range selects of the body, a refusal if it selects
nothing, and the whole body without a range; the `Content-Range` says which. -/
def Response.Serves (sent : Response) (body : Bytes) : Option ByteRange → Prop
  | none => sent.status = 200 ∧ sent.body = body ∧ sent.headers.get "content-range" = none
  | some range =>
    (∃ start stop, range.Interval body.length start stop ∧ sent.status = 206 ∧
        sent.body = sliceBody body start stop ∧ sent.body.length = stop + 1 - start ∧
        sent.headers.get "content-range" = some (formatContentRange start stop body.length)) ∨
      ((∀ i, ¬ range.Selects body.length i) ∧ sent.status = 416 ∧ sent.body = [] ∧
        sent.headers.get "content-range" = some (formatContentRangeUnsatisfied body.length))

/-- A HIT with its body follows the range. -/
lemma serves_hitBody (cfg : Config) (reason : CacheOutcome) {entry : MemoryCacheEntry}
    (hheaders : ∀ nv ∈ entry.cachedHeaders, nv.1 ∈ cacheableHeaders)
    (hrange : (req.headers.get "range").isSome = true) :
    Response.Serves { hitResponse cfg reason req entry with body := (hitBody cfg req entry).2.1 }
      entry.body.bytes ((req.headers.getStr "range").bind parseByteRange) := by
  obtain ⟨-, hannounced⟩ := get_hitResponse cfg reason req hheaders
  have hstatus : (hitResponse cfg reason req entry).status = (hitBody cfg req entry).1 := rfl
  cases hparse : (req.headers.getStr "range").bind parseByteRange with
  | none =>
    have hfull := (evaluateRange_eq_full_iff req.headers entry.body.bytes.length).mpr hparse
    have hhit : hitBody cfg req entry = (200, entry.body.bytes, none, none) := by
      simp [hitBody, hfull, hrange, selectEncodedBody]
    rw [Response.Serves, hstatus, hannounced, hhit]
    exact ⟨rfl, rfl, rfl⟩
  | some range =>
    rcases evaluateRange_spec hparse entry.body.bytes.length with
      ⟨start, stop, hpart, hinterval⟩ | ⟨hrefused, hnone⟩
    · have hhit : hitBody cfg req entry = (206, sliceBody entry.body.bytes start stop,
          some (formatContentRange start stop entry.body.bytes.length), none) := by
        simp [hitBody, hpart]
      rw [Response.Serves, hstatus, hannounced, hhit]
      exact Or.inl ⟨start, stop, hinterval, rfl, rfl, length_sliceBody hinterval, rfl⟩
    · have hhit : hitBody cfg req entry =
          (416, [], some (formatContentRangeUnsatisfied entry.body.bytes.length), none) := by
        simp [hitBody, hrefused]
      rw [Response.Serves, hstatus, hannounced, hhit]
      exact Or.inr ⟨hnone, rfl, rfl, rfl⟩

/-- Only to HEAD requests it is sent without its body. -/
lemma body_hitResponse (cfg : Config) (reason : CacheOutcome) (entry : MemoryCacheEntry)
    (hmethod : req.method ≠ .head) :
    (hitResponse cfg reason req entry).body = (hitBody cfg req entry).2.1 := by
  have hhead : (req.method == Method.head) = false := beq_eq_false_iff_ne.mpr hmethod
  simp [hitResponse, hhead]

/-- A HIT follows the range. -/
lemma serves_hitResponse (cfg : Config) (reason : CacheOutcome) {entry : MemoryCacheEntry}
    (hheaders : ∀ nv ∈ entry.cachedHeaders, nv.1 ∈ cacheableHeaders) (hmethod : req.method ≠ .head)
    (hrange : (req.headers.get "range").isSome = true) :
    (hitResponse cfg reason req entry).Serves entry.body.bytes
      ((req.headers.getStr "range").bind parseByteRange) := by
  have hserves := serves_hitBody cfg reason hheaders hrange
  rw [← body_hitResponse cfg reason entry hmethod] at hserves
  exact hserves

/-- The response after a fetch follows the range, if the origin has answered with 200. -/
lemma serves_missResponse {r : Coalesced}
    (hcached : ∀ nv ∈ r.cachedHeaders, nv.1 ≠ "content-encoding" ∧ nv.1 ≠ "content-range")
    (hpassed : ∀ nv ∈ r.passthroughHeaders, nv.1 ≠ "content-encoding" ∧ nv.1 ≠ "content-range")
    (hok : r.status = 200) :
    (missResponse req r).Serves r.body ((req.headers.getStr "range").bind parseByteRange) := by
  obtain ⟨-, hannounced⟩ := get_missResponse req hcached hpassed
  have hbody : (missResponse req r).body = (missBody req r).2.1 := rfl
  have hstatus : (missResponse req r).status = (missBody req r).1 := rfl
  cases hparse : (req.headers.getStr "range").bind parseByteRange with
  | none =>
    have hfull := (evaluateRange_eq_full_iff req.headers r.body.length).mpr hparse
    have hmiss : missBody req r = (200, r.body, none) := by
      simp [missBody, hok, hfull]
    rw [Response.Serves, hstatus, hbody, hannounced, hmiss]
    exact ⟨rfl, rfl, rfl⟩
  | some range =>
    rcases evaluateRange_spec hparse r.body.length with
      ⟨start, stop, hpart, hinterval⟩ | ⟨hrefused, hnone⟩
    · have hmiss : missBody req r = (206, sliceBody r.body start stop,
          some (formatContentRange start stop r.body.length)) := by
        simp [missBody, hok, hpart]
      rw [Response.Serves, hstatus, hbody, hannounced, hmiss]
      exact Or.inl ⟨start, stop, hinterval, rfl, rfl, length_sliceBody hinterval, rfl⟩
    · have hmiss : missBody req r = (416, [], some (formatContentRangeUnsatisfied r.body.length)) := by
        simp [missBody, hok, hrefused]
      rw [Response.Serves, hstatus, hbody, hannounced, hmiss]
      exact Or.inr ⟨hnone, rfl, rfl, rfl⟩

/-- An answer from a cache level or a fetch follows the range, if it is given the body that is left
out for a HEAD request. -/
lemma Answer.Backed.serves {cfg : Config} {P : Exchange → Prop} {ans : Answer} (h : ans.Backed cfg P)
    (hbuilt : ans.Built cfg) (hrange : (ans.request.headers.get "range").isSome = true)
    {rep : Representation} (hrep : ans.via.representation = some rep) (hok : rep.status = 200) :
    ∃ body, Response.Serves { ans.response with body := body } rep.body
        ((ans.request.headers.getStr "range").bind parseByteRange) ∧
      (ans.request.method ≠ .head → ans.response.body = body) := by
  rw [Answer.Built] at hbuilt
  cases hvia : ans.via with
  | own =>
    rw [hvia] at hrep
    cases hrep
  | l1Hit slot =>
    rw [Answer.Backed, hvia] at h
    rw [hvia] at hbuilt hrep
    obtain ⟨key, -, ⟨-, -, hderives⟩, -⟩ := h
    obtain rfl := Option.some.inj hrep
    rw [hbuilt]
    exact ⟨_, serves_hitBody cfg .l1Hit hderives.coded.1 hrange, body_hitResponse cfg .l1Hit _⟩
  | l2Hit x lookedUpAt =>
    rw [Answer.Backed, hvia] at h
    rw [hvia] at hbuilt hrep
    obtain ⟨key, -, ⟨-, -, hderives⟩, -⟩ := h
    obtain rfl := Option.some.inj hrep
    rw [hbuilt]
    exact ⟨_, serves_hitBody cfg .l2Hit hderives.coded.1 hrange, body_hitResponse cfg .l2Hit _⟩
  | coalesced leader result =>
    rw [hvia] at hbuilt hrep
    obtain ⟨r, hr, rfl⟩ := Option.map_eq_some_iff.mp hrep
    obtain ⟨hcached, hpassed⟩ := h.result_headers hvia hr
    have hresp : ans.response = missResponse ans.request r := by
      rw [hbuilt, coalescedAnswer, hr]
    rw [hresp]
    exact ⟨_, serves_missResponse hcached hpassed hok, fun _ => rfl⟩

/-- The parser accepts the single-range form between white space and nothing else; the outcome is
the whole body for every other header, else the interval that the range selects, or a refusal if it
selects nothing; neither the arithmetic nor the slice panics; and in every run every answer to a
request with a `Range` header is what the range selects of the body that a cache level holds or the
origin has sent with status 200, but for the body of an answer to a HEAD request. -/
theorem range_requests :
    (∀ header range, parseByteRange header = some range ↔ RangeText (trim header).toList range) ∧
    (∀ headers total, evaluateRange headers total = .full ↔
      (headers.getStr "range").bind parseByteRange = none) ∧
    (∀ headers range total, (headers.getStr "range").bind parseByteRange = some range →
      (∀ start stop, evaluateRange headers total = .partialBody start stop ↔
        range.Interval total start stop) ∧
      (evaluateRange headers total = .invalid ↔ ∀ i, ¬ range.Selects total i)) ∧
    (∀ range total, resolveChecked range total = some (resolveRange range total)) ∧
    (∀ (range : ByteRange) (body : Bytes) (start stop : ℕ), body.length < 2 ^ 64 →
      range.Interval body.length start stop →
      sliceChecked body start stop = some (sliceBody body start stop) ∧
      ∀ i, (sliceBody body start stop)[i]? = if start + i ≤ stop then body[start + i]? else none) ∧
    ∀ (cfg : Config) (maxSizeBytes : UInt64) (as : List Action) (t : State),
      Trace (step cfg) Free (State.initial maxSizeBytes) as t →
      ∀ ans ∈ t.answers, (ans.request.headers.get "range").isSome = true →
        ∀ rep, ans.via.representation = some rep → rep.status = 200 →
          ∃ body, Response.Serves { ans.response with body := body } rep.body
              ((ans.request.headers.getStr "range").bind parseByteRange) ∧
            (ans.request.method ≠ .head → ans.response.body = body) := by
  refine ⟨fun header range => parseByteRange_eq_some_iff, evaluateRange_eq_full_iff, ?_, resolveChecked_eq,
    ?_, ?_⟩
  · intro headers range total hparse
    rcases evaluateRange_spec hparse total with ⟨start, stop, hpart, hinterval⟩ | ⟨hrefused, hnone⟩
    · rw [hpart]
      refine ⟨fun start' stop' => ⟨fun heq => ?_, fun h => ?_⟩, iff_of_false (by simp) fun hnone => ?_⟩
      · obtain ⟨rfl, rfl⟩ := RangeOutcome.partialBody.inj heq
        exact hinterval
      · obtain ⟨rfl, rfl⟩ := hinterval.unique h
        rfl
      · exact hnone start ((hinterval.selects start).mpr ⟨le_rfl, hinterval.ordered⟩)
    · rw [hrefused]
      refine ⟨fun start stop => iff_of_false (by simp) fun h => ?_, iff_of_true rfl hnone⟩
      exact hnone start ((h.selects start).mpr ⟨le_rfl, h.ordered⟩)
  · exact fun range body start stop hbody h =>
      ⟨sliceChecked_eq hbody h, fun i => sliceBody_getElem? body start stop i⟩
  · intro cfg maxSizeBytes as t h ans hans hrange rep hrep hok
    exact (backed_of_run h ans hans).serves (built_of_run h ans hans) hrange hrep hok

/-- The parser accepts a header with blanks around the range; and a HEAD request with a range is
answered with status 206 and no body, announced with the length of the whole body. -/
theorem range_requests_exceptions :
    (¬ ∀ header range, parseByteRange header = some range ↔ RangeText header.toList range) ∧
    ∃ t, Reaches (step sampleConfig) (State.initial 1000000) t ∧ ∃ ans ∈ t.answers,
      ans.request.method = .head ∧ ans.response.status = 206 ∧ ans.response.body = [] ∧
        ans.response.headers.get "content-range" = some "bytes 0-0/3" ∧
        ans.response.headers.get "content-length" = some "3" := by
  constructor
  · intro h
    obtain ⟨a, b, htext, -⟩ := (h " bytes=0-9 " (.bounded 0 9)).mp (by decide)
    have hfirst := congrArg List.head? htext
    rw [show ("bytes=" : String).toList = 'b' :: "ytes=".toList from rfl, List.cons_append] at hfirst
    exact absurd hfirst (by simp)
  · have hrun : ((run (step sampleConfig) sampleStart (logoActions ++
        [.arrive (sampleRequest .head "/logo.png" [("range", "bytes=0-0")]), .l1Get 1])).any fun t =>
        t.answers.any fun ans => decide (ans.request.method = .head ∧ ans.response.status = 206 ∧
          ans.response.body = [] ∧ ans.response.headers.get "content-range" = some "bytes 0-0/3" ∧
          ans.response.headers.get "content-length" = some "3")) = true := by
      decide +kernel
    obtain ⟨t, ht, hany⟩ := exists_trace_of_run hrun
    obtain ⟨ans, hans, hsent⟩ := List.any_eq_true.mp hany
    exact ⟨t, ht.reaches, ans, hans, of_decide_eq_true hsent⟩

end SmartSchoolCdn
