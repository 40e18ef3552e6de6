import SmartSchoolCdn.Http

/-!
# Range requests

`services/proxy/src/range.rs` and `evaluate_range`: the parser of the single-range form of
the `Range` header, the resolution of a range against a body length, and the slice that a
206 response carries.
-/

namespace SmartSchoolCdn

/-- `ByteRange`. -/
inductive ByteRange
  | bounded (start stop : ℕ)
  | openEnd (start : ℕ)
  | suffix (length : ℕ)
  deriving DecidableEq, Repr

/-- `parse_u64_strict`: decimal digits only, below `2^64`. -/
def parseU64Strict (s : String) : Option ℕ :=
  (Text.digits? s.toList).bind fun n => if n < 2 ^ 64 then some n else none

/-- `parse_byte_range`. -/
def parseByteRange (header : String) : Option ByteRange :=
  (Text.stripHead (Text.trim header) "bytes=").bind fun spec =>
    if spec.toList.contains ',' then none
    else
      (Text.splitOnce spec '-').bind fun parts =>
        match parts.1.isEmpty, parts.2.isEmpty with
        | true, false =>
          (parseU64Strict parts.2).bind fun length =>
            if length = 0 then none else some (.suffix length)
        | false, true => (parseU64Strict parts.1).map .openEnd
        | false, false =>
          (parseU64Strict parts.1).bind fun start =>
            (parseU64Strict parts.2).bind fun stop =>
              if stop < start then none else some (.bounded start stop)
        | true, true => none

/-- `resolve_range`: the first and last byte to send, `none` when the range selects nothing. -/
def resolveRange (range : ByteRange) (totalSize : ℕ) : Option (ℕ × ℕ) :=
  if totalSize = 0 then none
  else
    let last := totalSize - 1
    match range with
    | .bounded start stop => if start > last then none else some (start, min stop last)
    | .openEnd start => if start > last then none else some (start, last)
    | .suffix length => some (totalSize - length, last)

/-- `format_content_range`. -/
def formatContentRange (start stop total : ℕ) : String :=
  "bytes " ++ toString start ++ "-" ++ toString stop ++ "/" ++ toString total

/-- `format_content_range_unsatisfied`. -/
def formatContentRangeUnsatisfied (total : ℕ) : String := "bytes */" ++ toString total

/-- `RangeOutcome`. -/
inductive RangeOutcome
  | full
  | partialBody (start stop : ℕ)
  | invalid
  deriving DecidableEq, Repr

/-- `evaluate_range`. -/
def evaluateRange (headers : HeaderMap) (totalSize : ℕ) : RangeOutcome :=
  match headers.getStr "range" with
  | none => .full
  | some raw =>
    match parseByteRange raw with
    | none => .full
    | some range =>
      match resolveRange range totalSize with
      | some (start, stop) => .partialBody start stop
      | none => .invalid

/-- `body.slice(start..=end)`. -/
def sliceBody (body : Bytes) (start stop : ℕ) : Bytes := (body.drop start).take (stop + 1 - start)

/-- The ranges that select something of a long enough body. -/
def ByteRange.WellFormed : ByteRange → Prop
  | .bounded start stop => start ≤ stop
  | .openEnd _ => True
  | .suffix length => 0 < length

/-- The parser accepts well-formed ranges only. -/
lemma wellFormed_of_parseByteRange {header : String} {range : ByteRange}
    (h : parseByteRange header = some range) : range.WellFormed := by
  unfold parseByteRange at h
  obtain ⟨spec, -, h⟩ := Option.bind_eq_some_iff.mp h
  split at h
  · cases h
  obtain ⟨parts, -, h⟩ := Option.bind_eq_some_iff.mp h
  split at h
  · obtain ⟨length, -, h⟩ := Option.bind_eq_some_iff.mp h
    split at h
    · cases h
    · rename_i hlength
      cases h
      exact Nat.pos_of_ne_zero hlength
  · obtain ⟨start, -, rfl⟩ := Option.map_eq_some_iff.mp h
    trivial
  · obtain ⟨start, -, h⟩ := Option.bind_eq_some_iff.mp h
    obtain ⟨stop, -, h⟩ := Option.bind_eq_some_iff.mp h
    split at h
    · cases h
    · rename_i hle
      cases h
      exact Nat.le_of_not_lt hle
  · cases h

/-- A resolved range lies within the body. -/
lemma ByteRange.WellFormed.bounds {range : ByteRange} (hrange : range.WellFormed)
    {totalSize start stop : ℕ} (h : resolveRange range totalSize = some (start, stop)) :
    start ≤ stop ∧ stop < totalSize := by
  unfold resolveRange at h
  split at h
  · cases h
  rename_i hpositive
  simp only at h
  cases range with
  | bounded first last =>
    have hordered : first ≤ last := hrange
    simp only at h
    split at h
    · cases h
    · obtain ⟨rfl, rfl⟩ := Prod.mk.inj (Option.some.inj h)
      omega
  | openEnd first =>
    simp only at h
    split at h
    · cases h
    · obtain ⟨rfl, rfl⟩ := Prod.mk.inj (Option.some.inj h)
      omega
  | suffix length =>
    have hlength : 0 < length := hrange
    obtain ⟨rfl, rfl⟩ := Prod.mk.inj (Option.some.inj h)
    omega

/-- The part of a 206 response lies within the body. -/
lemma evaluateRange_bounds {headers : HeaderMap} {totalSize start stop : ℕ}
    (h : evaluateRange headers totalSize = .partialBody start stop) :
    start ≤ stop ∧ stop < totalSize := by
  unfold evaluateRange at h
  split at h
  · cases h
  split at h
  · cases h
  rename_i range hparse
  split at h
  · rename_i first last hresolve
    obtain ⟨rfl, rfl⟩ := RangeOutcome.partialBody.inj h
    exact (wellFormed_of_parseByteRange hparse).bounds hresolve
  · cases h

/-- Without a `Range` header the whole body is sent. -/
lemma evaluateRange_of_no_range {headers : HeaderMap} (h : headers.get "range" = none)
    (totalSize : ℕ) : evaluateRange headers totalSize = .full := by
  simp [evaluateRange, HeaderMap.getStr, h]

example : parseByteRange " bytes=500-999 " = some (.bounded 500 999) := by decide

example : evaluateRange [("range", "bytes=-3")] 10 = .partialBody 7 9 := by decide

end SmartSchoolCdn
