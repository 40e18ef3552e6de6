import SmartSchoolCdn.Proxy.Policy

/-!
# Text compression and content negotiation

`services/proxy/src/compress.rs`, `select_encoded_body`, and the choice of what a background
save stores.  The codecs of the `brotli` and `flate2` crates are parameters.  The weight of
an `Accept-Encoding` member is an `f32` in the code; only its sign is used, and
`f32IsPositive` decides that from the decimal text without floating point.
-/

namespace SmartSchoolCdn

/-! ## Negotiation -/

/-- `Encoding`. -/
inductive Encoding
  | br
  | gzip
  | identity
  deriving DecidableEq, Repr

/-- The mantissa of a decimal: the digits without the point, and how many follow the point.
There has to be a digit. -/
def decimalMantissa (cs : List Char) : Option (ℕ × ℕ) :=
  let whole := cs.takeWhile (· != '.')
  let rest := (cs.dropWhile (· != '.')).drop 1
  (Text.digits? (whole ++ rest)).map fun n => (n, rest.length)

/-- The exponent of a decimal, after the letter. -/
def decimalExponent (cs : List Char) : Option ℤ :=
  match cs with
  | '-' :: ds => (Text.digits? ds).map fun n => -(n : ℤ)
  | '+' :: ds => (Text.digits? ds).map fun n => (n : ℤ)
  | ds => (Text.digits? ds).map fun n => (n : ℤ)

/-- Whether `m * 10 ^ e` rounds to a positive `f32`: it has to exceed half of the least
subnormal number, `2 ^ (-150)`. -/
def scaledIsPositive (m : ℕ) (e : ℤ) : Bool :=
  if 0 ≤ e then 0 < m else 10 ^ e.natAbs < m * 2 ^ 150

/-- `v.parse::<f32>()` followed by `> 0.0`: `none` when the text is not a number. -/
def f32IsPositive (v : String) : Option Bool :=
  let cs := (Text.lower v).toList
  let (negative, body) := match cs with
    | '-' :: rest => (true, rest)
    | '+' :: rest => (false, rest)
    | rest => (false, rest)
  if body = ['i', 'n', 'f'] ∨ body = "infinity".toList then some (!negative)
  else if body = ['n', 'a', 'n'] then some false
  else
    (decimalMantissa (body.takeWhile (· != 'e'))).bind fun mant =>
      match body.dropWhile (· != 'e') with
      | [] => some (!negative && scaledIsPositive mant.1 (-(mant.2 : ℤ)))
      | _ :: ex =>
        (decimalExponent ex).map fun e => !negative && scaledIsPositive mant.1 (e - mant.2)

/-- One member of `Accept-Encoding`: the coding name and whether its weight is positive; the
last `q=` that parses counts. -/
def acceptMember (item : String) : String × Bool :=
  let parts := (Text.split item ';').map Text.trim
  (Text.lower (parts.headD ""),
    (parts.drop 1).foldl (fun accepted p =>
      match (Text.stripHead p "q=").bind f32IsPositive with
      | some positive => positive
      | none => accepted) true)

/-- The members of an `Accept-Encoding` value. -/
def acceptMembers (raw : String) : List (String × Bool) :=
  (((Text.split raw ',').map Text.trim).filter fun item => !item.isEmpty).map acceptMember

/-- `negotiate_encoding`. -/
def negotiateEncoding (acceptEncoding : Option String) : Encoding :=
  match acceptEncoding with
  | none => .identity
  | some raw =>
    if (Text.trim raw).isEmpty then .identity
    else
      let members := acceptMembers raw
      let brOk := members.any fun m => m.1 == "br" && m.2
      let gzipOk := members.any fun m => m.1 == "gzip" && m.2
      let starOk := members.any fun m => m.1 == "*" && m.2
      if brOk || starOk then .br else if gzipOk then .gzip else .identity

/-! ## What may be compressed -/

/-- `WHITELIST` of text types. -/
def textWhitelist : List String :=
  ["text/html", "text/css", "text/plain", "text/xml", "application/javascript",
   "application/json", "application/xml", "image/svg+xml"]

/-- `should_compress`. -/
def shouldCompress (contentType contentEncoding : Option String) (size minBytes : ℕ) : Bool :=
  if size < minBytes then false
  else
    let ce := Text.lower (Text.trim (contentEncoding.getD ""))
    if !ce.isEmpty && ce != "identity" then false
    else
      match contentType with
      | none => false
      | some ct => textWhitelist.contains (Text.lower (contentTypeBase ct))

/-- `TextCompressConfig`. -/
structure TextCompressConfig where
  enabled : Bool
  minBytes : ℕ
  brLevel : ℕ
  gzipLevel : ℕ
  maxBytes : ℕ
  deriving Repr

/-- The codecs the proxy links against, `none` where the crate returns an error, and the
`f32` comparison of lengths that accepts a compressed body. -/
structure Codecs where
  compressBrotli : Bytes → ℕ → Option Bytes
  decompressBrotli : Bytes → Option Bytes
  encodeGzip : Bytes → ℕ → Option Bytes
  isSmaller : ℕ → ℕ → Bool

/-- `select_encoded_body`: the body to send and the value of `Content-Encoding`. -/
def selectEncodedBody (codecs : Codecs) (body : Bytes) (bodyBr : Option Bytes) (hasRange : Bool)
    (gzipLevel : ℕ) (acceptEncoding : Option String) : Bytes × Option String :=
  if hasRange then (body, none)
  else
    match bodyBr with
    | none => (body, none)
    | some br =>
      match negotiateEncoding acceptEncoding with
      | .br => (br, some "br")
      | .gzip =>
        match (codecs.decompressBrotli br).bind fun raw => codecs.encodeGzip raw gzipLevel with
        | some gz => (gz, some "gzip")
        | none => (body, none)
      | .identity => (body, none)

/-- The optimizer's answer that a save uses: the image and its content type. -/
structure Optimized where
  body : Bytes
  contentType : String
  deriving DecidableEq, Repr

/-- What the background save of a response stores: the body, its content type and the
brotli variant.  `optimized` is the optimizer's answer, `none` when there is no optimizer or
the call failed. -/
def storeVariant (codecs : Codecs) (cfg : TextCompressConfig) (contentType contentEncoding : Option String)
    (body : Bytes) (optimized : Option Optimized) : Bytes × Option String × Option Bytes :=
  if shouldOptimize contentType then
    match optimized with
    | some o => (o.body, some o.contentType, none)
    | none => (body, contentType, none)
  else if cfg.enabled && shouldCompress contentType contentEncoding body.length cfg.minBytes
      && body.length ≤ cfg.maxBytes then
    match codecs.compressBrotli body cfg.brLevel with
    | some br =>
      (body, contentType, if codecs.isSmaller br.length body.length then some br else none)
    | none => (body, contentType, none)
  else (body, contentType, none)

/-- A save stores the body it got, unless the optimizer replaced an image. -/
lemma storeVariant_body {codecs : Codecs} {cfg : TextCompressConfig}
    {contentType contentEncoding : Option String} {body : Bytes} {optimized : Option Optimized}
    (h : shouldOptimize contentType = false ∨ optimized = none) :
    (storeVariant codecs cfg contentType contentEncoding body optimized).1 = body := by
  unfold storeVariant
  split
  · rename_i hopt
    rcases h with h | rfl
    · exact absurd hopt (by simp [h])
    · rfl
  · split
    · split <;> rfl
    · rfl

/-- A stored brotli variant is the compression of the stored body. -/
lemma storeVariant_br {codecs : Codecs} {cfg : TextCompressConfig}
    {contentType contentEncoding : Option String} {body : Bytes} {optimized : Option Optimized}
    {br : Bytes}
    (h : (storeVariant codecs cfg contentType contentEncoding body optimized).2.2 = some br) :
    codecs.compressBrotli
      (storeVariant codecs cfg contentType contentEncoding body optimized).1 cfg.brLevel
        = some br := by
  unfold storeVariant at h ⊢
  split at h
  · split at h <;> simp at h
  · split at h
    · rename_i hopt hcompress
      split at h
      · rename_i br' hbr
        split at h
        · obtain rfl : br' = br := by simpa using h
          simp [hopt, hcompress, hbr]
        · simp at h
      · simp at h
    · simp at h

example : negotiateEncoding (some "gzip;q=0.8, br;q=0") = .gzip := by decide

example : f32IsPositive "0.000" = some false := by decide

end SmartSchoolCdn
