import Mathlib.Algebra.Order.BigOperators.Group.List
import Mathlib.Algebra.Order.Group.Nat
import SmartSchoolCdn.Foundation.Totals
import SmartSchoolCdn.Foundation.Trace
import SmartSchoolCdn.Http

/-!
# The optimizer

`optimizer-service` encodes an image anew, in its own format or as WebP, and keeps what it has
saved in a table.  The codecs are not part of the service; they may fail, and may answer each call
in their own way.  Whatever they do, the output is at most as long as the input, and only an
optimized output differs from it (`OptimizeResult.Sound`).

A call reads its profile and records its sizes under the lock of the database, and encodes without
it.  The table counts the calls that an enabled profile has let through, with sizes that never add
up to more than they were (`optimizer_never_inflates`).
-/

namespace SmartSchoolCdn.Optimizing

open Tables Traces

/-! ## Decisions and profiles -/

/-- `OptimizeDecision`. -/
inductive OptimizeDecision
  | optimized
  | passthroughLarger
  | passthroughError
  | passthroughUnsupported
  deriving DecidableEq, Repr

/-- `as_str`. -/
def OptimizeDecision.asStr : OptimizeDecision → String
  | .optimized => "optimized"
  | .passthroughLarger => "passthrough_larger"
  | .passthroughError => "passthrough_error"
  | .passthroughUnsupported => "passthrough_unsupported"

/-- `OptimizeResult`; a disabled profile leads to no decision. -/
structure OptimizeResult where
  data : Bytes
  contentType : String
  originalSize : ℕ
  optimizedSize : ℕ
  decision : Option OptimizeDecision
  deriving DecidableEq, Repr

/-- `Profile`. -/
structure Profile where
  quality : UInt32
  maxWidth : UInt32
  enabled : Bool
  deriving DecidableEq, Repr

/-- What holds for a domain without a row. -/
def defaultProfile : Profile := ⟨85, 0, true⟩

/-! ## Codecs -/

/-- The decoders and encoders of the image libraries; `none` is an error.  `gifFrames` has the number
of frames, unless the decoder does not accept the data at all. -/
structure Codecs (Img : Type) where
  loadFromMemory : Bytes → Option Img
  gifFrames : Bytes → Option ℕ
  width : Img → UInt32
  resize : Img → UInt32 → UInt32 → Img
  encodeJpeg : Img → UInt8 → Option Bytes
  encodePng : Img → Option Bytes
  encodeWebpLossy : Img → UInt8 → Option Bytes
  encodeWebpLossless : Img → Option Bytes

/-- `is_decodable`. -/
def isDecodable (ct : String) : Bool :=
  ["image/jpeg", "image/png", "image/webp", "image/gif", "image/bmp", "image/tiff"].contains ct

/-- `FormatPreservingOutcome`. -/
structure FormatPreservingOutcome where
  bytes : Bytes
  contentType : String
  decision : OptimizeDecision
  deriving DecidableEq, Repr

/-- `passthrough`. -/
def passthrough (data : Bytes) (contentType : String) (decision : OptimizeDecision) :
    FormatPreservingOutcome := ⟨data, contentType, decision⟩

section Encoding

variable {Img : Type} (codecs : Codecs Img)

/-- `is_animated_gif`: there is a second frame. -/
def isAnimatedGif (data : Bytes) : Bool := (codecs.gifFrames data).any fun frames => 2 ≤ frames

/-- The encoder for a type and the type of what it makes; `none` is the `unreachable!`. -/
def encoderOf : String → Option ((Img → UInt8 → Option Bytes) × String)
  | "image/jpeg" => some (codecs.encodeJpeg, "image/jpeg")
  | "image/png" => some (fun img _ => codecs.encodePng img, "image/png")
  | "image/webp" => some (codecs.encodeWebpLossy, "image/webp")
  | "image/gif" | "image/bmp" | "image/tiff" =>
    some (fun img _ => codecs.encodeWebpLossless img, "image/webp")
  | _ => none

/-- `unreachable!` is out of reach. -/
lemma isSome_encoderOf {ct : String} (h : isDecodable ct = true) :
    (encoderOf codecs ct).isSome = true := by
  simp only [isDecodable, List.contains_iff_mem, List.mem_cons, List.not_mem_nil, or_false] at h
  rcases h with rfl | rfl | rfl | rfl | rfl | rfl <;> rfl

/-- The image, made narrower when the profile asks for it. -/
def resized (profile : Profile) (img : Img) : Img :=
  if 0 < profile.maxWidth ∧ profile.maxWidth < codecs.width img then
    codecs.resize img profile.maxWidth (UInt32.ofNat (2 ^ 32 - 1))
  else img

/-- `optimize_preserving_format`. -/
def optimizePreservingFormat (data : Bytes) (contentType : String) (profile : Profile) :
    FormatPreservingOutcome :=
  let ctMain := Text.trim (Text.beforeFirst contentType ';')
  if !isDecodable ctMain then passthrough data contentType .passthroughUnsupported
  else if ctMain == "image/gif" && isAnimatedGif codecs data then
    passthrough data contentType .passthroughUnsupported
  else
    match codecs.loadFromMemory data, encoderOf codecs ctMain with
    | some img, some (encode, outCt) =>
      match encode (resized codecs profile img) profile.quality.toUInt8 with
      | some encoded =>
        if data.length ≤ encoded.length then passthrough data contentType .passthroughLarger
        else ⟨encoded, outCt, .optimized⟩
      | none => passthrough data contentType .passthroughError
    | _, _ => passthrough data contentType .passthroughError

end Encoding

/-! ## The database -/

/-- A row of `profiles`. -/
structure ProfileRow where
  domain : String
  profile : Profile
  deriving DecidableEq, Repr

/-- `DomainStat`: a row of `optimization_stats`. -/
structure DomainStat where
  domain : String
  originalBytes : ℕ
  optimizedBytes : ℕ
  count : ℕ
  deriving DecidableEq, Repr

/-- The tables of `OptimizerDb`. -/
structure OptimizerDb where
  profiles : Table ProfileRow.domain
  stats : Table DomainStat.domain

namespace OptimizerDb

variable (db : OptimizerDb)

/-- The database after `open`, with no rows. -/
def empty : OptimizerDb := ⟨Table.empty, Table.empty⟩

/-- `get_profile`: without a row, or when the query fails, the default. -/
def getProfile (domain : String) (readable : Bool) : Profile :=
  if readable then ((db.profiles.find domain).map ProfileRow.profile).getD defaultProfile
  else defaultProfile

/-- `set_profile`. -/
def setProfile (domain : String) (profile : Profile) : OptimizerDb :=
  { db with profiles := (db.profiles.eraseWhere (· == domain)).insertNew ⟨domain, profile⟩ }

/-- `remove_profile`. -/
def removeProfile (domain : String) : OptimizerDb :=
  { db with profiles := db.profiles.eraseWhere (· == domain) }

/-- What `ON CONFLICT` does to the row that is there. -/
def addTo (row old : DomainStat) : DomainStat :=
  { old with
    originalBytes := old.originalBytes + row.originalBytes
    optimizedBytes := old.optimizedBytes + row.optimizedBytes
    count := old.count + 1 }

lemma domain_addTo (row old : DomainStat) : (addTo row old).domain = old.domain := rfl

/-- `update_stats`; a write that fails is logged only. -/
def updateStats (domain : String) (originalSize optimizedSize : ℕ) (written : Bool) : OptimizerDb :=
  let row : DomainStat := ⟨domain, originalSize, optimizedSize, 1⟩
  if written then { db with stats := db.stats.upsert row (addTo row) (domain_addTo row) } else db

/-- What has been recorded for a domain. -/
def recorded (domain : String) : DomainStat := (db.stats.find domain).getD ⟨domain, 0, 0, 0⟩

end OptimizerDb

/-- What `optimize` returns for a disabled profile. -/
def untouched (data : Bytes) (contentType : String) : OptimizeResult :=
  ⟨data, contentType, data.length, data.length, none⟩

/-- What `optimize` returns otherwise. -/
def FormatPreservingOutcome.result (outcome : FormatPreservingOutcome) (data : Bytes) :
    OptimizeResult :=
  ⟨outcome.bytes, outcome.contentType, data.length, outcome.bytes.length, some outcome.decision⟩

/-- `optimize`, without other calls between its parts. -/
def OptimizerDb.optimize {Img : Type} (db : OptimizerDb) (codecs : Codecs Img) (data : Bytes)
    (contentType domain : String) (readable written : Bool) : OptimizeResult × OptimizerDb :=
  let profile := db.getProfile domain readable
  if !profile.enabled then (untouched data contentType, db)
  else
    let outcome := optimizePreservingFormat codecs data contentType profile
    (outcome.result data, db.updateStats domain data.length outcome.bytes.length written)

/-! ## What comes out -/

/-- The output is at most as long as the input, and without the decision to use another one it is
the input. -/
structure OptimizeResult.Sound (data : Bytes) (contentType : String) (r : OptimizeResult) : Prop where
  length_le : r.data.length ≤ data.length
  unchanged : r.decision ≠ some .optimized → r.data = data ∧ r.contentType = contentType

variable {Img : Type} {codecs : Codecs Img} {data : Bytes} {contentType d : String} {profile : Profile}

/-- A disabled profile. -/
lemma sound_untouched : (untouched data contentType).Sound data contentType :=
  ⟨le_refl data.length, fun _ => ⟨rfl, rfl⟩⟩

/-- Every kind of passthrough. -/
lemma sound_passthrough (decision : OptimizeDecision) :
    ((passthrough data contentType decision).result data).Sound data contentType :=
  ⟨le_refl data.length, fun _ => ⟨rfl, rfl⟩⟩

/-- Whatever the codecs do. -/
lemma sound_optimizePreservingFormat (codecs : Codecs Img) (data : Bytes) (contentType : String)
    (profile : Profile) :
    ((optimizePreservingFormat codecs data contentType profile).result data).Sound data
      contentType := by
  unfold optimizePreservingFormat
  dsimp only
  split
  · exact sound_passthrough _
  · split
    · exact sound_passthrough _
    · split
      · split
        · split
          · exact sound_passthrough _
          · rename_i hshorter
            exact ⟨(not_le.mp hshorter).le, fun hdecision => absurd rfl hdecision⟩
        · exact sound_passthrough _
      · exact sound_passthrough _

/-- A call without others. -/
lemma sound_optimize (db : OptimizerDb) (codecs : Codecs Img) (data : Bytes) (contentType domain : String)
    (readable written : Bool) :
    (db.optimize codecs data contentType domain readable written).1.Sound data contentType := by
  unfold OptimizerDb.optimize
  dsimp only
  split
  · exact sound_untouched
  · exact sound_optimizePreservingFormat _ _ _ _

/-! ## What is recorded -/

section Recorded

variable {db : OptimizerDb} {domain : String} (originalSize optimizedSize : ℕ)

/-- A write adds to the row of its domain. -/
lemma recorded_updateStats_self :
    (db.updateStats d originalSize optimizedSize true).recorded d =
      ⟨d, (db.recorded d).originalBytes + originalSize, (db.recorded d).optimizedBytes + optimizedSize,
        (db.recorded d).count + 1⟩ := by
  let row : DomainStat := ⟨d, originalSize, optimizedSize, 1⟩
  have hfind : (db.updateStats d originalSize optimizedSize true).stats.find d =
      some (((db.stats.find d).map (OptimizerDb.addTo row)).getD row) :=
    Table.find_upsert_self (OptimizerDb.domain_addTo row)
  unfold OptimizerDb.recorded
  rw [hfind]
  cases hold : db.stats.find d with
  | none => simp [row]
  | some old =>
    have hdomain : old.domain = d := Table.key_of_find hold
    simp [row, OptimizerDb.addTo, hdomain]

/-- The rows of other domains stay. -/
lemma recorded_updateStats_ne (h : domain ≠ d) :
    (db.updateStats domain originalSize optimizedSize true).recorded d = db.recorded d := by
  have hfind : (db.updateStats domain originalSize optimizedSize true).stats.find d = db.stats.find d :=
    Table.find_upsert_ne (OptimizerDb.domain_addTo ⟨domain, originalSize, optimizedSize, 1⟩) h
  rw [OptimizerDb.recorded, hfind]
  rfl

end Recorded

/-! ## Calls -/

/-- `OptimizeRequest`. -/
structure Request where
  data : Bytes
  contentType : String
  domain : String
  deriving DecidableEq, Repr

/-- The part of `optimize` that comes next, with the profile once it has been read. -/
inductive Part
  | lookup
  | encode (profile : Profile)
  | record (profile : Profile) (outcome : FormatPreservingOutcome)
  | returned (profile : Profile) (result : OptimizeResult)
  deriving DecidableEq, Repr

/-- A call of `optimize`. -/
structure Call where
  request : Request
  part : Part
  deriving DecidableEq, Repr

/-- The database and all calls so far. -/
structure Service where
  db : OptimizerDb
  calls : List Call

/-- A call arrives, or takes its next part; the query of the profile and the write of the sizes may
fail, and the codecs may be others each time.  Profiles are set and removed in between. -/
inductive Action (Img : Type)
  | optimize (request : Request)
  | lookup (i : ℕ) (readable : Bool)
  | encode (i : ℕ) (codecs : Codecs Img)
  | record (i : ℕ) (written : Bool)
  | setProfile (domain : String) (profile : Profile)
  | removeProfile (domain : String)

namespace Service

variable (s : Service)

/-- The service without calls, with the profiles of earlier days. -/
def start (profiles : Table ProfileRow.domain) : Service := ⟨⟨profiles, Table.empty⟩, []⟩

/-- A call goes on to a part. -/
def proceed (i : ℕ) (request : Request) (part : Part) : Service :=
  { s with calls := s.calls.set i ⟨request, part⟩ }

/-- The locked query, after which a disabled profile ends the call. -/
def lookup (i : ℕ) (request : Request) (readable : Bool) : Service :=
  let profile := s.db.getProfile request.domain readable
  if !profile.enabled then
    s.proceed i request (.returned profile (untouched request.data request.contentType))
  else s.proceed i request (.encode profile)

/-- The encoding. -/
def encode {Img : Type} (i : ℕ) (request : Request) (profile : Profile) (codecs : Codecs Img) :
    Service :=
  s.proceed i request
    (.record profile (optimizePreservingFormat codecs request.data request.contentType profile))

/-- The locked write of the sizes. -/
def record (i : ℕ) (request : Request) (profile : Profile) (outcome : FormatPreservingOutcome)
    (written : Bool) : Service :=
  { s with
    db := s.db.updateStats request.domain request.data.length outcome.bytes.length written }.proceed
    i request (.returned profile (outcome.result request.data))

end Service

/-- One step. -/
def step {Img : Type} (s : Service) : Action Img → Option Service
  | .optimize request => some { s with calls := s.calls ++ [⟨request, .lookup⟩] }
  | .lookup i readable =>
    match s.calls[i]? with
    | some ⟨request, .lookup⟩ => some (s.lookup i request readable)
    | _ => none
  | .encode i codecs =>
    match s.calls[i]? with
    | some ⟨request, .encode profile⟩ => some (s.encode i request profile codecs)
    | _ => none
  | .record i written =>
    match s.calls[i]? with
    | some ⟨request, .record profile outcome⟩ => some (s.record i request profile outcome written)
    | _ => none
  | .setProfile domain profile => some { s with db := s.db.setProfile domain profile }
  | .removeProfile domain => some { s with db := s.db.removeProfile domain }

/-- The statistics writes succeed. -/
def Writes {Img : Type} (_ : Service) : Action Img → Prop
  | .record _ written => written = true
  | _ => True

/-! ## Accounts -/

namespace Call

/-- The call has come to its end. -/
def hasReturned (c : Call) : Bool :=
  match c.part with
  | .returned _ _ => true
  | _ => false

/-- The call is for the domain, and the profile that it has read is enabled. -/
def isEnabled (d : String) (c : Call) : Bool :=
  match c.part with
  | .lookup => false
  | .encode profile | .record profile _ | .returned profile _ =>
    c.request.domain == d && profile.enabled

/-- An enabled call for the domain that has returned: its input, its output, and one. -/
def entry (d : String) (c : Call) : ℕ × ℕ × ℕ :=
  match c.part with
  | .returned _ result => if c.isEnabled d then (c.request.data.length, result.data.length, 1) else 0
  | _ => 0

/-- What a call carries: only an enabled profile lets it go on, and its output is sound. -/
def Consistent (c : Call) : Prop :=
  match c.part with
  | .lookup => True
  | .encode profile => profile.enabled = true
  | .record profile outcome =>
    profile.enabled = true ∧ (outcome.result c.request.data).Sound c.request.data c.request.contentType
  | .returned _ result => result.Sound c.request.data c.request.contentType

end Call

/-! ## What a step does -/

/-- What a step can do: a call arrives, a call goes on without a write, a call writes its sizes and
returns, or profiles change. -/
inductive Effect (s : Service) : Service → Prop
  | arrive (request : Request) : Effect s { s with calls := s.calls ++ [⟨request, .lookup⟩] }
  | goOn (i : ℕ) (c c' : Call) (hi : s.calls[i]? = some c) (hold : ∀ d, c.entry d = 0)
      (hnew : ∀ d, c'.entry d = 0) (hconsistent : c.Consistent → c'.Consistent) :
      Effect s (s.proceed i c'.request c'.part)
  | record (i : ℕ) (request : Request) (profile : Profile) (outcome : FormatPreservingOutcome)
      (hi : s.calls[i]? = some ⟨request, .record profile outcome⟩) :
      Effect s (s.record i request profile outcome true)
  | profiles (profiles : Table ProfileRow.domain) :
      Effect s { s with db := { s.db with profiles := profiles } }

variable {s s' : Service} {a : Action Img} {i : ℕ} {c c' : Call}

/-- Everything that a step can do, when the statistics writes succeed. -/
theorem step_effect (hwrites : Writes s a) (h : step s a = some s') : Effect s s' := by
  cases a with
  | optimize request =>
    obtain rfl := Option.some.inj h
    exact .arrive request
  | lookup i readable =>
    simp only [step] at h
    split at h
    · rename_i request hi
      obtain rfl := Option.some.inj h
      unfold Service.lookup
      dsimp only
      split
      · rename_i hdisabled
        refine .goOn i _ ⟨request, .returned _ _⟩ hi (fun _ => rfl) (fun d => ?_)
          fun _ => sound_untouched
        simp only [Bool.not_eq_true'] at hdisabled
        simp [Call.entry, Call.isEnabled, hdisabled]
      · rename_i henabled
        refine .goOn i _ ⟨request, .encode _⟩ hi (fun _ => rfl) (fun _ => rfl) fun _ => ?_
        simpa [Call.Consistent] using henabled
    · cases h
  | encode i codecs =>
    simp only [step] at h
    split at h
    · rename_i request profile hi
      obtain rfl := Option.some.inj h
      exact .goOn i _ ⟨request, .record profile _⟩ hi (fun _ => rfl) (fun _ => rfl)
        fun henabled => ⟨henabled, sound_optimizePreservingFormat _ _ _ _⟩
    · cases h
  | record i written =>
    obtain rfl : written = true := hwrites
    simp only [step] at h
    split at h
    · rename_i request profile outcome hi
      obtain rfl := Option.some.inj h
      exact .record i request profile outcome hi
    · cases h
  | setProfile domain profile =>
    obtain rfl := Option.some.inj h
    exact .profiles _
  | removeProfile domain =>
    obtain rfl := Option.some.inj h
    exact .profiles _

/-! ## Runs -/

/-- The sum of one of the three figures over the calls. -/
def figure (g : ℕ × ℕ × ℕ → ℕ) (d : String) (calls : List Call) : ℕ :=
  total (fun c => g (c.entry d)) calls

/-- A call that had no figures goes on. -/
lemma figure_set {g : ℕ × ℕ × ℕ → ℕ} (hg : g 0 = 0) (hi : s.calls[i]? = some c) (hold : c.entry d = 0) :
    figure g d (s.calls.set i c') = figure g d s.calls + g (c'.entry d) := by
  have hset := total_set (g := fun c => g (c.entry d)) (y := c') hi
  rw [hold, hg] at hset
  exact hset

/-- The three figures of a row. -/
def DomainStat.figures (row : DomainStat) : ℕ × ℕ × ℕ :=
  (row.originalBytes, row.optimizedBytes, row.count)

/-- The invariant: the row of every domain is what its calls add up to. -/
structure Accounted (s : Service) : Prop where
  consistent : ∀ c ∈ s.calls, c.Consistent
  figures : ∀ d, (s.db.recorded d).figures =
    (figure Prod.fst d s.calls, figure (fun n => n.2.1) d s.calls, figure (fun n => n.2.2) d s.calls)

/-- A step whose write succeeds. -/
lemma Accounted.step (hs : Accounted s) (hwrites : Writes s a) (h : step s a = some s') :
    Accounted s' := by
  cases step_effect hwrites h with
  | arrive request =>
    constructor
    · intro c hc
      rcases List.mem_append.mp hc with hold | hnew
      · exact hs.consistent c hold
      · obtain rfl := List.mem_singleton.mp hnew
        trivial
    · intro d
      rw [hs.figures d]
      simp [figure, Call.entry]
  | goOn i c c' hi hold hnew hconsistent =>
    constructor
    · intro c₀ hc₀
      rcases List.mem_or_eq_of_mem_set hc₀ with hmem | rfl
      · exact hs.consistent c₀ hmem
      · exact hconsistent (hs.consistent c (List.mem_of_getElem? hi))
    · intro d
      change (s.db.recorded d).figures = _
      rw [hs.figures d, Service.proceed]
      rw [figure_set rfl hi (hold d), figure_set rfl hi (hold d), figure_set rfl hi (hold d), hnew d]
      rfl
  | record i request profile outcome hi =>
    obtain ⟨henabled, hsound⟩ := hs.consistent _ (List.mem_of_getElem? hi)
    constructor
    · intro c₀ hc₀
      rcases List.mem_or_eq_of_mem_set hc₀ with hmem | rfl
      · exact hs.consistent c₀ hmem
      · exact hsound
    · intro d
      unfold Service.record Service.proceed
      dsimp only
      rw [figure_set rfl hi rfl, figure_set rfl hi rfl, figure_set rfl hi rfl]
      by_cases hdomain : request.domain = d
      · subst hdomain
        rw [recorded_updateStats_self]
        have hrow := hs.figures request.domain
        simp only [DomainStat.figures, Prod.mk.injEq] at hrow ⊢
        simp [Call.entry, Call.isEnabled, henabled, hrow, FormatPreservingOutcome.result]
      · rw [recorded_updateStats_ne _ _ hdomain, hs.figures d]
        simp [Call.entry, Call.isEnabled, hdomain]
  | profiles profiles => exact ⟨hs.consistent, hs.figures⟩

/-- A call counts when it has returned and was enabled. -/
lemma entry_count (d : String) (c : Call) :
    (c.entry d).2.2 = (c.hasReturned && c.isEnabled d).toNat := by
  obtain ⟨request, part⟩ := c
  cases part with
  | returned profile result =>
    cases henabled : Call.isEnabled d ⟨request, .returned profile result⟩ with
    | true => simp [Call.entry, Call.hasReturned, henabled]
    | false => simp [Call.entry, Call.hasReturned, henabled]
  | _ => rfl

/-- The third figure counts the enabled calls that have returned. -/
lemma figure_count (d : String) (calls : List Call) :
    figure (fun n => n.2.2) d calls = calls.countP fun c => c.hasReturned && c.isEnabled d := by
  rw [countP_eq_total, figure, funext (entry_count d)]

/-- The outputs add up to at most the inputs. -/
lemma figure_le (hs : Accounted s) (d : String) :
    figure (fun n => n.2.1) d s.calls ≤ figure Prod.fst d s.calls := by
  refine List.sum_le_sum fun c hc => ?_
  have hconsistent := hs.consistent c hc
  obtain ⟨request, part⟩ := c
  cases part with
  | returned profile result =>
    simp only [Call.entry]
    split
    · exact hconsistent.length_le
    · exact le_refl 0
  | _ => exact le_refl 0

/-- Every output of `optimize` is at most as long as its input, and is the input when the decision is
not to use another one; and in every run in which the statistics writes succeed, this holds of all
calls, the recorded outputs of a domain are together no longer than its inputs, and its count is the
number of the enabled calls that have returned, which is that of all enabled calls once no call is
under way. -/
theorem optimizer_never_inflates {profiles : Table ProfileRow.domain} {as : List (Action Img)}
    (h : Trace step Writes (Service.start profiles) as s) :
    (∀ (db : OptimizerDb) (codecs : Codecs Img) (data : Bytes) (contentType domain : String)
        (readable written : Bool),
      (db.optimize codecs data contentType domain readable written).1.Sound data contentType) ∧
    (∀ request profile result, (⟨request, .returned profile result⟩ : Call) ∈ s.calls →
      result.Sound request.data request.contentType) ∧
    ∀ d, (s.db.recorded d).optimizedBytes ≤ (s.db.recorded d).originalBytes ∧
      (s.db.recorded d).count = s.calls.countP (fun c => c.hasReturned && c.isEnabled d) ∧
      ((∀ c ∈ s.calls, c.hasReturned = true) →
        (s.db.recorded d).count = s.calls.countP (Call.isEnabled d)) := by
  have hend : Accounted s := by
    refine h.invariant (fun s a s' hs hwrites hst => hs.step hwrites hst) ⟨?_, fun d => rfl⟩
    intro c hc
    cases hc
  refine ⟨sound_optimize, fun request profile result hc => hend.consistent _ hc, fun d => ?_⟩
  obtain ⟨horiginal, hoptimized, hcount⟩ : _ ∧ _ ∧ _ := by
    have hfigures := hend.figures d
    simp only [DomainStat.figures, Prod.mk.injEq] at hfigures
    exact hfigures
  rw [figure_count] at hcount
  refine ⟨?_, hcount, fun hreturned => ?_⟩
  · rw [horiginal, hoptimized]
    exact figure_le hend d
  · rw [hcount]
    refine List.countP_congr fun c hc => ?_
    rw [hreturned c hc, Bool.true_and]

/-- Without others, a call does what `optimize` does. -/
theorem optimize_alone (db : OptimizerDb) (codecs : Codecs Img) (request : Request)
    (readable written : Bool) :
    let outcome := db.optimize codecs request.data request.contentType request.domain readable written
    ∃ (as : List (Action Img)) (s : Service) (profile : Profile),
      Trace step Free ⟨db, []⟩ (.optimize request :: as) s ∧
      s.calls = [⟨request, .returned profile outcome.1⟩] ∧ s.db = outcome.2 := by
  intro outcome
  let profile := db.getProfile request.domain readable
  let s₁ : Service := ⟨db, [⟨request, .lookup⟩]⟩
  have harrive : step ⟨db, []⟩ (.optimize request : Action Img) = some s₁ := rfl
  have hlookup : step s₁ (.lookup 0 readable : Action Img) = some (s₁.lookup 0 request readable) := rfl
  cases henabled : profile.enabled with
  | false =>
    have hend : s₁.lookup 0 request readable =
        ⟨db, [⟨request, .returned profile (untouched request.data request.contentType)⟩]⟩ := by
      simp [Service.lookup, Service.proceed, s₁, profile, henabled]
    have houtcome : outcome = (untouched request.data request.contentType, db) := by
      simp [outcome, OptimizerDb.optimize, profile, henabled]
    rw [hend] at hlookup
    rw [houtcome]
    exact ⟨_, _, profile, .cons trivial harrive (.cons trivial hlookup (.nil _)), rfl, rfl⟩
  | true =>
    let made := optimizePreservingFormat codecs request.data request.contentType profile
    have hwaits : s₁.lookup 0 request readable = ⟨db, [⟨request, .encode profile⟩]⟩ := by
      simp [Service.lookup, Service.proceed, s₁, profile, henabled]
    have houtcome : outcome = (made.result request.data,
        db.updateStats request.domain request.data.length made.bytes.length written) := by
      simp [outcome, OptimizerDb.optimize, profile, henabled, made]
    have hencode : step ⟨db, [⟨request, .encode profile⟩]⟩ (.encode 0 codecs) =
        some ⟨db, [⟨request, .record profile made⟩]⟩ := rfl
    have hrecord : step ⟨db, [⟨request, .record profile made⟩]⟩ (.record 0 written : Action Img) =
        some ⟨outcome.2, [⟨request, .returned profile outcome.1⟩]⟩ := by
      rw [houtcome]
      rfl
    rw [hwaits] at hlookup
    exact ⟨_, _, profile, .cons trivial harrive (.cons trivial hlookup (.cons trivial hencode
      (.cons trivial hrecord (.nil _)))), rfl, rfl⟩

/-! ## A sample run -/

/-- Codecs that drop half of a JPEG, add a byte to a PNG, and fail on WebP. -/
def sampleCodecs : Codecs Bytes where
  loadFromMemory data := if data.isEmpty then none else some data
  gifFrames _ := none
  width _ := 640
  resize img _ _ := img
  encodeJpeg img _ := some (img.take (img.length / 2))
  encodePng img := some (img ++ [0])
  encodeWebpLossy _ _ := none
  encodeWebpLossless _ := none

/-- Two calls for a domain and one for a domain that is disabled. -/
def sampleActions : List (Action Bytes) :=
  [.optimize ⟨[1, 2, 3, 4], "image/jpeg; q=1", "a.test"⟩, .setProfile "b.test" ⟨85, 0, false⟩,
   .optimize ⟨[5, 6], "image/png", "a.test"⟩, .optimize ⟨[7, 8], "image/jpeg", "b.test"⟩,
   .lookup 1 true, .lookup 0 false, .lookup 2 true, .encode 0 sampleCodecs, .encode 1 sampleCodecs,
   .record 1 true, .record 0 true]

/-- Whether a write succeeds. -/
def writes (_ : Service) : Action Bytes → Bool
  | .record _ written => written
  | _ => true

lemma writes_of_writes (s : Service) (a : Action Bytes) (h : writes s a = true) : Writes s a := by
  cases a with
  | record i written => exact h
  | _ => trivial

/-- Six bytes have become four, in two calls. -/
theorem optimizer_never_inflates_sample : ∃ s : Service, s.db.recorded "a.test" = ⟨"a.test", 6, 4, 2⟩ ∧
    (s.db.recorded "a.test").optimizedBytes ≤ (s.db.recorded "a.test").originalBytes ∧
      (s.db.recorded "a.test").count = s.calls.countP (Call.isEnabled "a.test") := by
  have hrun : ((checkedRun step writes (Service.start Table.empty) sampleActions).any fun s =>
      decide (s.db.recorded "a.test" = ⟨"a.test", 6, 4, 2⟩ ∧
        ∀ c ∈ s.calls, c.hasReturned = true)) = true := by
    decide +kernel
  obtain ⟨s, hs, hp⟩ := exists_trace_of_checkedRun (I := fun _ => True) (C := Writes)
    (fun _ _ _ _ _ => trivial) (fun s a _ hc => writes_of_writes s a hc) trivial hrun
  obtain ⟨hrecorded, hreturned⟩ := of_decide_eq_true hp
  obtain ⟨-, -, hdomains⟩ := optimizer_never_inflates hs
  exact ⟨s, hrecorded, (hdomains "a.test").1, (hdomains "a.test").2.2 hreturned⟩

end SmartSchoolCdn.Optimizing
