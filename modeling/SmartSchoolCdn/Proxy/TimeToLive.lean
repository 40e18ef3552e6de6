import SmartSchoolCdn.Proxy.Freshness
import SmartSchoolCdn.Storage.Expiry

/-!
# The time to live of a response

From the `Cache-Control` header of the origin response to the expiry test of the storage.  The
message to the storage service has zero for no time to live, so that zero seconds arrive as none:
a time to live passes the wire exactly if it is not zero seconds, and a copy is found no more after
the lifetime that its response declares exactly if that is not zero seconds (`ttl_over_the_wire`).

The expiry that the storage computes grows with the time to live only as far as the types go; for
which pairs it does is `expiry_monotone`.
-/

namespace SmartSchoolCdn

open Traces

/-! ## Over the wire -/

section Wire

variable {β : Type} [Blob β]

/-- The time to live that the service gives to `put` of the cache layer. -/
def StorageRequest.ttl : StorageRequest β → Option ℕ
  | .put _ _ _ _ _ ttlSecs _ _ => ofWireSecs ttlSecs
  | _ => none

/-- `StorageGrpc::put`. -/
lemma serve_putRequest (c : CacheLayer β) (now : Time) (key url domain : String)
    (contentType : Option String) (body : β) (ttl : Option ℕ) (bodyBr : Option β)
    (cachedHeaders : HeaderMap) :
    let m := putRequest key url domain contentType body ttl bodyBr cachedHeaders
    c.serve now m = (.stored, c.put now key url domain (ofWireText (contentType.getD "")) body m.ttl
      (nonEmpty bodyBr) cachedHeaders) :=
  rfl

omit [Blob β] in
/-- Zero seconds arrive as no time to live, and everything else as it is. -/
lemma ttl_putRequest (key url domain : String) (contentType : Option String) (body : β)
    (ttl : Option ℕ) (bodyBr : Option β) (cachedHeaders : HeaderMap) :
    (putRequest key url domain contentType body ttl bodyBr cachedHeaders).ttl = ttl ↔
      ttl ≠ some 0 := by
  change ofWireSecs (ttl.getD 0) = ttl ↔ ttl ≠ some 0
  cases ttl with
  | none => exact iff_of_true rfl (Option.some_ne_none 0).symm
  | some secs =>
    rw [Option.getD_some, ofWireSecs]
    split
    · rename_i hpos
      exact iff_of_true rfl fun h => hpos.ne' (Option.some.inj h)
    · rename_i hzero
      refine iff_of_false (Option.some_ne_none secs).symm fun h => ?_
      exact h (congrArg some (Nat.eq_zero_of_not_pos hzero))

end Wire

/-! ## In the storage -/

/-- Nothing is found for the key after the lifetime. -/
def GoneAfter (c : CacheLayer Copy) (key : String) (last : Time) : Prop :=
  ∀ later, last < later → (c.serve later (.get key false)).1.lookup = none

/-- A lookup finds a copy until it is expired. -/
lemma goneAfter_iff {c : CacheLayer Copy} {key : String} {x : Stored Copy} {last : Time}
    (hx : c.stored key = some x) :
    GoneAfter c key last ↔ ∀ later, last < later → x.isExpired later = true := by
  refine forall_congr' fun later => imp_congr_right fun _ => ?_
  rw [CacheLayer.lookup_serve_get, hx]
  cases hexpired : x.isExpired later with
  | false => simp [Option.filter, hexpired]
  | true => simp [Option.filter, hexpired]

/-- A copy is gone after the lifetime that its response declares, unless that is zero seconds. -/
lemma Stored.Labelled.goneAfter_iff {c : CacheLayer Copy} {key : String} {x : Stored Copy} {secs : ℕ}
    (h : x.Labelled key) (hx : c.stored key = some x)
    (hdeclares : cacheDirectiveOf x.body.source.response.headers = .cacheable (some secs)) :
    GoneAfter c key (x.createdAt + secs * second) ↔ secs ≠ 0 := by
  have httl : x.body.source.ttl = secs := by
    rw [Exchange.ttl, hdeclares]
    rfl
  have hexpires := h.expiresAt
  rw [httl, ofWireSecs] at hexpires
  rw [SmartSchoolCdn.goneAfter_iff hx]
  split at hexpires
  · rename_i hpos
    refine iff_of_true (fun later hlater => ?_) hpos.ne'
    rw [Option.map_some] at hexpires
    have hclamp : CacheLayer.chronoSecs secs * second ≤ secs * second :=
      Nat.mul_le_mul_right second (CacheLayer.chronoSecs_le secs)
    rw [Stored.isExpired, hexpires]
    exact decide_eq_true ((Nat.add_le_add_left hclamp x.createdAt).trans_lt hlater)
  · rename_i hzero
    refine iff_of_false (fun hgone => ?_) (not_not.mpr (Nat.eq_zero_of_not_pos hzero))
    have hexpired := hgone _ (Nat.lt_succ_self _)
    rw [Stored.isExpired, hexpires] at hexpired
    cases hexpired

/-- A time to live passes from the proxy to the cache layer unchanged exactly if it is not zero
seconds.  In every state that is reached, a copy in the storage is found by no lookup after the
lifetime that its response declares exactly if that is not zero seconds. -/
theorem ttl_over_the_wire (cfg : Config) (maxSizeBytes : UInt64) (s : State) :
    (∀ (key url domain : String) (contentType : Option String) (body : Copy) (ttl : Option ℕ)
        (bodyBr : Option Copy) (cachedHeaders : HeaderMap),
      (putRequest key url domain contentType body ttl bodyBr cachedHeaders).ttl = ttl ↔
        ttl ≠ some 0) ∧
    (Reaches (step cfg) (State.initial maxSizeBytes) s →
      ∀ (key : String) (x : Stored Copy) (secs : ℕ), s.storage.stored key = some x →
        cacheDirectiveOf x.body.source.response.headers = .cacheable (some secs) →
        (GoneAfter s.storage key (x.createdAt + secs * second) ↔ secs ≠ 0)) := by
  refine ⟨ttl_putRequest, fun h key x secs hx hdeclares => ?_⟩
  have hlabels : Labels s := by
    refine h.invariant (I := Labels) ?_ (labels_initial maxSizeBytes)
    exact fun s a s' hL hst => hL.step (step_cases hst)
  exact (hlabels.stored key x hx).1.goneAfter_iff hx hdeclares

/-- A page that may be cached for no time is asked for again when the memory cache has lost it. -/
def zeroSecondsActions : List Action :=
  [sampleDomains, .arrive (sampleRequest .get "/page" [])] ++ missActions 0
    ++ fetchActions 0 200 [("cache-control", "max-age=0"), ("content-type", "text/html")] [1, 2]
    ++ [.publish 0, .respond 0] ++ saveActions 0
    ++ [.tick (601 * second), .arrive (sampleRequest .get "/page" []), .l1Get 1, .l2Get 1 true,
      .promote 1]

/-- The copy that an answer which is an L2 HIT was made from, with the time of the lookup. -/
def Via.l2Copy : Via → Option (Stored Copy × Time)
  | .l2Hit x lookedUpAt => some (x, lookedUpAt)
  | _ => none

/-- Zero seconds arrive as no expiry, and the page is an L2 HIT ten minutes after its save. -/
theorem zero_seconds_l2_hit :
    (putRequest "" "" "" none ([] : Bytes) (some 0) none []).ttl = none ∧
    ∃ t, Reaches (step sampleConfig) (State.initial 1000000) t ∧ ∃ ans ∈ t.answers,
      ∃ x lookedUpAt, ans.via.l2Copy = some (x, lookedUpAt) ∧
        cacheDirectiveOf x.body.source.response.headers = .cacheable (some 0) ∧
        x.createdAt + 600 * second < lookedUpAt := by
  have hrun : ((run (step sampleConfig) sampleStart zeroSecondsActions).any fun t =>
      t.answers.any fun ans => ans.via.l2Copy.any fun found =>
        decide (cacheDirectiveOf found.1.body.source.response.headers = .cacheable (some 0)) &&
          decide (found.1.createdAt + 600 * second < found.2)) = true := by
    decide +kernel
  obtain ⟨t, ht, hany⟩ := exists_trace_of_run hrun
  simp only [List.any_eq_true, Bool.and_eq_true, Option.any_eq_true, decide_eq_true_eq] at hany
  obtain ⟨ans, hans, ⟨x, lookedUpAt⟩, hfound, hdirective, hlate⟩ := hany
  exact ⟨rfl, t, ht.reaches, ans, hans, x, lookedUpAt, hfound, hdirective, hlate⟩

/-- A page that may be cached for a second is in the storage for a second. -/
theorem one_second_gone :
    ∃ t, Reaches (step sampleConfig) (State.initial 1000000) t ∧ ∃ key x,
      t.storage.stored key = some x ∧ GoneAfter t.storage key (x.createdAt + 1 * second) := by
  have hrun : ((run (step sampleConfig) sampleStart fiveSecondsLaterActions).any fun t =>
      (t.storage.stored "GET:a.test/page?").any fun x =>
        decide (cacheDirectiveOf x.body.source.response.headers = .cacheable (some 1))) = true := by
    decide +kernel
  obtain ⟨t, ht, hany⟩ := exists_trace_of_run hrun
  obtain ⟨x, hx, hdirective⟩ := Option.any_eq_true _ _ |>.mp hany
  exact ⟨t, ht.reaches, _, x, hx, ((ttl_over_the_wire sampleConfig 1000000 t).2 ht.reaches _ x 1 hx
    (of_decide_eq_true hdirective)).mpr (by decide)⟩

/-! ## The expiry -/

/-- A response that may be kept for `secs` seconds is stored without a panic, whatever the layer and
the response. -/
def StoresSafely (now : Time) (secs : ℕ) : Prop :=
  ∀ (c : CacheLayer Bytes) (key url domain : String) (contentType : Option String) (bytes : Bytes)
    (bodyBr : Option Bytes) (cachedHeaders : HeaderMap),
    ∃ r, c.putOutcome now key url domain contentType bytes (ofWireSecs secs) bodyBr cachedHeaders =
      .finished r

/-- Of two times to live at one time the first expires no later. -/
def ExpiresNoLater (now : Time) (secs₁ secs₂ : ℕ) : Prop :=
  ∃ expiresAt₁ expiresAt₂, expiresAtOf now (ofWireSecs secs₁) = some expiresAt₁ ∧
    expiresAtOf now (ofWireSecs secs₂) = some expiresAt₂ ∧ latest expiresAt₁ ≤ latest expiresAt₂

variable {now : Time} {secs secs₁ secs₂ : ℕ}

/-- Storing is safe exactly if the expiry can be computed. -/
lemma storesSafely_iff : StoresSafely now secs ↔ (expiresAtOf now (ofWireSecs secs)).isSome := by
  cases hexpires : expiresAtOf now (ofWireSecs secs) with
  | some expiresAt =>
    refine iff_of_true (fun c key url domain contentType bytes bodyBr cachedHeaders => ?_) rfl
    exact ⟨_, c.putOutcome_of_some hexpires key url domain contentType bytes bodyBr cachedHeaders⟩
  | none =>
    refine iff_of_false (fun hsafe => ?_) (by decide)
    obtain ⟨r, hr⟩ := hsafe (CacheLayer.new 0) "" "" "" none [] none []
    rw [CacheLayer.putOutcome_of_none _ hexpires _ _ _ _ _ _ _ UInt64.le_rfl] at hr
    cases hr

/-- Where both times to live are none, or can be added, or are cut to nothing, the order is kept. -/
lemma expiresNoLater_of (hnow : now ≤ maxUtc) (hle : secs₁ ≤ secs₂)
    (h : secs₂ = 0 ∨ (0 < secs₁ ∧ now + secs₂ * second ≤ maxUtc) ∨ maxChronoSecs < secs₁) :
    ExpiresNoLater now secs₁ secs₂ := by
  rcases h with rfl | ⟨hpos, hfits⟩ | hlong
  · obtain rfl := Nat.le_zero.mp hle
    exact ⟨none, none, expiresAtOf_zero, expiresAtOf_zero, le_rfl⟩
  · have hlonger : now + secs₁ * second ≤ now + secs₂ * second :=
      Nat.add_le_add_left (Nat.mul_le_mul_right second hle) now
    exact ⟨_, _, expiresAtOf_fits hpos (hlonger.trans hfits),
      expiresAtOf_fits (hpos.trans_le hle) hfits, latest_le_latest.mpr hlonger⟩
  · exact ⟨_, _, expiresAtOf_clamped hlong hnow, expiresAtOf_clamped (hlong.trans_le hle) hnow, le_rfl⟩

/-- A finite expiry is earlier than none. -/
lemma not_top_le_latest {e : Option Time} {t : Time} (h : e = some t) : ¬ latest none ≤ latest e := by
  rw [h]
  exact not_le.mpr (WithTop.coe_lt_top t)

/-- Nowhere else is the order kept. -/
lemma ExpiresNoLater.cases (h : ExpiresNoLater now secs₁ secs₂) (hnow : now ≤ maxUtc)
    (hle : secs₁ ≤ secs₂) :
    secs₂ = 0 ∨ (0 < secs₁ ∧ now + secs₂ * second ≤ maxUtc) ∨ maxChronoSecs < secs₁ := by
  obtain ⟨e₁, e₂, h₁, h₂, hlate⟩ := h
  rcases wire_cases now secs₁ with rfl | ⟨hpos₁, hfits₁⟩ | ⟨hshort₁, hover₁⟩ | hlong₁
  · obtain rfl := Option.some.inj (expiresAtOf_zero.symm.trans h₁)
    rcases wire_cases now secs₂ with hzero₂ | ⟨hpos₂, hfits₂⟩ | ⟨hshort₂, hover₂⟩ | hlong₂
    · exact Or.inl hzero₂
    · have he₂ := Option.some.inj ((expiresAtOf_fits hpos₂ hfits₂).symm.trans h₂)
      exact absurd hlate (not_top_le_latest he₂.symm)
    · cases (expiresAtOf_overflow hshort₂ hover₂ hnow).symm.trans h₂
    · have he₂ := Option.some.inj ((expiresAtOf_clamped hlong₂ hnow).symm.trans h₂)
      exact absurd hlate (not_top_le_latest he₂.symm)
  · obtain rfl := Option.some.inj ((expiresAtOf_fits hpos₁ hfits₁).symm.trans h₁)
    rcases wire_cases now secs₂ with hzero₂ | ⟨hpos₂, hfits₂⟩ | ⟨hshort₂, hover₂⟩ | hlong₂
    · exact Or.inl hzero₂
    · exact Or.inr (Or.inl ⟨hpos₁, hfits₂⟩)
    · cases (expiresAtOf_overflow hshort₂ hover₂ hnow).symm.trans h₂
    · -- the longer one expires at once
      obtain rfl := Option.some.inj ((expiresAtOf_clamped hlong₂ hnow).symm.trans h₂)
      have hearlier : now + secs₁ * second ≤ now := latest_le_latest.mp hlate
      have hspan : 0 < secs₁ * second := Nat.mul_pos hpos₁ (by decide)
      exact absurd hearlier (not_le.mpr (Nat.lt_add_of_pos_right hspan))
  · cases (expiresAtOf_overflow hshort₁ hover₁ hnow).symm.trans h₁
  · exact Or.inr (Or.inr hlong₁)

/-- For two times to live, neither `put` panics and the shorter one expires no later exactly if
neither is given, or the shorter one is given and the longer one ends within the type of times, or
both are too long for the type of durations. -/
theorem expiry_monotone (now : Time) (secs₁ secs₂ : ℕ) (hnow : now ≤ maxUtc) (hle : secs₁ ≤ secs₂) :
    (StoresSafely now secs₁ ∧ StoresSafely now secs₂ ∧ ExpiresNoLater now secs₁ secs₂) ↔
      secs₂ = 0 ∨ (0 < secs₁ ∧ now + secs₂ * second ≤ maxUtc) ∨ maxChronoSecs < secs₁ := by
  rw [storesSafely_iff, storesSafely_iff]
  constructor
  · exact fun h => h.2.2.cases hnow hle
  · intro h
    obtain ⟨expiresAt₁, expiresAt₂, h₁, h₂, hlate⟩ := expiresNoLater_of hnow hle h
    exact ⟨Option.isSome_of_eq_some h₁, Option.isSome_of_eq_some h₂, expiresAt₁, expiresAt₂, h₁, h₂, hlate⟩

/-- Two years and three at the start. -/
theorem expiry_monotone_years : StoresSafely 0 (2 * 31536000) ∧ StoresSafely 0 (3 * 31536000) ∧
    ExpiresNoLater 0 (2 * 31536000) (3 * 31536000) :=
  (expiry_monotone 0 _ _ (Nat.zero_le _) (by decide)).mpr (Or.inr (Or.inl (by decide)))

/-- A response with `max-age=9000000000000` makes `put` panic; a time to live of zero seconds
expires later than one of a second, and that later than one of `2 ^ 63` seconds. -/
theorem expiry_not_monotone :
    (∃ headers secs, cacheDirectiveOf headers = .cacheable (some secs) ∧ ¬ StoresSafely 0 secs) ∧
      ¬ ExpiresNoLater 0 0 1 ∧ ¬ ExpiresNoLater 0 1 (2 ^ 63) := by
  refine ⟨⟨[("cache-control", "max-age=9000000000000")], 9000000000000, by decide +kernel, ?_⟩, ?_, ?_⟩
  · rw [storesSafely_iff, expiresAtOf_overflow (by decide) (by decide) (by decide)]
    decide
  · exact fun h => absurd (h.cases (by decide) (by decide)) (by decide)
  · exact fun h => absurd (h.cases (by decide) (by decide)) (by decide)

end SmartSchoolCdn
