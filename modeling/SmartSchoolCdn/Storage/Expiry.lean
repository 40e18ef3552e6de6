import SmartSchoolCdn.Storage.Grpc
import Mathlib.Order.WithBot

/-!
# Expiry times

`put` adds the time to live to the present time, and the addition panics where the sum is not a
time of the type any more.  The operations of `CacheLayer` leave that out; here `put` is given
with its panic, which comes after the files are written and before the entry is registered, and
is `CacheLayer.put` where there is none (`putOutcome_of_some`).

A time to live that is too long for the type of durations becomes zero before the addition, so
the expiry grows with the time to live up to the last time of the type, panics from there on,
and is the present time for the longest ones.
-/

namespace SmartSchoolCdn

/-- `DateTime::<Utc>::MAX_UTC`, the last nanosecond of the year 262142. -/
def maxUtc : Time := 8210266876799 * second + 999999999

/-- The longest `chrono::Duration` in whole seconds. -/
def maxChronoSecs : ℕ := 9223372036854775

lemma chronoSecs_of_le {secs : ℕ} (h : secs ≤ maxChronoSecs) : CacheLayer.chronoSecs secs = secs :=
  if_pos h

lemma chronoSecs_of_lt {secs : ℕ} (h : maxChronoSecs < secs) : CacheLayer.chronoSecs secs = 0 :=
  if_neg (Nat.not_le.mpr h)

/-- `now + chrono::Duration::from_std(d).unwrap_or_default()`; nothing for a panic. -/
def addSecs (now : Time) (secs : ℕ) : Option Time :=
  let expiry := now + CacheLayer.chronoSecs secs * second
  if expiry ≤ maxUtc then some expiry else none

/-- `expires_at` of `put`; nothing for a panic. -/
def expiresAtOf (now : Time) : Option ℕ → Option (Option Time)
  | none => some none
  | some secs => (addSecs now secs).map some

namespace CacheLayer

variable {β : Type} [Blob β]

/-- How a `put` ends, with the layer that it leaves. -/
inductive PutOutcome (β : Type)
  | finished (c : CacheLayer β)
  | panicked (c : CacheLayer β)

/-- `put` with the panic of the addition. -/
def putOutcome (c : CacheLayer β) (now : Time) (key url domain : String) (contentType : Option String)
    (bytes : β) (ttl : Option ℕ) (bodyBr : Option β) (cachedHeaders : HeaderMap) : PutOutcome β :=
  if blobSize bytes > c.maxSizeBytes then .finished c
  else
    let written := (c.reserve (blobSize bytes)).writeFiles key bytes bodyBr
    match expiresAtOf now ttl with
    | none => .panicked written
    | some expiresAt =>
      .finished (written.register key
        { newEntry now url domain contentType bytes ttl bodyBr cachedHeaders with
          expiresAt := expiresAt })

/-- Without a panic the expiry is the one that the layer registers. -/
lemma expiresAt_eq_of_some {now : Time} {ttl : Option ℕ} {expiresAt : Option Time}
    (h : expiresAtOf now ttl = some expiresAt) :
    expiresAt = ttl.map fun secs => now + chronoSecs secs * second := by
  cases ttl with
  | none => exact (Option.some.inj h).symm
  | some secs =>
    obtain ⟨expiry, hadd, rfl⟩ := Option.map_eq_some_iff.mp h
    rw [addSecs] at hadd
    split at hadd
    · rw [← Option.some.inj hadd, Option.map_some]
    · cases hadd

/-- Without a panic `put` is the sequential operation. -/
theorem putOutcome_of_some (c : CacheLayer β) {now : Time} {ttl : Option ℕ} {expiresAt : Option Time}
    (h : expiresAtOf now ttl = some expiresAt) (key url domain : String) (contentType : Option String)
    (bytes : β) (bodyBr : Option β) (cachedHeaders : HeaderMap) :
    c.putOutcome now key url domain contentType bytes ttl bodyBr cachedHeaders =
      .finished (c.put now key url domain contentType bytes ttl bodyBr cachedHeaders) := by
  have hsame := expiresAt_eq_of_some h
  rw [putOutcome, put]
  split
  · rfl
  · simp only [h]
    rw [hsame]
    rfl

/-- With a panic the files are written and nothing is registered, unless the body is larger than
the whole capacity. -/
theorem putOutcome_of_none (c : CacheLayer β) {now : Time} {ttl : Option ℕ}
    (h : expiresAtOf now ttl = none) (key url domain : String) (contentType : Option String)
    (bytes : β) (bodyBr : Option β) (cachedHeaders : HeaderMap)
    (hfits : blobSize bytes ≤ c.maxSizeBytes) :
    c.putOutcome now key url domain contentType bytes ttl bodyBr cachedHeaders =
      .panicked ((c.reserve (blobSize bytes)).writeFiles key bytes bodyBr) := by
  rw [putOutcome, if_neg (UInt64.not_lt.mpr hfits)]
  simp only [h]

end CacheLayer

/-! ## Times to live that came over the wire -/

variable {now : Time} {secs secs₁ secs₂ : ℕ}

/-- The order of expiry times, in which no expiry is the latest. -/
def latest : Option Time → WithTop Time
  | none => ⊤
  | some t => WithTop.some t

lemma latest_le_latest {t₁ t₂ : Time} : latest (some t₁) ≤ latest (some t₂) ↔ t₁ ≤ t₂ :=
  WithTop.coe_le_coe

/-- Zero seconds are no expiry. -/
lemma expiresAtOf_zero : expiresAtOf now (ofWireSecs 0) = some none := rfl

/-- A time to live that fits both types is added. -/
lemma expiresAtOf_fits (hpos : 0 < secs) (h : now + secs * second ≤ maxUtc) :
    expiresAtOf now (ofWireSecs secs) = some (some (now + secs * second)) := by
  have hle : secs ≤ maxChronoSecs := by
    unfold Time maxUtc second at h
    unfold maxChronoSecs
    omega
  rw [ofWireSecs, if_pos hpos, expiresAtOf, addSecs, chronoSecs_of_le hle, if_pos h]
  rfl

/-- A time to live that fits the type of durations only panics. -/
lemma expiresAtOf_overflow (hle : secs ≤ maxChronoSecs) (h : maxUtc < now + secs * second)
    (hnow : now ≤ maxUtc) : expiresAtOf now (ofWireSecs secs) = none := by
  have hpos : 0 < secs := by
    refine Nat.pos_of_ne_zero fun hzero => ?_
    rw [hzero, Nat.zero_mul, Nat.add_zero] at h
    exact absurd hnow (not_le.mpr h)
  rw [ofWireSecs, if_pos hpos, expiresAtOf, addSecs, chronoSecs_of_le hle, if_neg (not_le.mpr h)]
  rfl

/-- A time to live that is too long for the type of durations expires at once. -/
lemma expiresAtOf_clamped (h : maxChronoSecs < secs) (hnow : now ≤ maxUtc) :
    expiresAtOf now (ofWireSecs secs) = some (some now) := by
  have hpos : 0 < secs := Nat.lt_of_le_of_lt (Nat.zero_le _) h
  rw [ofWireSecs, if_pos hpos, expiresAtOf, addSecs, chronoSecs_of_lt h, Nat.zero_mul, Nat.add_zero,
    if_pos hnow]
  rfl

/-- The four cases. -/
lemma wire_cases (now : Time) (secs : ℕ) :
    secs = 0 ∨ (0 < secs ∧ now + secs * second ≤ maxUtc) ∨
      (secs ≤ maxChronoSecs ∧ maxUtc < now + secs * second) ∨ maxChronoSecs < secs := by
  rcases Nat.eq_zero_or_pos secs with hzero | hpos
  · exact Or.inl hzero
  · rcases le_or_gt (now + secs * second) maxUtc with hfits | hover
    · exact Or.inr (Or.inl ⟨hpos, hfits⟩)
    · rcases le_or_gt secs maxChronoSecs with hle | hlt
      · exact Or.inr (Or.inr (Or.inl ⟨hle, hover⟩))
      · exact Or.inr (Or.inr (Or.inr hlt))

end SmartSchoolCdn
