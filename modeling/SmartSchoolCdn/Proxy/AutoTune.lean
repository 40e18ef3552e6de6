import SmartSchoolCdn.Foundation.Text
import SmartSchoolCdn.Proxy.InFlight
import Mathlib.Algebra.Order.Group.Nat

/-!
# The tuning of the coalescer's capacity

The task of `spawn_auto_tune_task` in `services/proxy/src/lib.rs`, beside the coalescer whose lags it
watches and the requests that use its capacity.  A tick doubles the capacity when somebody has lagged
since the last one, and halves it after ten ticks without a lag.

A channel of the coalescer carries one message only, so nobody ever lags, and the task can do nothing
but halve (`auto_tune_only_shrinks`).
-/

namespace SmartSchoolCdn.AutoTune

open Traces

universe u

def autoTuneMinCapacity : ℕ := 256

def autoTuneMaxCapacity : ℕ := 65536

/-- `AUTO_TUNE_SHRINK_AFTER_CALM_INTERVALS`. -/
def shrinkAfterCalmIntervals : ℕ := 10

/-- `usize::MAX`. -/
def usizeMax : ℕ := 2 ^ 64 - 1

/-- `u32::MAX`. -/
def u32Max : ℕ := 2 ^ 32 - 1

/-- `seed_auto_tuned_from_env`, by the value of `PROXY_COALESCE_CHANNEL_CAPACITY`. -/
def seedAutoTunedFromEnv (channelCapacity : Option String) : ℕ :=
  let initial := ((channelCapacity.bind Text.parseU64).filter (0 < ·)).getD 1024
  max autoTuneMinCapacity (min initial autoTuneMaxCapacity)

/-- Whether the task runs, by the value of `PROXY_COALESCE_AUTO_TUNE`. -/
def isEnabled (autoTune : Option String) : Bool :=
  (autoTune.map fun v => Text.lower v != "false" && v != "0").getD true

/-- `AUTO_TUNED_COALESCE_CAPACITY` and the variables of the task. -/
structure Tuner where
  capacity : ℕ
  lastLagged : ℕ
  calmIntervals : ℕ

/-- A tick that reads a count of lags. -/
def Tuner.tick (t : Tuner) (nowLagged : ℕ) : Tuner :=
  if 0 < nowLagged - t.lastLagged then
    { capacity := min (min (t.capacity * 2) usizeMax) autoTuneMaxCapacity
      lastLagged := nowLagged
      calmIntervals := 0 }
  else
    let calmIntervals := min (t.calmIntervals + 1) u32Max
    if calmIntervals ≥ shrinkAfterCalmIntervals then
      { capacity := max (t.capacity / 2) autoTuneMinCapacity
        lastLagged := nowLagged
        calmIntervals := 0 }
    else { capacity := t.capacity, lastLagged := nowLagged, calmIntervals := calmIntervals }

/-- The capacity is in its range. -/
def Tuner.InRange (t : Tuner) : Prop :=
  autoTuneMinCapacity ≤ t.capacity ∧ t.capacity ≤ autoTuneMaxCapacity

/-- A tick keeps the range, whatever it reads. -/
lemma Tuner.InRange.tick {t : Tuner} (h : t.InRange) (nowLagged : ℕ) : (t.tick nowLagged).InRange := by
  obtain ⟨hmin, hmax⟩ := h
  unfold autoTuneMinCapacity at hmin
  unfold autoTuneMaxCapacity at hmax
  unfold Tuner.tick Tuner.InRange autoTuneMinCapacity autoTuneMaxCapacity usizeMax
  split
  · constructor <;> simp only <;> omega
  · dsimp only
    split
    · constructor <;> simp only <;> omega
    · exact ⟨hmin, hmax⟩

/-! ## The system -/

/-- The coalescer, the task, and the capacities that the domains set themselves. -/
structure State (ρ : Type u) where
  coalescer : InFlight.State ρ
  tuner : Tuner
  domainCapacities : String → Option ℕ

variable {ρ : Type u}

/-- The start of the proxy. -/
def State.initial (channelCapacity : Option String) : State ρ where
  coalescer := .new
  tuner := { capacity := seedAutoTunedFromEnv channelCapacity, lastLagged := 0, calmIntervals := 0 }
  domainCapacities _ := none

/-- `coalesce_capacity_for_host`. -/
def State.coalesceCapacityForHost (s : State ρ) (host : String) : ℕ :=
  (s.domainCapacities host).getD s.tuner.capacity

/-- What happens next: a request for a host comes to the coalescer, a call there takes a step, the task
ticks, or the domains are updated. -/
inductive Action (ρ : Type u)
  | request (host key : String)
  | call (a : InFlight.Action ρ)
  | tick
  | setDomainCapacities (capacities : String → Option ℕ)

/-- Execute an action; the task ticks when it is enabled. -/
def step (enabled : Bool) (s : State ρ) : Action ρ → Option (State ρ)
  | .request host key =>
    (InFlight.step s.coalescer (.arrive key (s.coalesceCapacityForHost host))).map fun c =>
      { s with coalescer := c }
  | .call (.arrive _ _) => none
  | .call a => (InFlight.step s.coalescer a).map fun c => { s with coalescer := c }
  | .tick => if enabled then some { s with tuner := s.tuner.tick s.coalescer.laggedCount } else none
  | .setDomainCapacities capacities => some { s with domainCapacities := capacities }

variable {enabled : Bool} {s s' t : State ρ} {a : Action ρ} {as : List (Action ρ)}

/-- A step is one of the coalescer, a tick, or leaves both alone. -/
lemma step_cases (h : step enabled s a = some s') :
    (s'.tuner = s.tuner ∧ a ≠ .tick ∧
      ((∃ b, InFlight.step s.coalescer b = some s'.coalescer) ∨ s'.coalescer = s.coalescer)) ∨
    (a = .tick ∧ enabled = true ∧ s'.coalescer = s.coalescer ∧
      s'.tuner = s.tuner.tick s.coalescer.laggedCount) := by
  cases a with
  | request host key =>
    simp only [step, Option.map_eq_some_iff] at h
    obtain ⟨c, hc, rfl⟩ := h
    exact Or.inl ⟨rfl, by simp, Or.inl ⟨_, hc⟩⟩
  | call b =>
    have hb : (InFlight.step s.coalescer b).map (fun c => { s with coalescer := c }) = some s' := by
      cases b with
      | arrive key capacity => cases h
      | _ => exact h
    obtain ⟨c, hc, rfl⟩ := Option.map_eq_some_iff.mp hb
    exact Or.inl ⟨rfl, by simp, Or.inl ⟨_, hc⟩⟩
  | tick =>
    simp only [step, Option.ite_none_right_eq_some, Option.some.injEq] at h
    obtain ⟨henabled, rfl⟩ := h
    exact Or.inr ⟨rfl, henabled, rfl, rfl⟩
  | setDomainCapacities capacities =>
    obtain rfl := Option.some.inj h
    exact Or.inl ⟨rfl, by simp, Or.inr rfl⟩

/-- The coalescer beside the task runs as it does alone. -/
lemma reaches_coalescer (h : Reaches (step enabled) s t)
    (hs : Reaches InFlight.step (InFlight.State.new : InFlight.State ρ) s.coalescer) :
    Reaches InFlight.step (InFlight.State.new : InFlight.State ρ) t.coalescer := by
  refine h.invariant (I := fun s => Reaches InFlight.step InFlight.State.new s.coalescer) ?_ hs
  intro s a s' hI hst
  rcases step_cases hst with ⟨-, -, ⟨b, hb⟩ | hc⟩ | ⟨-, -, hc, -⟩
  · exact hI.trans ⟨[b], Trace.cons trivial hb (Trace.nil _)⟩
  · rwa [hc]
  · rwa [hc]

/-! ## Ticks without lags -/

/-- The ticks among some actions. -/
def ticks : List (Action ρ) → ℕ
  | [] => 0
  | .tick :: as => ticks as + 1
  | _ :: as => ticks as

lemma ticks_cons_of_ne (h : a ≠ .tick) : ticks (a :: as) = ticks as := by
  cases a with
  | tick => exact absurd rfl h
  | request host key => rfl
  | call b => rfl
  | setDomainCapacities capacities => rfl

/-- The task after some ticks without lags from a capacity on. -/
structure Calm (seed n : ℕ) (t : Tuner) : Prop where
  capacity : t.capacity = max autoTuneMinCapacity (seed / 2 ^ (n / shrinkAfterCalmIntervals))
  lastLagged : t.lastLagged = 0
  calmIntervals : t.calmIntervals = n % shrinkAfterCalmIntervals

/-- Every tenth tick halves. -/
lemma Calm.tick {seed n : ℕ} {t : Tuner} (h : Calm seed n t) : Calm seed (n + 1) (t.tick 0) := by
  obtain ⟨hcapacity, hlagged, hcalm⟩ := h
  unfold shrinkAfterCalmIntervals at hcapacity hcalm
  have hno : ¬ 0 < 0 - t.lastLagged := by omega
  have hmin : min (t.calmIntervals + 1) u32Max = t.calmIntervals + 1 :=
    Nat.min_eq_left (by rw [hcalm, u32Max]; omega)
  unfold Tuner.tick
  rw [if_neg hno]
  dsimp only
  rw [hmin]
  by_cases hten : t.calmIntervals + 1 ≥ shrinkAfterCalmIntervals
  · rw [if_pos hten]
    unfold shrinkAfterCalmIntervals at hten
    have hdiv : (n + 1) / 10 = n / 10 + 1 := by omega
    have hhalf : seed / 2 ^ ((n + 1) / 10) = seed / 2 ^ (n / 10) / 2 := by
      rw [hdiv, Nat.pow_succ, Nat.div_div_eq_div_mul]
    refine ⟨?_, rfl, ?_⟩
    · simp only [shrinkAfterCalmIntervals, autoTuneMinCapacity, hhalf, hcapacity]
      omega
    · simp only [shrinkAfterCalmIntervals]
      omega
  · rw [if_neg hten]
    unfold shrinkAfterCalmIntervals at hten
    have hdiv : (n + 1) / 10 = n / 10 := by omega
    refine ⟨?_, rfl, ?_⟩
    · simp only [shrinkAfterCalmIntervals, hdiv]
      exact hcapacity
    · simp only [shrinkAfterCalmIntervals, hcalm]
      omega

/-- What a run adds to the ticks. -/
lemma calm_of_trace {seed n : ℕ} (h : Trace (step enabled) Free s as t)
    (hs : Reaches InFlight.step (InFlight.State.new : InFlight.State ρ) s.coalescer)
    (hcalm : Calm seed n s.tuner) : Calm seed (n + ticks as) t.tuner := by
  induction h generalizing n with
  | nil s => exact hcalm
  | @cons s s' t a as _ hst _ ih =>
    have hs' := reaches_coalescer ⟨[a], Trace.cons trivial hst (Trace.nil _)⟩ hs
    rcases step_cases hst with ⟨htuner, hne, -⟩ | ⟨rfl, -, -, htuner⟩
    · rw [ticks_cons_of_ne hne]
      exact ih hs' (by rwa [htuner])
    · have hlagged : s.coalescer.laggedCount = 0 := (InFlight.coherent_of_reaches hs).lagged
      rw [hlagged] at htuner
      have hrest := ih hs' (htuner ▸ hcalm.tick)
      rwa [ticks, Nat.add_comm (ticks as), ← Nat.add_assoc]

/-- The capacity at the start. -/
lemma seedAutoTunedFromEnv_inRange (channelCapacity : Option String) :
    autoTuneMinCapacity ≤ seedAutoTunedFromEnv channelCapacity ∧
      seedAutoTunedFromEnv channelCapacity ≤ autoTuneMaxCapacity := by
  unfold seedAutoTunedFromEnv autoTuneMinCapacity autoTuneMaxCapacity
  dsimp only
  omega

/-- A run with the task switched off has no ticks. -/
lemma ticks_of_disabled (h : Trace (step false) Free s as t) : ticks as = 0 := by
  induction h with
  | nil s => rfl
  | cons _ hst _ ih =>
    rcases step_cases hst with ⟨-, hne, -⟩ | ⟨-, henabled, -⟩
    · rw [ticks_cons_of_ne hne, ih]
    · cases henabled

/-- The capacity would stay between 256 and 65536 whatever counts of lags the task read.  But in every
run, however requests, calls, domain updates and ticks interleave, nobody lags, and after some ticks the
capacity is the one of the start, halved for every ten of them down to 256.  With the task switched off
it is the one of the start. -/
theorem auto_tune_only_shrinks (channelCapacity autoTune : Option String) :
    (∀ readings : List ℕ,
      (readings.foldl Tuner.tick (State.initial (ρ := ρ) channelCapacity).tuner).InRange) ∧
    ∀ (as : List (Action ρ)) (t : State ρ),
      Trace (step (isEnabled autoTune)) Free (State.initial channelCapacity) as t →
      t.coalescer.laggedCount = 0 ∧
      t.tuner.capacity = max 256 (seedAutoTunedFromEnv channelCapacity / 2 ^ (ticks as / 10)) ∧
      (isEnabled autoTune = false → t.tuner.capacity = seedAutoTunedFromEnv channelCapacity) := by
  have hseed := seedAutoTunedFromEnv_inRange channelCapacity
  constructor
  · intro readings
    have hfold : ∀ (readings : List ℕ) (tuner : Tuner), tuner.InRange →
        (readings.foldl Tuner.tick tuner).InRange := by
      intro readings
      induction readings with
      | nil => exact fun _ h => h
      | cons n readings ih => exact fun tuner h => ih _ (h.tick n)
    exact hfold readings _ hseed
  · intro as t h
    have hnew : Reaches InFlight.step (InFlight.State.new : InFlight.State ρ) InFlight.State.new :=
      ⟨[], Trace.nil _⟩
    have hstart : Calm (seedAutoTunedFromEnv channelCapacity) 0
        (State.initial (ρ := ρ) channelCapacity).tuner := by
      refine ⟨?_, rfl, rfl⟩
      rw [Nat.zero_div, Nat.pow_zero, Nat.div_one, Nat.max_eq_right hseed.1]
      rfl
    have hcalm := calm_of_trace h hnew hstart
    rw [Nat.zero_add] at hcalm
    refine ⟨(InFlight.coherent_of_reaches (reaches_coalescer h.reaches hnew)).lagged, hcalm.capacity,
      fun hoff => ?_⟩
    rw [hoff] at h
    rw [hcalm.capacity, ticks_of_disabled h, Nat.zero_div, Nat.pow_zero, Nat.div_one,
      Nat.max_eq_right hseed.1]

end SmartSchoolCdn.AutoTune
