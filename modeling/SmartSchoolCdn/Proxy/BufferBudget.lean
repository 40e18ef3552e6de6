import SmartSchoolCdn.Foundation.Totals
import SmartSchoolCdn.Foundation.Trace
import Mathlib.Data.UInt

/-!
# The budget for response buffers

`InFlightGuard`: the fetches that run at one time count the bytes of their buffers in one shared
counter.  A guard is reserved by a loop that loads the counter, compares it with the limit and
exchanges it; the reservation is corrected when the body has been read, and given back when the
guard is dropped.

Here each operation takes one step for each access to the counter, and the steps of any number of
operations interleave.  The load is relaxed, so it may see any value that the counter had; the
exchange may fail for no reason.

The counter is at all times the sum of what the guards hold, if that is a 64-bit number
(`buffer_budget`).
-/

namespace SmartSchoolCdn.BufferBudget

open Tables Traces

/-- Where a guard stands: before the load of `reserve`, between the load and the exchange, refused,
held, between the correction of the counter and that of the guard in `reconcile`, or dropped. -/
inductive Guard
  | loading (want limit : UInt64)
  | comparing (want limit cur : UInt64)
  | refused
  | held (reserved : UInt64)
  | settling (reserved actual : UInt64)
  | dropped
  deriving DecidableEq, Repr

/-- `IN_FLIGHT_BUFFER_BYTES` and the guards.  `wrapped` is whether an addition to the counter or a
subtraction from it has left the 64-bit numbers. -/
structure State where
  counter : UInt64
  wrapped : Bool
  guards : List Guard
  deriving DecidableEq, Repr

/-- The start of the process. -/
def State.initial : State where
  counter := 0
  wrapped := false
  guards := []

namespace State

variable (s : State)

/-- `fetch_add`. -/
def add (n : UInt64) : State :=
  { s with
    counter := s.counter + n
    wrapped := s.wrapped || 2 ^ 64 ≤ s.counter.toNat + n.toNat }

/-- `fetch_sub`. -/
def sub (n : UInt64) : State :=
  { s with
    counter := s.counter - n
    wrapped := s.wrapped || s.counter < n }

/-- Move a guard. -/
def put (i : ℕ) (guard : Guard) : State := { s with guards := s.guards.set i guard }

end State

/-- `saturating_add`. -/
def saturatingAdd (a b : UInt64) : UInt64 := if a.toNat + b.toNat < 2 ^ 64 then a + b else -1

/-- What happens next: a `reserve` is called, with the limit that it reads; it loads the counter
and sees a value; it compares and exchanges, which may fail spuriously; the counter is corrected in
`reconcile`, then the guard; or a guard is dropped. -/
inductive Action
  | reserve (want limit : UInt64)
  | load (i : ℕ) (cur : UInt64)
  | compareExchange (i : ℕ) (spurious : Bool)
  | reconcile (i : ℕ) (actual : UInt64)
  | set (i : ℕ)
  | drop (i : ℕ)
  deriving DecidableEq, Repr

/-- The step of a guard. -/
def State.advance (s : State) (i : ℕ) : Guard → Action → Option State
  | .loading want limit, .load _ cur =>
    if cur > 0 ∧ saturatingAdd cur want > limit then some (s.put i .refused)
    else some (s.put i (.comparing want limit cur))
  | .comparing want limit cur, .compareExchange _ spurious =>
    if s.counter = cur ∧ spurious = false then some ((s.add want).put i (.held want))
    else some (s.put i (.loading want limit))
  | .held prev, .reconcile _ actual =>
    let corrected :=
      if actual > prev then s.add (actual - prev)
      else if prev > actual then s.sub (prev - actual)
      else s
    some (corrected.put i (.settling prev actual))
  | .settling _ actual, .set _ => some (s.put i (.held actual))
  | .held reserved, .drop _ => some ((s.sub reserved).put i .dropped)
  | _, _ => none

/-- The guard that an action moves. -/
def Action.index : Action → Option ℕ
  | .reserve _ _ => none
  | .load i _ | .compareExchange i _ | .reconcile i _ | .set i | .drop i => some i

/-- Execute an action. -/
def step (s : State) (a : Action) : Option State :=
  match a with
  | .reserve want limit => some { s with guards := s.guards ++ [.loading want limit] }
  | a => a.index.bind fun i => s.guards[i]?.bind fun guard => s.advance i guard a

/-! ## What the guards hold -/

/-- What a guard accounts for; in the middle of `reconcile` it is what it is being corrected to. -/
def Guard.amount : Guard → ℕ
  | .held reserved => reserved.toNat
  | .settling _ actual => actual.toNat
  | _ => 0

/-- The field `reserved` of a live guard. -/
def Guard.reserved : Guard → ℕ
  | .held reserved => reserved.toNat
  | .settling reserved _ => reserved.toNat
  | _ => 0

/-- The operation is not between two of its steps. -/
def Guard.isQuiet : Guard → Bool
  | .comparing _ _ _ => false
  | .settling _ _ => false
  | _ => true

namespace State

/-- The sum of the amounts. -/
def live (s : State) : ℕ := total Guard.amount s.guards

/-- The counter is the sum, and it has got there without wrapping around. -/
structure Balanced (s : State) : Prop where
  sum : s.counter.toNat = s.live
  sound : s.wrapped = false

variable {s s' : State} {i : ℕ} {guard guard' : Guard} {n : UInt64} {a : Action}

lemma balanced_initial : Balanced State.initial where
  sum := rfl
  sound := rfl

/-- A guard moves and keeps its amount. -/
lemma Balanced.put (h : s.Balanced) (hi : s.guards[i]? = some guard)
    (hamount : guard'.amount = guard.amount) : (s.put i guard').Balanced where
  sum := by
    have hset := total_set (g := Guard.amount) (y := guard') hi
    have hsum := h.sum
    unfold State.live at hsum ⊢
    change s.counter.toNat = total Guard.amount (s.guards.set i guard')
    omega
  sound := h.sound

/-- A guard takes what is added to the counter. -/
lemma Balanced.add_put (h : s.Balanced) (hi : s.guards[i]? = some guard)
    (hamount : guard'.amount = guard.amount + n.toNat)
    (hlive : ((s.add n).put i guard').live < 2 ^ 64) : ((s.add n).put i guard').Balanced := by
  have hset := total_set (g := Guard.amount) (y := guard') hi
  have hsum := h.sum
  unfold State.live at hsum hlive
  change total Guard.amount (s.guards.set i guard') < 2 ^ 64 at hlive
  constructor
  · change (s.counter + n).toNat = total Guard.amount (s.guards.set i guard')
    rw [UInt64.toNat_add, Nat.mod_eq_of_lt (by omega)]
    omega
  · change (s.wrapped || decide (2 ^ 64 ≤ s.counter.toNat + n.toNat)) = false
    rw [h.sound, Bool.false_or, decide_eq_false_iff_not]
    omega

/-- A guard gives up what is subtracted from the counter. -/
lemma Balanced.sub_put (h : s.Balanced) (hi : s.guards[i]? = some guard)
    (hamount : guard'.amount + n.toNat = guard.amount) : ((s.sub n).put i guard').Balanced := by
  have hset := total_set (g := Guard.amount) (y := guard') hi
  have hsum := h.sum
  unfold State.live at hsum
  have hle : n ≤ s.counter := by
    rw [UInt64.le_iff_toNat_le]
    omega
  constructor
  · change (s.counter - n).toNat = total Guard.amount (s.guards.set i guard')
    rw [UInt64.toNat_sub_of_le _ _ hle]
    omega
  · change (s.wrapped || decide (s.counter < n)) = false
    rw [h.sound, Bool.false_or, decide_eq_false_iff_not, UInt64.not_lt]
    exact hle

/-- A correction of the counter and of a guard. -/
lemma Balanced.reconcile (h : s.Balanced) {prev actual : UInt64} (hi : s.guards[i]? = some (.held prev))
    {s' : State} (hs : s.advance i (.held prev) (.reconcile i actual) = some s')
    (hlive : s'.live < 2 ^ 64) : s'.Balanced := by
  obtain rfl := Option.some.inj hs
  by_cases hmore : actual > prev
  · rw [if_pos hmore] at hlive ⊢
    refine h.add_put hi ?_ hlive
    have hsub := UInt64.toNat_sub_of_le actual prev (UInt64.le_of_lt hmore)
    have hlt : prev.toNat < actual.toNat := UInt64.lt_iff_toNat_lt.mp hmore
    change actual.toNat = prev.toNat + (actual - prev).toNat
    omega
  · rw [if_neg hmore]
    by_cases hless : prev > actual
    · rw [if_pos hless]
      refine h.sub_put hi ?_
      have hsub := UInt64.toNat_sub_of_le prev actual (UInt64.le_of_lt hless)
      have hlt : actual.toNat < prev.toNat := UInt64.lt_iff_toNat_lt.mp hless
      change actual.toNat + (prev - actual).toNat = prev.toNat
      omega
    · rw [if_neg hless]
      refine h.put hi ?_
      exact congrArg UInt64.toNat (UInt64.le_antisymm (UInt64.not_lt.mp hmore) (UInt64.not_lt.mp hless))

/-- The step of a guard keeps the balance. -/
lemma Balanced.advance (h : s.Balanced) (hi : s.guards[i]? = some guard)
    (hs : s.advance i guard a = some s') (hindex : a.index = some i) (hlive : s'.live < 2 ^ 64) :
    s'.Balanced := by
  unfold State.advance at hs
  split at hs
  · -- the load
    split at hs
    · obtain rfl := Option.some.inj hs
      exact h.put hi rfl
    · obtain rfl := Option.some.inj hs
      exact h.put hi rfl
  · -- the exchange
    split at hs
    · obtain rfl := Option.some.inj hs
      exact h.add_put hi (Nat.zero_add _).symm hlive
    · obtain rfl := Option.some.inj hs
      exact h.put hi rfl
  · obtain rfl := Option.some.inj hindex
    exact h.reconcile hi hs hlive
  · obtain rfl := Option.some.inj hs
    exact h.put hi rfl
  · obtain rfl := Option.some.inj hs
    exact h.sub_put hi (Nat.zero_add _)
  · cases hs

/-- Every action but the call of `reserve` is the step of a guard. -/
lemma step_cases (hs : step s a = some s') :
    (∃ want limit, a = .reserve want limit ∧ s' = { s with guards := s.guards ++ [.loading want limit] }) ∨
      ∃ i guard, a.index = some i ∧ s.guards[i]? = some guard ∧ s.advance i guard a = some s' := by
  have hguard : ∀ {a : Action}, (a.index.bind fun i => s.guards[i]?.bind fun guard =>
      s.advance i guard a) = some s' →
        ∃ i guard, a.index = some i ∧ s.guards[i]? = some guard ∧ s.advance i guard a = some s' := by
    intro a hs
    obtain ⟨i, hindex, hs⟩ := Option.bind_eq_some_iff.mp hs
    obtain ⟨guard, hi, hs⟩ := Option.bind_eq_some_iff.mp hs
    exact ⟨i, guard, hindex, hi, hs⟩
  cases a with
  | reserve want limit => exact Or.inl ⟨want, limit, rfl, (Option.some.inj hs).symm⟩
  | load i cur => exact Or.inr (hguard hs)
  | compareExchange i spurious => exact Or.inr (hguard hs)
  | reconcile i actual => exact Or.inr (hguard hs)
  | set i => exact Or.inr (hguard hs)
  | drop i => exact Or.inr (hguard hs)

/-- A step keeps the balance if the guards hold a 64-bit number of bytes after it. -/
theorem Balanced.step (h : s.Balanced) (hs : step s a = some s') (hlive : s'.live < 2 ^ 64) :
    s'.Balanced := by
  rcases step_cases hs with ⟨want, limit, -, rfl⟩ | ⟨i, guard, hindex, hi, hadvance⟩
  · refine ⟨?_, h.sound⟩
    have hsum := h.sum
    unfold State.live at hsum ⊢
    rw [total_append, total_cons, total_nil]
    exact hsum
  · exact h.advance hi hadvance hindex hlive

/-- No operation is between two of its steps. -/
def Quiet (s : State) : Prop := ∀ guard ∈ s.guards, guard.isQuiet = true

/-- Then the amounts are what the live guards have reserved. -/
lemma Quiet.live (h : s.Quiet) : s.live = total Guard.reserved s.guards := by
  refine congrArg List.sum (List.map_congr_left fun guard hguard => ?_)
  have hquiet := h guard hguard
  cases guard with
  | settling reserved actual => cases hquiet
  | _ => rfl

end State

/-! ## The exchange -/

/-- The `i`-th guard has been reserved by its exchange. -/
structure Reserves (s : State) (i : ℕ) (want limit : UInt64) (s' : State) : Prop where
  comparing : ∃ cur, s.guards[i]? = some (.comparing want limit cur)
  step : ∃ spurious, step s (.compareExchange i spurious) = some s'
  held : s'.guards[i]? = some (.held want)

/-- What a guard has loaded has passed the test of `reserve`. -/
def Guard.Tested : Guard → Prop
  | .comparing want limit cur => cur = 0 ∨ saturatingAdd cur want ≤ limit
  | _ => True

/-- All guards have. -/
def Tested (s : State) : Prop := ∀ guard ∈ s.guards, guard.Tested

variable {s s' : State} {i : ℕ} {guard : Guard} {want limit : UInt64} {a : Action}

/-- The step of a guard replaces it by one that has passed the test. -/
lemma advance_put (hs : s.advance i guard a = some s') :
    ∃ (r : State) (guard' : Guard), s' = r.put i guard' ∧ r.guards = s.guards ∧ guard'.Tested := by
  unfold State.advance at hs
  split at hs
  · rename_i want limit _ cur
    split at hs
    · exact ⟨_, _, (Option.some.inj hs).symm, rfl, trivial⟩
    · rename_i hpasses
      refine ⟨_, _, (Option.some.inj hs).symm, rfl, ?_⟩
      rw [Guard.Tested]
      by_cases hzero : cur = 0
      · exact Or.inl hzero
      · have hpos : cur > 0 := UInt64.pos_iff_ne_zero.mpr hzero
        exact Or.inr (UInt64.not_lt.mp fun hover => hpasses ⟨hpos, hover⟩)
  · split at hs
    · exact ⟨_, _, (Option.some.inj hs).symm, rfl, trivial⟩
    · exact ⟨_, _, (Option.some.inj hs).symm, rfl, trivial⟩
  · refine ⟨_, _, (Option.some.inj hs).symm, ?_, trivial⟩
    split
    · rfl
    · split
      · rfl
      · rfl
  · exact ⟨_, _, (Option.some.inj hs).symm, rfl, trivial⟩
  · exact ⟨_, _, (Option.some.inj hs).symm, rfl, trivial⟩
  · cases hs

/-- A step keeps to the test. -/
lemma Tested.step (h : Tested s) (hs : step s a = some s') : Tested s' := by
  intro g hg
  rcases State.step_cases hs with ⟨want, limit, -, rfl⟩ | ⟨i, guard, -, -, hadvance⟩
  · rcases List.mem_append.mp hg with hold | hnew
    · exact h g hold
    · obtain rfl := List.mem_singleton.mp hnew
      trivial
  · obtain ⟨r, guard', rfl, hguards, htested⟩ := advance_put hadvance
    change g ∈ r.guards.set i guard' at hg
    rw [hguards] at hg
    rcases List.mem_or_eq_of_mem_set hg with hold | rfl
    · exact h g hold
    · exact htested

/-- A guard is reserved by an exchange that finds the value it has loaded. -/
lemma Reserves.exchange (h : Reserves s i want limit s') :
    s.guards[i]? = some (.comparing want limit s.counter) ∧ s' = (s.add want).put i (.held want) := by
  obtain ⟨cur, hi⟩ := h.comparing
  obtain ⟨spurious, hs⟩ := h.step
  have hheld := h.held
  simp only [BufferBudget.step, Action.index, Option.bind_some, hi, State.advance] at hs
  split at hs
  · rename_i hsame
    obtain rfl := Option.some.inj hs
    exact ⟨hsame.1 ▸ hi, rfl⟩
  · obtain rfl := Option.some.inj hs
    have hlt : i < s.guards.length := (List.getElem?_eq_some_iff.mp hi).1
    have hback : (s.guards.set i (.loading want limit))[i]? = some (.loading want limit) :=
      List.getElem?_set_self hlt
    cases hback.symm.trans hheld

/-- At the exchange the counter is zero, or what it becomes is within the limit. -/
lemma Reserves.within (h : Reserves s i want limit s') (hbalanced : s.Balanced) (htested : Tested s)
    (hlive : s'.live < 2 ^ 64) :
    s.counter = 0 ∨ s.counter.toNat + want.toNat ≤ limit.toNat := by
  obtain ⟨hi, rfl⟩ := h.exchange
  have hafter := (hbalanced.add_put hi (Nat.zero_add _).symm hlive).sound
  change (s.wrapped || decide (2 ^ 64 ≤ s.counter.toNat + want.toNat)) = false at hafter
  have hfits : s.counter.toNat + want.toNat < 2 ^ 64 := by
    rw [hbalanced.sound, Bool.false_or, decide_eq_false_iff_not] at hafter
    omega
  refine (htested _ (List.mem_of_getElem? hi)).imp_right fun hle => ?_
  rw [saturatingAdd, if_pos hfits, UInt64.le_iff_toNat_le, UInt64.toNat_add, Nat.mod_eq_of_lt hfits] at hle
  exact hle

/-! ## Runs -/

/-- After the step the guards hold a 64-bit number of bytes. -/
def Bounded (s : State) (a : Action) : Prop := ∀ s', step s a = some s' → s'.live < 2 ^ 64

/-- In every run in which the live guards always hold a 64-bit number of bytes together, the counter
is the sum of what they hold and has never wrapped around; when no operation is between its steps
that is the sum of the reservations; and the next reservation is made only if the counter is zero or
will be within the limit. -/
theorem buffer_budget (as : List Action) (t : State) (h : Trace step Bounded State.initial as t) :
    t.counter.toNat = t.live ∧ t.wrapped = false ∧
      (t.Quiet → t.counter.toNat = total Guard.reserved t.guards) ∧
      ∀ (i : ℕ) (want limit : UInt64) (t' : State), Reserves t i want limit t' → t'.live < 2 ^ 64 →
        t.counter = 0 ∨ t.counter.toNat + want.toNat ≤ limit.toNat := by
  obtain ⟨hbalanced, htested⟩ : t.Balanced ∧ Tested t := by
    refine h.invariant (I := fun s => s.Balanced ∧ Tested s) ?_ ⟨State.balanced_initial, ?_⟩
    · rintro s a s' ⟨hbalanced, htested⟩ hbounded hs
      exact ⟨hbalanced.step hs (hbounded s' hs), htested.step hs⟩
    · intro guard hguard
      cases hguard
  refine ⟨hbalanced.sum, hbalanced.sound, fun hquiet => ?_, fun i want limit t' hreserves hlive => ?_⟩
  · rw [hbalanced.sum, hquiet.live]
  · exact hreserves.within hbalanced htested hlive

/-- Two fetches with a limit of ten bytes: the second reserves while the first is corrected, and
loses one exchange to it; then the first is dropped. -/
def twoFetches : List Action :=
  [.reserve 5 10, .reserve 2 10, .load 0 0, .load 1 0, .compareExchange 0 false,
    .compareExchange 1 false, .load 1 5, .reconcile 0 7, .compareExchange 1 false, .set 0, .load 1 7,
    .compareExchange 1 false, .drop 0]

/-- The counter is the two bytes of the second fetch, and a third one takes the rest. -/
theorem buffer_budget_two :
    (∃ t, Trace step Bounded State.initial twoFetches t ∧ t.wrapped = false ∧ t.counter = 2 ∧
      t.counter.toNat = total Guard.reserved t.guards) ∧
    ∃ t t', Trace step Bounded State.initial (twoFetches ++ [.reserve 8 10, .load 2 2]) t ∧
      Reserves t 2 8 10 t' ∧ (t.counter = 0 ∨ t.counter.toNat + 8 ≤ 10) := by
  let c : State → Action → Bool := fun s a => (step s a).all fun s' => decide (s'.live < 2 ^ 64)
  have hc : ∀ s a, True → c s a = true → Bounded s a := by
    intro s a _ hcheck s' hs
    have hlive : (step s a).all (fun s' => decide (s'.live < 2 ^ 64)) = true := hcheck
    rw [hs] at hlive
    exact of_decide_eq_true hlive
  constructor
  · have hrun : (checkedRun step c State.initial twoFetches).any (fun t =>
        decide (t.counter = 2) && t.guards.all Guard.isQuiet) = true := by
      decide +kernel
    obtain ⟨t, ht, hend⟩ := exists_trace_of_checkedRun (fun _ _ _ _ _ => trivial) hc trivial hrun
    obtain ⟨hcounter, hquiet⟩ := Bool.and_eq_true_iff.mp hend
    obtain ⟨-, hsound, hsum, -⟩ := buffer_budget twoFetches t ht
    exact ⟨t, ht, hsound, of_decide_eq_true hcounter, hsum (List.all_eq_true.mp hquiet)⟩
  · have hrun : (checkedRun step c State.initial (twoFetches ++ [.reserve 8 10, .load 2 2])).any
        (fun t => decide (t.guards[2]? = some (.comparing 8 10 2)) &&
          (step t (.compareExchange 2 false)).any fun t' =>
            decide (t'.live < 2 ^ 64) && decide (t'.guards[2]? = some (.held 8))) = true := by
      decide +kernel
    obtain ⟨t, ht, hend⟩ := exists_trace_of_checkedRun (fun _ _ _ _ _ => trivial) hc trivial hrun
    obtain ⟨hcomparing, hstep⟩ := Bool.and_eq_true_iff.mp hend
    obtain ⟨t', hs, hlast⟩ := Option.any_eq_true _ _ |>.mp hstep
    obtain ⟨hlive, hheld⟩ := Bool.and_eq_true_iff.mp hlast
    have hreserves : Reserves t 2 8 10 t' :=
      ⟨⟨2, of_decide_eq_true hcomparing⟩, ⟨false, hs⟩, of_decide_eq_true hheld⟩
    obtain ⟨-, -, -, hwithin⟩ := buffer_budget _ t ht
    exact ⟨t, t', ht, hreserves, hwithin 2 8 10 t' hreserves (of_decide_eq_true hlive)⟩

end SmartSchoolCdn.BufferBudget
