import SmartSchoolCdn.Proxy.Policy
import Mathlib.Algebra.GroupWithZero.Nat
import Mathlib.Logic.Function.Basic

/-!
# Counters of a domain

`DomainCounter` of `services/proxy/src/lib.rs` and the operations of `record_domain_outcome`
on it.  A counter is a number for each field; the fields are atomic on their own, so that a
call is a list of additions in the order of the code, which other tasks can run between.
Numbers are natural numbers: 64 bits do not run over at any rate of requests.
-/

namespace SmartSchoolCdn

/-- The fields of `DomainCounter`. -/
inductive CounterField
  | requests
  | l1Hits
  | l2Hits
  | cacheMisses
  | bypassMethod
  | bypassNocache
  | bypassSize
  | bypassOther
  | bandwidth
  | responseTimeSum
  deriving DecidableEq, Repr

/-- `DomainCounter`. -/
abbrev DomainCounter := CounterField → ℕ

/-- `DomainCounter::new`. -/
def DomainCounter.new : DomainCounter := fun _ => 0

/-- `fetch_add` on one field. -/
def DomainCounter.fetchAdd (c : DomainCounter) (op : CounterField × ℕ) : DomainCounter :=
  Function.update c op.1 (c op.1 + op.2)

/-- The counter of an outcome. -/
def CacheOutcome.field : CacheOutcome → CounterField
  | l1Hit => .l1Hits
  | l2Hit => .l2Hits
  | miss => .cacheMisses
  | bypassMethod => .bypassMethod
  | bypassNoCache => .bypassNocache
  | bypassSize => .bypassSize
  | bypassOther => .bypassOther

/-- A call of `record_domain_outcome`, with the number of the request that makes it. -/
structure OutcomeCall where
  rid : ℕ
  host : String
  outcome : CacheOutcome
  bandwidth : ℕ
  responseTimeMs : ℕ
  deriving DecidableEq, Repr

namespace OutcomeCall

/-- The additions of a call, in their order. -/
def ops (call : OutcomeCall) : List (CounterField × ℕ) :=
  [(.requests, 1), (call.outcome.field, 1), (.bandwidth, call.bandwidth),
   (.responseTimeSum, call.responseTimeMs)]

/-- What a call adds to a field. -/
def amount (call : OutcomeCall) : CounterField → ℕ
  | .requests => 1
  | .bandwidth => call.bandwidth
  | .responseTimeSum => call.responseTimeMs
  | f => if f = call.outcome.field then 1 else 0

/-- The additions of a call to one field. -/
lemma sum_ops (call : OutcomeCall) (f : CounterField) :
    ((call.ops.filter fun op => op.1 = f).map Prod.snd).sum = call.amount f := by
  obtain ⟨rid, host, outcome, bandwidth, responseTimeMs⟩ := call
  cases outcome <;> cases f <;> simp [ops, amount, CacheOutcome.field]

/-- A request is counted once, and by exactly one of the outcome counters. -/
lemma amount_eq (call : OutcomeCall) {f : CounterField} (hf : f ≠ .bandwidth)
    (hf' : f ≠ .responseTimeSum) :
    call.amount f = if f = .requests ∨ f = call.outcome.field then 1 else 0 := by
  cases f with
  | requests => simp [amount]
  | bandwidth => exact absurd rfl hf
  | responseTimeSum => exact absurd rfl hf'
  | _ => simp [amount]

end OutcomeCall

namespace DomainCounter

/-- Additions to one field. -/
lemma foldl_fetchAdd (ops : List (CounterField × ℕ)) (c : DomainCounter) (f : CounterField) :
    ops.foldl fetchAdd c f = c f + ((ops.filter fun op => op.1 = f).map Prod.snd).sum := by
  induction ops generalizing c with
  | nil => simp
  | cons op ops ih =>
    rw [List.foldl_cons, ih, fetchAdd, Function.update_apply]
    by_cases hop : f = op.1
    · subst hop
      rw [if_pos rfl, List.filter_cons_of_pos (by simp), List.map_cons, List.sum_cons]
      omega
    · rw [if_neg hop, List.filter_cons_of_neg (by simpa using Ne.symm hop)]

/-- `record_domain_outcome` on the counter of its host. -/
def record (c : DomainCounter) (call : OutcomeCall) : DomainCounter := call.ops.foldl fetchAdd c

/-- A call adds its amounts. -/
lemma record_apply (c : DomainCounter) (call : OutcomeCall) (f : CounterField) :
    c.record call f = c f + call.amount f := by
  rw [record, foldl_fetchAdd, call.sum_ops]

end DomainCounter

/-- `DomainCounters`. -/
abbrev DomainCounters := String → Option DomainCounter

namespace DomainCounters

/-- The counter of a host, all zero without an entry. -/
def counter (counters : DomainCounters) (host : String) : DomainCounter :=
  (counters host).getD DomainCounter.new

/-- `record_domain_outcome` without interruption: the entry is created if there is none. -/
def recordDomainOutcome (counters : DomainCounters) (call : OutcomeCall) : DomainCounters :=
  Function.update counters call.host (some ((counters.counter call.host).record call))

/-- A call adds its amounts to the counter of its host. -/
lemma counter_recordDomainOutcome (counters : DomainCounters) (call : OutcomeCall) (host : String)
    (f : CounterField) : (recordDomainOutcome counters call).counter host f =
      counters.counter host f + if call.host = host then call.amount f else 0 := by
  unfold recordDomainOutcome
  by_cases hhost : call.host = host
  · subst hhost
    rw [if_pos rfl, ← DomainCounter.record_apply]
    simp [counter]
  · rw [if_neg hhost, Nat.add_zero]
    unfold counter
    rw [Function.update_of_ne (Ne.symm hhost)]

end DomainCounters

/-- What some calls add to a field of the counter of a host. -/
def tally (calls : List OutcomeCall) (host : String) (f : CounterField) : ℕ :=
  ((calls.filter fun call => call.host = host).map fun call => call.amount f).sum

@[simp] lemma tally_nil (host : String) (f : CounterField) : tally [] host f = 0 := rfl

/-- One more call. -/
lemma tally_cons (call : OutcomeCall) (calls : List OutcomeCall) (host : String) (f : CounterField) :
    tally (call :: calls) host f = (if call.host = host then call.amount f else 0)
      + tally calls host f := by
  by_cases hhost : call.host = host <;> simp [tally, hhost]

/-- The calls of some requests, and those of the others. -/
lemma tally_eq_add (calls : List OutcomeCall) (p : OutcomeCall → Bool) (host : String)
    (f : CounterField) : tally calls host f =
      tally (calls.filter p) host f + tally (calls.filter fun call => !p call) host f := by
  induction calls with
  | nil => rfl
  | cons call calls ih =>
    rw [tally_cons, ih]
    cases hp : p call with
    | true =>
      rw [List.filter_cons_of_pos hp, List.filter_cons_of_neg (by simp [hp]), tally_cons]
      omega
    | false =>
      rw [List.filter_cons_of_neg (by simp [hp]), List.filter_cons_of_pos (by simp [hp]), tally_cons]
      omega

end SmartSchoolCdn
