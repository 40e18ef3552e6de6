import SmartSchoolCdn.Proxy.Coalescer
import Mathlib.Algebra.BigOperators.Group.Finset.Basic
import Mathlib.Algebra.Order.BigOperators.Group.Finset

/-!
# The permits for origin requests

`origin_semaphore` bounds the origin requests under way.  A permit is a local variable: of the fetch
closure of a leader, of the streaming path, or of the handler of another method.  It is declared
before the response of the origin, and before the guard of the buffer, so that it is dropped after
them; the streaming path moves it into the body stream, behind the stream of the response.

Here the proxy runs together with these variables.  A fetch begins when its permit is taken.  Its
variables are dropped one by one, the last declared first, when the request has left the fetch in
whatever way; a leader publishes its result when they are all gone.  The response of a stream
lasts until its body is finished or dropped, long after the head of the answer.
-/

namespace SmartSchoolCdn

open Traces

/-- The phases of a request in which its variables stay. -/
def Phase.fetching : Phase → Bool
  | .sending _ | .staleLookup _ _ | .staleDecision _ _ _ | .reserve _ _ _ | .reading _ _ _ => true
  | .streaming | .direct => true
  | _ => false

/-- The phases in which a request of it to the origin is under way. -/
def Phase.connected : Phase → Bool
  | .sending _ | .reserve _ _ _ | .reading _ _ _ | .streaming | .direct => true
  | .staleLookup _ (some _) | .staleDecision _ (some _) _ => true
  | _ => false

namespace OriginPermits

/-! ## The variables -/

/-- A variable: the permit, the request to the origin with its response until the body has been
read, or the guard of the buffer. -/
inductive Local
  | permit
  | exchange
  | buffer
  deriving DecidableEq, Repr

/-- What a step does to the variables of its request: a fetch begins; the buffer is reserved; the
exchange is over; or the closure has returned. -/
inductive ScopeOp
  | acquire
  | buffer
  | finish
  | leave

/-- The guard of the buffer is declared; the response goes into the future that reads the body,
which is dropped before it. -/
def withBuffer : List Local → List Local
  | .exchange :: rest => .exchange :: .buffer :: rest
  | scope => .buffer :: scope

/-- The exchange is over. -/
def withoutExchange : List Local → List Local
  | .exchange :: rest => rest
  | scope => scope

/-- The permits that are left and the variables of the request after it, the next to be dropped
first. -/
def ScopeOp.apply (available : ℕ) (scope : List Local) : ScopeOp → Option (ℕ × List Local)
  | .acquire => if 0 < available then some (available - 1, .exchange :: .permit :: scope) else none
  | .buffer => some (available, withBuffer scope)
  | .finish => some (available, withoutExchange scope)
  | .leave => if scope = [] then some (available, []) else none

/-- The request whose variables an action changes.  An answered stream keeps its response. -/
def scopeOp : SmartSchoolCdn.Action → Option (ℕ × ScopeOp)
  | .permit rid true | .streamPermit rid true | .directPermit rid true => some (rid, .acquire)
  | .reserve rid true => some (rid, .buffer)
  | .sendFailed rid | .body rid _ | .bodyFailed rid | .stream rid none | .direct rid _ =>
    some (rid, .finish)
  | .publish rid => some (rid, .leave)
  | _ => none

/-! ## The system -/

/-- The proxy with the semaphore and the variables of each request. -/
structure State where
  proxy : SmartSchoolCdn.State
  available : ℕ
  scope : ℕ → List Local

/-- The start, with a number of permits. -/
def State.initial (maxSizeBytes : UInt64) (permits : ℕ) : State where
  proxy := SmartSchoolCdn.State.initial maxSizeBytes
  available := permits
  scope := fun _ => []

/-- A step of the proxy, or the drop of a variable. -/
inductive Action
  | proxy (a : SmartSchoolCdn.Action)
  | drop (rid : ℕ)

/-- The request is in its fetch. -/
def State.fetching (s : State) (rid : ℕ) : Bool := (s.proxy.tasks rid).any fun t => t.phase.fetching

/-- The variables of a request with the permits that are left. -/
def State.setScope (s : State) (rid available : ℕ) (scope : List Local) : State :=
  { s with
    available := available
    scope := Function.update s.scope rid scope }

/-- Execute an action. -/
def step (cfg : Config) (s : State) : Action → Option State
  | .proxy a =>
    (SmartSchoolCdn.step cfg s.proxy a).bind fun proxy =>
      match scopeOp a with
      | some (rid, op) =>
        (op.apply s.available (s.scope rid)).map fun r =>
          { s.setScope rid r.1 r.2 with proxy := proxy }
      | none => some { s with proxy := proxy }
  | .drop rid =>
    if s.fetching rid then none
    else
      match s.scope rid with
      | .permit :: rest => some (s.setScope rid (s.available + 1) rest)
      | _ :: rest => some (s.setScope rid s.available rest)
      | [] => none

/-- How many variables of a kind all requests have. -/
def State.held (s : State) (x : Local) : ℕ :=
  ∑ rid ∈ Finset.range s.proxy.nextId, (s.scope rid).count x

/-! ## One scope -/

/-- Below every exchange there is a permit of its own. -/
def Nested : List Local → Prop
  | [] => True
  | x :: rest => (x :: rest).count .exchange ≤ (x :: rest).count .permit ∧ Nested rest

variable {scope scope' : List Local} {available available' : ℕ} {op : ScopeOp}

lemma Nested.count_le (h : Nested scope) : scope.count .exchange ≤ scope.count .permit := by
  cases scope with
  | nil => exact le_rfl
  | cons x rest => exact h.1

lemma Nested.tail {x : Local} (h : Nested (x :: scope)) : Nested scope := h.2

/-- A guard of the buffer changes no count. -/
lemma Nested.withBuffer (h : Nested scope) :
    Nested (withBuffer scope) ∧ (OriginPermits.withBuffer scope).count .permit = scope.count .permit := by
  have hle := h.count_le
  unfold OriginPermits.withBuffer
  split
  · rename_i rest
    have hrest := h.tail.count_le
    refine ⟨⟨?_, ?_, h.tail⟩, ?_⟩
    · simpa using hle
    · simpa using hrest
    · simp
  · refine ⟨⟨?_, h⟩, ?_⟩
    · simpa using hle
    · simp

/-- The end of an exchange leaves the permits. -/
lemma Nested.withoutExchange (h : Nested scope) :
    Nested (withoutExchange scope) ∧
      (OriginPermits.withoutExchange scope).count .permit = scope.count .permit := by
  unfold OriginPermits.withoutExchange
  split
  · exact ⟨h.tail, by simp⟩
  · exact ⟨h, rfl⟩

/-- A step keeps the permits in order: those that are left and those in the scope are as many as
before. -/
lemma Nested.apply (h : Nested scope) (hop : op.apply available scope = some (available', scope')) :
    Nested scope' ∧ available' + scope'.count .permit = available + scope.count .permit := by
  cases op with
  | acquire =>
    have hle := h.count_le
    rw [ScopeOp.apply] at hop
    split at hop
    · rename_i hpos
      cases hop
      refine ⟨⟨?_, ?_, h⟩, ?_⟩
      · simpa using hle
      · simp only [List.count_cons, beq_iff_eq, reduceCtorEq, if_false, if_true]
        omega
      · simp only [List.count_cons, beq_iff_eq, reduceCtorEq, if_false, if_true]
        omega
    · cases hop
  | buffer =>
    cases hop
    exact ⟨h.withBuffer.1, by rw [h.withBuffer.2]⟩
  | finish =>
    cases hop
    exact ⟨h.withoutExchange.1, by rw [h.withoutExchange.2]⟩
  | leave =>
    rw [ScopeOp.apply] at hop
    split at hop
    · rename_i hnil
      cases hop
      exact ⟨trivial, by rw [hnil]⟩
    · cases hop

/-! ## All scopes -/

variable {s s' : State} {rid n : ℕ} {x : Local}

/-- A change of one scope. -/
lemma held_setScope (h : rid < s.proxy.nextId) :
    (s.setScope rid n scope).held x + (s.scope rid).count x = s.held x + scope.count x := by
  have hmem : rid ∈ Finset.range s.proxy.nextId := Finset.mem_range.mpr h
  have hothers : ∑ r ∈ (Finset.range s.proxy.nextId).erase rid,
      (Function.update s.scope rid scope r).count x =
        ∑ r ∈ (Finset.range s.proxy.nextId).erase rid, (s.scope r).count x := by
    refine Finset.sum_congr rfl fun r hr => ?_
    rw [Function.update_of_ne (Finset.ne_of_mem_erase hr)]
  have hafter := Finset.add_sum_erase (Finset.range s.proxy.nextId)
    (fun r => (Function.update s.scope rid scope r).count x) hmem
  have hbefore := Finset.add_sum_erase (Finset.range s.proxy.nextId) (fun r => (s.scope r).count x) hmem
  simp only [Function.update_self] at hafter
  change ∑ r ∈ Finset.range s.proxy.nextId, (Function.update s.scope rid scope r).count x + _ =
    ∑ r ∈ Finset.range s.proxy.nextId, (s.scope r).count x + _
  omega

/-- Requests that have not arrived have no variables. -/
def Known (s : State) : Prop := ∀ rid, s.proxy.nextId ≤ rid → s.scope rid = []

/-- New requests bring no variables. -/
lemma Known.held_proxy (h : Known s) {proxy : SmartSchoolCdn.State}
    (hle : s.proxy.nextId ≤ proxy.nextId) : State.held { s with proxy := proxy } x = s.held x := by
  refine (Finset.sum_subset (Finset.range_subset_range.mpr hle) fun rid _ hrid => ?_).symm
  rw [h rid (Nat.le_of_not_lt fun hlt => hrid (Finset.mem_range.mpr hlt))]
  rfl

/-! ## The phases of the proxy -/

end OriginPermits

variable {cfg : Config} {s s' : State} {a : Action} {rid : ℕ}

/-- The phases that a request comes to by the step of another. -/
def Phase.handed : Phase → Bool
  | .l1Lookup | .readBody | .respond _ _ => true
  | _ => false

/-- The step of another request leaves a request where it is, or it arrives or is handed a
result. -/
lemma Step.other_task (h : Step cfg s a s') (ha : a.task ≠ some rid) {t' : Task}
    (ht' : s'.tasks rid = some t') : s.tasks rid = some t' ∨ t'.phase.handed = true := by
  have hset : ∀ {u : State} {r : ℕ} {t : Task} {phase : Phase}, some r ≠ some rid →
      (u.setPhase r t phase).tasks rid = some t' → u.tasks rid = some t' := by
    intro u r t phase hne hset
    exact (tasks_setPhase hset).resolve_right fun hr => hne (congrArg some hr.1.symm)
  have hbroadcast : ∀ {u : State} {leader : ℕ} {result : Fetched},
      (u.broadcast leader result).tasks rid = some t' →
        u.tasks rid = some t' ∨ t'.phase.handed = true := by
    intro u leader result hleft
    rcases tasks_broadcast hleft with hold | ⟨t, -, -, rfl⟩
    · exact Or.inl hold
    · exact Or.inr rfl
  cases h with
  | readBody =>
    unfold State.readBody at ht'
    split at ht'
    · exact Or.inl (hset ha ht')
    · exact Or.inl (tasks_remove ht')
  | respond =>
    unfold State.respond at ht'
    split at ht'
    · exact Or.inl (tasks_remove ht')
    · split at ht'
      · exact Or.inl (hset ha ht')
      · exact Or.inl (tasks_remove ht')
  | streamStart => exact Or.inl (hset ha ht')
  | streamBusy => exact Or.inl (tasks_remove ht')
  | stream => exact Or.inl (tasks_remove ht')
  | directStart => exact Or.inl (hset ha ht')
  | directBusy => exact Or.inl (tasks_remove ht')
  | direct => exact Or.inl (tasks_remove ht')
  | cancel =>
    have hleft := tasks_remove ht'
    split at hleft
    · split at hleft
      · exact hbroadcast hleft
      · exact Or.inl hleft
    · exact Or.inl hleft
  | l1Get =>
    unfold State.l1Get at ht'
    split at ht'
    · exact Or.inl (tasks_remove ht')
    · exact Or.inl (hset ha ht')
  | @l2Get r t key answered =>
    have htasks := (onlyStorage_attempt s (.get key false) answered).tasks
    simp only [State.l2Get] at ht'
    split at ht'
    · exact Or.inl (hset (u := s.attempt (.get key false) true) ha ht')
    · have hleft := hset ha ht'
      rw [htasks] at hleft
      exact Or.inl hleft
  | promote =>
    unfold State.promote at ht'
    have hleft := tasks_remove ht'
    split at hleft
    · exact Or.inl hleft
    · exact Or.inl hleft
  | coalesce =>
    unfold State.coalesce at ht'
    split at ht'
    · exact Or.inl (hset ha ht')
    · exact Or.inl (hset (u := s) ha ht')
  | permit =>
    unfold State.permit at ht'
    split at ht'
    · exact Or.inl (hset (u := s) ha ht')
    · exact Or.inl (hset ha ht')
  | sendFailed => exact Or.inl (hset ha ht')
  | head => exact Or.inl (hset ha ht')
  | @staleLookup r t key fetch head answered =>
    have htasks := (onlyStorage_attempt s (.get key true) answered).tasks
    simp only [State.staleLookup] at ht'
    split at ht'
    · exact Or.inl (hset (u := s.attempt (.get key true) true) ha ht')
    · have hleft := hset ha ht'
      rw [htasks] at hleft
      exact Or.inl hleft
  | staleDecide => exact Or.inl (hset ha ht')
  | reserve => exact Or.inl (hset ha ht')
  | @body r t key fetch status headers body =>
    rw [tasks_originBody] at ht'
    exact Or.inl (hset ha ht')
  | bodyFailed => exact Or.inl (hset ha ht')
  | publish =>
    refine (hbroadcast ht').imp_left fun hleft => ?_
    exact hset (u := s) ha hleft
  | savePut =>
    rw [State.savePut] at ht'
    exact Or.inl ((onlyStorage_attempt s _ _).tasks ▸ ht')
  | saveInsert =>
    unfold State.saveInsert at ht'
    split at ht'
    · exact Or.inl ht'
    · exact Or.inl ht'
  | arrive =>
    unfold State.arrive at ht'
    simp only at ht'
    split at ht'
    · exact Or.inl (tasks_remove ht')
    · split at ht'
      · exact Or.inl (tasks_remove ht')
      · rcases tasks_setPhase (s := { s with nextId := s.nextId + 1 }) ht' with hold | ⟨-, rfl⟩
        · exact Or.inl hold
        · right
          dsimp only
          split
          · rfl
          · rfl
  | purgeFinish => exact Or.inl ((onlyStorage_callPurge s _ _).tasks ▸ ht')
  | _ => exact Or.inl ht'

/-- A request whose exchange is over is not connected any more. -/
lemma Step.ends (h : Step cfg s a s') (ha : OriginPermits.scopeOp a = some (rid, .finish)) {t' : Task}
    (ht' : s'.tasks rid = some t') : t'.phase.connected = false := by
  have hset : ∀ {u : State} {t : Task} {phase : Phase}, phase.connected = false →
      (u.setPhase rid t phase).tasks rid = some t' → t'.phase.connected = false := by
    intro u t phase hphase hset
    rw [tasks_setPhase_self] at hset
    obtain rfl := Option.some.inj hset
    exact hphase
  cases h with
  | sendFailed =>
    cases ha
    exact hset rfl ht'
  | @body r t key fetch status headers body =>
    cases ha
    rw [tasks_originBody] at ht'
    exact hset rfl ht'
  | bodyFailed =>
    cases ha
    exact hset rfl ht'
  | @stream r t resp =>
    cases resp with
    | none =>
      cases ha
      exact absurd ht' not_tasks_remove_self
    | some resp => cases ha
  | direct =>
    cases ha
    exact absurd ht' not_tasks_remove_self
  | @permit r t key ok =>
    cases ok with
    | false => cases ha
    | true => cases ha
  | @reserve r t key fetch status headers ok =>
    cases ok with
    | false => cases ha
    | true => cases ha
  | _ => cases ha

/-- A request that waits for a permit of its own goes on only with one. -/
lemma step_waiting {t t' : Task} (h : step cfg s a = some s') (ha : a.task = some rid)
    (ht : s.tasks rid = some t) (hphase : t.phase = .streamPermit ∨ t.phase = .directPermit)
    (ht' : s'.tasks rid = some t') : OriginPermits.scopeOp a = some (rid, .acquire) := by
  have hgone : ∀ {u : State} {tasks}, u.tasks = Function.update tasks rid none → u ≠ s' := by
    rintro u tasks htasks rfl
    rw [htasks] at ht'
    exact absurd ht' not_tasks_remove_self
  rcases hphase with hphase | hphase
  · cases a <;> simp only [Action.task, Option.some.injEq, reduceCtorEq] at ha <;> subst ha <;>
      simp [step, Action.task, taskStep, cachedStep, ht, hphase] at h
    case streamPermit rid ok =>
      cases ok with
      | true => rfl
      | false => exact absurd h (hgone rfl)
    case cancel rid => exact absurd h (hgone rfl)
  · cases a <;> simp only [Action.task, Option.some.injEq, reduceCtorEq] at ha <;> subst ha <;>
      simp [step, Action.task, taskStep, cachedStep, ht, hphase] at h
    case directPermit rid ok =>
      cases ok with
      | true => rfl
      | false => exact absurd h (hgone rfl)
    case cancel rid => exact absurd h (hgone rfl)

/-- A connected phase is none of the arrival, and none in which a request is handed a result. -/
lemma Phase.not_handed_of_connected {phase : Phase} (h : phase.connected = true) :
    phase.arrives = false ∧ phase.handed = false := by
  cases phase with
  | l1Lookup => cases h
  | readBody => cases h
  | respond leader result => cases h
  | _ => exact ⟨rfl, rfl⟩

/-- A connected request is in its fetch. -/
lemma Phase.fetching_of_connected {phase : Phase} (h : phase.connected = true) :
    phase.fetching = true := by
  cases phase with
  | sending fetch => rfl
  | staleLookup fetch head => rfl
  | staleDecision fetch head found => rfl
  | reserve fetch status headers => rfl
  | reading fetch status headers => rfl
  | streaming => rfl
  | direct => rfl
  | _ => cases h

/-- Without a stale copy a fetch stays connected only if it was. -/
lemma connected_withoutStale {fetch : ℕ} {head : Option (ℕ × HeaderMap)}
    (h : (withoutStale cfg fetch head).connected = true) : head.isSome = true := by
  cases head with
  | none => cases h
  | some head => rfl

/-- A request comes to be connected by taking a permit. -/
lemma Moves.connected {t : Task} {phase : Phase} (h : Moves cfg s a rid t phase)
    (hconnected : phase.connected = true) :
    a = .permit rid true ∨ (t.phase = .streamPermit ∨ t.phase = .directPermit) ∨
      t.phase.connected = true := by
  cases h with
  | fetch ha => exact Or.inl ha
  | stream hphase => exact Or.inr (Or.inl (Or.inl hphase))
  | direct hphase => exact Or.inr (Or.inl (Or.inr hphase))
  | serverError hphase => exact Or.inr (Or.inr (by rw [hphase]; rfl))
  | head hphase => exact Or.inr (Or.inr (by rw [hphase]; rfl))
  | reserve hphase => exact Or.inr (Or.inr (by rw [hphase]; rfl))
  | @staleFound key fetch head x ha hphase =>
    cases head with
    | none => cases hconnected
    | some head => exact Or.inr (Or.inr (by rw [hphase]; rfl))
  | staleMissing hphase hnext =>
    rw [hnext] at hconnected
    obtain ⟨head, rfl⟩ := Option.isSome_iff_exists.mp (connected_withoutStale hconnected)
    exact Or.inr (Or.inr (by rw [hphase]; rfl))
  | staleRefused hphase hnext =>
    rw [hnext] at hconnected
    obtain ⟨head, rfl⟩ := Option.isSome_iff_exists.mp (connected_withoutStale hconnected)
    exact Or.inr (Or.inr (by rw [hphase]; rfl))
  | _ => cases hconnected

/-- A request that is connected after a step has taken its permit, or was connected before and its
exchange is not over. -/
lemma step_connected {t' : Task} (h : step cfg s a = some s') (ht' : s'.tasks rid = some t')
    (hconnected : t'.phase.connected = true) :
    OriginPermits.scopeOp a = some (rid, .acquire) ∨ (OriginPermits.scopeOp a ≠ some (rid, .finish) ∧
      ∃ t, s.tasks rid = some t ∧ t.phase.connected = true) := by
  obtain ⟨harrives, hhanded⟩ := Phase.not_handed_of_connected hconnected
  have hgoes : OriginPermits.scopeOp a ≠ some (rid, .finish) := by
    intro hends
    rw [(step_cases h).ends hends ht'] at hconnected
    cases hconnected
  by_cases ha : a.task = some rid
  · rcases (step_cases h).moved ht' rfl harrives with hold | ⟨t, ht, -, hmove⟩
    · exact Or.inr ⟨hgoes, t', hold, hconnected⟩
    · rcases hmove.connected hconnected with rfl | hwaits | hwas
      · exact Or.inl rfl
      · exact Or.inl (step_waiting h ha ht hwaits ht')
      · exact Or.inr ⟨hgoes, t, ht, hwas⟩
  · rcases (step_cases h).other_task ha ht' with hold | hnew
    · exact Or.inr ⟨hgoes, t', hold, hconnected⟩
    · rw [hhanded] at hnew
      cases hnew

namespace OriginPermits

/-! ## The invariant -/

/-- The permits are accounted for. -/
structure Accounted (permits : ℕ) (s : State) : Prop where
  coalescing : Coalescing s.proxy
  known : Known s
  nested : ∀ rid, Nested (s.scope rid)
  conserved : s.available + s.held .permit = permits
  connected : ∀ rid t, s.proxy.tasks rid = some t → t.phase.connected = true →
    (s.scope rid).head? = some .exchange

variable {permits n n' : ℕ} {scope : List Local} {s s' : State} {x : Local}

/-- The start. -/
lemma accounted_initial (maxSizeBytes : UInt64) (permits : ℕ) :
    Accounted permits (State.initial maxSizeBytes permits) where
  coalescing := coalescing_initial maxSizeBytes
  known := fun _ _ => rfl
  nested := fun _ => trivial
  conserved := rfl
  connected := fun _ _ h => absurd h (by simp [State.initial, SmartSchoolCdn.State.initial])

/-- A request whose variables an action changes is a request of the proxy. -/
lemma known_of_scopeOp {a : SmartSchoolCdn.Action} {op : ScopeOp} {p p' : SmartSchoolCdn.State}
    (hop : scopeOp a = some (rid, op)) (h : SmartSchoolCdn.step cfg p a = some p') :
    ∃ t, p.tasks rid = some t := by
  have htask : a.task = some rid := by
    unfold scopeOp at hop
    split at hop <;> cases hop <;> rfl
  unfold SmartSchoolCdn.step at h
  split at h
  · cases htask
  · cases htask
  · cases htask
  · simp only [htask] at h
    obtain ⟨t, ht, -⟩ := Option.bind_eq_some_iff.mp h
    exact ⟨t, ht⟩

/-- A change of one scope that keeps the permits keeps the account. -/
lemma Accounted.setScope (h : Accounted permits s) (hrid : rid < s.proxy.nextId)
    (hnested : Nested scope)
    (hpermits : n + scope.count .permit = s.available + (s.scope rid).count .permit) :
    Known (s.setScope rid n scope) ∧ (∀ r, Nested ((s.setScope rid n scope).scope r)) ∧
      (s.setScope rid n scope).available + (s.setScope rid n scope).held .permit = permits := by
  refine ⟨fun r hr => ?_, fun r => ?_, ?_⟩
  · have hne : r ≠ rid := fun heq => absurd hr (by rw [heq]; exact Nat.not_le.mpr hrid)
    exact (Function.update_of_ne hne scope s.scope).trans (h.known r hr)
  · change Nested (Function.update s.scope rid scope r)
    by_cases hr : r = rid
    · rw [hr, Function.update_self]
      exact hnested
    · rw [Function.update_of_ne hr]
      exact h.nested r
  · have hheld : (s.setScope rid n scope).held .permit + (s.scope rid).count .permit =
        s.held .permit + scope.count .permit := held_setScope hrid
    have hconserved := h.conserved
    change n + _ = permits
    omega

/-- What a step of the proxy does to the variables leaves those of the connected requests. -/
lemma Accounted.connected_apply (h : Accounted permits s) {a : SmartSchoolCdn.Action}
    {p : SmartSchoolCdn.State} (hs : SmartSchoolCdn.step cfg s.proxy a = some p) {op : ScopeOp} {r : ℕ}
    (hop : scopeOp a = some (r, op)) (happly : op.apply s.available (s.scope r) = some (n, scope))
    {rid : ℕ} {t' : Task} (ht' : p.tasks rid = some t') (hconnected : t'.phase.connected = true) :
    (Function.update s.scope r scope rid).head? = some .exchange := by
  have hwas := step_connected hs ht' hconnected
  rw [hop] at hwas
  by_cases hr : rid = r
  · subst hr
    rw [Function.update_self]
    cases op with
    | acquire =>
      rw [ScopeOp.apply] at happly
      split at happly
      · cases happly
        rfl
      · cases happly
    | buffer =>
      obtain ⟨-, t, ht, hphase⟩ := hwas.resolve_left (by simp)
      have hhead := h.connected rid t ht hphase
      cases happly
      unfold withBuffer
      split
      · rfl
      · rename_i hother
        obtain ⟨rest, hrest⟩ := List.head?_eq_some_iff.mp hhead
        exact absurd hrest (hother rest)
    | finish => exact absurd rfl (hwas.resolve_left (by simp)).1
    | leave =>
      obtain ⟨-, t, ht, hphase⟩ := hwas.resolve_left (by simp)
      have hhead := h.connected rid t ht hphase
      rw [ScopeOp.apply] at happly
      split at happly
      · rename_i hnil
        rw [hnil] at hhead
        cases hhead
      · cases happly
  · rw [Function.update_of_ne hr]
    obtain ⟨-, t, ht, hphase⟩ := hwas.resolve_left fun heq => hr (congrArg Prod.fst (Option.some.inj heq)).symm
    exact h.connected rid t ht hphase

/-- A step of the proxy keeps the account. -/
lemma Accounted.proxy (h : Accounted permits s) {a : SmartSchoolCdn.Action}
    (hs : step cfg s (.proxy a) = some s') : Accounted permits s' := by
  obtain ⟨p, hp, hs⟩ := Option.bind_eq_some_iff.mp hs
  have hstep := step_cases hp
  have hle := hstep.advances.nextId
  cases hop : scopeOp a with
  | none =>
    rw [hop] at hs
    obtain rfl := Option.some.inj hs
    refine ⟨h.coalescing.step hstep, fun r hr => h.known r (hle.trans hr), h.nested, ?_, ?_⟩
    · rw [h.known.held_proxy hle]
      exact h.conserved
    · intro rid t' ht' hconnected
      rcases step_connected hp ht' hconnected with hacquire | ⟨-, t, ht, hphase⟩
      · rw [hop] at hacquire
        cases hacquire
      · exact h.connected rid t ht hphase
  | some found =>
    obtain ⟨r, op⟩ := found
    rw [hop] at hs
    obtain ⟨⟨n, scope⟩, happly, rfl⟩ := Option.map_eq_some_iff.mp hs
    obtain ⟨t, ht⟩ := known_of_scopeOp hop hp
    obtain ⟨hnested, hpermits⟩ := (h.nested r).apply happly
    obtain ⟨hknown, hall, hconserved⟩ :=
      h.setScope (h.coalescing.taskKnown r t ht) hnested hpermits
    refine ⟨h.coalescing.step hstep, fun rid hrid => hknown rid (hle.trans hrid), hall, ?_, ?_⟩
    · rw [← hconserved]
      exact congrArg _ (hknown.held_proxy hle)
    · exact fun rid t' ht' hconnected => h.connected_apply hp hop happly ht' hconnected

/-- The permits that the drop of a variable returns. -/
def Local.returned : Local → ℕ
  | .permit => 1
  | _ => 0

/-- A variable is dropped outside a fetch, and a permit is returned by it. -/
lemma step_drop {rest : List Local} {rid : ℕ} (hfetching : s.fetching rid = false)
    (hscope : s.scope rid = x :: rest) :
    step cfg s (.drop rid) = some (s.setScope rid (s.available + x.returned) rest) := by
  rw [step, hfetching, if_neg Bool.false_ne_true, hscope]
  cases x with
  | permit => rfl
  | exchange => rfl
  | buffer => rfl

/-- Nothing else is a drop. -/
lemma drop_cases {rid : ℕ} (hs : step cfg s (.drop rid) = some s') :
    ∃ x rest, s.fetching rid = false ∧ s.scope rid = x :: rest ∧
      s' = s.setScope rid (s.available + x.returned) rest := by
  have hfetching : s.fetching rid = false := by
    rw [step] at hs
    split at hs
    · cases hs
    · rename_i hnot
      exact Bool.eq_false_iff.mpr hnot
  cases hscope : s.scope rid with
  | nil =>
    rw [step, hfetching, if_neg Bool.false_ne_true, hscope] at hs
    cases hs
  | cons x rest =>
    rw [step_drop hfetching hscope] at hs
    exact ⟨x, rest, hfetching, rfl, (Option.some.inj hs).symm⟩

/-- The permits of a scope are those of its variables. -/
lemma count_permit_cons (x : Local) (rest : List Local) :
    (x :: rest).count .permit = x.returned + rest.count .permit := by
  cases x with
  | permit => simp [Local.returned, Nat.add_comm]
  | exchange => simp [Local.returned]
  | buffer => simp [Local.returned]

/-- The drop of a variable keeps the account. -/
lemma Accounted.drop (h : Accounted permits s) {rid : ℕ} (hs : step cfg s (.drop rid) = some s') :
    Accounted permits s' := by
  obtain ⟨x, rest, hfetching, hscope, rfl⟩ := drop_cases hs
  have hrid : rid < s.proxy.nextId := by
    by_contra hnot
    rw [h.known rid (Nat.le_of_not_lt hnot)] at hscope
    cases hscope
  have hnested := h.nested rid
  rw [hscope] at hnested
  obtain ⟨hknown, hall, hconserved⟩ := h.setScope (n := s.available + x.returned) hrid hnested.tail (by
    rw [hscope, count_permit_cons, Nat.add_assoc])
  refine ⟨h.coalescing, hknown, hall, hconserved, fun r t ht hconnected => ?_⟩
  have hne : r ≠ rid := by
    rintro rfl
    have hin : s.fetching r = true :=
      (congrArg (Option.any _) ht).trans (Phase.fetching_of_connected hconnected)
    rw [hin] at hfetching
    cases hfetching
  change (Function.update s.scope rid rest r).head? = some .exchange
  rw [Function.update_of_ne hne]
  exact h.connected r t ht hconnected

/-- A step keeps the account. -/
theorem Accounted.step (h : Accounted permits s) {a : Action} (hs : step cfg s a = some s') :
    Accounted permits s' := by
  cases a with
  | proxy a => exact h.proxy hs
  | drop rid => exact h.drop hs

/-- The exchanges under way have permits of their own. -/
lemma Accounted.held_exchange (h : Accounted permits s) : s.held .exchange ≤ permits := by
  have hle : s.held .exchange ≤ s.held .permit := Finset.sum_le_sum fun rid _ => (h.nested rid).count_le
  have hconserved := h.conserved
  omega

/-- A request that is not in its fetch drops all its variables. -/
lemma drop_all {rid : ℕ} (hfetching : s.fetching rid = false) (hscope : s.scope rid = scope) :
    ∃ s', run (step cfg) s (List.replicate scope.length (.drop rid)) = some s' ∧ s'.proxy = s.proxy ∧
      s'.scope rid = [] ∧ s'.available = s.available + scope.count .permit := by
  induction scope generalizing s with
  | nil => exact ⟨s, rfl, rfl, hscope, rfl⟩
  | cons x rest ih =>
    obtain ⟨s', hrun, hproxy, hempty, havailable⟩ :=
      ih (s := s.setScope rid (s.available + x.returned) rest) hfetching (Function.update_self ..)
    refine ⟨s', ?_, hproxy, hempty, ?_⟩
    · rw [List.length_cons, List.replicate_succ, run, step_drop hfetching hscope]
      exact hrun
    · rw [havailable, count_permit_cons]
      exact Nat.add_assoc _ _ _

/-- In every state that is reached, the requests to the origin under way are no more than the
permits, those of the requests in their fetch among them; the permits that are left and those in
use are all there are; and a request that has left its fetch, in whatever way, returns its permits
by dropping its variables. -/
theorem origin_concurrency (cfg : Config) (maxSizeBytes : UInt64) (permits : ℕ) (t : State)
    (h : Reaches (step cfg) (State.initial maxSizeBytes permits) t) :
    t.held .exchange ≤ permits ∧ t.available + t.held .permit = permits ∧
      (∀ rid task, t.proxy.tasks rid = some task → task.phase.connected = true →
        .exchange ∈ t.scope rid) ∧
      ∀ rid, t.fetching rid = false →
        ∃ r, run (step cfg) t (List.replicate (t.scope rid).length (.drop rid)) = some r ∧
          r.scope rid = [] ∧ r.available = t.available + (t.scope rid).count .permit := by
  have haccounted : Accounted permits t := by
    refine h.invariant (I := Accounted permits) ?_ (accounted_initial maxSizeBytes permits)
    exact fun s a s' hs hst => hs.step hst
  refine ⟨haccounted.held_exchange, haccounted.conserved, ?_, ?_⟩
  · intro rid task htask hconnected
    exact List.mem_of_mem_head? (haccounted.connected rid task htask hconnected)
  · intro rid hfetching
    obtain ⟨r, hrun, -, hempty, havailable⟩ := @drop_all cfg _ _ _ hfetching rfl
    exact ⟨r, hrun, hempty, havailable⟩

/-- A large video with a single permit: it is announced by the leader's fetch, which returns the
permit, and streamed with it. -/
def onePermit : List Action :=
  [.proxy sampleDomains, .proxy (.arrive (sampleRequest .get "/video.mp4" []))]
    ++ (missActions 0).map .proxy
    ++ [.proxy (.permit 0 true), .proxy (.head 0 200 [("content-length", "200000000")]), .drop 0,
      .drop 0, .proxy (.publish 0), .proxy (.respond 0), .proxy (.streamPermit 0 true),
      .proxy (.stream 0 (some { status := 200, headers := [], body := [] }))]

/-- While the body is sent the permit is in use, and it is returned with the body. -/
theorem origin_concurrency_stream :
    ∃ t, Reaches (step sampleConfig) (State.initial 1000000 1) t ∧ t.held .exchange ≤ 1 ∧
      t.available = 0 ∧ ∃ r, run (step sampleConfig) t [.drop 0, .drop 0] = some r ∧
        r.available = t.available + (t.scope 0).count .permit := by
  have hrun : ((run (step sampleConfig) (State.initial 1000000 1) onePermit).any fun t =>
      decide (t.available = 0) && decide (t.scope 0 = [.exchange, .permit]) && !t.fetching 0) = true := by
    decide +kernel
  obtain ⟨t, ht, hend⟩ := exists_trace_of_run hrun
  simp only [Bool.and_eq_true, Bool.not_eq_true', decide_eq_true_eq] at hend
  obtain ⟨⟨havailable, hscope⟩, hfetching⟩ := hend
  obtain ⟨hexchanges, -, -, hdrop⟩ := origin_concurrency sampleConfig 1000000 1 t ht.reaches
  obtain ⟨r, hr, -, hreturned⟩ := hdrop 0 hfetching
  rw [hscope] at hr
  exact ⟨t, ht.reaches, hexchanges, havailable, r, hr, hreturned⟩

end OriginPermits

end SmartSchoolCdn
