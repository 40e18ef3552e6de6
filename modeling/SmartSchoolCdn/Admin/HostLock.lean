import SmartSchoolCdn.Admin.DomainRoutes
import SmartSchoolCdn.Foundation.Trace
import Mathlib.Data.List.Basic
import Mathlib.Data.Nat.Notation
import Mathlib.Logic.Function.Basic

/-!
# The lock of a host

`withHostLock` of `routes/domains.ts`: a chain of promises for every host.  A call finds the
promise of the last call of its host in `hostLocks`, puts its own there, and runs its function
when that promise has settled, one way or the other; when its own has settled the caller goes
on, and the entry is deleted unless a later call has replaced it.

A call is its number, and the promise of a call is the number again.  When a function starts,
when it is done and when a caller goes on is up to the environment; a step is what the event
loop runs in one piece.
-/

namespace SmartSchoolCdn.HostLock

open Traces

/-! ## State and steps -/

section System

variable {ε α : Type}

/-- How far a call is: its function has not been called, runs, or is done; in the end the caller
has its result. -/
inductive Phase (ε α : Type)
  | waiting
  | running
  | settled (result : Except ε α)
  | resumed (result : Except ε α)

/-- The result of the function of a call. -/
def Phase.result : Phase ε α → Option (Except ε α)
  | .waiting | .running => none
  | .settled result | .resumed result => some result

/-- Whether the promise of the call has settled. -/
def Phase.isSettled (p : Phase ε α) : Bool := p.result.isSome

/-- Whether the function has been called. -/
def Phase.begun : Phase ε α → Bool
  | .waiting => false
  | _ => true

/-- Whether the caller has gone on. -/
def Phase.isResumed : Phase ε α → Bool
  | .resumed _ => true
  | _ => false

/-- A call; `prev` is the promise it has found. -/
structure Call (ε α : Type) where
  host : String
  prev : Option ℕ
  phase : Phase ε α := .waiting

/-- The calls so far, and `hostLocks`. -/
structure State (ε α : Type) where
  calls : List (Call ε α) := []
  hostLocks : String → Option ℕ := fun _ => none

/-- What happens next: a call arrives, its function starts, the function returns or throws, or
the caller goes on. -/
inductive Action (ε α : Type)
  | call (host : String)
  | start (i : ℕ)
  | finish (i : ℕ) (result : Except ε α)
  | resume (i : ℕ)

namespace State

variable (s : State ε α)

/-- The call of `withHostLock` up to its `await`. -/
def enter (host : String) : State ε α where
  calls := s.calls ++ [{ host := host, prev := s.hostLocks host }]
  hostLocks := Function.update s.hostLocks host (some s.calls.length)

/-- Whether the promise that a call has found has settled; an empty promise has. -/
def prevSettled : Option ℕ → Bool
  | none => true
  | some i => (s.calls[i]?).any fun c => c.phase.isSettled

/-- A call gets into a phase. -/
def setPhase (i : ℕ) (p : Phase ε α) : State ε α :=
  { s with calls := s.calls.modify i fun c => { c with phase := p } }

/-- The `finally` block: only the last call of the host deletes the entry. -/
def release (i : ℕ) (host : String) : State ε α :=
  if s.hostLocks host = some i then { s with hostLocks := Function.update s.hostLocks host none } else s

end State

/-- Execute an action. -/
def step (s : State ε α) : Action ε α → Option (State ε α)
  | .call host => some (s.enter host)
  | .start i =>
    match s.calls[i]? with
    | some ⟨_, prev, .waiting⟩ => if s.prevSettled prev then some (s.setPhase i .running) else none
    | _ => none
  | .finish i result =>
    match s.calls[i]? with
    | some ⟨_, _, .running⟩ => some (s.setPhase i (.settled result))
    | _ => none
  | .resume i =>
    match s.calls[i]? with
    | some ⟨host, _, .settled result⟩ => some ((s.setPhase i (.resumed result)).release i host)
    | _ => none

/-! ## What a step can do -/

/-- The effect of an action. -/
inductive Effect (s : State ε α) : Action ε α → State ε α → Prop
  | call (host : String) : Effect s (.call host) (s.enter host)
  | start {i : ℕ} {c : Call ε α} (hc : s.calls[i]? = some c) (hp : c.phase = .waiting)
      (hprev : s.prevSettled c.prev = true) : Effect s (.start i) (s.setPhase i .running)
  | finish {i : ℕ} {c : Call ε α} (hc : s.calls[i]? = some c) (hp : c.phase = .running)
      (result : Except ε α) : Effect s (.finish i result) (s.setPhase i (.settled result))
  | resume {i : ℕ} {c : Call ε α} {result : Except ε α} (hc : s.calls[i]? = some c)
      (hp : c.phase = .settled result) :
      Effect s (.resume i) ((s.setPhase i (.resumed result)).release i c.host)

variable {s s' : State ε α} {a : Action ε α} {i j : ℕ} {c d : Call ε α} {p : Phase ε α} {host : String}

theorem step_effect (h : step s a = some s') : Effect s a s' := by
  cases a with
  | call host =>
    obtain rfl := Option.some.inj h
    exact .call host
  | start i =>
    simp only [step] at h
    split at h
    · next hc =>
      split at h
      · next hprev =>
        obtain rfl := Option.some.inj h
        exact .start hc rfl hprev
      · cases h
    · cases h
  | finish i result =>
    simp only [step] at h
    split at h
    · next hc =>
      obtain rfl := Option.some.inj h
      exact .finish hc rfl result
    · cases h
  | resume i =>
    simp only [step] at h
    split at h
    · next hc =>
      obtain rfl := Option.some.inj h
      exact .resume hc rfl
    · cases h

/-- A function starts when the promise that its call has found has settled. -/
lemma isSome_start (hd : s.calls[j]? = some d) (hp : d.phase = .waiting) :
    (step s (.start j)).isSome = s.prevSettled d.prev := by
  obtain ⟨host, prev, phase⟩ := d
  subst hp
  rw [step, hd]
  cases hprev : s.prevSettled prev <;> simp [hprev]

/-- A call after a change of phase. -/
lemma get_setPhase : (s.setPhase i p).calls[j]? = some d ↔
    ∃ c, s.calls[j]? = some c ∧ d = if i = j then { c with phase := p } else c := by
  rw [State.setPhase, List.getElem?_modify, Option.map_eq_map, Option.map_eq_some_iff]
  refine exists_congr fun c => and_congr_right fun _ => ?_
  exact eq_comm

@[simp] lemma host_ite {q : Prop} [Decidable q] :
    (if q then { c with phase := p } else c).host = c.host := by
  split <;> rfl

@[simp] lemma prev_ite {q : Prop} [Decidable q] :
    (if q then { c with phase := p } else c).prev = c.prev := by
  split <;> rfl

/-- A call after the arrival of one more. -/
lemma get_enter : (s.enter host).calls[j]? = some d ↔
    s.calls[j]? = some d ∨ j = s.calls.length ∧ d = { host := host, prev := s.hostLocks host } := by
  rw [State.enter]
  rcases Nat.lt_trichotomy j s.calls.length with hlt | rfl | hgt
  · rw [List.getElem?_append_left hlt]
    exact (or_iff_left fun h => by omega).symm
  · rw [List.getElem?_concat_length, List.getElem?_eq_none le_rfl]
    simp [eq_comm]
  · rw [List.getElem?_append_right hgt.le, List.getElem?_eq_none hgt.le]
    have hnone : [({ host := host, prev := s.hostLocks host } : Call ε α)][j - s.calls.length]? = none :=
      List.getElem?_eq_none (by simp; omega)
    rw [hnone]
    simp only [reduceCtorEq, false_or, false_iff, not_and]
    omega

@[simp] lemma calls_release : (s.release i host).calls = s.calls := by
  unfold State.release
  split <;> rfl

lemma hostLocks_release (s : State ε α) (i : ℕ) (host k : String) :
    (s.release i host).hostLocks k = if k = host ∧ s.hostLocks host = some i then none else s.hostLocks k := by
  unfold State.release
  by_cases hi : s.hostLocks host = some i
  · by_cases hk : k = host
    · subst hk
      simp [hi]
    · simp [hi, hk]
  · simp [hi]

lemma begun_of_isSettled (h : p.isSettled = true) : p.begun = true := by
  cases p with
  | waiting => cases h
  | running => rfl
  | settled _ => rfl
  | resumed _ => rfl

lemma isSettled_of_isResumed (h : p.isResumed = true) : p.isSettled = true := by
  cases p with
  | resumed _ => rfl
  | _ => cases h

/-! ## One at a time -/

/-- The calls of a host before a number have settled. -/
def State.EarlierSettled (s : State ε α) (j : ℕ) (host : String) : Prop :=
  ∀ i < j, ∀ c : Call ε α, s.calls[i]? = some c → c.host = host → c.phase.isSettled = true

/-- The functions of a host run one after the other, in the order of their calls.  The promise that
a call has found is that of the call of its host before; if it has found none, all calls of its
host before have settled. -/
structure Serial (s : State ε α) : Prop where
  order : ∀ {j} {d : Call ε α}, s.calls[j]? = some d → d.phase.begun = true → s.EarlierSettled j d.host
  free : ∀ {j} {d : Call ε α}, s.calls[j]? = some d → d.prev = none → s.EarlierSettled j d.host
  prev : ∀ {j i} {d : Call ε α}, s.calls[j]? = some d → d.prev = some i →
    ∃ c : Call ε α, s.calls[i]? = some c ∧ c.host = d.host ∧ i < j ∧
      ∀ k < j, ∀ e : Call ε α, s.calls[k]? = some e → e.host = d.host → k ≤ i

/-- The last call of a host. -/
structure IsLast (s : State ε α) (host : String) (j : ℕ) (c : Call ε α) : Prop where
  get : s.calls[j]? = some c
  host_eq : c.host = host
  last : ∀ k (e : Call ε α), s.calls[k]? = some e → e.host = host → k ≤ j

/-- The entry of a host is its last call, until the caller of that one goes on. -/
def Entry (s : State ε α) (host : String) : Prop :=
  (∃ (j : ℕ) (c : Call ε α), IsLast s host j c ∧
      s.hostLocks host = if c.phase.isResumed then none else some j) ∨
    (∀ c ∈ s.calls, c.host ≠ host) ∧ s.hostLocks host = none

/-- What holds in every state of a run. -/
structure Invariant (s : State ε α) : Prop where
  serial : Serial s
  entry : ∀ host, Entry s host

/-- A call waits for the calls of its host before it, and for nothing else. -/
lemma Serial.prevSettled_iff (h : Serial s) (hd : s.calls[j]? = some d) :
    s.prevSettled d.prev = true ↔ s.EarlierSettled j d.host := by
  cases hprev : d.prev with
  | none => exact iff_of_true rfl (h.free hd hprev)
  | some i =>
    obtain ⟨c, hc, hhost, hij, hbetween⟩ := h.prev hd hprev
    have hval : s.prevSettled (some i) = c.phase.isSettled := by
      rw [State.prevSettled, hc, Option.any_some]
    rw [hval]
    constructor
    · intro hset k hk e he hehost
      rcases Nat.lt_or_eq_of_le (hbetween k hk e he hehost) with hlt | rfl
      · exact h.order hc (begun_of_isSettled hset) k hlt e he (hehost.trans hhost.symm)
      · rw [hc, Option.some.injEq] at he
        rwa [← he]
    · intro hearlier
      exact hearlier i hij c hc hhost

/-- A call that has settled stays so. -/
lemma State.EarlierSettled.setPhase (h : s.EarlierSettled j host) (hc : s.calls[i]? = some c)
    (hkeep : c.phase.isSettled = true → p.isSettled = true) : (s.setPhase i p).EarlierSettled j host := by
  intro k hk e he hehost
  obtain ⟨e₀, he₀, rfl⟩ := get_setPhase.mp he
  by_cases hik : i = k
  · subst hik
    rw [if_pos rfl] at hehost ⊢
    rw [hc, Option.some.injEq] at he₀
    subst he₀
    exact hkeep (h i hk c hc hehost)
  · rw [if_neg hik] at hehost ⊢
    exact h k hk e₀ he₀ hehost

/-- A call may go on to a phase that is not before it in line. -/
lemma Serial.setPhase (h : Serial s) (hc : s.calls[i]? = some c)
    (hkeep : c.phase.isSettled = true → p.isSettled = true)
    (hbegun : p.begun = true → s.EarlierSettled i c.host) : Serial (s.setPhase i p) where
  order := by
    intro j d hd hphase
    obtain ⟨d₀, hd₀, rfl⟩ := get_setPhase.mp hd
    by_cases hij : i = j
    · subst hij
      rw [if_pos rfl] at hphase ⊢
      rw [hc, Option.some.injEq] at hd₀
      subst hd₀
      exact (hbegun hphase).setPhase hc hkeep
    · rw [if_neg hij] at hphase ⊢
      exact (h.order hd₀ hphase).setPhase hc hkeep
  free := by
    intro j d hd hprev
    obtain ⟨d₀, hd₀, rfl⟩ := get_setPhase.mp hd
    rw [prev_ite] at hprev
    rw [host_ite]
    exact (h.free hd₀ hprev).setPhase hc hkeep
  prev := by
    intro j d k hd hprev
    obtain ⟨d₀, hd₀, rfl⟩ := get_setPhase.mp hd
    rw [prev_ite] at hprev
    obtain ⟨e, he, hehost, hkj, hbetween⟩ := h.prev hd₀ hprev
    refine ⟨_, get_setPhase.mpr ⟨e, he, rfl⟩, ?_, hkj, fun l hl e' he' hhost' => ?_⟩
    · rw [host_ite, host_ite, hehost]
    · obtain ⟨e₀, he₀, rfl⟩ := get_setPhase.mp he'
      rw [host_ite, host_ite] at hhost'
      exact hbetween l hl e₀ he₀ hhost'

/-- The last call of a host after a change of phase. -/
lemma IsLast.setPhase (h : IsLast s host j d) :
    IsLast (s.setPhase i p) host j (if i = j then { d with phase := p } else d) where
  get := get_setPhase.mpr ⟨d, h.get, rfl⟩
  host_eq := host_ite.trans h.host_eq
  last := by
    intro k e he hhost
    obtain ⟨e₀, he₀, rfl⟩ := get_setPhase.mp he
    exact h.last k e₀ he₀ (host_ite.symm.trans hhost)

/-- A host has one last call. -/
lemma IsLast.eq (h : IsLast s host j d) (hc : s.calls[j]? = some c) : c = d :=
  Option.some.inj (hc.symm.trans h.get)

lemma no_calls_setPhase (h : ∀ c ∈ s.calls, c.host ≠ host) :
    ∀ c ∈ (s.setPhase i p).calls, c.host ≠ host := by
  intro e he
  obtain ⟨j, he⟩ := List.getElem?_of_mem he
  obtain ⟨e₀, he₀, rfl⟩ := get_setPhase.mp he
  rw [host_ite]
  exact h e₀ (List.mem_of_getElem? he₀)

/-- A change of phase before the caller goes on keeps the entries. -/
lemma Entry.setPhase (h : Entry s host) (hc : s.calls[i]? = some c)
    (hres : p.isResumed = c.phase.isResumed) : Entry (s.setPhase i p) host := by
  rcases h with ⟨j, d, hlast, hentry⟩ | ⟨hnone, hentry⟩
  · refine Or.inl ⟨j, _, hlast.setPhase, hentry.trans ?_⟩
    by_cases hij : i = j
    · subst hij
      obtain rfl := hlast.eq hc
      rw [if_pos rfl, hres]
    · rw [if_neg hij]
  · exact Or.inr ⟨no_calls_setPhase hnone, hentry⟩

/-- The caller of the last call takes the entry with it. -/
lemma Entry.resume (h : Entry s host) (hc : s.calls[i]? = some c) (hres : c.phase.isResumed = false)
    (result : Except ε α) : Entry ((s.setPhase i (.resumed result)).release i c.host) host := by
  have hlocks := hostLocks_release (s.setPhase i (.resumed result)) i c.host host
  have hsame : (s.setPhase i (.resumed result)).hostLocks = s.hostLocks := rfl
  rw [hsame] at hlocks
  rcases h with ⟨j, d, hlast, hentry⟩ | ⟨hnone, hentry⟩
  · have hlast' := hlast.setPhase (i := i) (p := .resumed result)
    refine Or.inl ⟨j, if i = j then { d with phase := .resumed result } else d,
      ⟨?_, hlast'.host_eq, ?_⟩, hlocks.trans ?_⟩
    · rw [calls_release]
      exact hlast'.get
    · rw [calls_release]
      exact hlast'.last
    · by_cases hij : i = j
      · subst hij
        obtain rfl := hlast.eq hc
        rw [hres] at hentry
        rw [if_pos rfl, if_pos ⟨hlast.host_eq.symm, hlast.host_eq ▸ hentry⟩]
        rfl
      · rw [if_neg hij, if_neg, hentry]
        rintro ⟨hhost, hi⟩
        rw [← hhost, hentry] at hi
        split at hi
        · cases hi
        · exact hij (Option.some.inj hi).symm
  · refine Or.inr ⟨?_, hlocks.trans ?_⟩
    · rw [calls_release]
      exact no_calls_setPhase hnone
    · rw [if_neg, hentry]
      rintro ⟨rfl, -⟩
      exact hnone c (List.mem_of_getElem? hc) rfl

/-- A new call is behind all calls of its host. -/
lemma State.EarlierSettled.enter (h : s.EarlierSettled j host) (hj : j ≤ s.calls.length) (k : String) :
    (s.enter k).EarlierSettled j host := by
  intro i hi c hc hhost
  rcases get_enter.mp hc with hc | ⟨rfl, -⟩
  · exact h i hi c hc hhost
  · omega

/-- Without an entry all calls of the host have settled. -/
lemma Invariant.settled_of_unlocked (h : Invariant s) (hlock : s.hostLocks host = none) :
    s.EarlierSettled s.calls.length host := by
  intro i _ c hc hhost
  rcases h.entry host with ⟨j, d, hlast, hentry⟩ | ⟨hnone, -⟩
  · have hres : d.phase.isResumed = true := by
      by_contra hcon
      rw [if_neg hcon, hlock] at hentry
      cases hentry
    have hset := isSettled_of_isResumed hres
    rcases Nat.lt_or_eq_of_le (hlast.last i c hc hhost) with hlt | rfl
    · exact h.serial.order hlast.get (begun_of_isSettled hset) i hlt c hc (hhost.trans hlast.host_eq.symm)
    · obtain rfl := hlast.eq hc
      exact hset
  · exact absurd hhost (hnone c (List.mem_of_getElem? hc))

/-- An entry is the last call of its host. -/
lemma Entry.isLast (h : Entry s host) (hlock : s.hostLocks host = some i) : ∃ c, IsLast s host i c := by
  rcases h with ⟨j, d, hlast, hentry⟩ | ⟨-, hentry⟩
  · rw [hlock] at hentry
    split at hentry
    · cases hentry
    · obtain rfl := Option.some.inj hentry
      exact ⟨d, hlast⟩
  · rw [hlock] at hentry
    cases hentry

lemma lt_of_get (h : s.calls[j]? = some d) : j < s.calls.length := (List.getElem?_eq_some_iff.mp h).1

/-- A host has no entry when the caller of its last call, if there is one, has gone on. -/
lemma Entry.unlocked_iff (h : Entry s host) : s.hostLocks host = none ↔
    ∀ (j : ℕ) (c : Call ε α), IsLast s host j c → c.phase.isResumed = true := by
  rcases h with ⟨j, c, hlast, hentry⟩ | ⟨hnone, hentry⟩
  · constructor
    · intro hlock k d hlast'
      obtain rfl : k = j := le_antisymm (hlast.last k d hlast'.get hlast'.host_eq)
        (hlast'.last j c hlast.get hlast.host_eq)
      obtain rfl := hlast.eq hlast'.get
      by_contra hres
      rw [hlock, if_neg hres] at hentry
      cases hentry
    · intro hall
      rw [hentry, if_pos (hall j c hlast)]
  · refine iff_of_true hentry fun k d hlast => ?_
    exact absurd hlast.host_eq (hnone d (List.mem_of_getElem? hlast.get))

/-- A new call waits for the last one of its host. -/
lemma Invariant.serial_enter (h : Invariant s) (host : String) : Serial (s.enter host) where
  order := by
    intro j d hd hphase
    rcases get_enter.mp hd with hd | ⟨rfl, rfl⟩
    · exact (h.serial.order hd hphase).enter (lt_of_get hd).le host
    · cases hphase
  free := by
    intro j d hd hprev
    rcases get_enter.mp hd with hd | ⟨rfl, rfl⟩
    · exact (h.serial.free hd hprev).enter (lt_of_get hd).le host
    · exact (h.settled_of_unlocked hprev).enter le_rfl host
  prev := by
    intro j i d hd hprev
    have hold : ∀ {l} {e : Call ε α}, l < j → (s.enter host).calls[l]? = some e →
        j ≤ s.calls.length → s.calls[l]? = some e := by
      intro l e hl he hj
      rcases get_enter.mp he with he | ⟨rfl, -⟩
      · exact he
      · omega
    rcases get_enter.mp hd with hd | ⟨rfl, rfl⟩
    · obtain ⟨c, hc, hhost, hij, hbetween⟩ := h.serial.prev hd hprev
      exact ⟨c, get_enter.mpr (Or.inl hc), hhost, hij, fun l hl e he =>
        hbetween l hl e (hold hl he (lt_of_get hd).le)⟩
    · obtain ⟨c, hlast⟩ := (h.entry host).isLast hprev
      exact ⟨c, get_enter.mpr (Or.inl hlast.get), hlast.host_eq, lt_of_get hlast.get,
        fun l hl e he => hlast.last l e (hold hl he le_rfl)⟩

/-- A new call is the entry of its host. -/
lemma entry_enter_self (s : State ε α) (host : String) : Entry (s.enter host) host := by
  refine Or.inl ⟨s.calls.length, { host := host, prev := s.hostLocks host }, ⟨?_, rfl, ?_⟩, ?_⟩
  · exact get_enter.mpr (Or.inr ⟨rfl, rfl⟩)
  · intro l e he _
    rcases get_enter.mp he with he | ⟨rfl, -⟩
    · exact (lt_of_get he).le
    · exact le_rfl
  · exact Function.update_self _ _ _

/-- The entries of the other hosts stay. -/
lemma Entry.enter {k : String} (h : Entry s k) (hk : k ≠ host) : Entry (s.enter host) k := by
  have hlocks : (s.enter host).hostLocks k = s.hostLocks k := Function.update_of_ne hk _ _
  rcases h with ⟨j, d, hlast, hentry⟩ | ⟨hnone, hentry⟩
  · refine Or.inl ⟨j, d, ⟨get_enter.mpr (Or.inl hlast.get), hlast.host_eq, ?_⟩, hlocks.trans hentry⟩
    intro l e he hhost
    rcases get_enter.mp he with he | ⟨-, rfl⟩
    · exact hlast.last l e he hhost
    · exact absurd hhost.symm hk
  · refine Or.inr ⟨fun c hc => ?_, hlocks.trans hentry⟩
    rcases List.mem_append.mp hc with hc | hc
    · exact hnone c hc
    · obtain rfl := List.mem_singleton.mp hc
      exact Ne.symm hk

lemma Invariant.enter (h : Invariant s) (host : String) : Invariant (s.enter host) where
  serial := h.serial_enter host
  entry := by
    intro k
    by_cases hk : k = host
    · subst hk
      exact entry_enter_self s k
    · exact (h.entry k).enter hk

/-- Every step keeps the invariant. -/
theorem Invariant.step (h : Invariant s) (hst : step s a = some s') : Invariant s' := by
  cases step_effect hst with
  | call host => exact h.enter host
  | @start i c hc hp hprev =>
    refine ⟨h.serial.setPhase hc ?_ fun _ => (h.serial.prevSettled_iff hc).mp hprev, fun host => ?_⟩
    · rw [hp]
      exact nofun
    · exact (h.entry host).setPhase hc (by rw [hp]; rfl)
  | @finish i c hc hp result =>
    refine ⟨h.serial.setPhase hc (fun _ => rfl) fun _ => ?_, fun host => ?_⟩
    · exact h.serial.order hc (by rw [hp]; rfl)
    · exact (h.entry host).setPhase hc (by rw [hp]; rfl)
  | @resume i c result hc hp =>
    have hserial : Serial (s.setPhase i (.resumed result)) :=
      h.serial.setPhase hc (fun _ => rfl) fun _ => h.serial.order hc (by rw [hp]; rfl)
    have hcalls : ((s.setPhase i (.resumed result)).release i c.host).calls = _ := calls_release
    refine ⟨⟨?_, ?_, ?_⟩, fun host => (h.entry host).resume hc (by rw [hp]; rfl) result⟩
    · unfold State.EarlierSettled
      rw [hcalls]
      exact hserial.order
    · unfold State.EarlierSettled
      rw [hcalls]
      exact hserial.free
    · rw [hcalls]
      exact hserial.prev

lemma invariant_start : Invariant ({} : State ε α) where
  serial := ⟨nofun, nofun, nofun⟩
  entry _ := Or.inr ⟨nofun, rfl⟩

/-! ## Results -/

/-- The function of a call is done, with this result. -/
def HasResult (s : State ε α) (i : ℕ) (result : Except ε α) : Prop :=
  ∃ c, s.calls[i]? = some c ∧ c.phase.result = some result

lemma hasResult_setPhase {result : Except ε α} (hc : s.calls[i]? = some c) :
    HasResult (s.setPhase i p) j result ↔
      if i = j then p.result = some result else HasResult s j result := by
  unfold HasResult
  by_cases hij : i = j
  · subst hij
    rw [if_pos rfl]
    constructor
    · rintro ⟨d, hd, hres⟩
      obtain ⟨d₀, -, rfl⟩ := get_setPhase.mp hd
      rwa [if_pos rfl] at hres
    · intro hres
      exact ⟨_, get_setPhase.mpr ⟨c, hc, rfl⟩, by rwa [if_pos rfl]⟩
  · rw [if_neg hij]
    refine exists_congr fun d => and_congr_left fun _ => ?_
    rw [get_setPhase]
    constructor
    · rintro ⟨d₀, hd₀, rfl⟩
      rwa [if_neg hij]
    · intro hd
      exact ⟨d, hd, (if_neg hij).symm⟩

/-- A step brings the result of a function that is done with it, and no other. -/
lemma hasResult_step (hst : step s a = some s') (result : Except ε α) :
    HasResult s' j result ↔ HasResult s j result ∨ a = .finish j result := by
  cases step_effect hst with
  | call host =>
    rw [or_iff_left (by simp)]
    refine exists_congr fun d => ?_
    rw [get_enter, or_and_right]
    refine or_iff_left ?_
    rintro ⟨⟨-, rfl⟩, hres⟩
    cases hres
  | @start i c hc hp _ =>
    rw [hasResult_setPhase hc, or_iff_left (by simp)]
    by_cases hij : i = j
    · subst hij
      rw [if_pos rfl, HasResult]
      simp [hc, hp, Phase.result]
    · rw [if_neg hij]
  | @finish i c hc hp r =>
    rw [hasResult_setPhase hc]
    by_cases hij : i = j
    · subst hij
      rw [if_pos rfl, HasResult]
      simp [hc, hp, Phase.result]
    · rw [if_neg hij, or_iff_left]
      rintro ⟨⟩
      exact hij rfl
  | @resume i c r hc hp =>
    have hrelease : HasResult ((s.setPhase i (.resumed r)).release i c.host) j result ↔
        HasResult (s.setPhase i (.resumed r)) j result := by
      unfold HasResult
      rw [calls_release]
    rw [hrelease, hasResult_setPhase hc, or_iff_left (by simp)]
    by_cases hij : i = j
    · subst hij
      rw [if_pos rfl, HasResult]
      simp [hc, hp, Phase.result]
    · rw [if_neg hij]

/-- The results at the end of a run are those with which functions were done. -/
lemma hasResult_run {as : List (Action ε α)} (ht : Trace step Free s as s') (result : Except ε α) :
    HasResult s' j result ↔ HasResult s j result ∨ .finish j result ∈ as := by
  induction ht with
  | nil s => simp
  | cons _ hst _ ih => rw [ih, hasResult_step hst, or_assoc, List.mem_cons, @eq_comm _ (Action.finish j result)]

/-! ## Mutual exclusion -/

/-- The lock of a host excludes.  In every state of a run: a function has been called only if all
calls of its host before it have settled; a call can start exactly when these have, whatever
their results and whatever calls of other hosts do, and what runs can end and go on at any time;
the results are those of the calls' own functions; and a host has no entry exactly when the caller
of its last call has gone on, if there is one. -/
theorem host_lock {as : List (Action ε α)} (ht : Trace step Free {} as s) :
    (∀ (i j : ℕ) (c d : Call ε α), i < j → s.calls[i]? = some c → s.calls[j]? = some d → c.host = d.host →
      d.phase.begun = true → c.phase.isSettled = true) ∧
    (∀ (j : ℕ) (d : Call ε α), s.calls[j]? = some d → d.phase = .waiting →
      ((step s (.start j)).isSome = true ↔ s.EarlierSettled j d.host)) ∧
    (∀ (j : ℕ) (d : Call ε α), s.calls[j]? = some d →
      (d.phase = .running → ∀ result, (step s (.finish j result)).isSome = true) ∧
      ∀ result, d.phase = .settled result → (step s (.resume j)).isSome = true) ∧
    (∀ j result, HasResult s j result ↔ .finish j result ∈ as) ∧
    ∀ host, s.hostLocks host = none ↔
      ∀ (j : ℕ) (c : Call ε α), IsLast s host j c → c.phase.isResumed = true := by
  have hinv : Invariant s := ht.invariant (fun _ _ _ h _ hst => h.step hst) invariant_start
  refine ⟨?_, ?_, ?_, ?_, ?_⟩
  · intro i j c d hij hc hd hhost hbegun
    exact hinv.serial.order hd hbegun i hij c hc hhost
  · intro j d hd hp
    rw [← hinv.serial.prevSettled_iff hd, isSome_start hd hp]
  · rintro j ⟨host, prev, phase⟩ hd
    constructor
    · rintro rfl result
      rw [step, hd]
      rfl
    · rintro result rfl
      rw [step, hd]
      rfl
  · intro j result
    rw [hasResult_run ht, or_iff_right]
    rintro ⟨c, hc, -⟩
    cases hc
  · intro host
    exact (hinv.entry host).unlocked_iff

/-! ## The handlers under the lock -/

/-- The handlers under a lock, with their hosts and whether they have finished. -/
def lockedCalls (tasks : List Admin.Task) : List (String × Bool) :=
  tasks.filterMap fun task => task.request.lockHost.map fun host => (host, task.phase.isDone)

/-- The calls before a number, as hosts and whether they have settled. -/
lemma earlierSettled_iff : s.EarlierSettled j host ↔
    ∀ x ∈ (s.calls.map fun c => (c.host, c.phase.isSettled)).take j, x.1 = host → x.2 = true := by
  constructor
  · intro hset x hx hxhost
    obtain ⟨i, hi⟩ := List.getElem?_of_mem hx
    rw [List.getElem?_take, List.getElem?_map] at hi
    split at hi
    · next hlt =>
      obtain ⟨c, hc, rfl⟩ := Option.map_eq_some_iff.mp hi
      exact hset i hlt c hc hxhost
    · cases hi
  · intro hall i hi c hc hchost
    refine hall (c.host, c.phase.isSettled) (List.mem_of_getElem? (i := i) ?_) hchost
    rw [List.getElem?_take, List.getElem?_map, if_pos hi, hc]
    rfl

/-- The handlers of the domain routes start when the lock lets them: where the calls of the lock
are the handlers under a lock, a call can start exactly when `lockFree` says so. -/
theorem start_iff_lockFree (h : Invariant s) {t : Admin.State} {rid : ℕ} {request : Admin.Request}
    (hview : (s.calls.map fun c => (c.host, c.phase.isSettled)) = lockedCalls t.tasks)
    (hd : s.calls[(lockedCalls (t.tasks.take rid)).length]? = some d) (hp : d.phase = .waiting)
    (hhost : request.lockHost = some d.host) :
    (step s (.start (lockedCalls (t.tasks.take rid)).length)).isSome = true ↔
      t.lockFree rid request = true := by
  have htake : ((s.calls.map fun c => (c.host, c.phase.isSettled)).take
      (lockedCalls (t.tasks.take rid)).length) = lockedCalls (t.tasks.take rid) := by
    have hsplit : lockedCalls t.tasks = lockedCalls (t.tasks.take rid) ++ lockedCalls (t.tasks.drop rid) := by
      rw [lockedCalls, lockedCalls, lockedCalls, ← List.filterMap_append, List.take_append_drop]
    rw [hview, hsplit, List.take_left]
  rw [isSome_start hd hp, h.serial.prevSettled_iff hd, earlierSettled_iff, htake, Admin.State.lockFree,
    hhost]
  simp only [List.all_eq_true, lockedCalls, List.mem_filterMap, Option.map_eq_some_iff, Bool.or_eq_true,
    decide_eq_true_iff]
  constructor
  · intro hall task htask
    by_cases htaskHost : task.request.lockHost = some d.host
    · exact Or.inr (hall (d.host, task.phase.isDone) ⟨task, htask, d.host, htaskHost, rfl⟩ rfl)
    · exact Or.inl htaskHost
  · rintro hall x ⟨task, htask, host, htaskHost, rfl⟩ rfl
    exact (hall task htask).resolve_left (fun hne => hne htaskHost)

end System

/-- Two calls of `a.test`, the second while the first runs, and one of `b.test`.  The first function
throws; the second runs and returns; both callers go on. -/
def sampleActions : List (Action String ℕ) :=
  [.call "a.test", .start 0, .call "a.test", .call "b.test", .start 2, .finish 0 (.error "busy"), .start 1,
    .resume 0, .finish 1 (.ok 7), .resume 1]

/-- The state after them. -/
def sampleEnd : State String ℕ := (run step {} sampleActions).getD {}

/-- The second call is not hindered by the failure of the first, and the lock of `a.test` is gone
while the function of `b.test` still runs. -/
theorem host_lock_sample :
    HasResult sampleEnd 0 (.error "busy") ∧ HasResult sampleEnd 1 (.ok 7) ∧
      (step sampleEnd (.finish 2 (.ok 8))).isSome = true ∧ sampleEnd.hostLocks "a.test" = none := by
  have ht : Trace step Free {} sampleActions sampleEnd := trace_of_run rfl
  obtain ⟨-, -, hgo, hresults, hlocks⟩ := host_lock ht
  refine ⟨(hresults 0 _).mpr (by simp [sampleActions]), (hresults 1 _).mpr (by simp [sampleActions]),
    (hgo 2 ⟨"b.test", none, .running⟩ rfl).1 rfl _, (hlocks "a.test").mpr fun j c hlast => ?_⟩
  have hlt : j < 3 := lt_of_get hlast.get
  have hle : 1 ≤ j := hlast.last 1 ⟨"a.test", some 0, .resumed (.ok 7)⟩ rfl rfl
  obtain rfl | rfl : j = 1 ∨ j = 2 := by omega
  · obtain rfl := Option.some.inj hlast.get
    rfl
  · obtain rfl := Option.some.inj hlast.get
    exact absurd hlast.host_eq (by decide)

end SmartSchoolCdn.HostLock
