import SmartSchoolCdn.Foundation.Broadcast
import SmartSchoolCdn.Foundation.Trace
import Mathlib.Logic.Function.Basic

/-!
# The coalescer at its critical sections

`get_or_fetch_with_capacity` of `services/proxy/src/coalescer.rs` as a transition system.  A
caller takes one step for each critical section on the in-flight map and for each point at which
it waits, and callers of any keys interleave.  A leader can be cancelled, or its fetch can panic,
while it waits for the fetch; its drop guard then removes the key in a step of its own.

A sender of the map is identified by the number of the leader that created it, and the channel of
a sender is closed when the sender leaves the map, which holds the only copy of it.
-/

namespace SmartSchoolCdn.InFlight

open Broadcast Traces

universe u

/-- `Result<CoalescedResponse, ()>`; the response is never looked into. -/
abbrev Outcome (ρ : Type u) := Except Unit ρ

/-- Where a caller is: before its first critical section; a leader that fetches, one whose fetch
has completed and whose guard is disarmed, one that has been cancelled or has panicked and whose
guard has yet to run; a follower with the number of its leader and its position in the channel;
and the ends.  A returned follower remembers its leader. -/
inductive Phase (ρ : Type u)
  | arriving
  | fetching
  | fetched (result : Outcome ρ)
  | dropping
  | subscribed (leader : ℕ) (next : ℕ)
  | returned (leader : Option ℕ) (result : Outcome ρ)
  | dropped

/-- A call with its progress. -/
structure Caller (ρ : Type u) where
  key : String
  capacity : ℕ
  phase : Phase ρ

/-- `Coalescer`, with the callers and the channels of the senders created so far. -/
structure State (ρ : Type u) where
  inFlight : String → Option ℕ
  channels : ℕ → Option (Channel (Outcome ρ))
  laggedCount : ℕ
  callers : List (Caller ρ)

namespace State

variable {ρ : Type u} (s : State ρ)

/-- `Coalescer::new`. -/
def new : State ρ where
  inFlight _ := none
  channels _ := none
  laggedCount := 0
  callers := []

/-- Move a caller to another phase. -/
def setPhase (i : ℕ) (phase : Phase ρ) : State ρ :=
  { s with callers := s.callers.modify i fun c => { c with phase := phase } }

/-- The first critical section: subscribe to the sender of the key, or insert a new one. -/
def enter (i : ℕ) (c : Caller ρ) : State ρ :=
  match s.inFlight c.key with
  | some leader =>
    s.setPhase i (.subscribed leader (((s.channels leader).map Channel.position).getD 0))
  | none =>
    { s with
      inFlight := Function.update s.inFlight c.key (some i)
      channels := Function.update s.channels i (some (.new (max c.capacity 1))) }.setPhase i .fetching

/-- The drop guard: remove the key from the map, and with it the sender. -/
def dropGuard (i : ℕ) (c : Caller ρ) : State ρ :=
  match s.inFlight c.key with
  | some leader =>
    { s with
      inFlight := Function.update s.inFlight c.key none
      channels := Function.update s.channels leader
        ((s.channels leader).map Channel.close) }.setPhase i .dropped
  | none => s.setPhase i .dropped

/-- The second critical section of a leader: remove the sender of the key from the map and send
the result to whoever has subscribed. -/
def publish (i : ℕ) (c : Caller ρ) (result : Outcome ρ) : State ρ :=
  match s.inFlight c.key with
  | some leader =>
    { s with
      inFlight := Function.update s.inFlight c.key none
      channels := Function.update s.channels leader
        ((s.channels leader).map fun ch => (Channel.send ch result).close) }.setPhase i
          (.returned none result)
  | none => s.setPhase i (.returned none result)

/-- `rx.recv()` has something to return. -/
def receive (i leader next : ℕ) : Option (State ρ) :=
  ((s.channels leader).bind fun ch => ch.receive next).map fun
    | .message result => s.setPhase i (.returned (some leader) result)
    | .lagged _ =>
      { s with laggedCount := s.laggedCount + 1 }.setPhase i (.returned (some leader) (.error ()))
    | .closed => s.setPhase i (.returned (some leader) (.error ()))

end State

/-- What happens next: a call arrives, enters the first critical section, has its fetch completed
with a result, publishes it, is cancelled or has its fetch panic, runs its drop guard, or receives. -/
inductive Action (ρ : Type u)
  | arrive (key : String) (capacity : ℕ)
  | enter (i : ℕ)
  | finish (i : ℕ) (result : Outcome ρ)
  | publish (i : ℕ)
  | cancel (i : ℕ)
  | guard (i : ℕ)
  | receive (i : ℕ)

variable {ρ : Type u}

/-- Execute an action. -/
def step (s : State ρ) : Action ρ → Option (State ρ)
  | .arrive key capacity =>
    some { s with callers := s.callers ++ [{ key := key, capacity := capacity, phase := .arriving }] }
  | .enter i => (s.callers[i]?).bind fun c =>
    match c.phase with
    | .arriving => some (s.enter i c)
    | _ => none
  | .finish i result => (s.callers[i]?).bind fun c =>
    match c.phase with
    | .fetching => some (s.setPhase i (.fetched result))
    | _ => none
  | .publish i => (s.callers[i]?).bind fun c =>
    match c.phase with
    | .fetched result => some (s.publish i c result)
    | _ => none
  | .cancel i => (s.callers[i]?).bind fun c =>
    match c.phase with
    | .arriving => some (s.setPhase i .dropped)
    | .fetching => some (s.setPhase i .dropping)
    | .subscribed _ _ => some (s.setPhase i .dropped)
    | _ => none
  | .guard i => (s.callers[i]?).bind fun c =>
    match c.phase with
    | .dropping => some (s.dropGuard i c)
    | _ => none
  | .receive i => (s.callers[i]?).bind fun c =>
    match c.phase with
    | .subscribed leader next => s.receive i leader next
    | _ => none

/-- A leader between its two critical sections: it fetches, or has fetched, or its guard is to
run. -/
def Phase.leads : Phase ρ → Bool
  | .fetching => true
  | .fetched _ => true
  | .dropping => true
  | _ => false

variable {s s' : State ρ} {i j : ℕ} {c c' : Caller ρ} {phase : Phase ρ}

/-! ## The invariant -/

/-- The channel of a leader: without messages while the leader runs, then with its result, or
closed without one. -/
def Fits (c : Caller ρ) (ch : Channel (Outcome ρ)) : Prop :=
  (c.phase.leads = true ∧ ch.sent = [] ∧ ch.closed = false) ∨
    (∃ result, c.phase = .returned none result ∧ ch.sent = [result]) ∨
      c.phase = .dropped ∧ ch.sent = [] ∧ ch.closed = true

/-- The map holds exactly the running leaders, every channel belongs to a leader and is in its
state, and the followers have subscribed to leaders of their key and got what those returned. -/
structure Coherent (s : State ρ) : Prop where
  registered : ∀ key i, s.inFlight key = some i →
    ∃ c, s.callers[i]? = some c ∧ c.key = key ∧ c.phase.leads = true
  leads : ∀ (i : ℕ) (c : Caller ρ), s.callers[i]? = some c → c.phase.leads = true →
    s.inFlight c.key = some i ∧ ∃ ch, s.channels i = some ch
  channel : ∀ i ch, s.channels i = some ch → 1 ≤ ch.capacity ∧ ∃ c, s.callers[i]? = some c ∧ Fits c ch
  follows : ∀ (j : ℕ) (c : Caller ρ) leader next, s.callers[j]? = some c →
    c.phase = .subscribed leader next → next = 0 ∧ (∃ ch, s.channels leader = some ch) ∧
      ∃ l, s.callers[leader]? = some l ∧ l.key = c.key
  handed : ∀ (j : ℕ) (c : Caller ρ) leader result, s.callers[j]? = some c →
    c.phase = .returned (some leader) result → ∃ l, s.callers[leader]? = some l ∧ l.key = c.key ∧
      (l.phase = .returned none result ∨ l.phase = .dropped ∧ result = .error ())
  lagged : s.laggedCount = 0

/-- The steps of a caller in a coherent state. -/
inductive Move (s : State ρ) (i : ℕ) (c : Caller ρ) : State ρ → Phase ρ → Prop
  | subscribes {leader : ℕ} : c.phase = .arriving → s.inFlight c.key = some leader →
      Move s i c s (.subscribed leader 0)
  | registers : c.phase = .arriving → s.inFlight c.key = none →
      Move s i c { s with
        inFlight := Function.update s.inFlight c.key (some i)
        channels := Function.update s.channels i (some (.new (max c.capacity 1))) } .fetching
  | finishes {result : Outcome ρ} : c.phase = .fetching → Move s i c s (.fetched result)
  | publishes {result : Outcome ρ} {ch : Channel (Outcome ρ)} : c.phase = .fetched result →
      s.channels i = some ch →
      Move s i c { s with
        inFlight := Function.update s.inFlight c.key none
        channels := Function.update s.channels i (some (ch.send result).close) } (.returned none result)
  | leaves : c.phase.leads = false → (∀ leader result, c.phase ≠ .returned leader result) →
      c.phase ≠ .dropped → Move s i c s .dropped
  | cancels : c.phase = .fetching → Move s i c s .dropping
  | guards {ch : Channel (Outcome ρ)} : c.phase = .dropping → s.channels i = some ch →
      Move s i c { s with
        inFlight := Function.update s.inFlight c.key none
        channels := Function.update s.channels i (some ch.close) } .dropped
  | receives {leader : ℕ} {result : Outcome ρ} {l : Caller ρ} : c.phase = .subscribed leader 0 →
      s.callers[leader]? = some l → l.key = c.key →
      l.phase = .returned none result ∨ l.phase = .dropped ∧ result = .error () →
      Move s i c s (.returned (some leader) result)

/-- A follower gets the result of its leader, or an error when the leader was dropped. -/
lemma Coherent.receive {leader next : ℕ} (h : Coherent s) (hc : s.callers[i]? = some c)
    (hphase : c.phase = .subscribed leader next) (hs : s.receive i leader next = some s') :
    ∃ result, s' = s.setPhase i (.returned (some leader) result) ∧
      Move s i c s (.returned (some leader) result) := by
  obtain ⟨rfl, ⟨ch, hch⟩, l, hl, hkey⟩ := h.follows i c leader next hc hphase
  obtain ⟨hcapacity, l', hl', hfits⟩ := h.channel leader ch hch
  obtain rfl := Option.some.inj (hl.symm.trans hl')
  unfold State.receive at hs
  rw [hch, Option.bind_some] at hs
  rcases hfits with ⟨-, hsent, hopen⟩ | ⟨result, hreturned, hsent⟩ | ⟨hdropped, hsent, hclosed⟩
  · rw [Channel.receive_empty hsent, hopen] at hs
    cases hs
  · rw [Channel.receive_only hsent hcapacity] at hs
    cases hs
    exact ⟨result, rfl, Move.receives hphase hl hkey (.inl hreturned)⟩
  · rw [Channel.receive_empty hsent, hclosed] at hs
    cases hs
    exact ⟨.error (), rfl, Move.receives hphase hl hkey (.inr ⟨hdropped, rfl⟩)⟩

/-- Every action in a coherent state is an arrival or a move. -/
lemma Coherent.step_cases {a : Action ρ} (h : Coherent s) (hs : step s a = some s') :
    (∃ key capacity, a = .arrive key capacity ∧
      s' = { s with callers := s.callers ++ [{ key := key, capacity := capacity, phase := .arriving }] }) ∨
    ∃ i c r phase, s.callers[i]? = some c ∧ Move s i c r phase ∧ s' = r.setPhase i phase := by
  cases a with
  | arrive key capacity => exact .inl ⟨key, capacity, rfl, (Option.some.inj hs).symm⟩
  | enter i =>
    right
    obtain ⟨c, hc, hs⟩ := Option.bind_eq_some_iff.mp hs
    split at hs
    · rename_i hphase
      obtain rfl := Option.some.inj hs
      unfold State.enter
      cases hkey : s.inFlight c.key with
      | some leader =>
        obtain ⟨l, hl, -, hleads⟩ := h.registered c.key leader hkey
        obtain ⟨-, ch, hch⟩ := h.leads leader l hl hleads
        obtain ⟨-, l', hl', hfits⟩ := h.channel leader ch hch
        obtain rfl := Option.some.inj (hl.symm.trans hl')
        have hsent : ch.sent = [] := by
          rcases hfits with ⟨-, hsent, -⟩ | ⟨result, hreturned, -⟩ | ⟨-, hsent, -⟩
          · exact hsent
          · rw [hreturned] at hleads
            cases hleads
          · exact hsent
        have hposition : ((s.channels leader).map Channel.position).getD 0 = 0 := by
          rw [hch, Option.map_some, Option.getD_some, Channel.position, hsent, List.length_nil]
        refine ⟨i, c, s, .subscribed leader 0, hc, Move.subscribes hphase hkey, ?_⟩
        simp only [hposition]
      | none => exact ⟨i, c, _, .fetching, hc, Move.registers hphase hkey, rfl⟩
    · cases hs
  | finish i result =>
    right
    obtain ⟨c, hc, hs⟩ := Option.bind_eq_some_iff.mp hs
    split at hs
    · rename_i hphase
      exact ⟨i, c, s, .fetched result, hc, Move.finishes hphase, (Option.some.inj hs).symm⟩
    · cases hs
  | publish i =>
    right
    obtain ⟨c, hc, hs⟩ := Option.bind_eq_some_iff.mp hs
    split at hs
    · rename_i result hphase
      obtain ⟨hregistered, ch, hch⟩ := h.leads i c hc (by rw [hphase]; rfl)
      refine ⟨i, c, _, .returned none result, hc, Move.publishes hphase hch, ?_⟩
      rw [← Option.some.inj hs]
      simp only [State.publish, hregistered, hch, Option.map_some]
    · cases hs
  | cancel i =>
    right
    obtain ⟨c, hc, hs⟩ := Option.bind_eq_some_iff.mp hs
    split at hs
    · rename_i hphase
      refine ⟨i, c, s, .dropped, hc, Move.leaves ?_ ?_ ?_, (Option.some.inj hs).symm⟩
      · rw [hphase]
        rfl
      · simp [hphase]
      · simp [hphase]
    · rename_i hphase
      exact ⟨i, c, s, .dropping, hc, Move.cancels hphase, (Option.some.inj hs).symm⟩
    · rename_i leader next hphase
      refine ⟨i, c, s, .dropped, hc, Move.leaves ?_ ?_ ?_, (Option.some.inj hs).symm⟩
      · rw [hphase]
        rfl
      · simp [hphase]
      · simp [hphase]
    · cases hs
  | guard i =>
    right
    obtain ⟨c, hc, hs⟩ := Option.bind_eq_some_iff.mp hs
    split at hs
    · rename_i hphase
      obtain ⟨hregistered, ch, hch⟩ := h.leads i c hc (by rw [hphase]; rfl)
      refine ⟨i, c, _, .dropped, hc, Move.guards hphase hch, ?_⟩
      rw [← Option.some.inj hs]
      simp only [State.dropGuard, hregistered, hch, Option.map_some]
    · cases hs
  | receive i =>
    right
    obtain ⟨c, hc, hs⟩ := Option.bind_eq_some_iff.mp hs
    split at hs
    · rename_i leader next hphase
      obtain ⟨result, hs', hmove⟩ := h.receive hc hphase hs
      exact ⟨i, c, s, .returned (some leader) result, hc, hmove, hs'⟩
    · cases hs

/-! ## Steps -/

/-- Moving a caller changes its phase. -/
lemma setPhase_self (h : s.callers[i]? = some c) :
    (s.setPhase i phase).callers[i]? = some { c with phase := phase } := by
  simp [State.setPhase, h]

/-- Moving a caller leaves the others alone. -/
lemma setPhase_ne (h : j ≠ i) : (s.setPhase i phase).callers[j]? = s.callers[j]? := by
  simp [State.setPhase, Ne.symm h]

/-- A step changes no other caller. -/
lemma Move.callers (h : Move s i c s' phase) : s'.callers = s.callers := by
  cases h <;> rfl

/-- A caller that has returned or was dropped does not move. -/
lemma Move.not_ended (h : Move s i c s' phase) :
    (∀ leader result, c.phase ≠ .returned leader result) ∧ c.phase ≠ .dropped := by
  cases h with
  | leaves _ hreturned hdropped => exact ⟨hreturned, hdropped⟩
  | _ => simp_all

/-- The callers after a move. -/
lemma Move.caller_cases (h : Move s i c s' phase) (hc : s.callers[i]? = some c)
    (hj : (s'.setPhase i phase).callers[j]? = some c') :
    (j = i ∧ c' = { c with phase := phase }) ∨ j ≠ i ∧ s.callers[j]? = some c' := by
  by_cases hji : j = i
  · subst hji
    rw [setPhase_self (h.callers ▸ hc)] at hj
    exact .inl ⟨rfl, (Option.some.inj hj).symm⟩
  · rw [setPhase_ne hji, h.callers] at hj
    exact .inr ⟨hji, hj⟩

/-- Who has returned or was dropped stays so. -/
lemma Move.keeps (h : Move s i c s' phase) (hc : s.callers[i]? = some c) (hj : s.callers[j]? = some c')
    (hended : (∃ leader result, c'.phase = .returned leader result) ∨ c'.phase = .dropped) :
    (s'.setPhase i phase).callers[j]? = some c' := by
  have hji : j ≠ i := by
    rintro rfl
    obtain rfl := Option.some.inj (hc.symm.trans hj)
    rcases hended with ⟨leader, result, hreturned⟩ | hdropped
    · exact h.not_ended.1 leader result hreturned
    · exact h.not_ended.2 hdropped
  rw [setPhase_ne hji, h.callers, hj]

/-- What a step does to the map: nothing, as long as the caller goes on leading or never did, or
it registers the caller, or removes its key. -/
lemma Move.inFlight (h : Move s i c s' phase) :
    (s'.inFlight = s.inFlight ∧ s'.channels = s.channels ∧ phase.leads = c.phase.leads) ∨
    (s.inFlight c.key = none ∧ s'.inFlight = Function.update s.inFlight c.key (some i) ∧
      c.phase.leads = false ∧ phase = .fetching ∧
      s'.channels = Function.update s.channels i (some (.new (max c.capacity 1)))) ∨
    ∃ ch ch', c.phase.leads = true ∧ phase.leads = false ∧
      s'.inFlight = Function.update s.inFlight c.key none ∧ s.channels i = some ch ∧
      s'.channels = Function.update s.channels i (some ch') ∧ ch'.capacity = ch.capacity ∧
      (ch.sent = [] ∧ ch.closed = false → Fits { c with phase := phase } ch') := by
  cases h with
  | registers hphase hkey =>
    right; left
    refine ⟨hkey, rfl, ?_, rfl, rfl⟩
    rw [hphase]
    rfl
  | @publishes result ch hphase hch =>
    right; right
    refine ⟨ch, _, ?_, rfl, rfl, hch, rfl, rfl, fun hempty => ?_⟩
    · rw [hphase]
      rfl
    · refine .inr (.inl ⟨result, rfl, ?_⟩)
      rw [Channel.close, Channel.send, hempty.1, List.nil_append]
  | @guards ch hphase hch =>
    right; right
    refine ⟨ch, _, ?_, rfl, rfl, hch, rfl, rfl, fun hempty => .inr (.inr ⟨rfl, hempty.1, rfl⟩)⟩
    rw [hphase]
    rfl
  | subscribes hphase _ => exact .inl ⟨rfl, rfl, by rw [hphase]; rfl⟩
  | finishes hphase => exact .inl ⟨rfl, rfl, by rw [hphase]; rfl⟩
  | leaves hphase _ _ => exact .inl ⟨rfl, rfl, hphase.symm⟩
  | cancels hphase => exact .inl ⟨rfl, rfl, by rw [hphase]; rfl⟩
  | receives hphase _ _ _ => exact .inl ⟨rfl, rfl, by rw [hphase]; rfl⟩

section Preservation

variable (h : Coherent s) (hc : s.callers[i]? = some c) (hmove : Move s i c s' phase)
include h hc hmove

/-- A registered key has a running leader. -/
lemma Coherent.registered_move {key : String} {leader : ℕ} (hkey : s'.inFlight key = some leader) :
    ∃ c', (s'.setPhase i phase).callers[leader]? = some c' ∧ c'.key = key ∧ c'.phase.leads = true := by
  have hself : (s'.setPhase i phase).callers[i]? = some { c with phase := phase } :=
    setPhase_self (hmove.callers ▸ hc)
  have hother : ∀ {l : ℕ} {cl : Caller ρ}, l ≠ i → s.callers[l]? = some cl →
      (s'.setPhase i phase).callers[l]? = some cl := by
    intro l cl hl hcl
    rw [setPhase_ne hl, hmove.callers, hcl]
  rcases hmove.inFlight with ⟨hsame, -, hleads⟩ | ⟨hfree, hnew, hnot, rfl, -⟩ | ⟨_, _, -, -, hnew, -⟩
  · obtain ⟨cl, hcl, hk, hl⟩ := h.registered key leader (hsame ▸ hkey)
    by_cases hli : leader = i
    · subst hli
      obtain rfl := Option.some.inj (hc.symm.trans hcl)
      exact ⟨_, hself, hk, hleads.trans hl⟩
    · exact ⟨cl, hother hli hcl, hk, hl⟩
  · rw [hnew, Function.update_apply] at hkey
    split at hkey
    · rename_i hk
      obtain rfl := Option.some.inj hkey
      exact ⟨_, hself, hk.symm, rfl⟩
    · obtain ⟨cl, hcl, hk, hl⟩ := h.registered key leader hkey
      have hli : leader ≠ i := by
        rintro rfl
        obtain rfl := Option.some.inj (hc.symm.trans hcl)
        rw [hnot] at hl
        cases hl
      exact ⟨cl, hother hli hcl, hk, hl⟩
  · rw [hnew, Function.update_apply] at hkey
    split at hkey
    · cases hkey
    · rename_i hne
      obtain ⟨cl, hcl, hk, hl⟩ := h.registered key leader hkey
      have hli : leader ≠ i := by
        rintro rfl
        obtain rfl := Option.some.inj (hc.symm.trans hcl)
        exact hne hk.symm
      exact ⟨cl, hother hli hcl, hk, hl⟩

/-- A running leader is registered and has a channel. -/
lemma Coherent.leads_move (hj : (s'.setPhase i phase).callers[j]? = some c') (hleads : c'.phase.leads = true) :
    s'.inFlight c'.key = some j ∧ ∃ ch, s'.channels j = some ch := by
  rcases hmove.caller_cases hc hj with ⟨rfl, rfl⟩ | ⟨hji, hj⟩
  · rcases hmove.inFlight with ⟨hsame, hchannels, hphase⟩ | ⟨-, hnew, -, -, hchannels⟩ | ⟨_, _, -, hnot, -⟩
    · rw [hsame, hchannels]
      exact h.leads j c hc (hphase.symm.trans hleads)
    · rw [hnew, hchannels]
      exact ⟨Function.update_self _ _ _, _, Function.update_self _ _ _⟩
    · rw [hnot] at hleads
      cases hleads
  · obtain ⟨hregistered, ch, hch⟩ := h.leads j c' hj hleads
    rcases hmove.inFlight with ⟨hsame, hchannels, -⟩ | ⟨hfree, hnew, -, -, hchannels⟩ |
        ⟨_, _, hwas, -, hnew, -, hchannels, -⟩
    · rw [hsame, hchannels]
      exact ⟨hregistered, ch, hch⟩
    · have hkey : c'.key ≠ c.key := by
        intro hkey
        rw [hkey, hfree] at hregistered
        cases hregistered
      rw [hnew, hchannels, Function.update_of_ne hkey, Function.update_of_ne hji]
      exact ⟨hregistered, ch, hch⟩
    · have hkey : c'.key ≠ c.key := by
        intro hkey
        obtain ⟨hself, -⟩ := h.leads i c hc hwas
        rw [hkey, hself] at hregistered
        exact hji (Option.some.inj hregistered).symm
      rw [hnew, hchannels, Function.update_of_ne hkey, Function.update_of_ne hji]
      exact ⟨hregistered, ch, hch⟩

/-- Every channel is in the state of its leader. -/
lemma Coherent.channel_move {ch : Channel (Outcome ρ)} (hch : s'.channels j = some ch) :
    1 ≤ ch.capacity ∧ ∃ c', (s'.setPhase i phase).callers[j]? = some c' ∧ Fits c' ch := by
  have hself : (s'.setPhase i phase).callers[i]? = some { c with phase := phase } :=
    setPhase_self (hmove.callers ▸ hc)
  have hother : j ≠ i → s.channels j = some ch →
      1 ≤ ch.capacity ∧ ∃ c', (s'.setPhase i phase).callers[j]? = some c' ∧ Fits c' ch := by
    intro hji hold
    obtain ⟨hcapacity, cl, hcl, hfits⟩ := h.channel j ch hold
    exact ⟨hcapacity, cl, by rw [setPhase_ne hji, hmove.callers, hcl], hfits⟩
  by_cases hji : j = i
  · subst hji
    rcases hmove.inFlight with ⟨-, hchannels, hphase⟩ | ⟨-, -, -, rfl, hchannels⟩ |
        ⟨old, ch', hwas, -, -, hold, hchannels, hcapacity, hfits⟩
    · obtain ⟨hcapacity, cl, hcl, hfits⟩ := h.channel j ch (hchannels ▸ hch)
      obtain rfl := Option.some.inj (hc.symm.trans hcl)
      refine ⟨hcapacity, _, hself, ?_⟩
      rcases hfits with ⟨hleads, hempty⟩ | ⟨result, hreturned, -⟩ | ⟨hdropped, -⟩
      · exact .inl ⟨hphase.trans hleads, hempty⟩
      · exact absurd hreturned (hmove.not_ended.1 none result)
      · exact absurd hdropped hmove.not_ended.2
    · rw [hchannels, Function.update_self] at hch
      obtain rfl := Option.some.inj hch
      exact ⟨le_max_right _ _, _, hself, .inl ⟨rfl, rfl, rfl⟩⟩
    · rw [hchannels, Function.update_self] at hch
      obtain rfl := Option.some.inj hch
      obtain ⟨hold', cl, hcl, hfits'⟩ := h.channel j old hold
      obtain rfl := Option.some.inj (hc.symm.trans hcl)
      refine ⟨hcapacity ▸ hold', _, hself, hfits ?_⟩
      rcases hfits' with ⟨-, hempty⟩ | ⟨result, hreturned, -⟩ | ⟨hdropped, -⟩
      · exact hempty
      · exact absurd hreturned (hmove.not_ended.1 none result)
      · exact absurd hdropped hmove.not_ended.2
  · rcases hmove.inFlight with ⟨-, hchannels, -⟩ | ⟨-, -, -, -, hchannels⟩ | ⟨_, _, -, -, -, -, hchannels, -⟩
    · exact hother hji (hchannels ▸ hch)
    · rw [hchannels, Function.update_of_ne hji] at hch
      exact hother hji hch
    · rw [hchannels, Function.update_of_ne hji] at hch
      exact hother hji hch

/-- A follower waits at the channel of a leader of its key. -/
lemma Coherent.follows_move {leader next : ℕ} (hj : (s'.setPhase i phase).callers[j]? = some c')
    (hphase : c'.phase = .subscribed leader next) :
    next = 0 ∧ (∃ ch, s'.channels leader = some ch) ∧
      ∃ l, (s'.setPhase i phase).callers[leader]? = some l ∧ l.key = c'.key := by
  -- channels stay, and callers keep their keys
  have hchannels : ∀ {l : ℕ}, (∃ ch, s.channels l = some ch) → ∃ ch, s'.channels l = some ch := by
    intro l hl
    rcases hmove.inFlight with ⟨-, hchannels, -⟩ | ⟨-, -, -, -, hchannels⟩ | ⟨_, _, -, -, -, -, hchannels, -⟩
    · rw [hchannels]
      exact hl
    · by_cases hli : l = i
      · exact ⟨_, by rw [hchannels, hli, Function.update_self]⟩
      · rw [hchannels, Function.update_of_ne hli]
        exact hl
    · by_cases hli : l = i
      · exact ⟨_, by rw [hchannels, hli, Function.update_self]⟩
      · rw [hchannels, Function.update_of_ne hli]
        exact hl
  have hkeys : ∀ {l : ℕ} {cl : Caller ρ}, s.callers[l]? = some cl →
      ∃ cl', (s'.setPhase i phase).callers[l]? = some cl' ∧ cl'.key = cl.key := by
    intro l cl hcl
    by_cases hli : l = i
    · subst hli
      obtain rfl := Option.some.inj (hc.symm.trans hcl)
      exact ⟨_, setPhase_self (hmove.callers ▸ hc), rfl⟩
    · exact ⟨cl, by rw [setPhase_ne hli, hmove.callers, hcl], rfl⟩
  rcases hmove.caller_cases hc hj with ⟨rfl, rfl⟩ | ⟨hji, hj⟩
  · obtain rfl : phase = .subscribed leader next := hphase
    have hmove' := hmove
    generalize hφ : Phase.subscribed leader next = φ at hmove'
    cases hmove' with
    | subscribes harriving hregistered =>
      cases hφ
      obtain ⟨l, hl, hkey, hleads⟩ := h.registered c.key leader hregistered
      obtain ⟨-, hch⟩ := h.leads leader l hl hleads
      obtain ⟨l', hl', hkey'⟩ := hkeys hl
      exact ⟨rfl, hch, l', hl', hkey'.trans hkey⟩
    | _ => cases hφ
  · obtain ⟨hnext, hch, l, hl, hkey⟩ := h.follows j c' leader next hj hphase
    obtain ⟨l', hl', hkey'⟩ := hkeys hl
    exact ⟨hnext, hchannels hch, l', hl', hkey'.trans hkey⟩

/-- A follower was handed what its leader returned, or an error of a dropped leader. -/
lemma Coherent.handed_move {leader : ℕ} {result : Outcome ρ}
    (hj : (s'.setPhase i phase).callers[j]? = some c') (hphase : c'.phase = .returned (some leader) result) :
    ∃ l, (s'.setPhase i phase).callers[leader]? = some l ∧ l.key = c'.key ∧
      (l.phase = .returned none result ∨ l.phase = .dropped ∧ result = .error ()) := by
  have hkept : ∀ {l : Caller ρ}, s.callers[leader]? = some l →
      l.phase = .returned none result ∨ l.phase = .dropped ∧ result = .error () →
        (s'.setPhase i phase).callers[leader]? = some l := by
    intro l hl hended
    exact hmove.keeps hc hl (hended.imp (fun h => ⟨none, result, h⟩) And.left)
  rcases hmove.caller_cases hc hj with ⟨rfl, rfl⟩ | ⟨hji, hj⟩
  · obtain rfl : phase = .returned (some leader) result := hphase
    have hmove' := hmove
    generalize hφ : Phase.returned (some leader) result = φ at hmove'
    cases hmove' with
    | @receives leader' result' l _ hl hkey hended =>
      cases hφ
      exact ⟨l, hkept hl hended, hkey, hended⟩
    | _ => cases hφ
  · obtain ⟨l, hl, hkey, hended⟩ := h.handed j c' leader result hj hphase
    exact ⟨l, hkept hl hended, hkey, hended⟩

end Preservation

/-- Every move keeps the coherence. -/
lemma Coherent.move (h : Coherent s) (hc : s.callers[i]? = some c) (hmove : Move s i c s' phase) :
    Coherent (s'.setPhase i phase) where
  registered _ _ := h.registered_move hc hmove
  leads _ _ := h.leads_move hc hmove
  channel _ _ := h.channel_move hc hmove
  follows _ _ _ _ := h.follows_move hc hmove
  handed _ _ _ _ := h.handed_move hc hmove
  lagged := by
    have hlagged : s'.laggedCount = s.laggedCount := by cases hmove <;> rfl
    exact hlagged.trans h.lagged

/-- An arrival keeps the coherence. -/
lemma Coherent.arrive (h : Coherent s) (key : String) (capacity : ℕ) :
    Coherent { s with callers := s.callers ++ [{ key := key, capacity := capacity, phase := .arriving }] } := by
  have hold : ∀ {j : ℕ} {c : Caller ρ}, s.callers[j]? = some c →
      (s.callers ++ [{ key := key, capacity := capacity, phase := .arriving }])[j]? = some c := by
    intro j c hj
    rw [List.getElem?_append_left (List.getElem?_eq_some_iff.mp hj).1, hj]
  have hnew : ∀ {j : ℕ} {c : Caller ρ},
      (s.callers ++ [{ key := key, capacity := capacity, phase := .arriving }])[j]? = some c →
        s.callers[j]? = some c ∨ c.phase = .arriving := by
    intro j c hj
    rw [List.getElem?_append] at hj
    split at hj
    · exact .inl hj
    · obtain rfl := List.mem_singleton.mp (List.mem_of_getElem? hj)
      exact .inr rfl
  refine ⟨fun k i hk => ?_, fun j c hj hleads => ?_, fun i ch hch => ?_, fun j c leader next hj hphase => ?_,
    fun j c leader result hj hphase => ?_, h.lagged⟩
  · obtain ⟨c, hc, hrest⟩ := h.registered k i hk
    exact ⟨c, hold hc, hrest⟩
  · rcases hnew hj with hj | harriving
    · exact h.leads j c hj hleads
    · rw [harriving] at hleads
      cases hleads
  · obtain ⟨hcapacity, c, hc, hfits⟩ := h.channel i ch hch
    exact ⟨hcapacity, c, hold hc, hfits⟩
  · rcases hnew hj with hj | harriving
    · obtain ⟨hnext, hch, l, hl, hkey⟩ := h.follows j c leader next hj hphase
      exact ⟨hnext, hch, l, hold hl, hkey⟩
    · rw [harriving] at hphase
      cases hphase
  · rcases hnew hj with hj | harriving
    · obtain ⟨l, hl, hrest⟩ := h.handed j c leader result hj hphase
      exact ⟨l, hold hl, hrest⟩
    · rw [harriving] at hphase
      cases hphase

lemma coherent_new : Coherent (State.new : State ρ) where
  registered _ _ hkey := by cases hkey
  leads _ _ hc := by cases hc
  channel _ _ hch := by cases hch
  follows _ _ _ _ hc := by cases hc
  handed _ _ _ _ hc := by cases hc
  lagged := rfl

/-- The state is coherent after every run. -/
lemma coherent_of_reaches (h : Reaches step State.new s) : Coherent s := by
  refine h.invariant (fun s a s' hI hs => ?_) coherent_new
  rcases hI.step_cases hs with ⟨key, capacity, -, rfl⟩ | ⟨i, c, r, phase, hc, hmove, rfl⟩
  · exact hI.arrive key capacity
  · exact hI.move hc hmove

/-- What a follower receives, by the phase of its leader: it waits, or gets the result that the
leader has published, or an error when the leader was dropped. -/
lemma Coherent.receives {leader next : ℕ} (h : Coherent s) (hj : s.callers[j]? = some c)
    (hphase : c.phase = .subscribed leader next) :
    ∃ l, s.callers[leader]? = some l ∧ l.key = c.key ∧
      ((l.phase.leads = true ∧ step s (.receive j) = none) ∨
        (∃ result, l.phase = .returned none result ∧
          step s (.receive j) = some (s.setPhase j (.returned (some leader) result))) ∨
        l.phase = .dropped ∧
          step s (.receive j) = some (s.setPhase j (.returned (some leader) (.error ())))) := by
  obtain ⟨rfl, ⟨ch, hch⟩, l, hl, hkey⟩ := h.follows j c leader next hj hphase
  obtain ⟨hcapacity, l', hl', hfits⟩ := h.channel leader ch hch
  obtain rfl := Option.some.inj (hl.symm.trans hl')
  have hstep : step s (.receive j) = s.receive j leader 0 := by
    simp only [step, hj, Option.bind_some, hphase]
  refine ⟨l, hl, hkey, ?_⟩
  rw [hstep, State.receive, hch, Option.bind_some]
  rcases hfits with ⟨hleads, hsent, hopen⟩ | ⟨result, hreturned, hsent⟩ | ⟨hdropped, hsent, hclosed⟩
  · refine .inl ⟨hleads, ?_⟩
    rw [Channel.receive_empty hsent, hopen]
    rfl
  · refine .inr (.inl ⟨result, hreturned, ?_⟩)
    rw [Channel.receive_only hsent hcapacity]
    rfl
  · refine .inr (.inr ⟨hdropped, ?_⟩)
    rw [Channel.receive_empty hsent, hclosed]
    rfl

/-- In every state of every run: a key has at most one running leader; a follower has what its
leader returned, and, unless the leader returned an error, an error exactly when the leader was
dropped; a waiting follower receives as soon as its leader has published or was dropped; a
registered key has a running leader; a drop guard removes the entry of its own leader and no
other; and nobody has lagged. -/
theorem coalescer_protocol (t : State ρ) (h : Reaches step State.new t) :
    (∀ (i j : ℕ) (c d : Caller ρ), t.callers[i]? = some c → t.callers[j]? = some d →
      c.phase.leads = true → d.phase.leads = true → c.key = d.key → i = j) ∧
    (∀ (j : ℕ) (c : Caller ρ) leader result, t.callers[j]? = some c →
      c.phase = .returned (some leader) result → ∃ l, t.callers[leader]? = some l ∧ l.key = c.key ∧
        (l.phase = .returned none result ∨ l.phase = .dropped) ∧
        (l.phase ≠ .returned none (.error ()) → (result = .error () ↔ l.phase = .dropped))) ∧
    (∀ (j : ℕ) (c : Caller ρ) leader next, t.callers[j]? = some c → c.phase = .subscribed leader next →
      ∃ l, t.callers[leader]? = some l ∧ l.key = c.key ∧
        ((l.phase.leads = true ∧ step t (.receive j) = none) ∨
          (∃ result, l.phase = .returned none result ∧
            step t (.receive j) = some (t.setPhase j (.returned (some leader) result))) ∨
          l.phase = .dropped ∧
            step t (.receive j) = some (t.setPhase j (.returned (some leader) (.error ()))))) ∧
    (∀ key i, t.inFlight key = some i →
      ∃ c, t.callers[i]? = some c ∧ c.key = key ∧ c.phase.leads = true) ∧
    (∀ i t', step t (.guard i) = some t' → ∃ c, t.callers[i]? = some c ∧ t.inFlight c.key = some i ∧
      t'.inFlight = Function.update t.inFlight c.key none) ∧
    t.laggedCount = 0 := by
  have hI := coherent_of_reaches h
  refine ⟨fun i j c d hc hd hleads hleads' hkey => ?_, fun j c leader result hj hphase => ?_,
    fun j c leader next hj hphase => hI.receives hj hphase, hI.registered, fun i t' hguard => ?_, hI.lagged⟩
  · obtain ⟨hi, -⟩ := hI.leads i c hc hleads
    obtain ⟨hj, -⟩ := hI.leads j d hd hleads'
    rw [hkey, hj] at hi
    exact (Option.some.inj hi).symm
  · obtain ⟨l, hl, hkey, hended⟩ := hI.handed j c leader result hj hphase
    refine ⟨l, hl, hkey, hended.imp_right And.left, fun hnot => ⟨fun herror => ?_, fun hdropped => ?_⟩⟩
    · rcases hended with hreturned | ⟨hdropped, -⟩
      · rw [herror] at hreturned
        exact absurd hreturned hnot
      · exact hdropped
    · rcases hended with hreturned | ⟨-, herror⟩
      · rw [hdropped] at hreturned
        cases hreturned
      · exact herror
  · obtain ⟨c, hc, hs⟩ := Option.bind_eq_some_iff.mp hguard
    split at hs
    · rename_i hphase
      obtain ⟨hregistered, -⟩ := hI.leads i c hc (by rw [hphase]; rfl)
      refine ⟨c, hc, hregistered, ?_⟩
      rw [← Option.some.inj hs, State.dropGuard, hregistered]
      rfl
    · cases hs

/-- Two callers of a key of which the first leads, is cancelled and leaves the second an error,
with a third caller arriving before the guard runs and a fourth after it. -/
def cancelledLeader : List (Action ℕ) :=
  [.arrive "k" 1, .arrive "k" 1, .enter 0, .enter 1, .cancel 0, .arrive "k" 1, .enter 2, .guard 0,
    .arrive "k" 1, .enter 3, .receive 1, .receive 2]

theorem coalescer_protocol_cancelled : ∃ t : State ℕ,
    Trace step Free State.new cancelledLeader t ∧ t.inFlight "k" = some 3 ∧
      (∃ c, t.callers[3]? = some c ∧ c.key = "k" ∧ c.phase.leads = true) ∧ t.laggedCount = 0 := by
  have hrun : (run step (State.new : State ℕ) cancelledLeader).any (fun t =>
      decide (t.inFlight "k" = some 3)) = true := by
    decide +kernel
  obtain ⟨t, ht, hregistered⟩ := exists_trace_of_run hrun
  have hregistered := of_decide_eq_true hregistered
  obtain ⟨-, -, -, hlive, -, hlagged⟩ := coalescer_protocol t ht.reaches
  exact ⟨t, ht, hregistered, hlive "k" 3 hregistered, hlagged⟩

end SmartSchoolCdn.InFlight
