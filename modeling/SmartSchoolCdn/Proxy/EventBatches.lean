import SmartSchoolCdn.Admin.EventDelivery

/-!
# The flush loop

`flush_loop` and `flush_once` of `services/proxy/src/events.rs` with the channel in front of
them.  The loop waits for an event or for the tick of its timer, whichever the runtime picks;
while a batch is on the wire it waits for the answer only, and events go on arriving.  When all
senders are gone it takes what the channel still has, posts what is left and ends.

The ghosts are the events that the channel has accepted and the payloads of the posts, both the
oldest first.
-/

namespace SmartSchoolCdn.EventBatches

open Traces

variable {α : Type}

/-- The part of `EventsConfig` that the loop depends on. -/
structure EventsConfig where
  batchSize : ℕ := Events.defaultBatchSize
  channelCapacity : ℕ := Events.defaultChannelCapacity

/-- Where the loop is: in `select!`, in `flush_once`, with the loop to end behind it or not, or at
its end. -/
inductive Phase
  | selecting
  | posting (last : Bool)
  | ended
  deriving DecidableEq, Repr

/-- The channel and the loop. -/
structure State (α : Type) where
  channel : List α := []
  sendersGone : Bool := false
  buffer : List α := []
  phase : Phase := .selecting
  accepted : List α := []
  posts : List (List α) := []
  deriving DecidableEq, Repr

/-- What happens next: an event is emitted, the last sender is dropped, the channel yields, the
timer ticks, or a post is answered or fails. -/
inductive Action (α : Type)
  | emit (ev : α)
  | dropSenders
  | recv
  | tick
  | answered

namespace State

variable (s : State α)

/-- `try_send`: the event is dropped when the channel is full or has no receiver any more. -/
def trySend (cfg : EventsConfig) (ev : α) : State α :=
  if s.channel.length < cfg.channelCapacity ∧ s.phase ≠ .ended then
    { s with channel := s.channel ++ [ev], accepted := s.accepted ++ [ev] }
  else s

/-- `flush_once` up to its `await`. -/
def flushOnce (last : Bool) : State α :=
  { s with phase := .posting last, posts := s.posts ++ [s.buffer] }

/-- The arm of an event. -/
def received (cfg : EventsConfig) (ev : α) (rest : List α) : State α :=
  let s' := { s with channel := rest, buffer := s.buffer ++ [ev] }
  if cfg.batchSize ≤ s'.buffer.length then s'.flushOnce false else s'

/-- The arm of the closed channel. -/
def closed : State α := if s.buffer.isEmpty then { s with phase := .ended } else s.flushOnce true

/-- The arm of the timer. -/
def ticked : State α := if s.buffer.isEmpty then s else s.flushOnce false

/-- The rest of `flush_once`: the buffer is cleared whatever the answer was. -/
def cleared (last : Bool) : State α :=
  { s with buffer := [], phase := if last then .ended else .selecting }

end State

/-- Execute an action. -/
def step (cfg : EventsConfig) (s : State α) : Action α → Option (State α)
  | .emit ev => if s.sendersGone then none else some (s.trySend cfg ev)
  | .dropSenders => if s.sendersGone then none else some { s with sendersGone := true }
  | .recv =>
    match s.phase, s.channel with
    | .selecting, ev :: rest => some (s.received cfg ev rest)
    | .selecting, [] => if s.sendersGone then some s.closed else none
    | _, _ => none
  | .tick => if s.phase = .selecting then some s.ticked else none
  | .answered =>
    match s.phase with
    | .posting last => some (s.cleared last)
    | _ => none

/-! ## What a step can do -/

/-- The effect of an action. -/
inductive Effect (cfg : EventsConfig) (s : State α) : Action α → State α → Prop
  | emit (hopen : s.sendersGone = false) (ev : α) : Effect cfg s (.emit ev) (s.trySend cfg ev)
  | dropSenders (hopen : s.sendersGone = false) :
      Effect cfg s .dropSenders { s with sendersGone := true }
  | received {ev : α} {rest : List α} (hp : s.phase = .selecting) (hc : s.channel = ev :: rest) :
      Effect cfg s .recv (s.received cfg ev rest)
  | closed (hp : s.phase = .selecting) (hc : s.channel = []) (hgone : s.sendersGone = true) :
      Effect cfg s .recv s.closed
  | tick (hp : s.phase = .selecting) : Effect cfg s .tick s.ticked
  | answered {last : Bool} (hp : s.phase = .posting last) : Effect cfg s .answered (s.cleared last)

variable {cfg : EventsConfig} {s s' : State α} {a : Action α}

theorem step_effect (h : step cfg s a = some s') : Effect cfg s a s' := by
  cases a with
  | emit ev =>
    simp only [step] at h
    split at h
    · cases h
    · next hopen =>
      obtain rfl := Option.some.inj h
      exact .emit (by simpa using hopen) ev
  | dropSenders =>
    simp only [step] at h
    split at h
    · cases h
    · next hopen =>
      obtain rfl := Option.some.inj h
      exact .dropSenders (by simpa using hopen)
  | recv =>
    simp only [step] at h
    split at h
    · next hp hc =>
      obtain rfl := Option.some.inj h
      exact .received hp hc
    · next hp hc =>
      split at h
      · next hgone =>
        obtain rfl := Option.some.inj h
        exact .closed hp hc hgone
      · cases h
    · cases h
  | tick =>
    simp only [step] at h
    split at h
    · next hp =>
      obtain rfl := Option.some.inj h
      exact .tick hp
    · cases h
  | answered =>
    simp only [step] at h
    split at h
    · next hp =>
      obtain rfl := Option.some.inj h
      exact .answered hp
    · cases h

/-! ## The accounts of the loop -/

/-- The events that the loop has taken and not posted. -/
def State.pending (s : State α) : List α := if s.phase = .selecting then s.buffer else []

/-- What holds in every state of a run.  The accepted events are those posted, those in the buffer
and those in the channel, in this order. -/
structure Invariant (cfg : EventsConfig) (s : State α) : Prop where
  conserved : s.posts.flatten ++ s.pending ++ s.channel = s.accepted
  room : s.phase = .selecting → s.buffer.length < max 1 cfg.batchSize
  sizes : ∀ batch ∈ s.posts, 1 ≤ batch.length ∧ batch.length ≤ max 1 cfg.batchSize
  last : s.phase = .posting true → s.channel = [] ∧ s.sendersGone = true
  ended : s.phase = .ended → s.channel = [] ∧ s.sendersGone = true

lemma invariant_start : Invariant cfg ({} : State α) where
  conserved := rfl
  room _ := by simp
  sizes := nofun
  last := nofun
  ended := nofun

/-- A flush posts what the loop has taken. -/
lemma Invariant.flushOnce (hconserved : s.posts.flatten ++ s.buffer ++ s.channel = s.accepted)
    (hsizes : ∀ batch ∈ s.posts, 1 ≤ batch.length ∧ batch.length ≤ max 1 cfg.batchSize)
    (hpos : 1 ≤ s.buffer.length) (hle : s.buffer.length ≤ max 1 cfg.batchSize) {last : Bool}
    (hlast : last = true → s.channel = [] ∧ s.sendersGone = true) : Invariant cfg (s.flushOnce last) where
  conserved := by
    simpa [State.flushOnce, State.pending] using hconserved
  room := nofun
  sizes := by
    intro batch hbatch
    rcases List.mem_append.mp hbatch with hbatch | hbatch
    · exact hsizes batch hbatch
    · obtain rfl := List.mem_singleton.mp hbatch
      exact ⟨hpos, hle⟩
  last := by
    intro hp
    exact hlast (Phase.posting.inj hp)
  ended := nofun

/-- An event that the channel takes is the last of the accepted ones. -/
lemma Invariant.trySend (h : Invariant cfg s) (hopen : s.sendersGone = false) (ev : α) :
    Invariant cfg (s.trySend cfg ev) := by
  unfold State.trySend
  split
  · refine ⟨?_, h.room, h.sizes, fun hp => ?_, fun hp => ?_⟩
    · rw [← h.conserved]
      simp [State.pending]
    · have hgone := (h.last hp).2
      rw [hopen] at hgone
      cases hgone
    · have hgone := (h.ended hp).2
      rw [hopen] at hgone
      cases hgone
  · exact h

/-- In `select!` the buffer is what the loop has taken and not posted. -/
lemma Invariant.conserved_selecting (h : Invariant cfg s) (hp : s.phase = .selecting) :
    s.posts.flatten ++ s.buffer ++ s.channel = s.accepted := by
  have hconserved := h.conserved
  rwa [State.pending, if_pos hp] at hconserved

/-- The loop takes the first event of the channel, and posts the batch that is then full. -/
lemma Invariant.received (h : Invariant cfg s) (hp : s.phase = .selecting) {ev : α} {rest : List α}
    (hc : s.channel = ev :: rest) : Invariant cfg (s.received cfg ev rest) := by
  let t : State α := { s with channel := rest, buffer := s.buffer ++ [ev] }
  have hconserved : t.posts.flatten ++ t.buffer ++ t.channel = t.accepted := by
    refine Eq.trans ?_ (h.conserved_selecting hp)
    rw [hc]
    simp [t]
  have hlength : t.buffer.length = s.buffer.length + 1 := List.length_append
  have hle : t.buffer.length ≤ max 1 cfg.batchSize := hlength ▸ h.room hp
  have hphase : t.phase = .selecting := hp
  simp only [State.received]
  split
  · exact @Invariant.flushOnce _ cfg t hconserved h.sizes (hlength ▸ Nat.succ_pos _) hle false nofun
  · next hfew =>
    have hlt : t.buffer.length < max 1 cfg.batchSize := lt_max_of_lt_right (not_le.mp hfew)
    refine ⟨?_, fun _ => hlt, h.sizes, fun hp' => ?_, fun hp' => ?_⟩
    · rw [State.pending, if_pos hp]
      exact hconserved
    · cases hphase.symm.trans hp'
    · cases hphase.symm.trans hp'

/-- When the channel is closed, what is left is posted. -/
lemma Invariant.closed (h : Invariant cfg s) (hp : s.phase = .selecting) (hc : s.channel = [])
    (hgone : s.sendersGone = true) : Invariant cfg s.closed := by
  have hconserved := h.conserved_selecting hp
  unfold State.closed
  split
  · next hempty =>
    refine ⟨?_, nofun, h.sizes, nofun, fun _ => ⟨hc, hgone⟩⟩
    rw [List.isEmpty_iff.mp hempty] at hconserved
    exact hconserved
  · next hempty =>
    have hpos : s.buffer ≠ [] := by simpa using hempty
    exact .flushOnce hconserved h.sizes (List.length_pos_iff.mpr hpos) (h.room hp).le fun _ => ⟨hc, hgone⟩

/-- The timer posts what there is. -/
lemma Invariant.ticked (h : Invariant cfg s) (hp : s.phase = .selecting) : Invariant cfg s.ticked := by
  unfold State.ticked
  split
  · exact h
  · next hempty =>
    have hpos : s.buffer ≠ [] := by simpa using hempty
    exact Invariant.flushOnce (h.conserved_selecting hp) h.sizes (List.length_pos_iff.mpr hpos)
      (h.room hp).le nofun

/-- After the answer the buffer is empty, and its events are in the payload. -/
lemma Invariant.cleared (h : Invariant cfg s) {last : Bool} (hp : s.phase = .posting last) :
    Invariant cfg (s.cleared last) := by
  have hconserved := h.conserved
  rw [State.pending, if_neg (by rw [hp]; exact nofun), List.append_nil] at hconserved
  have hpending : (s.cleared last).pending = [] := ite_self _
  refine ⟨?_, fun _ => by simp [State.cleared], h.sizes, ?_, ?_⟩
  · rw [hpending, List.append_nil]
    exact hconserved
  · cases last with
    | true => exact nofun
    | false => exact nofun
  · cases last with
    | true => exact fun _ => h.last hp
    | false => exact nofun

/-- Every step keeps the invariant. -/
theorem Invariant.step (h : Invariant cfg s) (hst : step cfg s a = some s') : Invariant cfg s' := by
  cases step_effect hst with
  | emit hopen ev => exact h.trySend hopen ev
  | dropSenders hopen =>
    exact ⟨h.conserved, h.room, h.sizes, fun hp => ⟨(h.last hp).1, rfl⟩, fun hp => ⟨(h.ended hp).1, rfl⟩⟩
  | received hp hc => exact h.received hp hc
  | closed hp hc hgone => exact h.closed hp hc hgone
  | tick hp => exact h.ticked hp
  | answered hp => exact h.cleared hp

/-! ## The end of the loop -/

/-- Once the senders are gone, the loop takes the channel event by event and ends. -/
lemma exists_drain (hp : s.phase = .selecting) (hgone : s.sendersGone = true) :
    ∃ as t, Trace (step cfg) Free s as t ∧ t.phase = .ended ∧ t.accepted = s.accepted := by
  induction hc : s.channel generalizing s with
  | nil =>
    have hrecv : step cfg s .recv = some s.closed := by
      simp [step, hp, hc, hgone]
    by_cases hempty : s.buffer.isEmpty = true
    · rw [State.closed, if_pos hempty] at hrecv
      exact ⟨[.recv], _, .cons trivial hrecv (.nil _), rfl, rfl⟩
    · rw [State.closed, if_neg hempty] at hrecv
      exact ⟨[.recv, .answered], _, .cons trivial hrecv (.cons trivial rfl (.nil _)), rfl, rfl⟩
  | cons ev rest ih =>
    have hrecv : step cfg s .recv = some (s.received cfg ev rest) := by
      simp [step, hp, hc]
    simp only [State.received] at hrecv
    split at hrecv
    · obtain ⟨as, t, ht, hend, haccepted⟩ := ih
        (s := (State.flushOnce { s with channel := rest, buffer := s.buffer ++ [ev] } false).cleared false)
        rfl hgone rfl
      exact ⟨.recv :: .answered :: as, t, .cons trivial hrecv (.cons trivial rfl ht), hend, haccepted⟩
    · obtain ⟨as, t, ht, hend, haccepted⟩ := ih
        (s := { s with channel := rest, buffer := s.buffer ++ [ev] }) hp hgone rfl
      exact ⟨.recv :: as, t, .cons trivial hrecv ht, hend, haccepted⟩

/-- From the select on, the senders can go and the loop can end. -/
lemma exists_end_of_selecting (hp : s.phase = .selecting) :
    ∃ as t, Trace (step cfg) Free s as t ∧ t.phase = .ended ∧ t.accepted = s.accepted := by
  cases hgone : s.sendersGone with
  | true => exact exists_drain hp hgone
  | false =>
    obtain ⟨as, t, ht, hend, haccepted⟩ :=
      @exists_drain _ cfg { s with sendersGone := true } hp rfl
    exact ⟨.dropSenders :: as, t, .cons trivial (by simp [step, hgone]) ht, hend, haccepted⟩

/-- Every run can be brought to the end of the loop, without another event. -/
theorem exists_end (cfg : EventsConfig) (s : State α) :
    ∃ as t, Trace (step cfg) Free s as t ∧ t.phase = .ended ∧ t.accepted = s.accepted := by
  cases hp : s.phase with
  | selecting => exact exists_end_of_selecting hp
  | ended => exact ⟨[], s, .nil s, hp, rfl⟩
  | posting last =>
    have hanswered : step cfg s .answered = some (s.cleared last) := by
      rw [step, hp]
    cases last with
    | true => exact ⟨[.answered], _, .cons trivial hanswered (.nil _), rfl, rfl⟩
    | false =>
      obtain ⟨as, t, ht, hend, haccepted⟩ :=
        @exists_end_of_selecting _ cfg (s.cleared false) rfl
      exact ⟨.answered :: as, t, .cons trivial hanswered ht, hend, haccepted⟩

/-- Batching loses nothing before the wire.  In every state of a run the accepted events are those
in the payloads, those taken and not yet posted, and those in the channel, once and in the order
of their arrival; a payload has from one event to as many as the batch size says; and when the
loop has ended, to which every run can be continued, the payloads are all that was accepted. -/
theorem batches_conserve {as : List (Action α)} (ht : Trace (step cfg) Free {} as s) :
    s.posts.flatten ++ s.pending ++ s.channel = s.accepted ∧
    (∀ batch ∈ s.posts, 1 ≤ batch.length ∧ (1 ≤ cfg.batchSize → batch.length ≤ cfg.batchSize)) ∧
    (s.phase = .ended → s.posts.flatten = s.accepted) ∧
    ∃ bs t, Trace (step cfg) Free s bs t ∧ t.phase = .ended ∧ t.accepted = s.accepted ∧
      t.posts.flatten = s.accepted := by
  have hended : ∀ {bs : List (Action α)} {t : State α}, Trace (step cfg) Free {} bs t →
      t.phase = .ended → t.posts.flatten = t.accepted := by
    intro bs t htr hend
    have h : Invariant cfg t := htr.invariant (fun _ _ _ h _ hst => h.step hst) invariant_start
    rw [← h.conserved, State.pending, if_neg (by rw [hend]; exact nofun), (h.ended hend).1,
      List.append_nil, List.append_nil]
  have h : Invariant cfg s := ht.invariant (fun _ _ _ h _ hst => h.step hst) invariant_start
  refine ⟨h.conserved, fun batch hbatch => ?_, hended ht, ?_⟩
  · obtain ⟨hpos, hle⟩ := h.sizes batch hbatch
    exact ⟨hpos, fun hsize => by rwa [Nat.max_eq_right hsize] at hle⟩
  · obtain ⟨bs, t, hbs, hend, haccepted⟩ := exists_end cfg s
    exact ⟨bs, t, hbs, hend, haccepted, (hended (ht.append hbs) hend).trans haccepted⟩

/-- Three events with batches of two: a full batch, an event that the timer flushes, and one that
arrives while that is on the wire and goes out at the end. -/
def sampleActions : List (Action ℕ) :=
  [.emit 1, .emit 2, .recv, .recv, .answered, .emit 3, .recv, .tick, .emit 4, .answered, .dropSenders,
    .recv, .recv, .answered]

/-- The payloads of the sample. -/
theorem batches_conserve_sample :
    ∃ s : State ℕ, Trace (step { batchSize := 2 }) Free {} sampleActions s ∧
      s.posts = [[1, 2], [3], [4]] ∧ s.posts.flatten = s.accepted := by
  let done : State ℕ → Bool := fun s => s.posts = [[1, 2], [3], [4]] && s.phase = .ended
  have hrun : (run (step { batchSize := 2 }) {} sampleActions).any done = true := by decide
  obtain ⟨s, ht, hp⟩ := exists_trace_of_run hrun
  rw [Bool.and_eq_true, decide_eq_true_iff, decide_eq_true_iff] at hp
  exact ⟨s, ht, hp.1, (batches_conserve ht).2.2.1 hp.2⟩

/-! ## The loop in the delivery of events -/

section Delivery

open Events

/-- The batch of a post of the flush loop. -/
def flushed (p : Post) : Option (List Emitted) :=
  match p.poster with
  | .flushLoop batch => some batch
  | .evictTask _ _ => none

/-- The loop as the delivery of events has it, where a post is one step. -/
def view (o : EventFlow) : State Emitted where
  channel := o.channel
  buffer := o.buffer
  accepted := (o.posts.reverse.filterMap flushed).flatten ++ o.buffer ++ o.channel
  posts := o.posts.reverse.filterMap flushed

variable {rc : Config} {js : Runtime} {o o' : EventFlow} {d : DeliveryAction}

/-- A flush in one step posts the buffer and clears it. -/
lemma view_flushOnce (clock : Admin.Clock) (o : EventFlow) :
    view (o.flushOnce js clock) = ((view o).flushOnce false).cleared false := by
  simp [view, flushed, EventFlow.answered, State.flushOnce, State.cleared]

/-- An emitted event is sent to the channel. -/
lemma step_emit_view (o : EventFlow) (e : Emitted) :
    step {} (view o) (.emit e) = some (view (o.emit e)) := by
  by_cases hroom : o.channel.length < defaultChannelCapacity
  · simp [EventFlow.emit, step, view, State.trySend, hroom]
  · simp [EventFlow.emit, step, view, State.trySend, hroom]

/-- The loop takes an event and posts the batch that is then full. -/
lemma reaches_view_recv (clock : Admin.Clock) {e : Emitted} {rest : List Emitted} (hc : o.channel = e :: rest) :
    Reaches (step {}) (view o) (view
      (if defaultBatchSize ≤ (o.buffer ++ [e]).length then
        EventFlow.flushOnce js clock { o with channel := rest, buffer := o.buffer ++ [e] }
      else { o with channel := rest, buffer := o.buffer ++ [e] })) := by
  have hview : ({ view o with channel := rest, buffer := o.buffer ++ [e] } : State Emitted) =
      view { o with channel := rest, buffer := o.buffer ++ [e] } := by
    simp [view, hc]
  have hrecv : step {} (view o) .recv = some ((view o).received {} e rest) := by
    have hchannel : (view o).channel = e :: rest := hc
    have hphase : (view o).phase = .selecting := rfl
    simp only [step, hphase, hchannel]
  by_cases hfull : defaultBatchSize ≤ (o.buffer ++ [e]).length
  · have hpost : (view o).received {} e rest =
        (view { o with channel := rest, buffer := o.buffer ++ [e] }).flushOnce false := by
      rw [← hview]
      exact if_pos hfull
    rw [if_pos hfull, view_flushOnce]
    exact ⟨[.recv, .answered], .cons trivial (hrecv.trans (congrArg some hpost)) (.cons trivial rfl (.nil _))⟩
  · have htaken : (view o).received {} e rest =
        view { o with channel := rest, buffer := o.buffer ++ [e] } := by
      rw [← hview]
      exact if_neg hfull
    rw [if_neg hfull]
    exact ⟨[.recv], .cons trivial (hrecv.trans (congrArg some htaken)) (.nil _)⟩

/-- The timer posts what there is. -/
lemma reaches_view_tick (clock : Admin.Clock) :
    Reaches (step {}) (view o) (view (if o.buffer.isEmpty then o else o.flushOnce js clock)) := by
  by_cases hempty : o.buffer.isEmpty = true
  · rw [if_pos hempty]
    exact ⟨[], .nil _⟩
  · rw [if_neg hempty, view_flushOnce]
    have htick : step {} (view o) .tick = some ((view o).flushOnce false) := congrArg some (if_neg hempty)
    exact ⟨[.tick, .answered], .cons trivial htick (.cons trivial rfl (.nil _))⟩

/-- The steps of the delivery of events are steps of the loop, with a post and its answer in one. -/
theorem reaches_view (hst : deliveryStep rc js o d = some o') :
    Reaches (step {}) (view o) (view o') := by
  cases d with
  | proxy a w =>
    simp only [deliveryStep, Option.map_eq_some_iff] at hst
    obtain ⟨p, -, rfl⟩ := hst
    cases o.proxy.emission rc a w with
    | none => exact ⟨[], .nil _⟩
    | some e => exact ⟨[.emit e], .cons trivial (step_emit_view { o with proxy := p } e) (.nil _)⟩
  | recv clock =>
    simp only [deliveryStep] at hst
    split at hst
    · cases hst
    · next e rest hc =>
      obtain rfl := Option.some.inj hst
      exact reaches_view_recv clock hc
  | tick clock =>
    obtain rfl := Option.some.inj hst
    exact reaches_view_tick clock
  | evict freed ts clock =>
    simp only [deliveryStep] at hst
    split at hst
    · obtain rfl := Option.some.inj hst
      have hview : view (o.post js clock (.evictTask freed ts)) = view o := by
        simp [view, flushed, EventFlow.answered]
      rw [hview]
      exact ⟨[], .nil _⟩
    · cases hst

end Delivery

end SmartSchoolCdn.EventBatches
