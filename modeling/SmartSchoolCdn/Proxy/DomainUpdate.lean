import SmartSchoolCdn.Admin.DomainRoutes
import SmartSchoolCdn.Foundation.Passage
import SmartSchoolCdn.Foundation.Trace
import Mathlib.Tactic.IntervalCases

/-!
# Concurrent domain updates

`update_domains_handler` replaces the domain map, the stale-if-error policies and the
coalescing capacities one after another, each under a lock of its own that it releases before
it takes the next.  A step here is one critical section.  The handlers are numbered in the
order in which they take the first lock; what one does before that has no effect.  While it
waits a handler can be dropped, with its connection.

The maps come from one request when no handler takes a lock before one that took the first
lock earlier, and none is dropped between two of them (`maps_from_one_update`).
-/

namespace SmartSchoolCdn.DomainUpdate

open Admin Traces

/-! ## The maps of a payload -/

/-- The loop over the stale-if-error policies: an entry without one is left out. -/
def insertStalePolicy (map : String → Option ℤ) (entry : DomainEntry) : String → Option ℤ :=
  match entry.staleIfErrorSecs with
  | some v => Function.update map entry.host (some v)
  | none => map

/-- The second part of `update_domains_handler`. -/
def stalePoliciesOf (domains : List DomainEntry) : String → Option ℤ :=
  domains.foldl insertStalePolicy fun _ => none

/-- The loop over the coalescing capacities: an entry without one, or with one below 1, is left
out. -/
def insertCoalesceCapacity (map : String → Option ℤ) (entry : DomainEntry) : String → Option ℤ :=
  match entry.coalesceCapacity.filter (1 ≤ ·) with
  | some v => Function.update map entry.host (some v)
  | none => map

/-- The third part of `update_domains_handler`. -/
def coalesceCapacitiesOf (domains : List DomainEntry) : String → Option ℤ :=
  domains.foldl insertCoalesceCapacity fun _ => none

/-! ## The system -/

/-- A handler that has taken the first lock: its payload, how many maps it has replaced, and
whether it is still running. -/
structure Handler where
  payload : List DomainEntry
  written : ℕ
  running : Bool
  deriving DecidableEq, Repr

/-- The three maps and the handlers.  The ghost `holder` says which handler has replaced a map
last, the maps being numbered in the order of the locks. -/
structure State where
  domainMap : String → Option String
  stalePolicies : String → Option ℤ
  coalesceCapacities : String → Option ℤ
  handlers : List Handler
  holder : ℕ → Option ℕ

/-- The proxy after its start, with the domain map of the snapshot. -/
def State.start (domainMap : String → Option String) : State where
  domainMap := domainMap
  stalePolicies _ := none
  coalesceCapacities _ := none
  handlers := []
  holder _ := none

/-- A request arrives and takes the first lock, a handler takes its next lock, it has fetched
the certificates, or it is dropped. -/
inductive Action
  | post (domains : List DomainEntry)
  | lock (i : ℕ)
  | finish (i : ℕ)
  | drop (i : ℕ)
  deriving DecidableEq, Repr

/-- The critical section of a handler that has replaced so many maps. -/
def State.replace (s : State) (written : ℕ) (domains : List DomainEntry) : Option State :=
  match written with
  | 1 => some { s with stalePolicies := stalePoliciesOf domains }
  | 2 => some { s with coalesceCapacities := coalesceCapacitiesOf domains }
  | _ => none

/-- One step. -/
def step (s : State) : Action → Option State
  | .post domains =>
    some
      { s with
        domainMap := updateDomainsHandler domains
        handlers := s.handlers ++ [{ payload := domains, written := 1, running := true }]
        holder := Function.update s.holder 0 (some s.handlers.length) }
  | .lock i =>
    (s.handlers[i]?.filter Handler.running).bind fun h =>
      (s.replace h.written h.payload).map fun s' =>
        { s' with
          handlers := s.handlers.set i { h with written := h.written + 1 }
          holder := Function.update s.holder h.written (some i) }
  | .finish i =>
    (s.handlers[i]?.filter fun h => h.running && h.written == 3).map fun h =>
      { s with handlers := s.handlers.set i { h with running := false } }
  | .drop i =>
    (s.handlers[i]?.filter Handler.running).map fun h =>
      { s with handlers := s.handlers.set i { h with running := false } }

/-- No handler takes a lock before one that took the first lock earlier, and none is dropped
before it has taken all three. -/
def Orderly (s : State) : Action → Prop
  | .lock i => ∀ h, s.handlers[i]? = some h →
      ∀ j < i, ∀ h', s.handlers[j]? = some h' → h.written < h'.written
  | .drop i => ∀ h, s.handlers[i]? = some h → h.written = 3
  | _ => True

/-- A map is the one that a payload gives. -/
def State.Derived (s : State) (r : ℕ) (domains : List DomainEntry) : Prop :=
  match r with
  | 0 => s.domainMap = updateDomainsHandler domains
  | 1 => s.stalePolicies = stalePoliciesOf domains
  | _ => s.coalesceCapacities = coalesceCapacitiesOf domains

/-- The handlers as writers that pass through the maps. -/
def State.line (s : State) : Passage.Line := ⟨s.handlers.map Handler.written, s.holder⟩

variable {s s' t : State} {a : Action} {as : List Action} {i : ℕ} {h : Handler}

/-! ## Steps -/

/-- What a step does to the handlers and the maps. -/
inductive Effect (s : State) : Action → State → Prop
  | post (domains : List DomainEntry) : Effect s (.post domains)
      { s with
        domainMap := updateDomainsHandler domains
        handlers := s.handlers ++ [{ payload := domains, written := 1, running := true }]
        holder := Function.update s.holder 0 (some s.handlers.length) }
  | lock {i : ℕ} {h : Handler} {s' : State} : s.handlers[i]? = some h → h.running = true →
      s.replace h.written h.payload = some s' → Effect s (.lock i)
        { s' with
          handlers := s.handlers.set i { h with written := h.written + 1 }
          holder := Function.update s.holder h.written (some i) }
  | stop {a : Action} {i : ℕ} {h : Handler} : s.handlers[i]? = some h →
      (a = .finish i ∧ h.written = 3 ∨ a = .drop i) → Effect s a
        { s with handlers := s.handlers.set i { h with running := false } }

/-- Every step has one of these effects. -/
lemma effect_of_step (hst : step s a = some s') : Effect s a s' := by
  cases a with
  | post domains =>
    obtain rfl := Option.some.inj hst
    exact Effect.post domains
  | lock i =>
    simp only [step, Option.bind_eq_some_iff, Option.filter_eq_some_iff, Option.map_eq_some_iff] at hst
    obtain ⟨h, ⟨hi, hrunning⟩, u, hu, rfl⟩ := hst
    exact Effect.lock hi hrunning hu
  | finish i =>
    simp only [step, Option.filter_eq_some_iff, Option.map_eq_some_iff, Bool.and_eq_true,
      beq_iff_eq] at hst
    obtain ⟨h, ⟨hi, -, hwritten⟩, rfl⟩ := hst
    exact Effect.stop hi (Or.inl ⟨rfl, hwritten⟩)
  | drop i =>
    simp only [step, Option.filter_eq_some_iff, Option.map_eq_some_iff] at hst
    obtain ⟨h, ⟨hi, -⟩, rfl⟩ := hst
    exact Effect.stop hi (Or.inr rfl)

/-- The maps after a critical section: the handler's own comes from its payload, the others
stay. -/
lemma derived_of_replace {domains : List DomainEntry} (domains' : List DomainEntry) {written r : ℕ}
    {u : State} (hu : s.replace written domains = some u) (hr : r < 3) :
    (r = written → u.Derived r domains) ∧
      (r ≠ written → s.Derived r domains' → u.Derived r domains') := by
  unfold State.replace at hu
  split at hu
  · obtain rfl := Option.some.inj hu
    refine ⟨fun hrw => hrw ▸ rfl, fun hrw hold => ?_⟩
    interval_cases r
    · exact hold
    · exact absurd rfl hrw
    · exact hold
  · obtain rfl := Option.some.inj hu
    refine ⟨fun hrw => hrw ▸ rfl, fun hrw hold => ?_⟩
    interval_cases r
    · exact hold
    · exact hold
    · exact absurd rfl hrw
  · cases hu

/-- A handler keeps its payload when it is replaced by itself at a later point. -/
lemma payload_of_set {h h' : Handler} {j : ℕ} {domains : List DomainEntry}
    (hi : s.handlers[i]? = some h) (hpayload : h'.payload = h.payload)
    (hj : ∃ g, s.handlers[j]? = some g ∧ g.payload = domains) :
    ∃ g, (s.handlers.set i h')[j]? = some g ∧ g.payload = domains := by
  obtain ⟨g, hg, rfl⟩ := hj
  by_cases hij : i = j
  · subst hij
    obtain rfl := Option.some.inj (hi.symm.trans hg)
    have hlt := (List.getElem?_eq_some_iff.mp hi).1
    exact ⟨h', List.getElem?_set_self hlt, hpayload⟩
  · exact ⟨g, by rwa [List.getElem?_set_ne hij], rfl⟩

/-! ## Runs -/

/-- The handlers pass through the maps in line, those that have stopped have replaced all three
maps, and each map comes from the payload of its holder. -/
structure Sound (s : State) : Prop where
  line : Passage.InLine s.line
  entered : ∀ h ∈ s.handlers, 1 ≤ h.written
  stopped : ∀ h ∈ s.handlers, h.running = false → h.written = 3
  derived : ∀ r < 3, ∀ i, s.holder r = some i →
    ∃ domains, (∃ h, s.handlers[i]? = some h ∧ h.payload = domains) ∧ s.Derived r domains

/-- The start. -/
lemma sound_start (domainMap : String → Option String) : Sound (State.start domainMap) where
  line := Passage.inLine_empty
  entered := List.forall_mem_nil _
  stopped := List.forall_mem_nil _
  derived _ _ _ hr := absurd hr (Option.some_ne_none _).symm

/-- A new handler takes the first lock. -/
lemma Sound.post (hs : Sound s) (domains : List DomainEntry)
    (hst : step s (.post domains) = some s') : Sound s' := by
  obtain rfl := Option.some.inj hst
  have hentered : Passage.Entered s.line := fun w hw => by
    obtain ⟨h, hmem, rfl⟩ := List.mem_map.mp hw
    exact hs.entered h hmem
  refine ⟨?_, ?_, ?_, ?_⟩
  · have hline := hs.line.enter hentered
    simpa [State.line, Passage.Line.enter] using hline
  · rw [List.forall_mem_append, List.forall_mem_singleton]
    exact ⟨hs.entered, le_rfl⟩
  · rw [List.forall_mem_append, List.forall_mem_singleton]
    exact ⟨hs.stopped, fun hrunning => Bool.noConfusion hrunning⟩
  · intro r hr i hholder
    simp only [Function.update_apply] at hholder
    split at hholder
    · rename_i hzero
      obtain rfl := Option.some.inj hholder
      subst hzero
      exact ⟨domains, ⟨_, List.getElem?_concat_length, rfl⟩, rfl⟩
    · rename_i hne
      obtain ⟨domains', ⟨h, hi, rfl⟩, hderived⟩ := hs.derived r hr i hholder
      have hlt := (List.getElem?_eq_some_iff.mp hi).1
      refine ⟨h.payload, ⟨h, by rwa [List.getElem?_append_left hlt], rfl⟩, ?_⟩
      interval_cases r
      · exact absurd rfl hne
      · exact hderived
      · exact hderived

/-- A handler takes its next lock, after every earlier one. -/
lemma Sound.lock (hs : Sound s) {u : State} (hi : s.handlers[i]? = some h)
    (hrunning : h.running = true) (hu : s.replace h.written h.payload = some u)
    (horder : Orderly s (.lock i)) :
    Sound { u with
      handlers := s.handlers.set i { h with written := h.written + 1 }
      holder := Function.update s.holder h.written (some i) } := by
  refine ⟨?_, ?_, ?_, ?_⟩
  · have hwritten : s.line.progress[i]? = some h.written := by
      simp [State.line, hi]
    have hahead : ∀ j < i, ∀ w, s.line.progress[j]? = some w → h.written < w := by
      intro j hj w hw
      simp only [State.line, List.getElem?_map, Option.map_eq_some_iff] at hw
      obtain ⟨h', hj', rfl⟩ := hw
      exact horder h hi j hj h' hj'
    have hline := hs.line.advance hwritten hahead
    simpa [State.line, Passage.Line.advance, List.map_set] using hline
  · intro g hg
    rcases List.mem_or_eq_of_mem_set hg with hg | rfl
    · exact hs.entered g hg
    · exact Nat.le_add_left 1 h.written
  · intro g hg hstopped
    rcases List.mem_or_eq_of_mem_set hg with hg | rfl
    · exact hs.stopped g hg hstopped
    · exact Bool.noConfusion (hrunning.symm.trans hstopped)
  · intro r hr j hholder
    simp only [Function.update_apply] at hholder
    split at hholder
    · rename_i hrw
      obtain rfl := Option.some.inj hholder
      refine ⟨h.payload, payload_of_set hi rfl ⟨h, hi, rfl⟩, ?_⟩
      exact (derived_of_replace h.payload hu hr).1 hrw
    · rename_i hrw
      obtain ⟨domains, hj, hderived⟩ := hs.derived r hr j hholder
      exact ⟨domains, payload_of_set hi rfl hj, (derived_of_replace domains hu hr).2 hrw hderived⟩

/-- A handler stops after it has replaced all three maps. -/
lemma Sound.stop (hs : Sound s) (hi : s.handlers[i]? = some h) (hwritten : h.written = 3) :
    Sound { s with handlers := s.handlers.set i { h with running := false } } := by
  have hlt := (List.getElem?_eq_some_iff.mp hi).1
  have hmap : (s.handlers.set i { h with running := false }).map Handler.written =
      s.handlers.map Handler.written := by
    refine List.ext_getElem? fun j => ?_
    rw [List.getElem?_map, List.getElem?_map, List.getElem?_set]
    split
    · rename_i hij
      rw [← hij, hi]
      rfl
    · rfl
  refine ⟨?_, ?_, ?_, ?_⟩
  · have hline := hs.line
    simpa only [State.line, hmap] using hline
  · intro g hg
    rcases List.mem_or_eq_of_mem_set hg with hg | rfl
    · exact hs.entered g hg
    · exact hs.entered h (List.mem_of_getElem? hi)
  · intro g hg hstopped
    rcases List.mem_or_eq_of_mem_set hg with hg | rfl
    · exact hs.stopped g hg hstopped
    · exact hwritten
  · intro r hr j hholder
    obtain ⟨domains, hj, hderived⟩ := hs.derived r hr j hholder
    exact ⟨domains, payload_of_set hi rfl hj, hderived⟩

/-- An orderly step keeps this. -/
lemma Sound.step (hs : Sound s) (horder : Orderly s a) (hst : step s a = some s') : Sound s' := by
  cases effect_of_step hst with
  | post domains => exact hs.post domains hst
  | lock hi hrunning hu => exact hs.lock hi hrunning hu horder
  | stop hi hstop =>
    rcases hstop with ⟨-, hwritten⟩ | rfl
    · exact hs.stop hi hwritten
    · exact hs.stop hi (horder _ hi)

/-- In every run in which no handler takes a lock before one that took the first lock earlier,
and none is dropped between its locks, the three maps come from the payload of one and the same
request whenever all handlers have finished. -/
theorem maps_from_one_update (domainMap : String → Option String) (as : List Action) (s : State)
    (hrun : Trace step Orderly (State.start domainMap) as s) (hany : s.handlers ≠ [])
    (hdone : ∀ h ∈ s.handlers, h.running = false) :
    ∃ h ∈ s.handlers, s.domainMap = updateDomainsHandler h.payload ∧
      s.stalePolicies = stalePoliciesOf h.payload ∧
      s.coalesceCapacities = coalesceCapacitiesOf h.payload := by
  have hs : Sound s :=
    hrun.invariant (I := Sound) (fun _ _ _ hI horder hst => hI.step horder hst)
      (sound_start domainMap)
  have hheld : ∀ r < 3, s.holder r = some (s.line.progress.length - 1) := by
    intro r hr
    refine hs.line.holder_of_passed (fun w hw => ?_) (by simpa [State.line] using hany)
    obtain ⟨h, hmem, rfl⟩ := List.mem_map.mp hw
    rwa [hs.stopped h hmem (hdone h hmem)]
  obtain ⟨_, ⟨h, hi, rfl⟩, hmap⟩ := hs.derived 0 (by decide) _ (hheld 0 (by decide))
  obtain ⟨_, ⟨h₁, hi₁, rfl⟩, hpolicies⟩ := hs.derived 1 (by decide) _ (hheld 1 (by decide))
  obtain ⟨_, ⟨h₂, hi₂, rfl⟩, hcapacities⟩ := hs.derived 2 (by decide) _ (hheld 2 (by decide))
  obtain rfl := Option.some.inj (hi.symm.trans hi₁)
  obtain rfl := Option.some.inj (hi.symm.trans hi₂)
  exact ⟨h, List.mem_of_getElem? hi, hmap, hpolicies, hcapacities⟩

/-! ## Sample runs -/

/-- A payload for one host. -/
def payloadWith (origin : String) (policy : ℤ) : List DomainEntry :=
  [{ host := "a.test", origin := origin, staleIfErrorSecs := some policy, coalesceCapacity := some policy }]

/-- Two updates arrive; the second takes its other locks before the first takes its own. -/
def overtaking : List Action :=
  [.post (payloadWith "http://old" 1), .post (payloadWith "http://new" 2),
    .lock 1, .lock 1, .finish 1, .lock 0, .lock 0, .finish 0]

/-- Two updates that take their locks in turn. -/
def inTurn : List Action :=
  [.post (payloadWith "http://old" 1), .post (payloadWith "http://new" 2),
    .lock 0, .lock 1, .lock 0, .finish 0, .lock 1, .finish 1]

/-- All handlers have finished, the domain map is the one of the second request, and the
policies and the capacities are those of the first. -/
theorem maps_from_two_updates :
    ∃ s, Trace step Free (State.start fun _ => none) overtaking s ∧ s.handlers ≠ [] ∧
      (∀ h ∈ s.handlers, h.running = false) ∧
      ¬ ∃ h ∈ s.handlers, s.domainMap = updateDomainsHandler h.payload ∧
        s.stalePolicies = stalePoliciesOf h.payload ∧
        s.coalesceCapacities = coalesceCapacitiesOf h.payload := by
  have hrun : (run step (State.start fun _ => none) overtaking).any (fun s =>
      s.handlers.length == 2 && s.handlers.all (fun h => !h.running) &&
        s.handlers.all fun h => (s.domainMap "a.test" != updateDomainsHandler h.payload "a.test") ||
          (s.stalePolicies "a.test" != stalePoliciesOf h.payload "a.test")) = true := by
    decide +kernel
  obtain ⟨s, hs, hrun⟩ := exists_trace_of_run hrun
  simp only [Bool.and_eq_true, beq_iff_eq, List.all_eq_true, Bool.not_eq_true', Bool.or_eq_true,
    bne_iff_ne] at hrun
  obtain ⟨⟨hlength, hdone⟩, hmixed⟩ := hrun
  refine ⟨s, hs, ?_, hdone, ?_⟩
  · rintro hnil
    rw [hnil] at hlength
    cases hlength
  · rintro ⟨h, hmem, hmap, hpolicies, -⟩
    rcases hmixed h hmem with hne | hne
    · exact hne (congrFun hmap "a.test")
    · exact hne (congrFun hpolicies "a.test")

/-- The test of an orderly step. -/
def isOrderly (s : State) : Action → Bool
  | .lock i => (s.handlers[i]?).all fun h =>
      (s.handlers.take i).all fun h' => h.written < h'.written
  | .drop i => (s.handlers[i]?).all fun h => h.written == 3
  | _ => true

/-- The test is sound. -/
lemma orderly_of_test (h : isOrderly s a = true) : Orderly s a := by
  cases a with
  | post domains => trivial
  | finish i => trivial
  | lock i =>
    intro g hi j hj g' hj'
    simp only [isOrderly, hi, Option.all_some, List.all_eq_true, decide_eq_true_eq] at h
    refine h g' (List.mem_of_getElem? (i := j) ?_)
    rwa [List.getElem?_take_of_lt hj]
  | drop i =>
    intro g hi
    simpa only [isOrderly, hi, Option.all_some, beq_iff_eq] using h

/-- The maps after two updates in turn. -/
theorem maps_from_updates_in_turn :
    ∃ s, Trace step Orderly (State.start fun _ => none) inTurn s ∧
      ∃ h ∈ s.handlers, s.domainMap = updateDomainsHandler h.payload ∧
        s.stalePolicies = stalePoliciesOf h.payload ∧
        s.coalesceCapacities = coalesceCapacitiesOf h.payload := by
  have hrun : (checkedRun step isOrderly (State.start fun _ => none) inTurn).any (fun s =>
      s.handlers.length == 2 && s.handlers.all fun h => !h.running) = true := by
    decide +kernel
  obtain ⟨s, hs, hrun⟩ := exists_trace_of_checkedRun (I := fun _ => True)
    (fun _ _ _ _ _ => trivial) (fun _ _ _ htest => orderly_of_test htest) trivial hrun
  simp only [Bool.and_eq_true, beq_iff_eq, List.all_eq_true, Bool.not_eq_true'] at hrun
  have hany : s.handlers ≠ [] := List.length_pos_iff.mp (by omega)
  exact ⟨s, hs, maps_from_one_update (fun _ => none) inTurn s hs hany hrun.2⟩

end SmartSchoolCdn.DomainUpdate
