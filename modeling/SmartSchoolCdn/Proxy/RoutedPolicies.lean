import SmartSchoolCdn.Admin.DomainPurge
import SmartSchoolCdn.Proxy.DomainUpdate

/-!
# The policies of a routed host

The lookup of `proxy_handler` in the domain map falls back to the wildcard entry of the parent domain;
the lookups of the stale-if-error window and of the coalescing capacity do not.  They read what the
payload gives last under the host's own name, whether that entry is enabled or not.  So the policies
used for a request are those of the entry that routes it exactly when this entry says the
same (`policies_follow_routing_iff`).
-/

namespace SmartSchoolCdn.DomainUpdate

open Admin Traces

variable {domains : List DomainEntry} {host name : String} {entry : DomainEntry}

/-! ## The maps of a payload, entry by entry -/

/-- The last value that the entries of a payload with a name give. -/
def lastGiven {β : Type} (value : DomainEntry → Option β) (domains : List DomainEntry)
    (name : String) : Option β :=
  (domains.filterMap fun e => if e.host = name then value e else none).getLast?

/-- A coalescing capacity is at least one. -/
def capacityOf (entry : DomainEntry) : Option ℤ := entry.coalesceCapacity.filter (1 ≤ ·)

/-- An enabled entry. -/
def enabledEntry (entry : DomainEntry) : Option DomainEntry :=
  if entry.enabled = 1 then some entry else none

/-- A loop that inserts the values of the entries under their names. -/
lemma foldl_eq_lastGiven {β : Type}
    {insert : (String → Option β) → DomainEntry → String → Option β} {value : DomainEntry → Option β}
    (h : ∀ map e name, insert map e name = (if e.host = name then value e else none).or (map name))
    (domains : List DomainEntry) (name : String) :
    domains.foldl insert (fun _ => none) name = lastGiven value domains name := by
  rw [FiniteMaps.foldl_eq_getLast? fun map e => h map e name, Option.or_none]
  rfl

/-- An insertion under the name of an entry. -/
lemma update_host_apply {β : Type} (map : String → Option β) (e : DomainEntry) (v : β)
    (name : String) :
    Function.update map e.host (some v) name =
      (if e.host = name then some v else none).or (map name) := by
  by_cases hname : e.host = name
  · simp [← hname]
  · simp [hname, Function.update_of_ne (Ne.symm hname)]

/-- The stale-if-error policies. -/
lemma stalePoliciesOf_eq (domains : List DomainEntry) (name : String) :
    stalePoliciesOf domains name = lastGiven DomainEntry.staleIfErrorSecs domains name := by
  refine foldl_eq_lastGiven (fun map e name => ?_) domains name
  unfold insertStalePolicy
  cases hvalue : e.staleIfErrorSecs with
  | none => simp
  | some v => exact update_host_apply map e v name

/-- The coalescing capacities. -/
lemma coalesceCapacitiesOf_eq (domains : List DomainEntry) (name : String) :
    coalesceCapacitiesOf domains name = lastGiven capacityOf domains name := by
  refine foldl_eq_lastGiven (fun map e name => ?_) domains name
  unfold insertCoalesceCapacity capacityOf
  cases hvalue : e.coalesceCapacity.filter (1 ≤ ·) with
  | none => simp
  | some v => exact update_host_apply map e v name

/-- A value that is computed from another one. -/
lemma lastGiven_map {β γ : Type} (value : DomainEntry → Option β) (f : β → γ)
    (domains : List DomainEntry) (name : String) :
    lastGiven (fun e => (value e).map f) domains name = (lastGiven value domains name).map f := by
  unfold lastGiven
  rw [← List.getLast?_map, List.map_filterMap]
  congr 2
  funext e
  split <;> rfl

/-- The domain map has the origin of the last enabled entry. -/
lemma updateDomainsHandler_eq (domains : List DomainEntry) (name : String) :
    updateDomainsHandler domains name =
      (lastGiven enabledEntry domains name).map DomainEntry.origin := by
  rw [← lastGiven_map]
  refine foldl_eq_lastGiven (fun map e name => ?_) domains name
  unfold insertEntry enabledEntry
  split
  · exact update_host_apply map e e.origin name
  · simp

/-! ## Routing and policies -/

/-- The entry of the payload that routes a host. -/
def routedBy (domains : List DomainEntry) (host : String) : Option DomainEntry :=
  (routingEntry (updateDomainsHandler domains) host).bind (lastGiven enabledEntry domains)

/-- The lookup of `proxy_handler` finds the origin of this entry. -/
theorem findOrigin_updateDomainsHandler (domains : List DomainEntry) (host : String) :
    findOrigin (updateDomainsHandler domains) host = (routedBy domains host).map DomainEntry.origin := by
  rw [findOrigin_eq, routedBy, Option.map_bind]
  congr 1
  funext name
  exact updateDomainsHandler_eq domains name

/-- `stale_if_error_window_for_host`. -/
def staleIfErrorWindowForHost (policies : String → Option ℤ) (global : ℤ) (host : String) : ℤ :=
  (policies host).getD global

/-- The window of `try_serve_stale` in a run of the proxy. -/
lemma staleWindow_eq (cfg : Config) (s : SmartSchoolCdn.State) (host : String) :
    s.staleWindow cfg host =
      staleIfErrorWindowForHost s.stalePolicies cfg.staleIfErrorWindow host := rfl

/-- `coalesce_capacity_for_host`. -/
def coalesceCapacityForHost (capacities : String → Option ℤ) (global : ℤ) (host : String) : ℤ :=
  (capacities host).getD global

/-- The policies used for a host are those of the entry that routes it, or the global ones where it has
none. -/
structure PoliciesFollowRouting (domains : List DomainEntry) (host : String) : Prop where
  window : ∀ entry, routedBy domains host = some entry → ∀ global,
    staleIfErrorWindowForHost (stalePoliciesOf domains) global host =
      entry.staleIfErrorSecs.getD global
  capacity : ∀ entry, routedBy domains host = some entry → ∀ global,
    coalesceCapacityForHost (coalesceCapacitiesOf domains) global host =
      (capacityOf entry).getD global

/-- Values that agree for every fallback are given alike. -/
lemma getD_eq_iff {o o' : Option ℤ} : (∀ global, o.getD global = o'.getD global) ↔ o = o' := by
  constructor
  · intro h
    cases o with
    | none =>
      cases o' with
      | none => rfl
      | some v =>
        have hv := h (v + 1)
        simp only [Option.getD_none, Option.getD_some] at hv
        omega
    | some v =>
      cases o' with
      | none =>
        have hv := h (v + 1)
        simp only [Option.getD_none, Option.getD_some] at hv
        omega
      | some v' => exact congrArg some (h 0)
  · rintro rfl global
    rfl

/-- After a payload, the policies used for a host are those of the entry that routes it if and only if
the last values that the payload gives under the host's own name are the values of that entry. -/
theorem policies_follow_routing_iff (domains : List DomainEntry) (host : String) :
    PoliciesFollowRouting domains host ↔
      ∀ entry, routedBy domains host = some entry →
        lastGiven DomainEntry.staleIfErrorSecs domains host = entry.staleIfErrorSecs ∧
          lastGiven capacityOf domains host = capacityOf entry := by
  constructor
  · rintro ⟨hwindow, hcapacity⟩ entry hrouted
    rw [← stalePoliciesOf_eq, ← coalesceCapacitiesOf_eq]
    exact ⟨getD_eq_iff.mp (hwindow entry hrouted), getD_eq_iff.mp (hcapacity entry hrouted)⟩
  · intro h
    constructor
    · intro entry hrouted global
      rw [staleIfErrorWindowForHost, stalePoliciesOf_eq, (h entry hrouted).1]
    · intro entry hrouted global
      rw [coalesceCapacityForHost, coalesceCapacitiesOf_eq, (h entry hrouted).2]

/-- In a state with the policies of the payload, `try_serve_stale` decides with the window of the
entry that routes the host. -/
theorem staleWindow_of_follows {s : SmartSchoolCdn.State} (cfg : Config)
    (h : PoliciesFollowRouting domains host) (hs : s.stalePolicies = stalePoliciesOf domains)
    (hrouted : routedBy domains host = some entry) :
    s.staleWindow cfg host = entry.staleIfErrorSecs.getD cfg.staleIfErrorWindow := by
  rw [staleWindow_eq, hs]
  exact h.window entry hrouted cfg.staleIfErrorWindow

/-- A host without an entry of its own: the entry that routes it must have no policies. -/
theorem policies_follow_routing_wildcard_iff (hown : ∀ e ∈ domains, e.host ≠ host)
    (hrouted : routedBy domains host = some entry) :
    PoliciesFollowRouting domains host ↔ entry.staleIfErrorSecs = none ∧ capacityOf entry = none := by
  have hnone : ∀ value : DomainEntry → Option ℤ, lastGiven value domains host = none := by
    intro value
    have hgiven : (domains.filterMap fun e => if e.host = host then value e else none) = [] := by
      refine List.filterMap_eq_nil_iff.mpr fun e he => ?_
      rw [if_neg (hown e he)]
    rw [lastGiven, hgiven, List.getLast?_nil]
  rw [policies_follow_routing_iff]
  simp only [hnone]
  constructor
  · intro h
    obtain ⟨hwindow, hcapacity⟩ := h entry hrouted
    exact ⟨hwindow.symm, hcapacity.symm⟩
  · rintro ⟨hwindow, hcapacity⟩ e he
    obtain rfl := Option.some.inj (hrouted.symm.trans he)
    exact ⟨hwindow.symm, hcapacity.symm⟩

/-- A wildcard entry with both policies. -/
def wildcardPayload : List DomainEntry :=
  [{ host := "*.example.com", origin := "http://origin", staleIfErrorSecs := some 3600,
     coalesceCapacity := some 64 }]

/-- A host that the wildcard entry routes gets the global policies. -/
theorem wildcard_policies_unused :
    routedBy wildcardPayload "img.example.com" = wildcardPayload.head? ∧
      staleIfErrorWindowForHost (stalePoliciesOf wildcardPayload) 0 "img.example.com" = 0 ∧
      coalesceCapacityForHost (coalesceCapacitiesOf wildcardPayload) 1024 "img.example.com" = 1024 ∧
      ¬ PoliciesFollowRouting wildcardPayload "img.example.com" := by
  have hrouted : routedBy wildcardPayload "img.example.com" = wildcardPayload.head? := by decide +kernel
  refine ⟨hrouted, by decide +kernel, by decide +kernel, fun h => ?_⟩
  have hwindow := h.window _ hrouted 0
  exact absurd hwindow (by decide +kernel)

/-! ## The handler -/

/-- A running handler that takes its next lock. -/
lemma step_lock {s u : State} {i : ℕ} {h : Handler} (hi : s.handlers[i]? = some h)
    (hrunning : h.running = true) (hu : s.replace h.written h.payload = some u) :
    step s (.lock i) = some
      { u with
        handlers := s.handlers.set i { h with written := h.written + 1 }
        holder := Function.update s.holder h.written (some i) } := by
  simp only [step, hi, Option.filter, hrunning, if_true, Option.bind_some, hu, Option.map_some]

/-- A handler that runs alone leaves the maps of its payload. -/
theorem update_alone (s : State) (domains : List DomainEntry) :
    ∃ t, Trace step Free s
        [.post domains, .lock s.handlers.length, .lock s.handlers.length] t ∧
      ∀ r, t.Derived r domains := by
  let posted : Handler := { payload := domains, written := 1, running := true }
  have hpost : ∀ u : State, u.handlers = s.handlers ++ [posted] →
      u.handlers[s.handlers.length]? = some posted := by
    intro u hu
    rw [hu, List.getElem?_concat_length]
  have hlock : ∀ u : State, u.handlers = (s.handlers ++ [posted]).set s.handlers.length
      { posted with written := 2 } → u.handlers[s.handlers.length]? =
        some { posted with written := 2 } := by
    intro u hu
    rw [hu, List.getElem?_set_self (by simp)]
  refine ⟨_, .cons trivial rfl (.cons trivial (step_lock (hpost _ rfl) rfl rfl)
    (.cons trivial (step_lock (hlock _ rfl) rfl rfl) (.nil _))), ?_⟩
  intro r
  match r with
  | 0 => exact rfl
  | 1 => exact rfl
  | _ + 2 => exact rfl

end SmartSchoolCdn.DomainUpdate
