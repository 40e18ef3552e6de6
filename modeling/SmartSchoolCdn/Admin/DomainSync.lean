import SmartSchoolCdn.Admin.DomainRoutes
import SmartSchoolCdn.Foundation.Trace

/-!
# Agreement of the domain map with the domains table

Every `POST /domains` carries the whole list of enabled domains and no version.  A handler
posts in the step in which it writes, so the message sent last carries the table as it is,
until an undo changes it, and no undo posts again.  The proxy applies messages in the order in
which they arrive.

So once the message sent last is answered, the domain map is the set of enabled rows, if since
it was sent no undo has run and the proxy has applied no other message after it
(`domainMap_agrees`).  Both conditions are needed (`late_message_disagrees`).
-/

namespace SmartSchoolCdn.Admin

open Tables Traces

/-! ## The property -/

/-- The enabled rows of the domains table, from host to origin. -/
def enabledOrigins (db : Database) (host : String) : Option String :=
  ((db.domains.find host).filter fun d => d.enabled = 1).map Domain.origin

/-- No message is in flight. -/
def State.quiet (s : State) : Bool := s.syncs.all fun x => x.delivery ≠ .inFlight

/-- The message sent last was answered. -/
def State.lastAnswered (s : State) : Bool := s.syncs.getLast?.any fun x => x.call = .answered

/-- The domain map of the proxy is the set of enabled rows. -/
def State.agrees (s : State) : Prop := s.domainMap = enabledOrigins s.db

/-! ## The condition -/

/-- A step that sends a message. -/
def State.sends (s : State) (a : Action) : Bool :=
  (step s a).any fun s' => s.syncs.length < s'.syncs.length

/-- A step that undoes the writes of a request. -/
def State.undoes (s : State) : Action → Bool
  | .resume rid =>
    match s.tasks[rid]? with
    | some ⟨_, .syncing message undo⟩ =>
      match s.syncs[message]? with
      | some ⟨_, _, .failed⟩ => undo ≠ .keep
      | _ => false
    | _ => false
  | _ => false

/-- A step that applies a message although the one sent last has been applied. -/
def State.appliesLate (s : State) : Action → Bool
  | .deliver _ => s.syncs.getLast?.any fun x => x.delivery = .applied
  | _ => false

/-- Nothing is sent, undone or applied late. -/
def State.settling (s : State) (a : Action) : Bool :=
  !s.sends a && !s.undoes a && !s.appliesLate a

/-- The side condition of a run. -/
def Settling (s : State) (a : Action) : Prop := s.settling a = true

/-! ## The map a message makes -/

/-- Inserting entries with distinct keys one by one. -/
lemma foldl_insert {entries : List DomainEntry} (hnodup : (entries.map DomainEntry.host).Nodup)
    (henabled : ∀ e ∈ entries, e.enabled = 1) (map : String → Option String) (host : String) :
    entries.foldl insertEntry map host =
      ((entries.find? fun e => e.host = host).map DomainEntry.origin).or (map host) := by
  induction entries generalizing map with
  | nil => rfl
  | cons e entries ih =>
    rw [List.map_cons, List.nodup_cons] at hnodup
    rw [List.foldl_cons, insertEntry, if_pos (henabled e List.mem_cons_self),
      ih hnodup.2 fun e' he' => henabled e' (List.mem_cons_of_mem _ he')]
    by_cases hhost : e.host = host
    · have hnone : entries.find? (fun e' => e'.host = host) = none := by
        rw [List.find?_eq_none]
        intro e' he' heq
        have hmem : e.host ∈ entries.map DomainEntry.host :=
          List.mem_map.mpr ⟨e', he', (of_decide_eq_true heq).trans hhost.symm⟩
        exact hnodup.1 hmem
      have hfind : (e :: entries).find? (fun e' => e'.host = host) = some e :=
        List.find?_cons_of_pos (decide_eq_true hhost)
      rw [hnone, hfind, ← hhost]
      simp
    · have hfind : (e :: entries).find? (fun e' => e'.host = host) =
          entries.find? fun e' => e'.host = host := List.find?_cons_of_neg (by simpa using hhost)
      rw [hfind, Function.update_of_ne (Ne.symm hhost)]

/-- The enabled rows, as a table. -/
def enabledTable (db : Database) : Table Domain.host where
  rows := db.enabledDomains
  keys_nodup := by
    have hperm : (db.enabledDomains.map Domain.host).Perm
        ((db.domains.rows.filter fun d => d.enabled = 1).map Domain.host) :=
      (List.perm_insertionSort _ _).map _
    rw [hperm.nodup_iff]
    exact db.domains.keys_nodup.sublist (List.filter_sublist.map _)

/-- The enabled rows are the rows that are enabled. -/
lemma find_enabledTable (db : Database) (host : String) :
    (enabledTable db).find host = (db.domains.find host).filter fun d => d.enabled = 1 := by
  ext d
  rw [Option.filter_eq_some_iff, Table.find_eq_some_iff,
    Table.find_eq_some_iff]
  have hmem : d ∈ (enabledTable db).rows ↔ d ∈ db.domains.rows ∧ d.enabled = 1 := by
    change d ∈ db.enabledDomains ↔ _
    rw [Database.enabledDomains, List.mem_insertionSort, List.mem_filter, decide_eq_true_eq]
  rw [hmem, decide_eq_true_eq]
  constructor
  · rintro ⟨⟨hrow, henabled⟩, hhost⟩
    exact ⟨⟨hrow, hhost⟩, henabled⟩
  · rintro ⟨⟨hrow, hhost⟩, henabled⟩
    exact ⟨⟨hrow, henabled⟩, hhost⟩

/-- The handler of the proxy makes the enabled rows of what is sent. -/
theorem updateDomainsHandler_enabledDomains (db : Database) :
    updateDomainsHandler (db.enabledDomains.map entryOf) = enabledOrigins db := by
  funext host
  have hnodup : ((db.enabledDomains.map entryOf).map DomainEntry.host).Nodup := by
    rw [List.map_map]
    exact (enabledTable db).keys_nodup
  have henabled : ∀ e ∈ db.enabledDomains.map entryOf, e.enabled = 1 := by
    intro e he
    obtain ⟨d, -, rfl⟩ := List.mem_map.mp he
    rfl
  have hfind : (db.enabledDomains.map entryOf).find? (fun e => e.host = host) =
      ((enabledTable db).find host).map entryOf := by
    rw [List.find?_map]
    rfl
  rw [updateDomainsHandler, foldl_insert hnodup henabled, hfind, find_enabledTable, enabledOrigins,
    Option.or_none, Option.map_map]
  rfl

/-! ## Messages along a run -/

variable {s s' : State} {a : Action}

/-- A call is answered only when its message was applied. -/
def AnsweredApplied (s : State) : Prop :=
  ∀ x ∈ s.syncs, x.call = .answered → x.delivery = .applied

/-- A message moves on: only an applied one is answered, and an applied one is not lost. -/
lemma answeredApplied_set {message : ℕ} {x : Sync} (h : AnsweredApplied s)
    (hx : x.call = .answered → x.delivery = .applied) (hsyncs : s'.syncs = s.syncs.set message x) :
    AnsweredApplied s' := by
  intro y hy hanswered
  rw [hsyncs] at hy
  rcases List.mem_or_eq_of_mem_set hy with hmem | rfl
  · exact h y hmem hanswered
  · exact hx hanswered

/-- A message that is sent has not been answered. -/
lemma answeredApplied_send {x : Sync} (h : AnsweredApplied s) (hx : x.call = .waiting)
    (hsyncs : s'.syncs = s.syncs ++ [x]) : AnsweredApplied s' := by
  intro y hy hanswered
  rw [hsyncs] at hy
  rcases List.mem_append.mp hy with hmem | hmem
  · exact h y hmem hanswered
  · obtain rfl := List.mem_singleton.mp hmem
    rw [hx] at hanswered
    cases hanswered

lemma syncs_write (s : State) (rid : ℕ) (writes : List Statement) :
    (s.write rid writes).syncs = s.syncs := by
  unfold State.write
  split <;> rfl

lemma domainMap_write (s : State) (rid : ℕ) (writes : List Statement) :
    (s.write rid writes).domainMap = s.domainMap := by
  unfold State.write
  split <;> rfl

/-- What a step does to the messages and to the domain map. -/
inductive Messages (s : State) (a : Action) (s' : State) : Prop
  | sent : s'.syncs = s.syncs ++ [⟨s'.db.enabledDomains.map entryOf, .inFlight, .waiting⟩] →
      Messages s a s'
  | still : s'.syncs = s.syncs → s'.domainMap = s.domainMap → Messages s a s'
  | delivered {message : ℕ} {domains : List DomainEntry} {call : Call} : a = .deliver message →
      s.syncs[message]? = some ⟨domains, .inFlight, call⟩ →
      s'.syncs = s.syncs.set message ⟨domains, .applied, call⟩ →
      s'.domainMap = updateDomainsHandler domains → s'.db = s.db → Messages s a s'
  | moved {message : ℕ} {x x' : Sync} : s.syncs[message]? = some x →
      s'.syncs = s.syncs.set message x' → x'.domains = x.domains →
      (x'.delivery = .applied → x.delivery = .applied) →
      ((x.call = .answered → x.delivery = .applied) → x'.call = .answered → x'.delivery = .applied) →
      s'.domainMap = s.domainMap → s'.db = s.db → Messages s a s'

/-- A step sends one message, lets one move on, or leaves them all alone. -/
lemma Step.messages (hst : Step s a s') : Messages s a s' := by
  cases hst with
  | begun hr hnone => exact .sent rfl
  | kept hr =>
    refine .sent ?_
    rw [← syncs_write s]
    rfl
  | restorable hr hlock hfind hrestores => exact .sent rfl
  | monitor => exact .sent rfl
  | proceeded ht hphase hphase' hrows => exact .still (syncs_write s _ _) (domainMap_write s _ _)
  | deliver hm => exact .delivered rfl hm rfl rfl rfl
  | lose hm =>
    -- a message in flight has not been answered
    refine .moved hm rfl rfl (fun happlied => by cases happlied) (fun hx hanswered => ?_) rfl rfl
    cases hx hanswered
  | answer hm => exact .moved hm rfl rfl (fun _ => rfl) (fun _ _ => rfl) rfl rfl
  | giveUp hm =>
    refine .moved hm rfl rfl (fun happlied => happlied) (fun _ hanswered => ?_) rfl rfl
    cases hanswered
  | _ => exact .still rfl rfl

/-- In every step only applied messages are answered. -/
lemma AnsweredApplied.step (h : AnsweredApplied s) (hst : Step s a s') : AnsweredApplied s' := by
  cases hst.messages with
  | sent hsyncs => exact answeredApplied_send h rfl hsyncs
  | still hsyncs _ =>
    intro x hx
    rw [hsyncs] at hx
    exact h x hx
  | delivered _ hm hsyncs => exact answeredApplied_set h (fun _ => rfl) hsyncs
  | moved hm hsyncs _ _ hcall => exact answeredApplied_set h (hcall (h _ (List.mem_of_getElem? hm))) hsyncs

/-- Statements that can change no row of `domains` keep the table. -/
lemma domains_write {rid : ℕ} {writes : List Statement} (h : ∀ w ∈ writes, w.hosts = []) :
    (s.write rid writes).db.domains = s.db.domains := by
  unfold State.write
  split
  · rfl
  · exact Journals.execAll_keeps (g := fun d : Database => d.domains)
      (fun w hw d => domains_exec (h w hw)) s.db

/-- The last message carries the enabled rows, and once it is applied it has made the map. -/
structure Current (s : State) (x : Sync) : Prop where
  last : s.syncs.getLast? = some x
  domains : x.domains = s.db.enabledDomains.map entryOf
  applied : x.delivery = .applied → s.domainMap = updateDomainsHandler x.domains

/-- A message that is sent carries the enabled rows. -/
lemma current_of_send (h : s.sends a = true) (hst : Step s a s') (hstep : step s a = some s') :
    ∃ x, Current s' x := by
  have hsent : s.syncs.length < s'.syncs.length := by simpa [State.sends, hstep] using h
  cases hst.messages with
  | sent hsyncs =>
    refine ⟨⟨s'.db.enabledDomains.map entryOf, .inFlight, .waiting⟩, ?_, rfl, ?_⟩
    · rw [hsyncs]
      exact List.getLast?_concat
    · intro happlied
      cases happlied
  | still hsyncs _ =>
    rw [hsyncs] at hsent
    omega
  | delivered _ _ hsyncs =>
    rw [hsyncs, List.length_set] at hsent
    omega
  | moved _ hsyncs =>
    rw [hsyncs, List.length_set] at hsent
    omega

/-- A step that neither sends nor undoes keeps the domains table. -/
lemma domains_of_settling (hundoes : s.undoes a = false) (hst : Step s a s')
    (hsame : s'.syncs.length = s.syncs.length) : s'.db.domains = s.db.domains := by
  have sent : ∀ {r : State} {x : Sync}, r.syncs.length = s.syncs.length →
      (r.syncs ++ [x]).length = s.syncs.length → False := by
    intro r x hr hx
    rw [List.length_append, hr, List.length_singleton] at hx
    omega
  cases hst with
  | begun hr hnone => exact (sent (r := s) rfl hsame).elim
  | kept hr =>
    refine (sent (r := State.write s _ _) ?_ hsame).elim
    rw [syncs_write]
  | restorable hr hlock hfind hrestores => exact (sent (r := s) rfl hsame).elim
  | written hr =>
    rename_i writer
    have hrows : (writer.statement s.now).hosts = [] := by cases writer <;> rfl
    exact domains_exec hrows
  | rolledBack ht hm _ => simp [State.undoes, ht, hm] at hundoes
  | restored ht hm _ => simp [State.undoes, ht, hm] at hundoes
  | proceeded ht hphase hphase' hrows => exact domains_write hrows
  | monitor => exact (sent (r := s) rfl hsame).elim
  | _ => rfl

/-- The last message and the map stay as they are when no message moves. -/
lemma Current.congr {x : Sync} (h : Current s x) (hsyncs : s'.syncs = s.syncs)
    (hmap : s'.domainMap = s.domainMap) (hdomains : s'.db.domains = s.db.domains) : Current s' x where
  last := by rw [hsyncs, h.last]
  domains := by
    have hsame : s'.db.enabledDomains = s.db.enabledDomains := by
      rw [Database.enabledDomains, Database.enabledDomains, hdomains]
    rw [hsame, h.domains]
  applied happlied := hmap.trans (h.applied happlied)

/-- A message moves on without being applied. -/
lemma Current.set {x y y' : Sync} {message : ℕ} (h : Current s x) (hy : s.syncs[message]? = some y)
    (hsyncs : s'.syncs = s.syncs.set message y') (hdomains : y'.domains = y.domains)
    (hdelivery : y'.delivery = .applied → y.delivery = .applied)
    (hmap : s'.domainMap = s.domainMap) (hdb : s'.db = s.db) : ∃ x', Current s' x' := by
  have hlast := h.last
  rw [List.getLast?_eq_getElem?] at hlast
  by_cases hm : message = s.syncs.length - 1
  · subst hm
    rw [hy] at hlast
    obtain rfl := Option.some.inj hlast
    refine ⟨y', ?_, ?_, fun happlied => ?_⟩
    · have hlt := (List.getElem?_eq_some_iff.mp hy).choose
      rw [hsyncs, List.getLast?_eq_getElem?, List.length_set, List.getElem?_set_self hlt]
    · rw [hdomains, h.domains, hdb]
    · rw [hmap, hdomains]
      exact h.applied (hdelivery happlied)
  · refine ⟨x, ?_, ?_, fun happlied => ?_⟩
    · rw [hsyncs, List.getLast?_eq_getElem?, List.length_set, List.getElem?_set_ne hm, hlast]
    · rw [h.domains, hdb]
    · rw [hmap]
      exact h.applied happlied

/-- While nothing is sent, undone or applied late, the message sent last stays current. -/
lemma current_of_settling {x : Sync} (h : Current s x) (ha : Settling s a) (hstep : step s a = some s')
    (hst : Step s a s') : ∃ x', Current s' x' := by
  have hsettling : s.sends a = false ∧ s.undoes a = false ∧ s.appliesLate a = false := by
    simpa [Settling, State.settling, and_assoc] using ha
  obtain ⟨hsends, hundoes, hlate⟩ := hsettling
  have hsame : s'.syncs.length ≤ s.syncs.length := by
    simpa [State.sends, hstep] using hsends
  cases hst.messages with
  | sent hsyncs =>
    rw [hsyncs, List.length_append, List.length_singleton] at hsame
    omega
  | still hsyncs hmap =>
    exact ⟨x, h.congr hsyncs hmap (domains_of_settling hundoes hst (by rw [hsyncs]))⟩
  | moved hm hsyncs hdomains hdelivery _ hmap hdb => exact h.set hm hsyncs hdomains hdelivery hmap hdb
  | delivered hdeliver hm hsyncs hmap hdb =>
    rename_i message domains call
    subst hdeliver
    have hnotApplied : x.delivery ≠ .applied := by
      simpa [State.appliesLate, h.last] using hlate
    have hlast := h.last
    rw [List.getLast?_eq_getElem?] at hlast
    by_cases hnewest : message = s.syncs.length - 1
    · subst hnewest
      rw [hm] at hlast
      obtain rfl := Option.some.inj hlast
      refine ⟨⟨domains, .applied, call⟩, ?_, hdb ▸ h.domains, fun _ => hmap⟩
      have hlt := (List.getElem?_eq_some_iff.mp hm).choose
      rw [hsyncs, List.getLast?_eq_getElem?, List.length_set, List.getElem?_set_self hlt]
    · refine ⟨x, ?_, hdb ▸ h.domains, fun happlied => absurd happlied hnotApplied⟩
      rw [hsyncs, List.getLast?_eq_getElem?, List.length_set, List.getElem?_set_ne hnewest, hlast]

/-- Once the message sent last is answered, the domain map is the set of enabled rows, if since
it was sent no undo has run and no message was applied after it. -/
theorem domainMap_agrees {db : Database} {domainMap : String → Option String} {as bs : List Action}
    {s₁ s₂ t : State} {a : Action} (hbefore : Trace step Free (State.initial db domainMap) as s₁)
    (hsends : s₁.sends a = true) (hsend : step s₁ a = some s₂) (hafter : Trace step Settling s₂ bs t)
    (hanswered : t.lastAnswered = true) : t.agrees := by
  have hinitial : AnsweredApplied (State.initial db domainMap) := by
    intro x hx
    cases hx
  have hrun : Trace step Free (State.initial db domainMap) (as ++ a :: bs) t :=
    hbefore.append (Trace.cons trivial hsend hafter.free)
  have hanswers : AnsweredApplied t :=
    hrun.invariant (fun s a s' hs _ hst => hs.step (step_cases hst)) hinitial
  have hcurrent : ∃ x, Current t x := by
    refine hafter.invariant (I := fun s => ∃ x, Current s x) ?_
      (current_of_send hsends (step_cases hsend) hsend)
    rintro s a s' ⟨x, hx⟩ ha hst
    exact current_of_settling hx ha hst (step_cases hst)
  obtain ⟨x, hx⟩ := hcurrent
  have hcall : x.call = .answered := by
    simpa [State.lastAnswered, hx.last] using hanswered
  have happlied := hanswers x (List.mem_of_getLast? hx.last) hcall
  rw [State.agrees, hx.applied happlied, hx.domains, updateDomainsHandler_enabledDomains]

/-- The health monitor brings a proxy that has started up to date, while events are stored. -/
theorem domainMap_agrees_after_start : ∃ t, t.lastAnswered = true ∧ t.agrees ∧
    Trace step Free (State.initial sampleDatabase fun _ => none)
      [.monitor, .receive (.write (.events [])), .deliver 0, .start 0, .answer 0] t := by
  have hrun : (checkedRun step State.settling (State.initial sampleDatabase fun _ => none).syncToProxy
      [.receive (.write (.events [])), .deliver 0, .start 0, .answer 0]).any State.lastAnswered = true := by
    decide +kernel
  obtain ⟨t, ht, hanswered⟩ := exists_trace_of_checkedRun (I := fun _ => True)
    (fun _ _ _ _ _ => trivial) (fun _ _ _ h => h) trivial hrun
  have hagrees : t.agrees :=
    domainMap_agrees (Trace.nil _) (a := .monitor) (by decide +kernel) rfl ht hanswered
  exact ⟨t, hanswered, hagrees, Trace.cons trivial rfl ht.free⟩

/-- A re-sync of the health monitor arrives after the sync of a registration. -/
def lateMessage : List Action :=
  [.monitor, .receive (.create "lab.example" "https://lab.example"), .start 0, .deliver 1,
    .answer 1, .resume 0, .proceed 0, .proceed 0, .deliver 0]

/-- The call of a `PUT` fails after its message was applied, and the row is written back after a
later message was answered. -/
def undoneUpdate : List Action :=
  [.receive (.update "school.example" { origin := some "https://new.example" }), .start 0, .monitor,
    .deliver 0, .deliver 1, .answer 1, .giveUp 0, .resume 0]

/-- A late message, and an undo after a later message, each leave the proxy with a map that is
not the set of enabled rows, although the message sent last was answered. -/
theorem late_message_disagrees :
    (∃ t, Trace step Free (State.initial sampleDatabase fun _ => none) lateMessage t ∧
      t.idle = true ∧ t.quiet = true ∧ t.lastAnswered = true ∧ ¬ t.agrees) ∧
    ∃ t, Trace step Free (State.initial sampleDatabase fun _ => none) undoneUpdate t ∧
      t.idle = true ∧ t.quiet = true ∧ t.lastAnswered = true ∧ ¬ t.agrees := by
  constructor
  · have hrun : (run step (State.initial sampleDatabase fun _ => none) lateMessage).any
        (fun t => t.idle && t.quiet && t.lastAnswered &&
          !(t.domainMap "lab.example" = enabledOrigins t.db "lab.example")) = true := by
      decide +kernel
    obtain ⟨t, ht, hp⟩ := exists_trace_of_run hrun
    simp only [Bool.and_eq_true, Bool.not_eq_true', decide_eq_false_iff_not] at hp
    obtain ⟨⟨⟨hidle, hquiet⟩, hanswered⟩, hdiff⟩ := hp
    exact ⟨t, ht, hidle, hquiet, hanswered, fun h => hdiff (congrFun h "lab.example")⟩
  · have hrun : (run step (State.initial sampleDatabase fun _ => none) undoneUpdate).any
        (fun t => t.idle && t.quiet && t.lastAnswered &&
          !(t.domainMap "school.example" = enabledOrigins t.db "school.example")) = true := by
      decide +kernel
    obtain ⟨t, ht, hp⟩ := exists_trace_of_run hrun
    simp only [Bool.and_eq_true, Bool.not_eq_true', decide_eq_false_iff_not] at hp
    obtain ⟨⟨⟨hidle, hquiet⟩, hanswered⟩, hdiff⟩ := hp
    exact ⟨t, ht, hidle, hquiet, hanswered, fun h => hdiff (congrFun h "school.example")⟩

end SmartSchoolCdn.Admin
