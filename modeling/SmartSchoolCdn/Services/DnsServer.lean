import SmartSchoolCdn.Foundation.Totals
import SmartSchoolCdn.Foundation.Trace
import SmartSchoolCdn.Http
import SmartSchoolCdn.Services.Dns

/-!
# The DNS server

The receive loop of `dns-service` starts a task for every datagram.  A task decodes it, answers a
query of type `A` for a registered name itself, forwards every other one over a socket of its own,
and logs how the query has ended: three counters and a ring of the last queries.

The tasks take their steps in any order, and anybody may send datagrams to the socket of a task
that forwards.  The DNS library, which decodes queries and encodes answers, is a parameter.  The
ghosts keep what has been logged and what has been relayed, the last one first.
-/

namespace SmartSchoolCdn.Dns

open Tables Traces

/-! ## Messages -/

/-- The address of a socket. -/
structure SocketAddr where
  ip : String
  port : ℕ
  deriving DecidableEq, Repr

/-- A question, its name and type as they are written for the log. -/
structure Question where
  name : String
  queryType : String
  deriving DecidableEq, Repr

/-- What is read of a query. -/
structure Message where
  id : UInt16
  recursionDesired : Bool
  queries : List Question
  deriving DecidableEq, Repr

/-- An answer: a response without error, authoritative and with recursion available, with one
record of type `A`. -/
structure Response where
  id : UInt16
  recursionDesired : Bool
  queries : List Question
  recordName : String
  ttl : ℕ
  ip : String
  deriving DecidableEq, Repr

/-- `build_a_response`. -/
def buildAResponse (query : Message) (name cdnIp : String) : Response :=
  ⟨query.id, query.recursionDesired, query.queries, name, 300, cdnIp⟩

/-- The DNS library: `Message::read`, and `emit`; `none` is an error. -/
structure Library where
  read : Bytes → Option Message
  emit : Response → Option Bytes

/-! ## Metrics -/

/-- `QueryEntry`. -/
structure QueryEntry where
  tsUnixMs : ℤ
  clientIp : String
  qname : String
  qtype : String
  result : QueryResult
  latencyUs : ℕ
  deriving DecidableEq, Repr

/-- The counters of `DnsMetrics`, which wrap around. -/
structure DnsMetrics where
  total : UInt64
  matched : UInt64
  nxdomain : UInt64
  forwarded : UInt64
  deriving DecidableEq, Repr

namespace DnsMetrics

/-- `new`. -/
def zero : DnsMetrics := ⟨0, 0, 0, 0⟩

/-- The first half of `record`. -/
def countTotal (m : DnsMetrics) : DnsMetrics := { m with total := m.total + 1 }

/-- The second half of `record`. -/
def countResult (m : DnsMetrics) : QueryResult → DnsMetrics
  | .matched => { m with matched := m.matched + 1 }
  | .nxdomain => { m with nxdomain := m.nxdomain + 1 }
  | .forwarded => { m with forwarded := m.forwarded + 1 }

/-- The counter of a result. -/
def counter (m : DnsMetrics) : QueryResult → UInt64
  | .matched => m.matched
  | .nxdomain => m.nxdomain
  | .forwarded => m.forwarded

end DnsMetrics

/-- `RecentQueries::push`: the front of the ring is the head of the list. -/
def pushRecent {α : Type} (cap : ℕ) (recent : List α) (entry : α) : List α :=
  entry :: if recent.length = cap then recent.dropLast else recent

/-! ## Tasks -/

/-- What a datagram that has reached the socket of a task carries. -/
structure Datagram where
  source : SocketAddr
  bytes : Bytes
  deriving DecidableEq, Repr

/-- Where a task is in `handle_dns_query`.  `isA` is whether the query is of type `A`, `queue` what
the socket of the task has received. -/
inductive Phase
  | received
  | lookup (query : Message) (q : Question)
  | answer (query : Message) (q : Question)
  | bind (isA : Bool)
  | bound (isA : Bool) (queue : List Datagram)
  | waiting (isA : Bool) (queue : List Datagram)
  | log (result : QueryResult)
  | totalCounted (result : QueryResult)
  | counted (result : QueryResult)
  | done (entry : QueryEntry)
  deriving DecidableEq, Repr

/-- A task: the client and its datagram, the time, what it is going to log, and where it is. -/
structure Task where
  src : SocketAddr
  buf : Bytes
  tsMs : ℤ
  qname : String
  qtype : String
  phase : Phase
  deriving DecidableEq, Repr

/-- What the forwarder has sent to a client: the query, and the datagram of the reply. -/
structure Relayed where
  client : SocketAddr
  query : Bytes
  source : SocketAddr
  reply : Bytes
  deriving DecidableEq, Repr

/-- The addresses, the capacity of the ring, and the DNS library. -/
structure Config where
  cdnIp : String
  upstream : SocketAddr
  cap : ℕ
  library : Library

/-- The state that the tasks share, and the tasks, in the order of their datagrams. -/
structure Server where
  map : String → Option String
  metrics : DnsMetrics
  recent : List QueryEntry
  tasks : List Task
  logged : List QueryEntry
  relayed : List Relayed

/-- The server before the first datagram. -/
def Server.start (map : String → Option String) : Server := ⟨map, .zero, [], [], [], []⟩

/-- The steps of a task, with what its environment decides: whether a system call succeeds, what
arrives at its socket, and how long it has taken. -/
inductive TaskAction
  | decode
  | lookup
  | answer (sent : Bool)
  | bind (ok : Bool)
  | send (ok : Bool)
  | arrive (datagram : Datagram)
  | relay (sent : Bool)
  | giveUp
  | countTotal
  | countResult
  | push (elapsedUs : ℕ)
  deriving DecidableEq, Repr

/-- A datagram is received from a client, a task takes a step, or the domain map is replaced. -/
inductive Action
  | receive (src : SocketAddr) (buf : Bytes) (tsMs : ℤ)
  | task (i : ℕ) (a : TaskAction)
  | syncDomains (domains : List (String × String))
  deriving DecidableEq, Repr

/-- The task of a new datagram, of which the buffer holds 512 bytes. -/
def Task.new (src : SocketAddr) (buf : Bytes) (tsMs : ℤ) : Task :=
  ⟨src, buf.take 512, tsMs, "", "?", .received⟩

/-- The datagram of a task. -/
def Task.arrival (t : Task) : SocketAddr × Bytes × ℤ := (t.src, t.buf, t.tsMs)

/-- The datagram that is received. -/
def Action.arrival : Action → Option (SocketAddr × Bytes × ℤ)
  | .receive src buf tsMs => some (Task.new src buf tsMs).arrival
  | _ => none

/-- What a task pushes, after a time. -/
def Task.logEntry (t : Task) (result : QueryResult) (elapsedUs : ℕ) : QueryEntry where
  tsUnixMs := t.tsMs
  clientIp := t.src.ip
  qname := trimDots t.qname
  qtype := t.qtype
  result := result
  latencyUs := min elapsedUs (2 ^ 32 - 1)

/-- The log of a forwarded query. -/
def Phase.forwarded (isA ok : Bool) : Phase := .log (classify isA false (some ok))

/-- A decoded query goes to the domain map if its first question is of type `A`, and upstream
otherwise. -/
def Task.decoded (t : Task) (query : Message) : Task :=
  match query.queries.head? with
  | none => { t with phase := .bind false }
  | some q =>
    if q.queryType == "A" then { t with qname := q.name, qtype := q.queryType, phase := .lookup query q }
    else { t with qname := q.name, qtype := q.queryType, phase := .bind false }

/-- What the buffer of the forwarder holds of a datagram. -/
def resp (datagram : Datagram) : Bytes := datagram.bytes.take 4096

namespace Server

variable (s : Server) (cfg : Config)

/-- A task goes on. -/
def proceed (i : ℕ) (t : Task) : Server := { s with tasks := s.tasks.set i t }

/-- The step of a task. -/
def taskStep (i : ℕ) (t : Task) : TaskAction → Option Server
  | .decode =>
    match t.phase with
    | .received =>
      match cfg.library.read t.buf with
      | none => some (s.proceed i { t with phase := .log .nxdomain })
      | some query => some (s.proceed i (t.decoded query))
    | _ => none
  | .lookup =>
    match t.phase with
    | .lookup query q =>
      if isDomainRegistered s.map (trimDots q.name) then
        some (s.proceed i { t with phase := .answer query q })
      else some (s.proceed i { t with phase := .bind true })
    | _ => none
  | .answer sent =>
    match t.phase with
    | .answer query q =>
      if (cfg.library.emit (buildAResponse query q.name cfg.cdnIp)).isSome && sent then
        some (s.proceed i { t with phase := .log (classify true true none) })
      else some (s.proceed i { t with phase := .log .nxdomain })
    | _ => none
  | .bind ok =>
    match t.phase with
    | .bind isA =>
      if ok then some (s.proceed i { t with phase := .bound isA [] })
      else some (s.proceed i { t with phase := .forwarded isA false })
    | _ => none
  | .send ok =>
    match t.phase with
    | .bound isA queue =>
      if ok then some (s.proceed i { t with phase := .waiting isA queue })
      else some (s.proceed i { t with phase := .forwarded isA false })
    | _ => none
  | .arrive datagram =>
    match t.phase with
    | .bound isA queue => some (s.proceed i { t with phase := .bound isA (queue ++ [datagram]) })
    | .waiting isA queue => some (s.proceed i { t with phase := .waiting isA (queue ++ [datagram]) })
    | _ => none
  | .relay sent =>
    match t.phase with
    | .waiting isA (datagram :: _) =>
      -- neither the source nor the ID of the datagram is looked at
      if sent then
        some
          ({ s with
            relayed := ⟨t.src, t.buf, datagram.source, resp datagram⟩ :: s.relayed }.proceed i
              { t with phase := .forwarded isA true })
      else some (s.proceed i { t with phase := .forwarded isA false })
    | _ => none
  | .giveUp =>
    match t.phase with
    | .waiting isA _ => some (s.proceed i { t with phase := .forwarded isA false })
    | _ => none
  | .countTotal =>
    match t.phase with
    | .log result =>
      some ({ s with metrics := s.metrics.countTotal }.proceed i { t with phase := .totalCounted result })
    | _ => none
  | .countResult =>
    match t.phase with
    | .totalCounted result =>
      some
        ({ s with metrics := s.metrics.countResult result }.proceed i { t with phase := .counted result })
    | _ => none
  | .push elapsedUs =>
    match t.phase with
    | .counted result =>
      let entry := t.logEntry result elapsedUs
      some
        ({ s with
          recent := pushRecent cfg.cap s.recent entry
          logged := entry :: s.logged }.proceed i { t with phase := .done entry })
    | _ => none

/-- `RecentQueries::snapshot`. -/
def snapshot (limit : ℕ) : List QueryEntry := s.recent.take limit

end Server

/-- One step. -/
def step (cfg : Config) (s : Server) : Action → Option Server
  | .receive src buf tsMs => some { s with tasks := s.tasks ++ [Task.new src buf tsMs] }
  | .task i a => (s.tasks[i]?).bind fun t => s.taskStep cfg i t a
  | .syncDomains domains => some { s with map := syncDomains domains }

/-! ## What a step does -/

/-- Whether a task has not begun to log yet. -/
def Phase.isOpen : Phase → Bool
  | .log _ | .totalCounted _ | .counted _ | .done _ => false
  | _ => true

/-- What a step of a task can do.  Up to its log it changes nothing that the tasks share, except
that the forwarder relays what its socket has received first. -/
inductive TaskEffect (cfg : Config) (s : Server) (i : ℕ) (t : Task) : TaskAction → Server → Prop
  | work {a : TaskAction} (t' : Task) (ha : a ≠ .relay true) (harrival : t'.arrival = t.arrival)
      (hopen : t.phase.isOpen = true)
      (hlater : t'.phase.isOpen = true ∨ ∃ result, t'.phase = .log result) :
      TaskEffect cfg s i t a (s.proceed i t')
  | relay (isA : Bool) (datagram : Datagram) (queue : List Datagram)
      (hphase : t.phase = .waiting isA (datagram :: queue)) :
      TaskEffect cfg s i t (.relay true)
        ({ s with
          relayed := ⟨t.src, t.buf, datagram.source, resp datagram⟩ :: s.relayed }.proceed i
            { t with phase := .forwarded isA true })
  | countTotal (result : QueryResult) (hphase : t.phase = .log result) :
      TaskEffect cfg s i t .countTotal
        ({ s with metrics := s.metrics.countTotal }.proceed i { t with phase := .totalCounted result })
  | countResult (result : QueryResult) (hphase : t.phase = .totalCounted result) :
      TaskEffect cfg s i t .countResult
        ({ s with metrics := s.metrics.countResult result }.proceed i { t with phase := .counted result })
  | push (elapsedUs : ℕ) (result : QueryResult) (hphase : t.phase = .counted result) :
      TaskEffect cfg s i t (.push elapsedUs)
        ({ s with
          recent := pushRecent cfg.cap s.recent (t.logEntry result elapsedUs)
          logged := t.logEntry result elapsedUs :: s.logged }.proceed i
            { t with phase := .done (t.logEntry result elapsedUs) })

variable {cfg : Config} {s s' : Server} {i : ℕ} {t : Task} {ta : TaskAction} {a : Action}

/-- A task that has not begun to log goes on to a phase, and changes nothing else. -/
lemma effect_of_proceed {phase phase' : Phase} (ha : ta ≠ .relay true) (hphase : t.phase = phase)
    (hopen : phase.isOpen = true)
    (hlater : phase'.isOpen = true ∨ ∃ result, phase' = .log result)
    (h : some (s.proceed i { t with phase := phase' }) = some s') : TaskEffect cfg s i t ta s' := by
  obtain rfl := Option.some.inj h
  refine .work _ ha rfl ?_ hlater
  rw [hphase]
  exact hopen

/-- A decoded query leaves the datagram of its task alone, which has not begun to log. -/
lemma decoded_spec (t : Task) (query : Message) :
    (t.decoded query).arrival = t.arrival ∧ (t.decoded query).phase.isOpen = true := by
  unfold Task.decoded
  split
  · exact ⟨rfl, rfl⟩
  · split
    · exact ⟨rfl, rfl⟩
    · exact ⟨rfl, rfl⟩

/-- Everything that a step of a task can do. -/
theorem taskStep_effect (h : s.taskStep cfg i t ta = some s') : TaskEffect cfg s i t ta s' := by
  cases ta with
  | decode =>
    simp only [Server.taskStep] at h
    split at h
    · rename_i hphase
      split at h
      · exact effect_of_proceed nofun hphase rfl (.inr ⟨_, rfl⟩) h
      · rename_i query hread
        obtain rfl := Option.some.inj h
        obtain ⟨harrival, hopen⟩ := decoded_spec t query
        exact .work _ nofun harrival (by rw [hphase]; rfl) (.inl hopen)
    · cases h
  | lookup =>
    simp only [Server.taskStep] at h
    split at h
    · rename_i hphase
      split at h
      · exact effect_of_proceed nofun hphase rfl (.inl rfl) h
      · exact effect_of_proceed nofun hphase rfl (.inl rfl) h
    · cases h
  | answer sent =>
    simp only [Server.taskStep] at h
    split at h
    · rename_i hphase
      split at h
      · exact effect_of_proceed nofun hphase rfl (.inr ⟨_, rfl⟩) h
      · exact effect_of_proceed nofun hphase rfl (.inr ⟨_, rfl⟩) h
    · cases h
  | bind ok =>
    simp only [Server.taskStep] at h
    split at h
    · rename_i hphase
      split at h
      · exact effect_of_proceed nofun hphase rfl (.inl rfl) h
      · exact effect_of_proceed nofun hphase rfl (.inr ⟨_, rfl⟩) h
    · cases h
  | send ok =>
    simp only [Server.taskStep] at h
    split at h
    · rename_i hphase
      split at h
      · exact effect_of_proceed nofun hphase rfl (.inl rfl) h
      · exact effect_of_proceed nofun hphase rfl (.inr ⟨_, rfl⟩) h
    · cases h
  | arrive datagram =>
    simp only [Server.taskStep] at h
    split at h
    · rename_i hphase
      exact effect_of_proceed nofun hphase rfl (.inl rfl) h
    · rename_i hphase
      exact effect_of_proceed nofun hphase rfl (.inl rfl) h
    · cases h
  | relay sent =>
    simp only [Server.taskStep] at h
    split at h
    · rename_i isA datagram queue hphase
      cases sent with
      | true =>
        obtain rfl := Option.some.inj h
        exact .relay isA datagram queue hphase
      | false => exact effect_of_proceed nofun hphase rfl (.inr ⟨_, rfl⟩) h
    · cases h
  | giveUp =>
    simp only [Server.taskStep] at h
    split at h
    · rename_i hphase
      exact effect_of_proceed nofun hphase rfl (.inr ⟨_, rfl⟩) h
    · cases h
  | countTotal =>
    simp only [Server.taskStep] at h
    split at h
    · rename_i result hphase
      obtain rfl := Option.some.inj h
      exact .countTotal result hphase
    · cases h
  | countResult =>
    simp only [Server.taskStep] at h
    split at h
    · rename_i result hphase
      obtain rfl := Option.some.inj h
      exact .countResult result hphase
    · cases h
  | push elapsedUs =>
    simp only [Server.taskStep] at h
    split at h
    · rename_i result hphase
      obtain rfl := Option.some.inj h
      exact .push elapsedUs result hphase
    · cases h

/-- A step of a task is one of the task at its place. -/
lemma exists_task (h : step cfg s (.task i ta) = some s') :
    ∃ t, s.tasks[i]? = some t ∧ TaskEffect cfg s i t ta s' := by
  obtain ⟨t, hi, hstep⟩ := Option.bind_eq_some_iff.mp h
  exact ⟨t, hi, taskStep_effect hstep⟩

/-- A step adds the task of a datagram that it receives. -/
lemma arrivals_step (h : step cfg s a = some s') :
    s'.tasks.map Task.arrival = s.tasks.map Task.arrival ++ a.arrival.toList := by
  cases a with
  | receive src buf tsMs =>
    obtain rfl := Option.some.inj h
    rw [List.map_append]
    rfl
  | task i ta =>
    obtain ⟨t, hi, heffect⟩ := exists_task h
    obtain ⟨hlt, rfl⟩ := List.getElem?_eq_some_iff.mp hi
    obtain ⟨t', htasks, harrival⟩ :
        ∃ t', s'.tasks = s.tasks.set i t' ∧ t'.arrival = s.tasks[i].arrival := by
      cases heffect with
      | work t' _ harrival => exact ⟨t', rfl, harrival⟩
      | _ => exact ⟨_, rfl, rfl⟩
    have hlt' : i < (s.tasks.map Task.arrival).length := by rwa [List.length_map]
    have hmap : s.tasks[i].arrival = (s.tasks.map Task.arrival)[i] :=
      (List.getElem_map Task.arrival).symm
    rw [htasks, List.map_set, harrival, hmap, List.set_getElem_self]
    exact (List.append_nil _).symm
  | syncDomains domains =>
    obtain rfl := Option.some.inj h
    exact (List.append_nil _).symm

/-- The tasks are those of the datagrams that have been received, in their order. -/
lemma arrivals_trace {as : List Action} (h : Trace (step cfg) Free s as s') :
    s'.tasks.map Task.arrival = s.tasks.map Task.arrival ++ as.filterMap Action.arrival := by
  induction h with
  | nil s => exact (List.append_nil _).symm
  | @cons s s₁ s' a as _ hst _ ih =>
    rw [ih, arrivals_step hst, List.append_assoc, List.filterMap_cons]
    cases a.arrival with
    | none => rfl
    | some arrival => rfl

/-! ## Tasks come to an end -/

/-- How many steps a task has at most before it. -/
def Phase.rank : Phase → ℕ
  | .received => 8
  | .lookup _ _ => 7
  | .answer _ _ => 6
  | .bind _ => 6
  | .bound _ _ => 5
  | .waiting _ _ => 4
  | .log _ => 3
  | .totalCounted _ => 2
  | .counted _ => 1
  | .done _ => 0

/-- No task is under way. -/
def Server.IsQuiet (s : Server) : Prop := ∀ t ∈ s.tasks, t.phase.rank = 0

/-- A decoded query is past its decoding. -/
lemma rank_decoded (t : Task) (query : Message) : (t.decoded query).phase.rank < 8 := by
  unfold Task.decoded
  split
  · exact (by decide : 6 < 8)
  · split
    · exact (by decide : 7 < 8)
    · exact (by decide : 6 < 8)

/-- A task that is under way can take a step that brings it closer to its end. -/
lemma exists_taskStep (cfg : Config) (s : Server) (i : ℕ) (ht : t.phase.rank ≠ 0) :
    ∃ ta t' s', s.taskStep cfg i t ta = some s' ∧ s'.tasks = s.tasks.set i t' ∧
      t'.phase.rank < t.phase.rank := by
  cases hphase : t.phase with
  | received =>
    cases hread : cfg.library.read t.buf with
    | none =>
      refine ⟨.decode, _, s.proceed i { t with phase := .log .nxdomain }, ?_, rfl, ?_⟩
      · simp only [Server.taskStep, hphase, hread]
      · exact (by decide : 3 < 8)
    | some query =>
      refine ⟨.decode, t.decoded query, s.proceed i (t.decoded query), ?_, rfl, rank_decoded t query⟩
      simp only [Server.taskStep, hphase, hread]
  | lookup query q =>
    cases hregistered : isDomainRegistered s.map (trimDots q.name) with
    | true =>
      refine ⟨.lookup, _, s.proceed i { t with phase := .answer query q }, ?_, rfl, ?_⟩
      · simp only [Server.taskStep, hphase, hregistered, if_true]
      · exact (by decide : 6 < 7)
    | false =>
      refine ⟨.lookup, _, s.proceed i { t with phase := .bind true }, ?_, rfl, ?_⟩
      · simp only [Server.taskStep, hphase, hregistered, Bool.false_eq_true, if_false]
      · exact (by decide : 6 < 7)
  | answer query q =>
    refine ⟨.answer false, _, s.proceed i { t with phase := .log .nxdomain }, ?_, rfl, ?_⟩
    · simp only [Server.taskStep, hphase, Bool.and_false, Bool.false_eq_true, if_false]
    · exact (by decide : 3 < 6)
  | bind isA =>
    refine ⟨.bind true, _, s.proceed i { t with phase := .bound isA [] }, ?_, rfl, ?_⟩
    · simp only [Server.taskStep, hphase, if_true]
    · exact (by decide : 5 < 6)
  | bound isA queue =>
    refine ⟨.send true, _, s.proceed i { t with phase := .waiting isA queue }, ?_, rfl, ?_⟩
    · simp only [Server.taskStep, hphase, if_true]
    · exact (by decide : 4 < 5)
  | waiting isA queue =>
    refine ⟨.giveUp, _, s.proceed i { t with phase := .forwarded isA false }, ?_, rfl, ?_⟩
    · simp only [Server.taskStep, hphase]
    · exact (by decide : 3 < 4)
  | log result =>
    have hstep : s.taskStep cfg i t .countTotal =
        some ({ s with metrics := s.metrics.countTotal }.proceed i
          { t with phase := .totalCounted result }) := by
      simp only [Server.taskStep, hphase]
    exact ⟨.countTotal, _, _, hstep, rfl, (by decide : 2 < 3)⟩
  | totalCounted result =>
    have hstep : s.taskStep cfg i t .countResult =
        some ({ s with metrics := s.metrics.countResult result }.proceed i
          { t with phase := .counted result }) := by
      simp only [Server.taskStep, hphase]
    exact ⟨.countResult, _, _, hstep, rfl, (by decide : 1 < 2)⟩
  | counted result =>
    have hstep : s.taskStep cfg i t (.push 0) =
        some
          ({ s with
            recent := pushRecent cfg.cap s.recent (t.logEntry result 0)
            logged := t.logEntry result 0 :: s.logged }.proceed i
              { t with phase := .done (t.logEntry result 0) }) := by
      simp only [Server.taskStep, hphase]
    exact ⟨.push 0, _, _, hstep, rfl, (by decide : 0 < 1)⟩
  | done entry =>
    rw [hphase] at ht
    exact absurd rfl ht

/-- Every task can come to its end, without any datagram from a client. -/
theorem exists_quiet (cfg : Config) (s : Server) :
    ∃ as s', Trace (step cfg) Free s as s' ∧ as.filterMap Action.arrival = [] ∧ s'.IsQuiet := by
  induction hn : total (fun t : Task => t.phase.rank) s.tasks using Nat.strong_induction_on
    generalizing s with
  | _ n ih =>
    by_cases hquiet : s.IsQuiet
    · exact ⟨[], s, .nil s, rfl, hquiet⟩
    · simp only [Server.IsQuiet, not_forall] at hquiet
      obtain ⟨t, hmem, ht⟩ := hquiet
      obtain ⟨i, hi⟩ := List.mem_iff_getElem?.mp hmem
      obtain ⟨ta, t', s', htask, htasks, hrank⟩ := exists_taskStep cfg s i ht
      have hst : step cfg s (.task i ta) = some s' := by
        rw [step, hi]
        exact htask
      have hset := total_set (g := fun t : Task => t.phase.rank) (y := t') hi
      rw [← htasks, hn] at hset
      obtain ⟨as, s'', htrace, has, hquiet'⟩ := ih _ (by omega) s' rfl
      exact ⟨_, s'', .cons trivial hst htrace, has, hquiet'⟩

/-! ## A task alone -/

section Alone

/-- A server with one task. -/
def Server.alone (map : String → Option String) (t : Task) : Server :=
  { Server.start map with tasks := [t] }

/-- What `handleDnsQuery` looks at of a question. -/
def Question.query (q : Question) : Query := ⟨q.name, q.queryType == "A"⟩

/-- Without others, a task forwards its query, whether that succeeds or not. -/
lemma forwards_alone (cfg : Config) (map : String → Option String) (t : Task) (isA ok : Bool) :
    ∃ as s, Trace (step cfg) Free (Server.alone map { t with phase := .bind isA }) as s ∧
      s.tasks.map Task.phase = [.forwarded isA ok] := by
  cases ok with
  | false => exact ⟨[.task 0 (.bind false)], _, .cons trivial rfl (.nil _), rfl⟩
  | true =>
    exact ⟨[.task 0 (.bind true), .task 0 (.send true), .task 0 (.arrive ⟨cfg.upstream, []⟩),
      .task 0 (.relay true)], _, .cons trivial rfl (.cons trivial rfl (.cons trivial rfl
        (.cons trivial rfl (.nil _)))), rfl⟩

/-- Without others, a task looks its name up. -/
lemma lookup_alone (cfg : Config) (map : String → Option String) (t : Task) (query : Message)
    (q : Question) :
    step cfg (Server.alone map { t with phase := .lookup query q }) (.task 0 .lookup) =
      if isDomainRegistered map (trimDots q.name) then
        some (Server.alone map { t with phase := .answer query q })
      else some (Server.alone map { t with phase := .bind true }) := rfl

/-- Without others, a task answers. -/
lemma answer_alone (cfg : Config) (map : String → Option String) (t : Task) (query : Message)
    (q : Question) (sent : Bool) :
    step cfg (Server.alone map { t with phase := .answer query q }) (.task 0 (.answer sent)) =
      if (cfg.library.emit (buildAResponse query q.name cfg.cdnIp)).isSome && sent then
        some (Server.alone map { t with phase := .log (classify true true none) })
      else some (Server.alone map { t with phase := .log .nxdomain }) := rfl

/-- Without others, a task with a query that can be decoded logs what `handleDnsQuery` says. -/
theorem task_alone (cfg : Config) (map : String → Option String) (src : SocketAddr) (buf : Bytes)
    (tsMs : ℤ) (query : Message) (hread : cfg.library.read (buf.take 512) = some query)
    (sent upstreamOk answered : Bool)
    (hanswered : ∀ q, query.queries.head? = some q →
      answered = ((cfg.library.emit (buildAResponse query q.name cfg.cdnIp)).isSome && sent)) :
    ∃ as s, Trace (step cfg) Free (Server.start map) (.receive src buf tsMs :: as) s ∧
      s.tasks.map Task.phase =
        [.log (handleDnsQuery map (query.queries.head?.map Question.query) answered upstreamOk).2] := by
  let t := Task.new src buf tsMs
  have hreceive : step cfg (Server.start map) (.receive src buf tsMs) = some (Server.alone map t) := rfl
  have hdecode : step cfg (Server.alone map t) (.task 0 .decode) =
      some (Server.alone map (t.decoded query)) := by
    change Server.taskStep _ cfg 0 t .decode = _
    simp only [Server.taskStep, t, Task.new, hread]
    rfl
  unfold Task.decoded at hdecode
  cases hhead : query.queries.head? with
  | none =>
    rw [hhead] at hdecode
    obtain ⟨as, s, hs, hphase⟩ := forwards_alone cfg map t false upstreamOk
    exact ⟨_, s, .cons trivial hreceive (.cons trivial hdecode hs), hphase⟩
  | some q =>
    rw [hhead] at hdecode
    dsimp only at hdecode
    have hsent := hanswered q hhead
    cases htype : q.queryType == "A" with
    | false =>
      rw [htype] at hdecode
      obtain ⟨as, s, hs, hphase⟩ :=
        forwards_alone cfg map { t with qname := q.name, qtype := q.queryType } false upstreamOk
      refine ⟨_, s, .cons trivial hreceive (.cons trivial hdecode hs), ?_⟩
      simpa [handleDnsQuery, Question.query, htype, Phase.forwarded] using hphase
    | true =>
      rw [htype] at hdecode
      let u : Task := { t with qname := q.name, qtype := q.queryType }
      have hlookup := lookup_alone cfg map u query q
      cases hregistered : isDomainRegistered map (trimDots q.name) with
      | false =>
        rw [hregistered] at hlookup
        obtain ⟨as, s, hs, hphase⟩ := forwards_alone cfg map u true upstreamOk
        refine ⟨_, s, .cons trivial hreceive (.cons trivial hdecode (.cons trivial hlookup hs)), ?_⟩
        simpa [handleDnsQuery, Question.query, htype, hregistered, Phase.forwarded] using hphase
      | true =>
        rw [hregistered] at hlookup
        have hanswer := answer_alone cfg map u query q sent
        rw [← hsent] at hanswer
        cases answered with
        | false =>
          refine ⟨_, _, .cons trivial hreceive (.cons trivial hdecode (.cons trivial hlookup
            (.cons trivial hanswer (.nil _)))), ?_⟩
          simp [handleDnsQuery, Question.query, htype, hregistered, Server.alone]
        | true =>
          refine ⟨_, _, .cons trivial hreceive (.cons trivial hdecode (.cons trivial hlookup
            (.cons trivial hanswer (.nil _)))), ?_⟩
          simp [handleDnsQuery, Question.query, htype, hregistered, Server.alone]

end Alone

/-! ## A sample server -/

/-- A query of type `AAAA` for `x.test`, with the ID 1234 in hexadecimal. -/
def sampleQuery : Bytes :=
  [0x12, 0x34, 1, 0, 0, 1, 0, 0, 0, 0, 0, 0, 1, 120, 4, 116, 101, 115, 116, 0, 0, 28, 0, 1]

/-- A library that reads this query. -/
def sampleLibrary : Library where
  read bytes := if bytes = sampleQuery then some ⟨0x1234, true, [⟨"x.test.", "AAAA"⟩]⟩ else none
  emit _ := none

/-- A server in front of the resolver 8.8.8.8. -/
def sampleConfig : Config := ⟨"10.0.0.1", ⟨"8.8.8.8", 53⟩, 512, sampleLibrary⟩

end SmartSchoolCdn.Dns
