import SmartSchoolCdn.Services.DnsServer

/-!
# Forwarded queries

`forward_to_upstream` takes the first datagram that its socket receives for the reply, whoever has
sent it and whatever query it answers.  What it relays is authentic in exactly those runs in which
the first datagram is (`relayed_authentic_iff`).  Anybody who reaches the socket before the upstream
resolver does can answer the query (`relays_forged`).
-/

namespace SmartSchoolCdn.Dns

open Traces

/-- The ID of a message, its first two bytes. -/
def messageId : Bytes → Option UInt16
  | hi :: lo :: _ => some (UInt16.ofNat (256 * hi.toNat + lo.toNat))
  | _ => none

/-- A reply from the upstream resolver, to this query. -/
def IsReply (upstream : SocketAddr) (query : Bytes) (source : SocketAddr) (reply : Bytes) : Prop :=
  source = upstream ∧ ∃ id, messageId query = some id ∧ messageId reply = some id

/-- What has been relayed is the reply of the upstream resolver to the query. -/
def Authentic (upstream : SocketAddr) (r : Relayed) : Prop := IsReply upstream r.query r.source r.reply

/-- When the forwarder relays, the first datagram in the queue of its socket is the reply. -/
def ReplyFirst (cfg : Config) (s : Server) : Action → Prop
  | .task i (.relay true) => ∀ t isA datagram queue, s.tasks[i]? = some t →
      t.phase = .waiting isA (datagram :: queue) →
      IsReply cfg.upstream t.buf datagram.source datagram.bytes
  | _ => True

variable {cfg : Config} {s s' : Server} {a : Action} {map : String → Option String}

/-- The ID is not cut off by the buffer. -/
lemma messageId_resp (datagram : Datagram) : messageId (resp datagram) = messageId datagram.bytes := by
  unfold resp
  match datagram.bytes with
  | [] => rfl
  | [_] => rfl
  | _ :: _ :: _ => rfl

/-- The query and the datagram that the forwarder takes for its reply. -/
lemma authentic_relayed (t : Task) (datagram : Datagram) :
    Authentic cfg.upstream ⟨t.src, t.buf, datagram.source, resp datagram⟩ ↔
      IsReply cfg.upstream t.buf datagram.source datagram.bytes := by
  unfold Authentic IsReply
  rw [messageId_resp]

/-- A step relays nothing, or the first datagram in the queue of a socket. -/
lemma relayed_of_step (h : step cfg s a = some s') :
    ((∀ i, a ≠ .task i (.relay true)) ∧ s'.relayed = s.relayed) ∨
      ∃ i t isA datagram queue, a = .task i (.relay true) ∧ s.tasks[i]? = some t ∧
        t.phase = .waiting isA (datagram :: queue) ∧
        s'.relayed = ⟨t.src, t.buf, datagram.source, resp datagram⟩ :: s.relayed := by
  cases a with
  | receive src buf tsMs =>
    obtain rfl := Option.some.inj h
    exact .inl ⟨nofun, rfl⟩
  | task i ta =>
    obtain ⟨t, hi, heffect⟩ := exists_task h
    cases heffect with
    | relay isA datagram queue hphase => exact .inr ⟨i, t, isA, datagram, queue, rfl, hi, hphase, rfl⟩
    | work t' ha => exact .inl ⟨fun j hj => ha (Action.task.inj hj).2, rfl⟩
    | _ => exact .inl ⟨fun j hj => TaskAction.noConfusion (Action.task.inj hj).2, rfl⟩
  | syncDomains domains =>
    obtain rfl := Option.some.inj h
    exact .inl ⟨nofun, rfl⟩

/-- A step in which the reply is first relays it. -/
lemma authentic_step (hs : ∀ r ∈ s.relayed, Authentic cfg.upstream r) (hC : ReplyFirst cfg s a)
    (h : step cfg s a = some s') : ∀ r ∈ s'.relayed, Authentic cfg.upstream r := by
  rcases relayed_of_step h with ⟨hquiet, hsame⟩ | ⟨i, t, isA, datagram, queue, rfl, hi, hphase, hrelayed⟩
  · rw [hsame]
    exact hs
  · rw [hrelayed]
    intro r hr
    rcases List.mem_cons.mp hr with rfl | hold
    · exact (authentic_relayed t datagram).mpr (hC t isA datagram queue hi hphase)
    · exact hs r hold

/-- What is authentic after a step was so before it, and the step relays a reply. -/
lemma replyFirst_of_authentic (h : step cfg s a = some s')
    (hs' : ∀ r ∈ s'.relayed, Authentic cfg.upstream r) :
    (∀ r ∈ s.relayed, Authentic cfg.upstream r) ∧ ReplyFirst cfg s a := by
  rcases relayed_of_step h with ⟨hquiet, hsame⟩ | ⟨i, t, isA, datagram, queue, rfl, hi, hphase, hrelayed⟩
  · rw [hsame] at hs'
    refine ⟨hs', ?_⟩
    unfold ReplyFirst
    split
    · rename_i i
      exact absurd rfl (hquiet i)
    · trivial
  · rw [hrelayed] at hs'
    refine ⟨fun r hr => hs' r (List.mem_cons_of_mem _ hr), ?_⟩
    intro t' isA' datagram' queue' hi' hphase'
    obtain rfl := Option.some.inj (hi.symm.trans hi')
    rw [hphase] at hphase'
    obtain ⟨-, hqueue⟩ := Phase.waiting.inj hphase'
    obtain ⟨rfl, -⟩ := List.cons.inj hqueue
    exact (authentic_relayed t datagram).mp (hs' _ List.mem_cons_self)

/-- In every run, whatever the order of the steps of the tasks and of all arrivals at their sockets,
everything that the forwarder relays comes from the upstream resolver and carries the ID of the
query if and only if the forwarder finds such a datagram first in the queue of its socket whenever
it relays. -/
theorem relayed_authentic_iff {as : List Action}
    (h : Trace (step cfg) Free (Server.start map) as s) :
    (∀ r ∈ s.relayed, Authentic cfg.upstream r) ↔
      Trace (step cfg) (ReplyFirst cfg) (Server.start map) as s := by
  have hstart : ∀ r ∈ (Server.start map).relayed, Authentic cfg.upstream r := by
    intro r hr
    cases hr
  constructor
  · intro hs
    exact (h.retrace (I := fun _ => True) (fun _ _ _ _ _ => trivial)
      (fun s a s' _ hst hs' => replyFirst_of_authentic hst hs') trivial hs).2
  · intro hfirst
    exact hfirst.invariant (I := fun s => ∀ r ∈ s.relayed, Authentic cfg.upstream r)
      (fun s a s' hs hC hst => authentic_step hs hC hst) hstart

/-! ## Sample runs -/

/-- A reply of the resolver, refused, with the ID of the query. -/
def sampleReply : Datagram := ⟨⟨"8.8.8.8", 53⟩, [0x12, 0x34, 0x81, 5, 0, 0, 0, 0, 0, 0, 0, 0]⟩

/-- A datagram that somebody else sends, with another ID. -/
def forged : Datagram := ⟨⟨"6.6.6.6", 4000⟩, [0, 0, 0x81, 0x80, 0, 0, 0, 0, 0, 0, 0, 0]⟩

/-- The query is forwarded, and two datagrams arrive. -/
def forwardingActions (first second : Datagram) : List Action :=
  [.receive ⟨"10.0.0.7", 5353⟩ sampleQuery 0, .task 0 .decode, .task 0 (.bind true),
   .task 0 (.send true), .task 0 (.arrive first), .task 0 (.arrive second), .task 0 (.relay true)]

/-- The datagram of somebody else arrives before the reply, and the client gets it. -/
theorem relays_forged : ∃ s, Trace (step sampleConfig) Free (Server.start fun _ => none)
    (forwardingActions forged sampleReply) s ∧
    s.relayed = [⟨⟨"10.0.0.7", 5353⟩, sampleQuery, forged.source, forged.bytes⟩] ∧
    ¬ ∀ r ∈ s.relayed, Authentic sampleConfig.upstream r := by
  have hrun : ((run (step sampleConfig) (Server.start fun _ => none)
      (forwardingActions forged sampleReply)).any fun s => decide
        (s.relayed = [⟨⟨"10.0.0.7", 5353⟩, sampleQuery, forged.source, forged.bytes⟩])) = true := by
    decide +kernel
  obtain ⟨s, hs, hp⟩ := exists_trace_of_run hrun
  have hrelayed := of_decide_eq_true hp
  refine ⟨s, hs, hrelayed, fun hall => ?_⟩
  obtain ⟨hsource, -⟩ := hall _ (hrelayed ▸ List.mem_cons_self)
  exact absurd hsource (by decide)

/-- When the reply is first, it is relayed. -/
theorem relayed_authentic_sample : ∃ s,
    Trace (step sampleConfig) (ReplyFirst sampleConfig) (Server.start fun _ => none)
      (forwardingActions sampleReply forged) s ∧ s.relayed.length = 1 := by
  have hrun : ((run (step sampleConfig) (Server.start fun _ => none)
      (forwardingActions sampleReply forged)).any fun s => decide
        (s.relayed = [⟨⟨"10.0.0.7", 5353⟩, sampleQuery, sampleReply.source, sampleReply.bytes⟩])) =
      true := by
    decide +kernel
  obtain ⟨s, hs, hp⟩ := exists_trace_of_run hrun
  have hrelayed := of_decide_eq_true hp
  refine ⟨s, (relayed_authentic_iff hs).mp fun r hr => ?_, by rw [hrelayed]; rfl⟩
  rw [hrelayed, List.mem_singleton] at hr
  subst hr
  exact ⟨rfl, 0x1234, by decide, by decide⟩

end SmartSchoolCdn.Dns
