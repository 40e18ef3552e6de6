import SmartSchoolCdn.Admin.DomainRoutes
import SmartSchoolCdn.Foundation.Trace

/-!
# Isolation on the shared connection

All handlers share one connection, and a handler that has opened a transaction waits for the
proxy before it ends it.  Whatever runs meanwhile runs inside that transaction: another `BEGIN`
throws, and a `ROLLBACK` takes back what others wrote since the `BEGIN`.  The compensating
update of `PUT` and the toggle writes back a row that others may have changed.

`Isolation` is what isolated handlers give: the database is the replay of the writes that stand
(an undo takes back only the writes of its own request), the writes of a request that has not
failed stand, no failed request has overwritten them, and no handler is refused because of an
open transaction.  It holds in every run in which no `BEGIN` meets an open transaction, no
`ROLLBACK` a newer write of another request, no compensating update a newer write of its row,
and no bulk request leaves its writes over those of others when its sync fails
(`isolation_of_isolated`).
-/

namespace SmartSchoolCdn.Admin

open Journals Traces

/-! ## The property -/

/-- The writes that are meant to be left, the newest first. -/
def State.standing (s : State) : List (Entry ℕ Statement) := Journals.standing s.history

/-- Whether a request was answered with a failure. -/
def State.hasFailed (s : State) (rid : ℕ) : Bool :=
  match s.tasks[rid]? with
  | some ⟨_, .done (.failure _)⟩ => true
  | _ => false

/-- Whether an entry can change a row of `domains`. -/
def touches (e : Entry ℕ Statement) (host : String) : Bool :=
  e.writes.any fun w => w.hosts.contains host

/-- The rows of `domains` in which an entry can change more than the time of the change. -/
def overwrites (e : Entry ℕ Statement) : List String := e.writes.flatMap Statement.overwrites

/-- The newer entry, if its request has failed, does not overwrite a row of the older one,
unless that has failed too. -/
def State.MayFollow (s : State) (newer older : Entry ℕ Statement) : Prop :=
  s.hasFailed newer.writer = true → s.hasFailed older.writer = false →
    ∀ host ∈ overwrites newer, touches older host = false

/-- Isolated handlers: an undo takes back only its own writes, the writes of a successful
request stand and are overwritten only by later requests that have not failed, and no handler
is refused because of an open transaction. -/
structure Isolation (db : Database) (s : State) : Prop where
  db_eq : s.db = replay Database.exec db s.standing
  recorded : ∀ (rid : ℕ) (writes : List Statement), .wrote rid writes ∈ s.history →
    s.hasFailed rid = false → ⟨rid, writes⟩ ∈ s.standing
  overwritten : s.standing.Pairwise s.MayFollow
  notRefused : ∀ (rid : ℕ) (request : Request),
    s.tasks[rid]? ≠ some ⟨request, .done (.failure transactionOpen)⟩

/-! ## The condition -/

/-- The undo of a request meets no newer write of others on what it takes back; and what is
left in place overwrites nothing of requests that have not failed. -/
def State.undoIsolated (s : State) (rid : ℕ) : Undo → Bool
  | .rollback => (newerThan rid s.standing).isEmpty
  | .restore host _ => (newerThan rid s.standing).all fun e => !touches e host
  | .keep => s.standing.all fun own => own.writer ≠ rid || (overwrites own).all fun host =>
      (olderThan rid s.standing).all fun e => s.hasFailed e.writer || !touches e host

/-- No `BEGIN` in a transaction, and only isolated undos. -/
def State.isolated (s : State) : Action → Bool
  | .start rid =>
    match s.tasks[rid]? with
    | some t => !t.request.opensTransaction s.db || s.transaction.isNone
    | none => true
  | .resume rid =>
    match s.tasks[rid]? with
    | some ⟨_, .syncing message undo⟩ =>
      match s.syncs[message]? with
      | some ⟨_, _, .failed⟩ => s.undoIsolated rid undo
      | _ => true
    | _ => true
  | _ => true

/-- The side condition of a run. -/
def Isolated (s : State) (a : Action) : Prop := s.isolated a = true

variable {d₀ : Database} {s s' : State} {a : Action} {rid r : ℕ} {task : Task} {phase : Phase}
  {message : ℕ} {undo : Undo}

/-- A failed call is followed by an isolated undo. -/
lemma undoIsolated_of_isolated {request : Request} {domains : List DomainEntry} {delivery : Delivery}
    (h : Isolated s (.resume rid)) (ht : s.tasks[rid]? = some ⟨request, .syncing message undo⟩)
    (hm : s.syncs[message]? = some ⟨domains, delivery, .failed⟩) : s.undoIsolated rid undo = true := by
  simpa only [Isolated, State.isolated, ht, hm] using h

/-- A handler that would open a transaction finds none. -/
lemma transaction_of_isolated {request : Request} (h : Isolated s (.start rid))
    (hr : s.Ready rid request) (hopens : request.opensTransaction s.db = true) :
    s.transaction.isSome = false := by
  simp only [Isolated, State.isolated, hr.queued, hopens] at h
  simpa using h

/-! ## Rows and entries -/

/-- An entry that does not touch a row has no statement on it. -/
lemma notMem_hosts_of_touches {e : Entry ℕ Statement} {host : String} (h : touches e host = false)
    {w : Statement} (hw : w ∈ e.writes) : host ∉ w.hosts := by
  intro hhost
  have htouch : touches e host = true :=
    List.any_eq_true.mpr ⟨w, hw, List.contains_iff_mem.mpr hhost⟩
  rw [h] at htouch
  cases htouch

/-- Statements on other rows make no difference for a row, so leaving them out makes none. -/
lemma find_replay_without {entries : List (Entry ℕ Statement)} {j : ℕ} {host : String}
    (h : ∀ e ∈ entries, e.writer = j → touches e host = false) :
    (replay Database.exec d₀ (without j entries)).domains.find host =
      (replay Database.exec d₀ entries).domains.find host := by
  have hcongr : ∀ (writes : List Statement) (d d' : Database),
      d.domains.find host = d'.domains.find host →
      (execAll Database.exec writes d).domains.find host =
        (execAll Database.exec writes d').domains.find host := by
    intro writes
    induction writes with
    | nil => exact fun _ _ h => h
    | cons w writes ih => exact fun d d' h => ih _ _ (find_exec_congr h)
  induction entries with
  | nil => rfl
  | cons e entries ih =>
    have ih' := ih fun e' he' => h e' (List.mem_cons_of_mem _ he')
    by_cases hj : e.writer = j
    · have hkeep : (execAll Database.exec e.writes (replay Database.exec d₀ entries)).domains.find host =
          (replay Database.exec d₀ entries).domains.find host :=
        execAll_keeps (g := fun d : Database => d.domains.find host)
          (fun _ hw _ => find_exec (notMem_hosts_of_touches (h e List.mem_cons_self hj) hw)) _
      rw [replay, hkeep, without, List.filter_cons_of_neg (by simpa using hj)]
      exact ih'
    · rw [without, List.filter_cons_of_pos (by simpa using hj), replay, replay]
      exact hcongr e.writes _ _ ih'

/-- Entries that do not touch a row keep it. -/
lemma find_replay {entries : List (Entry ℕ Statement)} {host : String}
    (h : ∀ e ∈ entries, touches e host = false) (d : Database) :
    (replay Database.exec d entries).domains.find host = d.domains.find host :=
  replay_keeps (g := fun d : Database => d.domains.find host) fun e he _ hw _ =>
    find_exec (notMem_hosts_of_touches (h e he) hw)

/-! ## The invariant -/

/-- What a request that waits for the proxy can rely on when it undoes its writes. -/
def Pending (d₀ : Database) (s : State) (rid : ℕ) : Undo → Prop
  | .rollback => ∃ d writes newer older, s.transaction = some (rid, d) ∧
      Own rid writes newer older s.standing ∧ (newer = [] → d = replay Database.exec d₀ older)
  | .restore host data => ∃ writes newer older original, Own rid writes newer older s.standing ∧
      (replay Database.exec d₀ older).domains.find host = some original ∧
      Restores host original writes data
  | .keep => (∀ e ∈ s.standing, e.writer ≠ rid) ∨
      ∃ writes newer older, Own rid writes newer older s.standing

/-- The invariant of a run whose steps are isolated. -/
structure Sound (d₀ : Database) (s : State) : Prop extends Isolation d₀ s where
  known : ∀ e ∈ s.standing, ∃ t, s.tasks[e.writer]? = some t ∧ t.phase ≠ .queued
  holder : ∀ (rid : ℕ) (d : Database), s.transaction = some (rid, d) →
    ∃ request message, s.tasks[rid]? = some ⟨request, .syncing message .rollback⟩
  pending : ∀ (rid : ℕ) (request : Request) (message : ℕ) (undo : Undo),
    s.tasks[rid]? = some ⟨request, .syncing message undo⟩ → Pending d₀ s rid undo
  restoreLock : ∀ (rid : ℕ) (request : Request) (message : ℕ) (host : String) (data : DomainUpdate),
    s.tasks[rid]? = some ⟨request, .syncing message (.restore host data)⟩ →
    request.lockHost = some host
  locks : LocksHeld s

/-! ## Failed requests along a step -/

/-- Arrivals fail no request. -/
lemma Arrived.hasFailed (h : Arrived s s') (r : ℕ) : s'.hasFailed r = s.hasFailed r := by
  unfold State.hasFailed
  cases ht : s.tasks[r]? with
  | some t => rw [h.stays r t ht]
  | none =>
    cases ht' : s'.tasks[r]? with
    | none => rfl
    | some t =>
      have hqueued := (h.queued r t ht').resolve_left (by simp [ht])
      obtain ⟨request, phase⟩ := t
      obtain rfl : phase = .queued := hqueued
      rfl

/-- A handler that is running has not failed. -/
lemma Moved.not_failed (h : Moved s s' rid task phase) : s.hasFailed rid = false := by
  have hrunning := h.running
  unfold State.hasFailed
  rw [h.was]
  obtain ⟨request, phase⟩ := task
  cases phase with
  | done reply => cases hrunning
  | _ => rfl

/-- The move of one handler does not fail another. -/
lemma Moved.hasFailed_other (h : Moved s s' rid task phase) (hr : r ≠ rid) :
    s'.hasFailed r = s.hasFailed r := by
  unfold State.hasFailed
  rw [h.other hr]

/-- A move that is no failure fails no request. -/
lemma Moved.hasFailed (h : Moved s s' rid task phase) (hphase : ∀ e, phase ≠ .done (.failure e))
    (r : ℕ) : s'.hasFailed r = s.hasFailed r := by
  by_cases hr : r = rid
  · subst hr
    rw [h.not_failed]
    unfold State.hasFailed
    rw [h.self]
    cases phase with
    | done reply =>
      cases reply with
      | success => rfl
      | failure e => exact absurd rfl (hphase e)
    | _ => rfl
  · exact h.hasFailed_other hr

/-- When one handler fails, a request that has not failed is another one, and had not failed. -/
lemma Moved.survivor {e : ErrorReply} (h : Moved s s' rid task (.done (.failure e)))
    (hnot : s'.hasFailed r = false) : r ≠ rid ∧ s.hasFailed r = false := by
  have hne : r ≠ rid := by
    rintro rfl
    rw [State.hasFailed, h.self] at hnot
    cases hnot
  rw [h.hasFailed_other hne] at hnot
  exact ⟨hne, hnot⟩

/-- Without new failures entries may follow each other as before. -/
lemma pairwise_of_hasFailed {entries : List (Entry ℕ Statement)}
    (h : entries.Pairwise s.MayFollow) (hfailed : ∀ r, s'.hasFailed r = s.hasFailed r) :
    entries.Pairwise s'.MayFollow := by
  refine h.imp fun {e e'} hmay hnew hold => hmay ?_ ?_
  · rw [← hfailed]
    exact hnew
  · rw [← hfailed]
    exact hold

/-- The failure of a request without entries changes nothing for the entries. -/
lemma pairwise_of_others {entries : List (Entry ℕ Statement)} (hm : Moved s s' rid task phase)
    (h : entries.Pairwise s.MayFollow) (hothers : ∀ e ∈ entries, e.writer ≠ rid) :
    entries.Pairwise s'.MayFollow := by
  refine h.imp_of_mem fun {e e'} he he' hmay hnew hold => hmay ?_ ?_
  · rw [← hm.hasFailed_other (hothers e he)]
    exact hnew
  · rw [← hm.hasFailed_other (hothers e' he')]
    exact hold

/-! ## Pending undos along a step -/

/-- Without a change on the connection nothing changes for a pending undo. -/
lemma Pending.congr (h : Pending d₀ s r undo) (htr : s'.transaction = s.transaction)
    (hst : s'.standing = s.standing) : Pending d₀ s' r undo := by
  cases undo <;> simpa only [Pending, htr, hst] using h

/-- The write of another request is newer than those of a pending undo. -/
lemma Pending.cons {writes : List Statement} (h : Pending d₀ s r undo) (hne : rid ≠ r)
    (htr : ∀ d, s.transaction = some (r, d) → s'.transaction = some (r, d))
    (hst : s'.standing = ⟨rid, writes⟩ :: s.standing) : Pending d₀ s' r undo := by
  cases undo with
  | rollback =>
    obtain ⟨d, own, newer, older, hopen, hown, -⟩ := h
    refine ⟨d, own, ⟨rid, writes⟩ :: newer, older, htr d hopen, ?_, fun hnil => by cases hnil⟩
    rw [hst]
    exact hown.cons hne
  | restore host data =>
    obtain ⟨own, newer, older, original, hown, hfind, hrestores⟩ := h
    refine ⟨own, ⟨rid, writes⟩ :: newer, older, original, ?_, hfind, hrestores⟩
    rw [hst]
    exact hown.cons hne
  | keep =>
    rcases h with hnone | ⟨own, newer, older, hown⟩
    · left
      intro e he
      rw [hst] at he
      rcases List.mem_cons.mp he with rfl | hmem
      · exact hne
      · exact hnone e hmem
    · right
      refine ⟨own, ⟨rid, writes⟩ :: newer, older, ?_⟩
      rw [hst]
      exact hown.cons hne

/-- The rollback of another request is older than nothing that is pending. -/
lemma Pending.rolledBack {writes : List Statement} {older : List (Entry ℕ Statement)} {d : Database}
    (h : Pending d₀ s r undo) (hne : rid ≠ r) (hopen : s.transaction = some (rid, d))
    (hown : Own rid writes [] older s.standing) (hst : s'.standing = without rid s.standing) :
    Pending d₀ s' r undo := by
  cases undo with
  | rollback =>
    obtain ⟨d', own, newer, older', hopen', -⟩ := h
    rw [hopen] at hopen'
    cases hopen'
    exact absurd rfl hne
  | restore host data =>
    obtain ⟨own, newer, older', original, hown', hfind, hrestores⟩ := h
    have hwithout : without rid older' = older' := by
      -- the entry that is rolled back is the newest
      refine without_eq_self fun e he => hown.older e ?_
      have hsplit := hown.split.symm.trans hown'.split
      rw [List.nil_append] at hsplit
      cases newer with
      | nil =>
        have hhead := (List.cons.inj hsplit).1
        exact absurd (congrArg Entry.writer hhead) hne
      | cons e' newer =>
        have htail := (List.cons.inj hsplit).2
        rw [htail]
        exact List.mem_append_right _ (List.mem_cons_of_mem _ he)
    refine ⟨own, without rid newer, older', original, ?_, hfind, hrestores⟩
    have hown'' := hown'.without (Ne.symm hne)
    rw [hwithout] at hown''
    rw [hst]
    exact hown''
  | keep =>
    rw [Pending, hst]
    rcases h with hnone | ⟨own, newer, older', hown'⟩
    · exact .inl fun e he => hnone e (mem_without.mp he).1
    · exact .inr ⟨own, without rid newer, without rid older', hown'.without (Ne.symm hne)⟩

/-- The compensating update of another row leaves a pending undo what it relies on. -/
lemma Pending.restored {writes residue newer' older' : List _} {host : String}
    (h : Pending d₀ s r undo) (hne : rid ≠ r)
    (htr : s'.transaction = s.transaction) (hown : Own rid writes newer' older' s.standing)
    (hrows : ∀ w ∈ writes, Statement.hosts w = [host])
    (hhost : ∀ host' data, undo = .restore host' data → host' ≠ host)
    (hst : s'.standing = ⟨rid, residue⟩ :: without rid s.standing) : Pending d₀ s' r undo := by
  cases undo with
  | rollback =>
    obtain ⟨d, own, newer, older, hopen, hown', -⟩ := h
    refine ⟨d, own, ⟨rid, residue⟩ :: without rid newer, without rid older, htr ▸ hopen, ?_,
      fun hnil => by cases hnil⟩
    rw [hst]
    exact (hown'.without (Ne.symm hne)).cons hne
  | restore host' data =>
    obtain ⟨own, newer, older, original, hown', hfind, hrestores⟩ := h
    refine ⟨own, ⟨rid, residue⟩ :: without rid newer, without rid older, original, ?_, ?_, hrestores⟩
    · rw [hst]
      exact (hown'.without (Ne.symm hne)).cons hne
    · rw [find_replay_without, hfind]
      intro e he hwriter
      have hmem : e ∈ s.standing := by
        rw [hown'.split]
        exact List.mem_append_right _ (List.mem_cons_of_mem _ he)
      rw [hown.eq_of_mem hmem hwriter]
      have hdiff := hhost host' data rfl
      rw [touches, List.any_eq_false]
      intro w hw
      rw [hrows w hw]
      simpa using hdiff
  | keep =>
    rw [Pending, hst]
    rcases h with hnone | ⟨own, newer, older, hown'⟩
    · left
      intro e he
      rcases List.mem_cons.mp he with rfl | hmem
      · exact hne
      · exact hnone e (mem_without.mp hmem).1
    · exact .inr ⟨own, ⟨rid, residue⟩ :: without rid newer, without rid older,
        (hown'.without (Ne.symm hne)).cons hne⟩

/-! ## The steps -/

/-- Nothing but arrivals, time and messages. -/
lemma Sound.arrived (h : Sound d₀ s) (ha : Arrived s s') (hdb : s'.db = s.db)
    (htr : s'.transaction = s.transaction) (hhist : s'.history = s.history) : Sound d₀ s' := by
  have hst : s'.standing = s.standing := by rw [State.standing, State.standing, hhist]
  have running : ∀ {r : ℕ} {t : Task}, s'.tasks[r]? = some t → t.phase ≠ .queued →
      s.tasks[r]? = some t := fun ht hphase => (ha.queued _ _ ht).resolve_right hphase
  refine { db_eq := ?_, recorded := ?_, overwritten := ?_, notRefused := ?_, known := ?_,
           holder := ?_, pending := ?_, restoreLock := ?_, locks := h.locks.arrived ha }
  · rw [hdb, hst]
    exact h.db_eq
  · intro r writes hw hfailed
    rw [hhist] at hw
    rw [ha.hasFailed] at hfailed
    rw [hst]
    exact h.recorded r writes hw hfailed
  · rw [hst]
    exact pairwise_of_hasFailed h.overwritten ha.hasFailed
  · intro r request ht
    exact h.notRefused r request (running ht (by simp))
  · intro e he
    rw [hst] at he
    obtain ⟨t, ht, hphase⟩ := h.known e he
    exact ⟨t, ha.stays _ _ ht, hphase⟩
  · intro r d hopen
    rw [htr] at hopen
    obtain ⟨request, message, ht⟩ := h.holder r d hopen
    exact ⟨request, message, ha.stays _ _ ht⟩
  · intro r request message undo ht
    exact (h.pending r request message undo (running ht (by simp))).congr htr hst
  · intro r request message host data ht
    exact h.restoreLock r request message host data (running ht (by simp))

/-- A move of a handler: what has to be shown for the handler itself, for the connection, and
for the pending undos of the others. -/
lemma Sound.moved (h : Sound d₀ s) (hm : Moved s s' rid task phase)
    (hisolation : s'.db = replay Database.exec d₀ s'.standing ∧
      (∀ (r : ℕ) (writes : List Statement), .wrote r writes ∈ s'.history →
        s'.hasFailed r = false → ⟨r, writes⟩ ∈ s'.standing) ∧ s'.standing.Pairwise s'.MayFollow)
    (hphase : phase ≠ .queued ∧ phase ≠ .done (.failure transactionOpen))
    (hknown : ∀ e ∈ s'.standing, e.writer = rid ∨ e ∈ s.standing)
    (hholder : ∀ (r : ℕ) (d : Database), s'.transaction = some (r, d) →
      (r = rid ∧ ∃ message, phase = .syncing message .rollback) ∨
        (r ≠ rid ∧ s.transaction = some (r, d)))
    (hself : ∀ message undo, phase = .syncing message undo → Pending d₀ s' rid undo ∧
      ∀ host data, undo = .restore host data → task.request.lockHost = some host)
    (hothers : ∀ (r : ℕ) (request : Request) (message : ℕ) (undo : Undo), r ≠ rid →
      s.tasks[r]? = some ⟨request, .syncing message undo⟩ → Pending d₀ s r undo →
      Pending d₀ s' r undo)
    (hlock : task.phase = .queued → s.lockFree rid task.request = true) : Sound d₀ s' where
  db_eq := hisolation.1
  recorded := hisolation.2.1
  overwritten := hisolation.2.2
  notRefused r request ht := by
    rcases hm.cases ht with ⟨-, heq⟩ | ⟨-, ht'⟩
    · exact hphase.2 (congrArg Task.phase heq).symm
    · exact h.notRefused r request ht'
  known e he := by
    by_cases hw : e.writer = rid
    · rw [hw]
      exact ⟨_, hm.self, hphase.1⟩
    · obtain ⟨t, ht, hqueued⟩ := h.known e ((hknown e he).resolve_left hw)
      exact ⟨t, (hm.other hw).trans ht, hqueued⟩
  holder r d hopen := by
    rcases hholder r d hopen with ⟨rfl, message, rfl⟩ | ⟨hne, hopen'⟩
    · exact ⟨task.request, message, hm.self⟩
    · obtain ⟨request, message, ht⟩ := h.holder r d hopen'
      exact ⟨request, message, (hm.other hne).trans ht⟩
  pending r request message undo ht := by
    rcases hm.cases ht with ⟨rfl, heq⟩ | ⟨hne, ht'⟩
    · exact (hself message undo (congrArg Task.phase heq).symm).1
    · exact hothers r request message undo hne ht' (h.pending r request message undo ht')
  restoreLock r request message host data ht := by
    rcases hm.cases ht with ⟨rfl, heq⟩ | ⟨hne, ht'⟩
    · have hrequest : request = task.request := congrArg Task.request heq
      rw [hrequest]
      exact (hself message _ (congrArg Task.phase heq).symm).2 host data rfl
    · exact h.restoreLock r request message host data ht'
  locks := h.locks.moved hm hlock

/-- A write of a handler that is not answered with a failure. -/
lemma Isolation.wrote {writes : List Statement} (h : Isolation d₀ s)
    (hm : Moved s s' rid task phase) (hphase : ∀ e, phase ≠ .done (.failure e))
    (hdb : s'.db = execAll Database.exec writes s.db)
    (hhist : s'.history = .wrote rid writes :: s.history) :
    s'.db = replay Database.exec d₀ s'.standing ∧
      (∀ (r : ℕ) (writes : List Statement), .wrote r writes ∈ s'.history →
        s'.hasFailed r = false → ⟨r, writes⟩ ∈ s'.standing) ∧ s'.standing.Pairwise s'.MayFollow := by
  have hst : s'.standing = ⟨rid, writes⟩ :: s.standing := by
    rw [State.standing, hhist]
    rfl
  have hfailed := hm.hasFailed hphase
  refine ⟨?_, ?_, ?_⟩
  · rw [hst, hdb, h.db_eq]
    rfl
  · intro r writes' hw hnot
    rw [hhist] at hw
    rw [hfailed] at hnot
    rw [hst]
    rcases List.mem_cons.mp hw with heq | hmem
    · cases heq
      exact List.mem_cons_self
    · exact List.mem_cons_of_mem _ (h.recorded r writes' hmem hnot)
  · rw [hst, List.pairwise_cons]
    refine ⟨fun e _ hnew => ?_, pairwise_of_hasFailed h.overwritten hfailed⟩
    rw [hfailed, hm.not_failed] at hnew
    cases hnew

/-- An entry after a write is the writer's or was there before. -/
lemma writer_or_mem {e : Entry ℕ Statement} {writes : List Statement}
    {entries : List (Entry ℕ Statement)} (he : e ∈ (⟨rid, writes⟩ :: entries : List _)) :
    e.writer = rid ∨ e ∈ entries := by
  rcases List.mem_cons.mp he with rfl | hmem
  · exact .inl rfl
  · exact .inr hmem

/-- A handler moves on without a write or a failure. -/
lemma Isolation.unchanged (h : Isolation d₀ s) (hdb : s'.db = s.db) (hhist : s'.history = s.history)
    (hfailed : ∀ r, s'.hasFailed r = s.hasFailed r) :
    s'.db = replay Database.exec d₀ s'.standing ∧
      (∀ (r : ℕ) (writes : List Statement), .wrote r writes ∈ s'.history →
        s'.hasFailed r = false → ⟨r, writes⟩ ∈ s'.standing) ∧ s'.standing.Pairwise s'.MayFollow := by
  have hst : s'.standing = s.standing := by rw [State.standing, State.standing, hhist]
  refine ⟨?_, ?_, ?_⟩
  · rw [hst, hdb]
    exact h.db_eq
  · intro r writes hw hnot
    rw [hhist] at hw
    rw [hfailed] at hnot
    rw [hst]
    exact h.recorded r writes hw hnot
  · rw [hst]
    exact pairwise_of_hasFailed h.overwritten hfailed

/-- A handler that has taken no step has no entry. -/
lemma Sound.no_entry {request : Request} (h : Sound d₀ s) (hr : s.Ready rid request) :
    ∀ e ∈ s.standing, e.writer ≠ rid := by
  intro e he heq
  obtain ⟨t, ht, hphase⟩ := h.known e he
  rw [heq, hr.queued] at ht
  obtain rfl := Option.some.inj ht
  exact hphase rfl

/-- An open transaction belongs to another handler than one that does not wait to end it. -/
lemma Sound.holder_ne (h : Sound d₀ s) (ht : s.tasks[rid]? = some task)
    (hphase : ∀ message, task.phase ≠ .syncing message .rollback) {d : Database}
    (hopen : s.transaction = some (r, d)) : r ≠ rid := by
  rintro rfl
  obtain ⟨request, message, ht'⟩ := h.holder r d hopen
  rw [ht] at ht'
  obtain rfl := Option.some.inj ht'
  exact hphase message rfl

/-- A handler is refused in its first step. -/
lemma Sound.refused {request : Request} {e : ErrorReply} (h : Sound d₀ s)
    (hr : s.Ready rid request) (he : e ≠ transactionOpen) :
    Sound d₀ (s.reply rid (.failure e)) := by
  have hm : Moved s (s.reply rid (.failure e)) rid ⟨request, .queued⟩ (.done (.failure e)) :=
    ⟨hr.queued, rfl, rfl⟩
  have hnone := h.no_entry hr
  refine h.moved hm ⟨h.db_eq, ?_, ?_⟩ ⟨by simp, by simpa using he⟩ (fun e he => .inr he) ?_ ?_ ?_
    fun _ => hr.lock
  · intro r writes hw hnot
    exact h.recorded r writes hw (hm.survivor hnot).2
  · exact pairwise_of_others hm h.overwritten hnone
  · intro r d hopen
    exact .inr ⟨h.holder_ne hr.queued (by simp) hopen, hopen⟩
  · intro message undo hphase
    cases hphase
  · intro r _ _ undo _ _ hpending
    exact hpending.congr rfl rfl

/-- A handler opens the transaction and writes. -/
lemma Sound.begun {request : Request} {writes : List Statement} (h : Sound d₀ s)
    (hr : s.Ready rid request) (hnone : s.transaction = none) :
    Sound d₀ ((({ s with transaction := some (rid, s.db) } : State).record rid writes).awaitSync
      rid .rollback) := by
  have hm : Moved s
      ((({ s with transaction := some (rid, s.db) } : State).record rid writes).awaitSync rid .rollback)
      rid ⟨request, .queued⟩ (.syncing s.syncs.length .rollback) := ⟨hr.queued, rfl, rfl⟩
  refine h.moved hm (h.toIsolation.wrote hm (by simp) rfl rfl) ⟨by simp, by simp⟩ ?_ ?_ ?_ ?_
    fun _ => hr.lock
  · exact fun e he => writer_or_mem he
  · intro r d hopen
    cases hopen
    exact .inl ⟨rfl, _, rfl⟩
  · intro message undo hphase
    cases hphase
    refine ⟨⟨s.db, writes, [], s.standing, rfl, Own.first (h.no_entry hr), fun _ => h.db_eq⟩, ?_⟩
    intro host data hundo
    cases hundo
  · intro r _ _ undo hne _ hpending
    refine hpending.cons (Ne.symm hne) (fun d hopen => ?_) rfl
    rw [hnone] at hopen
    cases hopen

/-- A handler writes without a transaction of its own and waits for the proxy. -/
lemma Sound.recorded_step {request : Request} {writes : List Statement} (h : Sound d₀ s)
    (hr : s.Ready rid request) (hphase : ∀ e, phase ≠ .done (.failure e)) (hqueued : phase ≠ .queued)
    (hm : Moved s s' rid ⟨request, .queued⟩ phase)
    (hdb : s'.db = execAll Database.exec writes s.db)
    (hhist : s'.history = .wrote rid writes :: s.history) (htr : s'.transaction = s.transaction)
    (hself : ∀ message undo, phase = .syncing message undo → Pending d₀ s' rid undo ∧
      ∀ host data, undo = .restore host data → request.lockHost = some host) : Sound d₀ s' := by
  have hst : s'.standing = ⟨rid, writes⟩ :: s.standing := by
    rw [State.standing, hhist]
    rfl
  refine h.moved hm (h.toIsolation.wrote hm hphase hdb hhist) ⟨hqueued, hphase _⟩ ?_ ?_ hself ?_
    fun _ => hr.lock
  · intro e he
    rw [hst] at he
    exact writer_or_mem he
  · intro r d hopen
    rw [htr] at hopen
    exact .inr ⟨h.holder_ne hr.queued (by simp) hopen, hopen⟩
  · intro r _ _ undo hne _ hpending
    exact hpending.cons (Ne.symm hne) (fun d hopen => htr ▸ hopen) hst

/-- A bulk handler writes, if there is something to write, and waits for the proxy. -/
lemma Sound.kept {request : Request} {writes : List Statement} (h : Sound d₀ s)
    (hr : s.Ready rid request) : Sound d₀ ((s.write rid writes).awaitSync rid .keep) := by
  have hnone := h.no_entry hr
  unfold State.write
  split
  · have hm : Moved s (s.awaitSync rid .keep) rid ⟨request, .queued⟩ (.syncing s.syncs.length .keep) :=
      ⟨hr.queued, rfl, rfl⟩
    refine h.moved hm (h.toIsolation.unchanged rfl rfl (hm.hasFailed (by simp)))
      ⟨by simp, by simp⟩ (fun e he => .inr he) ?_ ?_ ?_ fun _ => hr.lock
    · intro r d hopen
      exact .inr ⟨h.holder_ne hr.queued (by simp) hopen, hopen⟩
    · intro message undo hphase
      cases hphase
      refine ⟨.inl hnone, ?_⟩
      intro host data hundo
      cases hundo
    · intro r _ _ undo _ _ hpending
      exact hpending.congr rfl rfl
  · have hm : Moved s ((s.record rid writes).awaitSync rid .keep) rid ⟨request, .queued⟩
        (.syncing s.syncs.length .keep) := ⟨hr.queued, rfl, rfl⟩
    refine h.recorded_step hr (by simp) (by simp) hm rfl rfl rfl ?_
    intro message undo hphase
    cases hphase
    refine ⟨.inr ⟨writes, [], s.standing, Own.first hnone⟩, ?_⟩
    intro host data hundo
    cases hundo

/-- `PUT` and the toggle write and remember what was there. -/
lemma Sound.restorable {request : Request} {writes : List Statement} {host : String}
    {original : Domain} {data : DomainUpdate} (h : Sound d₀ s) (hr : s.Ready rid request)
    (hlock : request.lockHost = some host) (hfind : s.db.domains.find host = some original)
    (hrestores : Restores host original writes data) :
    Sound d₀ ((s.record rid writes).awaitSync rid (.restore host data)) := by
  have hm : Moved s ((s.record rid writes).awaitSync rid (.restore host data)) rid
      ⟨request, .queued⟩ (.syncing s.syncs.length (.restore host data)) := ⟨hr.queued, rfl, rfl⟩
  refine h.recorded_step hr (by simp) (by simp) hm rfl rfl rfl ?_
  intro message undo hphase
  cases hphase
  constructor
  · refine ⟨writes, [], s.standing, original, Own.first (h.no_entry hr), ?_, hrestores⟩
    rw [← h.db_eq]
    exact hfind
  · intro host' data' hundo
    cases hundo
    exact hlock

/-- Another writer writes and is answered. -/
lemma Sound.written {writer : Writer} (h : Sound d₀ s) (hr : s.Ready rid (.write writer)) :
    Sound d₀ ((s.record rid [writer.statement s.now]).reply rid .success) := by
  have hm : Moved s ((s.record rid [writer.statement s.now]).reply rid .success) rid
      ⟨.write writer, .queued⟩ (.done .success) := ⟨hr.queued, rfl, rfl⟩
  refine h.recorded_step hr (by simp) (by simp) hm rfl rfl rfl ?_
  intro message undo hphase
  cases hphase

/-- `COMMIT`. -/
lemma Sound.committed {request : Request} (h : Sound d₀ s)
    (ht : s.tasks[rid]? = some ⟨request, .syncing message .rollback⟩) :
    Sound d₀ (s.commit.setPhase rid .fanOut) := by
  have hm : Moved s (s.commit.setPhase rid .fanOut) rid ⟨request, .syncing message .rollback⟩ .fanOut :=
    ⟨ht, rfl, rfl⟩
  obtain ⟨d, _, _, _, hopen, -⟩ := h.pending rid request message .rollback ht
  refine h.moved hm (h.toIsolation.unchanged rfl rfl (hm.hasFailed (by simp)))
    ⟨by simp, by simp⟩ (fun e he => .inr he) ?_ ?_ ?_ (by simp)
  · intro r d' hopen'
    cases hopen'
  · intro message' undo hphase
    cases hphase
  · intro r _ _ undo hne _ hpending
    cases undo with
    | rollback =>
      obtain ⟨d', _, _, _, hopen', -⟩ := hpending
      rw [hopen] at hopen'
      cases hopen'
      exact absurd rfl hne
    | restore host data => exact hpending
    | keep => exact hpending

/-- A handler without a transaction goes on after the answer of the proxy. -/
lemma Sound.synced {request : Request} (h : Sound d₀ s)
    (ht : s.tasks[rid]? = some ⟨request, .syncing message undo⟩) (hundo : undo ≠ .rollback) :
    Sound d₀ (s.setPhase rid .fanOut) := by
  have hm : Moved s (s.setPhase rid .fanOut) rid ⟨request, .syncing message undo⟩ .fanOut :=
    ⟨ht, rfl, rfl⟩
  refine h.moved hm (h.toIsolation.unchanged rfl rfl (hm.hasFailed (by simp)))
    ⟨by simp, by simp⟩ (fun e he => .inr he) ?_ ?_ ?_ (by simp)
  · intro r d hopen
    exact .inr ⟨h.holder_ne ht (by simpa using hundo) hopen, hopen⟩
  · intro message' undo' hphase
    cases hphase
  · intro r _ _ undo' _ _ hpending
    exact hpending.congr rfl rfl

/-- `ROLLBACK` of a transaction in which nobody else has written since. -/
lemma Sound.rolledBack {request : Request} {e : ErrorReply} (h : Sound d₀ s)
    (ht : s.tasks[rid]? = some ⟨request, .syncing message .rollback⟩)
    (hundo : s.undoIsolated rid .rollback = true) (he : e ≠ transactionOpen) :
    Sound d₀ ((s.rollback rid).reply rid (.failure e)) := by
  obtain ⟨d, writes, newer, older, hopen, hown, hback⟩ := h.pending rid request message .rollback ht
  have hnewest : newer = [] := by
    rw [State.undoIsolated, hown.newerThan_eq] at hundo
    exact List.isEmpty_iff.mp hundo
  subst hnewest
  have hm : Moved s ((s.rollback rid).reply rid (.failure e)) rid
      ⟨request, .syncing message .rollback⟩ (.done (.failure e)) := ⟨ht, rfl, rfl⟩
  have hdb : ((s.rollback rid).reply rid (.failure e)).db = d := by
    simp [State.rollback, State.reply, State.setPhase, hopen]
  have hst : ((s.rollback rid).reply rid (.failure e)).standing = without rid s.standing := rfl
  refine h.moved hm ⟨?_, ?_, ?_⟩ ⟨by simp, by simpa using he⟩ ?_ ?_ ?_ ?_ (by simp)
  · rw [hst, hown.replay_of_newest rfl, hdb]
    exact hback rfl
  · intro r writes' hw hnot
    obtain ⟨hne, hnot'⟩ := hm.survivor hnot
    have hw' : Event.wrote r writes' ∈ s.history := List.mem_of_ne_of_mem (by simp) hw
    rw [hst]
    exact mem_without.mpr ⟨h.recorded r writes' hw' hnot', hne⟩
  · rw [hst]
    refine pairwise_of_others hm (h.overwritten.sublist List.filter_sublist) fun e' he' => ?_
    exact (mem_without.mp he').2
  · intro e' he'
    exact .inr (mem_without.mp (hst ▸ he')).1
  · intro r d' hopen'
    cases hopen'
  · intro message' undo hphase
    cases hphase
  · intro r _ _ undo hne _ hpending
    exact hpending.rolledBack (Ne.symm hne) hopen hown hst

/-- A compensating update of a row that nobody else has written since. -/
lemma Sound.restored {request : Request} {host : String} {data : DomainUpdate} {e : ErrorReply}
    (h : Sound d₀ s) (ht : s.tasks[rid]? = some ⟨request, .syncing message (.restore host data)⟩)
    (hundo : s.undoIsolated rid (.restore host data) = true) (he : e ≠ transactionOpen) :
    Sound d₀ ((s.restore rid host data).reply rid (.failure e)) := by
  obtain ⟨writes, newer, older, original, hown, hfind, hrestores⟩ :=
    h.pending rid request message _ ht
  obtain ⟨f, hf, hchange, hleft⟩ := hrestores.change
  have hlockHost := h.restoreLock rid request message host data ht
  have hnewer : ∀ e' ∈ newer, touches e' host = false := by
    rw [State.undoIsolated, hown.newerThan_eq] at hundo
    simpa using hundo
  have hm : Moved s ((s.restore rid host data).reply rid (.failure e)) rid
      ⟨request, .syncing message (.restore host data)⟩ (.done (.failure e)) := ⟨ht, rfl, rfl⟩
  have hst : ((s.restore rid host data).reply rid (.failure e)).standing =
      ⟨rid, [.updateDomain host {} s.now]⟩ :: without rid s.standing := rfl
  -- what the own writes have changed is in the row, and the row before them is the original
  have hchanged : s.db = (replay Database.exec d₀ (without rid s.standing)).updateRow host f hf := by
    rw [h.db_eq]
    exact hown.replay_eq (f := fun d : Database => d.updateRow host f hf) hchange
      fun e' he' w hw d => exec_updateRow (notMem_hosts_of_touches (hnewer e' he') hw)
  have hrow : (replay Database.exec d₀ (without rid s.standing)).domains.find host = some original := by
    rw [hown.without_self, replay_append, find_replay hnewer, hfind]
  refine h.moved hm ⟨?_, ?_, ?_⟩ ⟨by simp, by simpa using he⟩ ?_ ?_ ?_ ?_ (by simp)
  · have hdb : ((s.restore rid host data).reply rid (.failure e)).db =
        s.db.updateRow host (data.apply s.now) (data.host_apply s.now) := by
      simp [State.restore, State.reply, State.setPhase, DomainUpdate.statements,
        hrestores.nonempty, execAll, Database.exec, Database.run]
    have hrepaired := updateRow_congr (fun d => (data.host_apply s.now (f d)).trans (hf d))
      (DomainUpdate.host_apply {} s.now) hrow (hleft s.now)
    rw [hdb, hchanged, updateRow_updateRow, hrepaired, hst]
    rfl
  · intro r writes' hw hnot
    obtain ⟨hne, hnot'⟩ := hm.survivor hnot
    have hw' : Event.wrote r writes' ∈ s.history := List.mem_of_ne_of_mem (by simp) hw
    rw [hst]
    exact List.mem_cons_of_mem _ (mem_without.mpr ⟨h.recorded r writes' hw' hnot', hne⟩)
  · rw [hst, List.pairwise_cons]
    constructor
    · intro e' _ _ _ host' hhost'
      simp [overwrites, Statement.overwrites] at hhost'
    · refine pairwise_of_others hm (h.overwritten.sublist List.filter_sublist) fun e' he' => ?_
      exact (mem_without.mp he').2
  · intro e' he'
    rw [hst] at he'
    exact (writer_or_mem he').imp_right fun hmem => (mem_without.mp hmem).1
  · intro r d hopen
    exact .inr ⟨h.holder_ne ht (by simp) hopen, hopen⟩
  · intro message' undo hphase
    cases hphase
  · intro r request' message' undo hne ht' hpending
    refine hpending.restored (Ne.symm hne) rfl hown hrestores.rows ?_ hst
    -- two handlers under the lock of one host do not wait for the proxy together
    rintro host' data' rfl rfl
    have hlockHost' := h.restoreLock r request' message' host' data' ht'
    exact hne (h.locks.eq_of_running ht' ht hlockHost' hlockHost (by simp) (by simp) rfl rfl)

/-- A bulk handler leaves its writes when its sync has failed. -/
lemma Sound.left {request : Request} {e : ErrorReply} (h : Sound d₀ s)
    (ht : s.tasks[rid]? = some ⟨request, .syncing message .keep⟩)
    (hundo : s.undoIsolated rid .keep = true) (he : e ≠ transactionOpen) :
    Sound d₀ (s.reply rid (.failure e)) := by
  have hm : Moved s (s.reply rid (.failure e)) rid ⟨request, .syncing message .keep⟩
      (.done (.failure e)) := ⟨ht, rfl, rfl⟩
  refine h.moved hm ⟨h.db_eq, ?_, ?_⟩ ⟨by simp, by simpa using he⟩ (fun e he => .inr he) ?_ ?_ ?_
    (by simp)
  · intro r writes hw hnot
    exact h.recorded r writes hw (hm.survivor hnot).2
  · rcases h.pending rid request message .keep ht with hnone | ⟨writes, newer, older, hown⟩
    · exact pairwise_of_others hm h.overwritten hnone
    · have hpair := h.overwritten
      rw [hown.split, List.pairwise_append, List.pairwise_cons] at hpair
      obtain ⟨hnewer, ⟨-, holder⟩, hcross⟩ := hpair
      have hmem : (⟨rid, writes⟩ : Entry ℕ Statement) ∈ s.standing := by
        rw [hown.split]
        exact List.mem_append_right _ List.mem_cons_self
      change s.standing.Pairwise _
      rw [hown.split, List.pairwise_append, List.pairwise_cons]
      refine ⟨pairwise_of_others hm hnewer hown.newer, ⟨?_, pairwise_of_others hm holder hown.older⟩, ?_⟩
      · intro e' he' _ hnot host hhost
        rw [State.undoIsolated, List.all_eq_true] at hundo
        have hown' := hundo _ hmem
        rw [hown.olderThan_eq] at hown'
        simp only [ne_eq, not_true_eq_false, decide_false, Bool.false_or, List.all_eq_true] at hown'
        simpa [(hm.survivor hnot).2] using hown' host hhost e' he'
      · intro e' he' e'' he'' hfailed hnot
        rw [hm.hasFailed_other (hown.newer e' he')] at hfailed
        exact hcross e' he' e'' he'' hfailed (hm.survivor hnot).2
  · intro r d hopen
    exact .inr ⟨h.holder_ne ht (by simp) hopen, hopen⟩
  · intro message' undo hphase
    cases hphase
  · intro r _ _ undo _ _ hpending
    exact hpending.congr rfl rfl

/-- The steps after the sync. -/
lemma Sound.proceeded {request : Request} {phase' : Phase} {writes : List Statement}
    (h : Sound d₀ s) (ht : s.tasks[rid]? = some ⟨request, phase⟩)
    (hphase : phase = .fanOut ∨ phase = .profile) (hphase' : phase' = .profile ∨ phase' = .done .success) :
    Sound d₀ ((s.write rid writes).setPhase rid phase') := by
  have hnotFailed : ∀ e, phase' ≠ .done (.failure e) := by
    rcases hphase' with rfl | rfl <;> simp
  have hrunning : phase.isDone = false := by
    rcases hphase with rfl | rfl <;> rfl
  have hnotHolder : ∀ message, phase ≠ .syncing message .rollback := by
    rcases hphase with rfl | rfl <;> simp
  have hnext : phase' ≠ .queued ∧ phase' ≠ .done (.failure transactionOpen) := by
    rcases hphase' with rfl | rfl <;> simp
  have hnotSyncing : ∀ message undo, phase' ≠ .syncing message undo := by
    rcases hphase' with rfl | rfl <;> simp
  have hlock : phase = .queued → s.lockFree rid request = true := by
    rcases hphase with rfl | rfl <;> simp
  have hkeepHolder : ∀ {r : ℕ} {d : Database}, s.transaction = some (r, d) →
      (r = rid ∧ ∃ message, phase' = .syncing message .rollback) ∨
        (r ≠ rid ∧ s.transaction = some (r, d)) := by
    intro r d hopen
    exact .inr ⟨h.holder_ne ht hnotHolder hopen, hopen⟩
  unfold State.write
  split
  · have hm : Moved s (s.setPhase rid phase') rid ⟨request, phase⟩ phase' := ⟨ht, hrunning, rfl⟩
    refine h.moved hm (h.toIsolation.unchanged rfl rfl (hm.hasFailed hnotFailed)) hnext
      (fun e he => .inr he) (fun r d hopen => hkeepHolder hopen) ?_ ?_ hlock
    · intro message undo hsyncing
      exact absurd hsyncing (hnotSyncing message undo)
    · intro r _ _ undo _ _ hpending
      exact hpending.congr rfl rfl
  · have hm : Moved s ((s.record rid writes).setPhase rid phase') rid ⟨request, phase⟩ phase' :=
      ⟨ht, hrunning, rfl⟩
    refine h.moved hm (h.toIsolation.wrote hm hnotFailed rfl rfl) hnext ?_
      (fun r d hopen => hkeepHolder hopen) ?_ ?_ hlock
    · exact fun e he => writer_or_mem he
    · intro message undo hsyncing
      exact absurd hsyncing (hnotSyncing message undo)
    · intro r _ _ undo hne _ hpending
      exact hpending.cons (Ne.symm hne) (fun d hopen => hopen) rfl

/-! ## Runs -/

/-- An isolated step keeps the invariant. -/
lemma Sound.step (h : Sound d₀ s) (ha : Isolated s a) (hst : Step s a s') : Sound d₀ s' := by
  cases hst with
  | tick => exact h.arrived (Arrived.of_eq rfl) rfl rfl rfl
  | receive => exact h.arrived (Arrived.of_append rfl) rfl rfl rfl
  | refused hr hrefused =>
    refine h.refused hr fun he => ?_
    obtain ⟨hopens, hopen⟩ := hrefused he
    rw [transaction_of_isolated ha hr hopens] at hopen
    cases hopen
  | begun hr hnone => exact h.begun hr hnone
  | kept hr => exact h.kept hr
  | restorable hr hlock hfind hrestores => exact h.restorable hr hlock hfind hrestores
  | written hr => exact h.written hr
  | committed ht _ => exact h.committed ht
  | synced ht hundo => exact h.synced ht hundo
  | rolledBack ht hm he => exact h.rolledBack ht (undoIsolated_of_isolated ha ht hm) he
  | restored ht hm he => exact h.restored ht (undoIsolated_of_isolated ha ht hm) he
  | left ht hm he => exact h.left ht (undoIsolated_of_isolated ha ht hm) he
  | proceeded ht hphase hphase' _ => exact h.proceeded ht hphase hphase'
  | monitor => exact h.arrived (Arrived.of_eq rfl) rfl rfl rfl
  | deliver _ => exact h.arrived (Arrived.of_eq rfl) rfl rfl rfl
  | lose _ => exact h.arrived (Arrived.of_eq rfl) rfl rfl rfl
  | answer _ => exact h.arrived (Arrived.of_eq rfl) rfl rfl rfl
  | giveUp _ => exact h.arrived (Arrived.of_eq rfl) rfl rfl rfl

/-- The admin server without requests. -/
lemma sound_initial (db : Database) (domainMap : String → Option String) :
    Sound db (State.initial db domainMap) where
  db_eq := rfl
  recorded rid writes hw := by cases hw
  overwritten := List.Pairwise.nil
  notRefused rid request := by simp [State.initial]
  known e he := by cases he
  holder rid d hopen := by cases hopen
  pending rid request message undo ht := by simp [State.initial] at ht
  restoreLock rid request message host data ht := by simp [State.initial] at ht
  locks i j ti tj host _ hi := by simp [State.initial] at hi

/-- In every run whose undos are isolated and in which no `BEGIN` meets an open transaction,
the handlers are isolated. -/
theorem isolation_of_isolated {db : Database} {domainMap : String → Option String}
    {as : List Action} {t : State} (h : Trace step Isolated (State.initial db domainMap) as t) :
    Isolation db t := by
  have hsound : Sound db t := by
    refine h.invariant (I := Sound db) (fun s a s' hs ha hst => ?_) (sound_initial db domainMap)
    exact hs.step ha (step_cases hst)
  exact hsound.toIsolation

/-- An event of the proxy. -/
def sampleEvent : OptimizationEvent where
  ts := 1
  eventType := "media_cache"
  host := "school.example"
  url := "/clip.mp4"
  decision := "hit"
  elapsedMs := 3

/-- A registration that fails and a toggle that fails, while events arrive between them. -/
def separateHandlers : List Action :=
  [.receive (.create "lab.example" "https://lab.example"), .start 0, .giveUp 0, .resume 0,
    .receive (.write (.events [sampleEvent])), .start 1,
    .receive (.toggle "school.example"), .start 2, .giveUp 1,
    .receive (.write (.events [sampleEvent])), .start 3, .resume 2]

/-- Isolated handlers, with failures. -/
theorem isolation_of_separateHandlers : ∃ t,
    Trace step Isolated (State.initial sampleDatabase fun _ => none) separateHandlers t ∧
      t.idle = true ∧ Isolation sampleDatabase t := by
  have hrun : (checkedRun step State.isolated (State.initial sampleDatabase fun _ => none)
      separateHandlers).any State.idle = true := by decide +kernel
  obtain ⟨t, ht, hidle⟩ := exists_trace_of_checkedRun (I := fun _ => True)
    (fun _ _ _ _ _ => trivial) (fun _ _ _ h => h) trivial hrun
  exact ⟨t, ht, hidle, isolation_of_isolated ht⟩

/-- Events arrive while a registration waits for the proxy, and its sync fails. -/
def eventsInTransaction : List Action :=
  [.receive (.create "lab.example" "https://lab.example"), .start 0,
    .receive (.write (.events [sampleEvent])), .start 1, .giveUp 0, .resume 0]

/-- Two registrations at the same time. -/
def twoRegistrations : List Action :=
  [.receive (.create "lab.example" "https://lab.example"), .start 0,
    .receive (.create "gym.example" "https://gym.example"), .start 1]

/-- The rollback of a registration takes back events that were stored with success, and a
second registration is refused because the transaction of the first is open. -/
theorem stored_events_rolled_back :
    (∃ t, Trace step Free (State.initial sampleDatabase fun _ => none) eventsInTransaction t ∧
      t.idle = true ∧ t.tasks[1]? = some ⟨.write (.events [sampleEvent]), .done .success⟩ ∧
      t.db.optimizationEvents = [] ∧ ¬ Isolation sampleDatabase t) ∧
    ∃ t, Trace step Free (State.initial sampleDatabase fun _ => none) twoRegistrations t ∧
      t.tasks[1]? = some ⟨.create "gym.example" "https://gym.example",
        .done (.failure transactionOpen)⟩ ∧ ¬ Isolation sampleDatabase t := by
  constructor
  · have hrun : (run step (State.initial sampleDatabase fun _ => none) eventsInTransaction).any
        (fun t => t.idle && (t.tasks[1]? = some ⟨.write (.events [sampleEvent]), .done .success⟩) &&
          (t.db.optimizationEvents = []) &&
          !(replay Database.exec sampleDatabase t.standing).optimizationEvents.isEmpty) = true := by
      decide +kernel
    obtain ⟨t, ht, hp⟩ := exists_trace_of_run hrun
    simp only [Bool.and_eq_true, decide_eq_true_eq] at hp
    obtain ⟨⟨⟨hidle, htask⟩, hevents⟩, hreplay⟩ := hp
    refine ⟨t, ht, hidle, htask, hevents, fun h => ?_⟩
    rw [← h.db_eq, hevents] at hreplay
    cases hreplay
  · have hrun : (run step (State.initial sampleDatabase fun _ => none) twoRegistrations).any
        (fun t => t.tasks[1]? = some ⟨.create "gym.example" "https://gym.example",
          .done (.failure transactionOpen)⟩) = true := by
      decide +kernel
    obtain ⟨t, ht, hp⟩ := exists_trace_of_run hrun
    have htask := of_decide_eq_true hp
    exact ⟨t, ht, htask, fun h => h.notRefused 1 _ htask⟩

end SmartSchoolCdn.Admin
