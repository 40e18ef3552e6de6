import SmartSchoolCdn.Admin.Accounts

/-!
# The first setup

A setup checks that `count` is zero, waits for a hash, and inserts its user.  Others can insert
theirs meanwhile, and `count` leaves out the names of archived rows, which the schema admits.

At most one setup succeeds over the life of a database exactly when each setup that inserts a user
still finds the table empty (`setup_once_iff`): a user that is there can only have come, directly
or by a session, from another setup.
-/

namespace SmartSchoolCdn.Accounts

open Tables Traces

/-- How many setups have been answered with success. -/
def setupSuccesses (s : State) : ℕ :=
  s.answers.countP fun a => a.route = .setup && a.status = 201

/-- Whether the `UNIQUE` constraint refuses a name. -/
def isTaken (db : Database) (username : String) : Bool :=
  db.users.rows.any fun u => u.username.toLower = username.toLower

/-- A setup that inserts a user finds the table empty. -/
def IntoEmpty (s : State) : Action → Prop
  | .resume i _ _ => ∀ username, s.tasks[i]? = some (.setupHash username) →
      isTaken s.db username = false → s.db.users.rows = []
  | _ => True

variable {s s' : State} {db db' : Database}

/-! ## Answers and rows -/

@[simp] lemma setupSuccesses_answer (route : Route) (status : ℕ) (error : Option String) :
    setupSuccesses (s.answer route status error) =
      setupSuccesses s + if route = .setup ∧ status = 201 then 1 else 0 := by
  simp [setupSuccesses, State.answer, List.countP_append, List.countP_cons]

/-- A table that has a row keeps it. -/
lemma rows_ne_nil {ended : List ℕ} (h : Bumps db db' ended) (hrows : db.users.rows ≠ []) :
    db'.users.rows ≠ [] := by
  obtain ⟨u, hu⟩ := List.exists_mem_of_ne_nil _ hrows
  obtain ⟨u', hu', -⟩ := h u.id u (Table.find_eq_some_iff.mpr ⟨hu, rfl⟩)
  exact List.ne_nil_of_mem (Table.find_eq_some_iff.mp hu').1

/-- The insertion of a user whose name is not taken. -/
lemma create_of_free {username : String} (h : isTaken db username = false) (hash : String) (now : ℕ) :
    ∃ db' u, db.changeUser now (.create username hash) = some db' ∧
      db'.users.find db'.lastUserId = some u := by
  have hfind := Table.find_insertNew_self (t := db.users)
    (r := { id := db.lastUserId + 1, username := username, passwordHash := hash, createdAt := now, updatedAt := now })
  refine ⟨{ db with users := db.users.insertNew _, lastUserId := db.lastUserId + 1 }, _, ?_, hfind⟩
  unfold isTaken at h
  simp only [Database.changeUser, h]
  rfl

/-- The insertion of a user whose name is taken. -/
lemma create_of_taken {username hash : String} {now : ℕ} (h : isTaken db username = true) :
    db.changeUser now (.create username hash) = none := by
  unfold isTaken at h
  simp only [Database.changeUser, h]
  rfl

/-! ## Steps -/

/-- The end of a setup whose name is free is a success. -/
lemma finishSetup_of_free {username hash : String} {now : ℕ} (h : isTaken s.db username = false) :
    setupSuccesses (s.finishSetup username hash now) = setupSuccesses s + 1 ∧
      (s.finishSetup username hash now).db.users.rows ≠ [] := by
  obtain ⟨db', u, hdb, hu⟩ := create_of_free h hash now
  simp only [State.finishSetup, hdb, hu]
  refine ⟨?_, List.ne_nil_of_mem (Table.find_eq_some_iff.mp hu).1⟩
  rw [setupSuccesses_answer, if_pos ⟨rfl, rfl⟩]
  rfl

/-- The end of a setup whose name is taken changes nothing. -/
lemma finishSetup_of_taken {username hash : String} {now : ℕ} (h : isTaken s.db username = true) :
    s.finishSetup username hash now = s.answer .setup 500 (some "internal_error") := by
  simp only [State.finishSetup, create_of_taken h]

/-- The end of another creation is no success of a setup. -/
lemma finishCreate_spec (username hash : String) (now : ℕ) :
    setupSuccesses (s.finishCreate username hash now) = setupSuccesses s ∧
      (s.db.users.rows ≠ [] → (s.finishCreate username hash now).db.users.rows ≠ []) := by
  unfold State.finishCreate
  split
  · exact ⟨setupSuccesses_answer _ _ _, fun hrows => hrows⟩
  · rename_i db' hdb
    split
    · exact ⟨setupSuccesses_answer _ _ _, rows_ne_nil (bumps_create hdb)⟩
    · have hkeep := rows_ne_nil (bumps_create hdb)
      exact ⟨setupSuccesses_answer _ _ _, hkeep⟩

/-- The end of a change of a password is no success of a setup. -/
lemma finishPassword_spec (id : ℕ) (selfSince : Option ℕ) (hash : String) (now : ℕ) :
    setupSuccesses (s.finishPassword id selfSince hash now) = setupSuccesses s ∧
      (s.db.users.rows ≠ [] → (s.finishPassword id selfSince hash now).db.users.rows ≠ []) := by
  have hbumps : Bumps s.db (s.revoke (.updatePassword id hash) id now).db [id] :=
    (bumps_change (by simp) (by simp)).trans (bumps_bump id now)
  unfold State.finishPassword
  cases selfSince with
  | none => exact ⟨setupSuccesses_answer _ _ _, rows_ne_nil hbumps⟩
  | some since =>
    dsimp only
    split
    · exact ⟨setupSuccesses_answer _ _ _, rows_ne_nil hbumps⟩
    · exact ⟨setupSuccesses_answer _ _ _, rows_ne_nil hbumps⟩

variable {js : Runtime} {verifyPassword : String → String → Bool} {a : Action}

/-- A setup behind its await, with a name that is free. -/
def Inserts (s : State) (a : Action) : Prop :=
  ∃ i hash now username, a = .resume i hash now ∧ s.tasks[i]? = some (.setupHash username) ∧
    isTaken s.db username = false

/-- A setup that inserts its user succeeds. -/
lemma step_inserts (h : step js verifyPassword s a = some s') (ha : Inserts s a) :
    setupSuccesses s' = setupSuccesses s + 1 ∧ s'.db.users.rows ≠ [] := by
  obtain ⟨i, hash, now, username, rfl, htask, hfree⟩ := ha
  obtain ⟨task, htask', rfl⟩ := Option.map_eq_some_iff.mp h
  obtain rfl : Task.setupHash username = task := Option.some.inj (htask.symm.trans htask')
  exact finishSetup_of_free (s := s.having (s.tasks.eraseIdx i)) hfree

/-- A setup that does not insert its user has found the name taken. -/
lemma isTaken_of_not_inserts {i : ℕ} {hash : String} {now : ℕ} {username : String}
    (hi : s.tasks[i]? = some (.setupHash username)) (ha : ¬ Inserts s (.resume i hash now)) :
    isTaken s.db username = true := by
  by_contra hfree
  exact ha ⟨i, hash, now, username, rfl, hi, Bool.not_eq_true _ ▸ hfree⟩

/-- Every other step is no success of a setup, and keeps a row that is there. -/
lemma step_other (h : step js verifyPassword s a = some s') (ha : ¬ Inserts s a) :
    setupSuccesses s' = setupSuccesses s ∧ (s.db.users.rows ≠ [] → s'.db.users.rows ≠ []) := by
  cases step_effect h with
  | answer tasks hsub route status error hstatus =>
    refine ⟨?_, fun hrows => hrows⟩
    rw [setupSuccesses_answer, if_neg fun hsetup => hstatus hsetup.2]
    rfl
  | await tasks hsub task hwait => exact ⟨rfl, fun hrows => hrows⟩
  | restart => exact ⟨rfl, fun hrows => hrows⟩
  | enable tasks hsub hopen id now =>
    exact ⟨setupSuccesses_answer _ _ _, rows_ne_nil (bumps_change (by simp) (by simp))⟩
  | disable tasks hsub hopen id now =>
    exact ⟨setupSuccesses_answer _ _ _,
      rows_ne_nil ((bumps_change (by simp) (by simp)).trans (bumps_bump id now))⟩
  | login tasks hsub row password since hlogin now =>
    exact ⟨setupSuccesses_answer _ _ _, rows_ne_nil (bumps_change (by simp) (by simp))⟩
  | setup i hash now tasks hsub username hi =>
    have htaken := isTaken_of_not_inserts hi ha
    rw [finishSetup_of_taken (s := s.having tasks) htaken]
    exact ⟨setupSuccesses_answer _ _ _, fun hrows => hrows⟩
  | create i hash now tasks hsub username hi => exact finishCreate_spec username hash now
  | password i hash now tasks hsub id selfSince hi => exact finishPassword_spec id selfSince hash now

/-- Before the first success there are no users, no sessions, and no handlers that need one. -/
def Untouched (s : State) : Prop :=
  setupSuccesses s = 0 →
    s.db.users.rows = [] ∧ s.tokens = [] ∧ ∀ task ∈ s.tasks, task.isOpen = true

/-- Without a success only answers and open handlers can come. -/
lemma untouched_step (hs : Untouched s) (h : step js verifyPassword s a = some s') : Untouched s' := by
  intro hzero
  by_cases ha : Inserts s a
  · have hone := (step_inserts h ha).1
    omega
  · have hsame := (step_other h ha).1
    obtain ⟨hrows, htokens, htasks⟩ := hs (by omega)
    have hclosed : ¬ ∃ task ∈ s.tasks, task.isOpen = false := by
      rintro ⟨task, htask, hopen⟩
      rw [htasks task htask] at hopen
      cases hopen
    cases step_effect h with
    | answer tasks hsub => exact ⟨hrows, htokens, fun task htask => htasks task (hsub htask)⟩
    | await tasks hsub task hwait =>
      refine ⟨hrows, htokens, fun task' htask' => ?_⟩
      rcases List.mem_append.mp htask' with hold | hnew
      · exact htasks task' (hsub hold)
      · obtain rfl := List.mem_singleton.mp hnew
        cases task' with
        | setupHash username => rfl
        | loginReject => rfl
        | loginVerify row password since =>
          have hmem := (Table.find_eq_some_iff.mp hwait.1).1
          rw [hrows] at hmem
          cases hmem
        | start claims operation => exact absurd htokens hwait
        | createHash username => exact absurd hwait hclosed
        | currentVerify row current since => exact absurd hwait hclosed
        | passwordHash id selfSince => exact absurd hwait hclosed
    | restart => exact ⟨hrows, htokens, fun task htask => absurd htask List.not_mem_nil⟩
    | enable tasks hsub hopen => exact absurd hopen hclosed
    | disable tasks hsub hopen => exact absurd hopen hclosed
    | login tasks hsub row password since hlogin => exact absurd ⟨_, hlogin, rfl⟩ hclosed
    | setup i hash now tasks hsub username hi =>
      have htaken := isTaken_of_not_inserts hi ha
      rw [finishSetup_of_taken (s := s.having tasks) htaken]
      exact ⟨hrows, htokens, fun task htask => htasks task (hsub htask)⟩
    | create i hash now tasks hsub username hi =>
      exact absurd ⟨_, List.mem_of_getElem? hi, rfl⟩ hclosed
    | password i hash now tasks hsub id selfSince hi =>
      exact absurd ⟨_, List.mem_of_getElem? hi, rfl⟩ hclosed

/-- The start. -/
lemma untouched_start (hdb : db.users.rows = []) : Untouched (State.start db) :=
  fun _ => ⟨hdb, rfl, fun _ htask => absurd htask List.not_mem_nil⟩

/-- At most one setup is answered with success exactly when every setup that inserts a user finds
the table empty. -/
theorem setup_once_iff {as : List Action} (hdb : db.users.rows = [])
    (h : Trace (step js verifyPassword) Free (State.start db) as s) :
    setupSuccesses s ≤ 1 ↔ Trace (step js verifyPassword) IntoEmpty (State.start db) as s := by
  constructor
  · intro hend
    -- successes are not taken back, so that each comes in a state without one
    refine (h.retrace (I := Untouched) (P := fun s => setupSuccesses s ≤ 1)
      (fun _ _ _ hs hstep => untouched_step hs hstep) ?_ (untouched_start hdb) hend).2
    intro s a s' hs hstep hle
    by_cases ha : Inserts s a
    · have hone := (step_inserts hstep ha).1
      obtain ⟨hrows, -, -⟩ := hs (by omega)
      refine ⟨by omega, ?_⟩
      obtain ⟨i, hash, now, username, rfl, -, -⟩ := ha
      exact fun _ _ _ => hrows
    · have hsame := (step_other hstep ha).1
      refine ⟨by omega, ?_⟩
      cases a with
      | resume i hash now =>
        exact fun username htask hfree => absurd ⟨i, hash, now, username, rfl, htask, hfree⟩ ha
      | _ => trivial
  · intro hempty
    have hend : setupSuccesses s ≤ 1 ∧ (setupSuccesses s = 0 ∨ s.db.users.rows ≠ []) := by
      refine hempty.invariant
        (I := fun s => setupSuccesses s ≤ 1 ∧ (setupSuccesses s = 0 ∨ s.db.users.rows ≠ [])) ?_
        ⟨Nat.zero_le _, .inl rfl⟩
      rintro s a s' ⟨hle, hrows⟩ hC hstep
      by_cases ha : Inserts s a
      · obtain ⟨hone, hrows'⟩ := step_inserts hstep ha
        obtain ⟨i, hash, now, username, rfl, htask, hfree⟩ := ha
        have hzero : setupSuccesses s = 0 := hrows.resolve_right fun hne => hne (hC username htask hfree)
        exact ⟨by omega, .inr hrows'⟩
      · obtain ⟨hsame, hkeep⟩ := step_other hstep ha
        exact ⟨by omega, hrows.imp (by omega) hkeep⟩
    exact hend.1

/-! ## Sample runs -/

/-- A setup that runs alone and one after it. -/
def setupActions : List Action :=
  [.setup "kim@a.kr" "password1", .resume 0 (sampleHash "password1") 100,
   .setup "lee@a.kr" "password2"]

/-- Two setups wait at once. -/
def racingActions : List Action :=
  [.setup "kim@a.kr" "password1", .setup "lee@a.kr" "password2",
   .resume 0 (sampleHash "password1") 100, .resume 0 (sampleHash "password2") 100]

/-- The first setup has a name that is not counted. -/
def archivedActions : List Action :=
  [.setup "__dup_1@a.kr" "password1", .resume 0 (sampleHash "password1") 100,
   .setup "lee@a.kr" "password2", .resume 0 (sampleHash "password2") 101]

/-- Two setups succeed, at once or one after the other. -/
theorem setup_twice : [racingActions, archivedActions].Forall fun as =>
    ∃ s, Trace (step asciiRuntime sampleVerify) Free (State.start (Database.ofDomains Table.empty)) as s ∧
      setupSuccesses s = 2 := by
  rw [List.forall_iff_forall_mem]
  have hrun : ∀ as ∈ [racingActions, archivedActions], ((run (step asciiRuntime sampleVerify)
      (State.start (Database.ofDomains Table.empty)) as).any fun s =>
        decide (setupSuccesses s = 2)) = true := by
    decide +kernel
  intro as has
  obtain ⟨s, hs, htwo⟩ := exists_trace_of_run (hrun as has)
  exact ⟨s, hs, of_decide_eq_true htwo⟩

/-- The second setup is refused. -/
theorem setup_once_alone : ∃ s, Trace (step asciiRuntime sampleVerify) IntoEmpty
    (State.start (Database.ofDomains Table.empty)) setupActions s ∧ setupSuccesses s = 1 := by
  have hrun : ((run (step asciiRuntime sampleVerify) (State.start (Database.ofDomains Table.empty))
      setupActions).any fun s => decide (setupSuccesses s = 1)) = true := by
    decide +kernel
  obtain ⟨s, hs, hp⟩ := exists_trace_of_run hrun
  have hone : setupSuccesses s = 1 := of_decide_eq_true hp
  exact ⟨s, (setup_once_iff rfl hs).mp (Nat.le_of_eq hone), hone⟩

end SmartSchoolCdn.Accounts
