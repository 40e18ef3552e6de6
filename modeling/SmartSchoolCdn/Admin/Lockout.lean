import SmartSchoolCdn.Admin.Setup

/-!
# No lockout

Nothing in the handlers of the user routes counts the enabled users.  A user cannot disable their
own row, so that whoever disables another one stays behind; and since no archived name is given
out, whoever stays behind is found by their name.

This needs that the user who was let in is still enabled when the handler acts.  It is so when
requests come one by one (`enabled_user_remains`).
-/

namespace SmartSchoolCdn.Accounts

open Tables Traces

/-! ## The users -/

/-- Every user is found by their name, and if there are users then one of them is enabled. -/
structure Manned (db : Database) : Prop where
  listed : ∀ u ∈ db.users.rows, findByUsername db u.username = some u
  enabled : db.users.rows ≠ [] → ∃ u ∈ db.users.rows, u.disabledAt = none

variable {s s' : State} {db db' : Database} {id now : ℕ} {username hash : String}

/-- The users alone matter. -/
lemma Manned.congr (h : Manned db) (husers : db'.users = db.users) : Manned db' where
  listed := by
    unfold findByUsername
    rw [husers]
    exact h.listed
  enabled := by
    rw [husers]
    exact h.enabled

/-- A lookup after an update of one row that keeps the name. -/
lemma findByUsername_updateUser {f : User → User} {hf : ∀ u, (f u).id = u.id}
    (hname : ∀ u, (f u).username = u.username) (username : String) :
    findByUsername (db.updateUser id f hf) username =
      (findByUsername db username).map (Table.onKey User.id id f) := by
  have hsame : ∀ u, (Table.onKey User.id id f u).username = u.username := Table.apply_onKey hname
  unfold findByUsername Database.updateUser
  simp only [Table.rows_modify, List.find?_map, Function.comp_def, hsame]

/-- An update that keeps the names, and leaves an enabled user. -/
lemma Manned.updateUser (h : Manned db) {f : User → User} {hf : ∀ u, (f u).id = u.id}
    (hname : ∀ u, (f u).username = u.username)
    (henabled : ∃ u ∈ (db.updateUser id f hf).users.rows, u.disabledAt = none) :
    Manned (db.updateUser id f hf) where
  listed u' hu' := by
    obtain ⟨u, hu, rfl⟩ := List.mem_map.mp hu'
    have hkept : (Table.onKey User.id id f u).username = u.username := Table.apply_onKey hname u
    rw [findByUsername_updateUser hname, hkept, h.listed u hu, Option.map_some]
  enabled _ := henabled

/-- A row that an update leaves enabled. -/
lemma enabled_updateUser {f : User → User} {hf : ∀ u, (f u).id = u.id} {u : User}
    (hu : u ∈ db.users.rows) (h : u.id = id → (f u).disabledAt = none) (hnone : u.disabledAt = none) :
    ∃ u' ∈ (db.updateUser id f hf).users.rows, u'.disabledAt = none := by
  refine ⟨Table.onKey User.id id f u, List.mem_map_of_mem hu, ?_⟩
  unfold Table.onKey
  split
  · rename_i hid
    exact h hid
  · exact hnone

/-- The changes that disable nobody. -/
lemma Manned.change (h : Manned db) (change : UserChange) (now : ℕ)
    (hcreate : ∀ username hash, change ≠ .create username hash)
    (hdisable : ∀ id, change ≠ .disable id) :
    Manned (db.exec (.changeUser change now)) := by
  have hupdate : ∀ {id : ℕ} {f : User → User} {hf : ∀ u, (f u).id = u.id},
      (∀ u, (f u).username = u.username) →
      (∀ u, u.disabledAt = none → (f u).disabledAt = none) → Manned (db.updateUser id f hf) := by
    intro id f hf hname hkeep
    by_cases hrows : db.users.rows = []
    · have hsame : (db.updateUser id f hf).users.rows = [] := by
        rw [Database.updateUser, Table.rows_modify, hrows, List.map_nil]
      exact ⟨fun u hu => absurd (hsame ▸ hu) List.not_mem_nil, fun hne => absurd hsame hne⟩
    · obtain ⟨u, hu, hnone⟩ := h.enabled hrows
      exact h.updateUser hname (enabled_updateUser hu (fun _ => hkeep u hnone) hnone)
  cases change with
  | create username hash => exact absurd rfl (hcreate username hash)
  | disable id => exact absurd rfl (hdisable id)
  | updatePassword id hash => exact hupdate (fun _ => rfl) fun _ hnone => hnone
  | updateLastLogin id => exact hupdate (fun _ => rfl) fun _ hnone => hnone
  | bumpTokenVersion id => exact hupdate (fun _ => rfl) fun _ hnone => hnone
  | enable id => exact hupdate (fun _ => rfl) fun _ _ => rfl

/-- Whoever disables another user stays. -/
lemma Manned.disable (h : Manned db) {u : User} (hu : db.users.find u.id = some u)
    (hnone : u.disabledAt = none) (hother : u.id ≠ id) :
    Manned (db.exec (.changeUser (.disable id) now)) := by
  have hmem := (Table.find_eq_some_iff.mp hu).1
  exact h.updateUser (fun _ => rfl) (enabled_updateUser hmem (fun hid => absurd hid hother) hnone)

/-- A new user whose name is not reserved. -/
lemma Manned.create (h : Manned db) (hname : isArchived username = false)
    (hdb : db.changeUser now (.create username hash) = some db') : Manned db' := by
  simp only [Database.changeUser] at hdb
  split at hdb
  · cases hdb
  · rename_i hfree
    obtain rfl := Option.some.inj hdb
    by_cases htaken : (db.users.find (db.lastUserId + 1)).isSome = true
    · have hrows : (db.users.insertNew
          { id := db.lastUserId + 1, username := username, passwordHash := hash
            createdAt := now, updatedAt := now }) = db.users := by
        apply Table.eq_of_rows
        rw [Table.rows_insertNew, if_pos htaken]
      exact h.congr hrows
    · have hrows : (db.users.insertNew
          { id := db.lastUserId + 1, username := username, passwordHash := hash
            createdAt := now, updatedAt := now }).rows = db.users.rows ++
          [{ id := db.lastUserId + 1, username := username, passwordHash := hash
             createdAt := now, updatedAt := now }] := by
        rw [Table.rows_insertNew, if_neg htaken]
      constructor
      · intro u hu
        unfold findByUsername
        simp only [hrows, List.mem_append, List.mem_singleton] at hu ⊢
        rcases hu with hold | rfl
        · rw [List.find?_append, show List.find? _ db.users.rows = some u from h.listed u hold,
            Option.some_or]
        · have hnone : db.users.rows.find? (fun u =>
              u.username.toLower = username.toLower && !isArchived u.username) = none := by
            rw [List.find?_eq_none]
            intro u hu hfound
            refine hfree (List.any_eq_true.mpr ⟨u, hu, ?_⟩)
            exact (Bool.and_eq_true_iff.mp hfound).1
          rw [List.find?_append, hnone, Option.none_or]
          simp [hname]
      · intro _
        simp only [hrows]
        exact ⟨_, List.mem_append_right _ List.mem_cons_self, rfl⟩

/-! ## One request after the other -/

/-- A request comes when no handler is under way, so that the check of the session and the
handler are not interrupted. -/
def OneByOne (s : State) : Action → Prop
  | .setup _ _ => s.tasks = []
  | .login _ _ => s.tasks = []
  | .request _ _ _ => s.tasks = []
  | _ => True

/-- No user gets a name of the reserved kind. -/
def Unreserved (s : State) : Action → Prop
  | .resume i _ _ => ∀ username, s.tasks[i]? = some (.setupHash username) ∨
      s.tasks[i]? = some (.createHash username) → isArchived username = false
  | _ => True

/-- Between two requests, and while a handler waits that has nothing left to do with its session. -/
structure Idle (s : State) : Prop where
  manned : Manned s.db
  single : s.tasks.length ≤ 1
  started : ∀ claims operation, .start claims operation ∉ s.tasks

/-- The invariant: a handler that has been let in and not started yet belongs to an enabled user. -/
structure Staffed (s : State) : Prop where
  manned : Manned s.db
  single : s.tasks.length ≤ 1
  actor : ∀ claims operation, .start claims operation ∈ s.tasks →
    ∃ u, s.db.users.find claims.sub = some u ∧ u.disabledAt = none

lemma Idle.staffed (h : Idle s) : Staffed s :=
  ⟨h.manned, h.single, fun claims operation hmem => absurd hmem (h.started claims operation)⟩

/-- A handler ends, and nothing waits. -/
lemma idle_answer (h : Manned s.db) (htasks : s.tasks = []) (route : Route) (status : ℕ)
    (error : Option String) : Idle (s.answer route status error) where
  manned := h
  single := by simp [State.answer, htasks]
  started := by simp [State.answer, htasks]

/-- A handler goes on waiting. -/
lemma idle_await (h : Manned s.db) (htasks : s.tasks = []) {task : Task}
    (hstart : ∀ claims operation, task ≠ .start claims operation) : Idle (s.await task) where
  manned := h
  single := by simp [State.await, htasks]
  started claims operation := by
    simp only [State.await, htasks, List.nil_append, List.mem_singleton]
    exact fun heq => hstart claims operation heq.symm

/-! ## Handlers -/

section Handlers

variable (h : Manned s.db) (htasks : s.tasks = [])
include h htasks

/-- A request to set up. -/
lemma idle_setup (js : Runtime) (username password : String) : Idle (s.setup js username password) := by
  unfold State.setup
  split
  · exact idle_answer h htasks _ _ _
  · split
    · exact idle_answer h htasks _ _ _
    · exact idle_await h htasks (by simp)

/-- A request to log in. -/
lemma idle_login (js : Runtime) (username password : String) : Idle (s.login js username password) := by
  unfold State.login
  split
  · exact idle_answer h htasks _ _ _
  · split
    · exact idle_await h htasks (by simp)
    · split
      · exact idle_await h htasks (by simp)
      · exact idle_await h htasks (by simp)

/-- The creation of a user up to its await. -/
lemma idle_createUser (js : Runtime) (username password : String) :
    Idle (s.createUser js username password) := by
  unfold State.createUser
  split
  · exact idle_answer h htasks _ _ _
  · split
    · exact idle_answer h htasks _ _ _
    · exact idle_await h htasks (by simp)

/-- The change of a password up to its first await. -/
lemma idle_changePassword (claims : SessionClaims) (rawId password : String)
    (currentPassword : Option String) : Idle (s.changePassword claims rawId password currentPassword) := by
  unfold State.changePassword
  split
  · split
    · exact idle_answer h htasks _ _ _
    · split
      · exact idle_answer h htasks _ _ _
      · split
        · split
          · exact idle_answer h htasks _ _ _
          · exact idle_await h htasks (by simp)
        · exact idle_await h htasks (by simp)
  · exact idle_answer h htasks _ _ _

/-- A user is enabled again. -/
lemma idle_enable (rawId : String) (now : ℕ) : Idle (s.enable rawId now) := by
  unfold State.enable
  split
  · exact idle_answer h htasks _ _ _
  · split
    · exact idle_answer h htasks _ _ _
    · split
      · exact idle_answer h htasks _ _ _
      · exact idle_answer (s := { s with db := _ })
          (h.change (.enable _) now (by simp) (by simp)) htasks _ _ _

/-- A user is disabled by another one, who is enabled. -/
lemma idle_disable (claims : SessionClaims)
    (hactor : ∃ u, s.db.users.find claims.sub = some u ∧ u.disabledAt = none) (rawId : String)
    (now : ℕ) : Idle (s.disable claims rawId now) := by
  unfold State.disable
  split
  · exact idle_answer h htasks _ _ _
  · rename_i id _
    split
    · exact idle_answer h htasks _ _ _
    · rename_i hself
      split
      · exact idle_answer h htasks _ _ _
      · split
        · exact idle_answer h htasks _ _ _
        · obtain ⟨actor, hfound, hnone⟩ := hactor
          have hsub : actor.id = claims.sub := (Table.find_eq_some_iff.mp hfound).2
          have hdisabled : Manned (s.db.exec (.changeUser (.disable id) now)) :=
            h.disable (u := actor) (by rw [hsub]; exact hfound) hnone (by rw [hsub]; exact hself)
          have hrevoked : Manned (s.revoke (.disable id) id now).db :=
            hdisabled.change (.bumpTokenVersion id) now (by simp) (by simp)
          exact idle_answer (s := (s.revoke _ id now).audit _ _ _) (hrevoked.congr rfl) htasks _ _ _

/-- A creation behind its await. -/
lemma idle_finishCreate (username hash : String) (now : ℕ) (hname : isArchived username = false) :
    Idle (s.finishCreate username hash now) := by
  unfold State.finishCreate
  split
  · exact idle_answer h htasks _ _ _
  · rename_i db hdb
    have hcreated : Manned db := h.create hname hdb
    split
    · exact idle_answer (s := { s with db := db }) hcreated htasks _ _ _
    · exact idle_answer (s := ({ s with db := db } : State).audit _ _ _) (hcreated.congr rfl) htasks _ _ _

/-- A setup behind its await. -/
lemma idle_finishSetup (username hash : String) (now : ℕ) (hname : isArchived username = false) :
    Idle (s.finishSetup username hash now) := by
  unfold State.finishSetup
  split
  · exact idle_answer h htasks _ _ _
  · rename_i db hdb
    have hcreated : Manned db := h.create hname hdb
    split
    · exact idle_answer (s := { s with db := db }) hcreated htasks _ _ _
    · exact idle_answer (s := ({ s with db := db } : State).issue _ _ _ _) hcreated htasks _ _ _

/-- The change of a password behind its last await. -/
lemma idle_finishPassword (id : ℕ) (selfSince : Option ℕ) (hash : String) (now : ℕ) :
    Idle (s.finishPassword id selfSince hash now) := by
  have hchanged : Manned (s.revoke (.updatePassword id hash) id now).db :=
    (h.change (.updatePassword id hash) now (by simp) (by simp)).change (.bumpTokenVersion id) now
      (by simp) (by simp)
  unfold State.finishPassword
  split
  · exact idle_answer (s := (s.revoke _ id now).audit _ _ _) (hchanged.congr rfl) htasks _ _ _
  · dsimp only
    split
    · exact idle_answer (s := s.revoke _ id now) hchanged htasks _ _ _
    · exact idle_answer (s := ((s.revoke _ id now).issue _ _ _ _).audit _ _ _) (hchanged.congr rfl)
        htasks _ _ _

/-- What a handler does when what it waited for has come. -/
lemma idle_proceed (js : Runtime) (verifyPassword : String → String → Bool) (hash : String) (now : ℕ)
    {task : Task}
    (hname : ∀ username, task = .setupHash username ∨ task = .createHash username →
      isArchived username = false)
    (hactor : ∀ claims operation, task = .start claims operation →
      ∃ u, s.db.users.find claims.sub = some u ∧ u.disabledAt = none) :
    Idle (s.proceed js verifyPassword hash now task) := by
  cases task with
  | setupHash username => exact idle_finishSetup h htasks username hash now (hname username (.inl rfl))
  | loginReject => exact idle_answer h htasks _ _ _
  | loginVerify row password since =>
    simp only [State.proceed]
    split
    · have hlogin : Manned (s.db.exec (.changeUser (.updateLastLogin row.id) now)) :=
        h.change (.updateLastLogin row.id) now (by simp) (by simp)
      exact idle_answer (s := ({ s with db := _ } : State).issue _ _ _ _) hlogin htasks _ _ _
    · exact idle_answer h htasks _ _ _
  | start claims operation =>
    cases operation with
    | createUser username password => exact idle_createUser h htasks js username password
    | changePassword id password currentPassword =>
      exact idle_changePassword h htasks claims id password currentPassword
    | enable id => exact idle_enable h htasks id now
    | disable id => exact idle_disable h htasks claims (hactor claims _ rfl) id now
    | other => exact idle_answer h htasks _ _ _
  | createHash username => exact idle_finishCreate h htasks username hash now (hname username (.inr rfl))
  | currentVerify row current since =>
    simp only [State.proceed]
    split
    · exact idle_await h htasks (by simp)
    · exact idle_answer h htasks _ _ _
  | passwordHash id selfSince => exact idle_finishPassword h htasks id selfSince hash now

end Handlers

/-! ## Runs -/

variable {js : Runtime} {verifyPassword : String → String → Bool} {a : Action}

/-- A step. -/
lemma Staffed.step (hs : Staffed s) (hone : OneByOne s a) (hname : Unreserved s a)
    (h : step js verifyPassword s a = some s') : Staffed s' := by
  cases a with
  | setup username password =>
    obtain rfl := Option.some.inj h
    exact (idle_setup hs.manned hone js username password).staffed
  | login username password =>
    obtain rfl := Option.some.inj h
    exact (idle_login hs.manned hone js username password).staffed
  | request k operation now =>
    obtain ⟨token, -, rfl⟩ := Option.map_eq_some_iff.mp h
    have htasks : s.tasks = [] := hone
    split
    · rename_i hauth
      refine ⟨hs.manned, by simp [State.await, htasks], fun claims operation' hmem => ?_⟩
      obtain ⟨rfl, -⟩ : claims = token.claims ∧ operation' = operation := by
        simpa [State.await, htasks] using hmem
      -- the hook has just seen the row
      simp only [requireAuth, Bool.and_eq_true] at hauth
      split at hauth
      · rename_i u hu
        have hnone : u.disabledAt = none := by
          have hchecks := hauth.2
          rw [Bool.and_eq_true] at hchecks
          simpa using hchecks.1
        exact ⟨u, hu, hnone⟩
      · exact absurd hauth.2 (by simp)
    · exact (idle_answer hs.manned htasks _ _ _).staffed
  | resume i hash now =>
    obtain ⟨task, htask, rfl⟩ := Option.map_eq_some_iff.mp h
    have hrest : s.tasks.eraseIdx i = [] := by
      obtain ⟨hi, -⟩ := List.getElem?_eq_some_iff.mp htask
      have hsingle := hs.single
      apply List.eq_nil_of_length_eq_zero
      rw [List.length_eraseIdx, if_pos hi]
      omega
    refine (idle_proceed (s := s.having (s.tasks.eraseIdx i)) hs.manned hrest js verifyPassword hash
      now ?_ ?_).staffed
    · rintro username (rfl | rfl)
      · exact hname username (.inl htask)
      · exact hname username (.inr htask)
    · rintro claims operation rfl
      exact hs.actor claims operation (List.mem_of_getElem? htask)
  | restart =>
    obtain rfl := Option.some.inj h
    exact ⟨hs.manned, Nat.zero_le _, fun _ _ hmem => absurd hmem List.not_mem_nil⟩

/-- The start, without users. -/
lemma staffed_start (hdb : db.users.rows = []) : Staffed (State.start db) where
  manned := ⟨fun _ hu => absurd (hdb ▸ hu) List.not_mem_nil, fun hne => absurd hdb hne⟩
  single := Nat.zero_le _
  actor := fun _ _ hmem => absurd hmem List.not_mem_nil

/-- After a successful setup there are users. -/
lemma rows_ne_nil_of_success {as : List Action}
    (h : Trace (step js verifyPassword) Free (State.start db) as s) (hsetup : 0 < setupSuccesses s) :
    s.db.users.rows ≠ [] := by
  have hend : setupSuccesses s = 0 ∨ s.db.users.rows ≠ [] := by
    refine h.invariant (I := fun s => setupSuccesses s = 0 ∨ s.db.users.rows ≠ []) ?_ (.inl rfl)
    rintro s a s' hs - hstep
    by_cases ha : Inserts s a
    · exact .inr (step_inserts hstep ha).2
    · obtain ⟨hsame, hkeep⟩ := step_other hstep ha
      exact hs.imp (fun hzero => hsame.trans hzero) hkeep
  exact hend.resolve_left (Nat.ne_of_gt hsetup)

/-- From a database without users, in every run in which requests come one by one and no reserved
name is given out, there is after the first successful setup always an enabled user who is found
by name. -/
theorem enabled_user_remains {as : List Action} (hdb : db.users.rows = [])
    (h : Trace (step js verifyPassword) (fun s a => OneByOne s a ∧ Unreserved s a) (State.start db) as s)
    (hsetup : 0 < setupSuccesses s) :
    ∃ username u, findByUsername s.db username = some u ∧ u.disabledAt = none := by
  have hend : Staffed s :=
    h.invariant (fun s a s' hs hC hstep => hs.step hC.1 hC.2 hstep) (staffed_start hdb)
  obtain ⟨u, hu, hnone⟩ := hend.manned.enabled (rows_ne_nil_of_success h.free hsetup)
  exact ⟨u.username, u, hend.manned.listed u hu, hnone⟩

/-- A user is created, logs in, and disables the first one. -/
def takeoverActions : List Action :=
  setupActions.take 2 ++
    [.request 0 (.createUser "lee@a.kr" "password2") 101, .resume 0 "" 101,
     .resume 0 (sampleHash "password2") 102, .login "lee@a.kr" "password2", .resume 0 "" 103,
     .request 1 (.disable "1") 104, .resume 0 "" 104]

/-- Whether no handler is under way when a request comes, and no reserved name is given out. -/
def checksOneByOne (s : State) : Action → Bool
  | .resume i _ _ => match s.tasks[i]? with
    | some (.setupHash username) => !isArchived username
    | some (.createHash username) => !isArchived username
    | _ => true
  | .restart => true
  | _ => s.tasks.isEmpty

/-- The check is right. -/
lemma of_checksOneByOne (h : checksOneByOne s a = true) : OneByOne s a ∧ Unreserved s a := by
  cases a with
  | setup username password => exact ⟨List.isEmpty_iff.mp h, trivial⟩
  | login username password => exact ⟨List.isEmpty_iff.mp h, trivial⟩
  | request k operation now => exact ⟨List.isEmpty_iff.mp h, trivial⟩
  | restart => exact ⟨trivial, trivial⟩
  | resume i hash now =>
    refine ⟨trivial, fun username htask => ?_⟩
    rcases htask with htask | htask
    · simpa [checksOneByOne, htask] using h
    · simpa [checksOneByOne, htask] using h

/-- The second user remains. -/
theorem enabled_user_remains_takeover : ∃ s, setupSuccesses s = 1 ∧ count s.db = 2 ∧
    (s.db.users.find 1).any (fun u => u.disabledAt.isSome) = true ∧
    ∃ username u, findByUsername s.db username = some u ∧ u.disabledAt = none := by
  have hrun : ((checkedRun (step asciiRuntime sampleVerify) checksOneByOne
      (State.start (Database.ofDomains Table.empty)) takeoverActions).any fun s =>
        decide (setupSuccesses s = 1 ∧ count s.db = 2 ∧
          (s.db.users.find 1).any (fun u => u.disabledAt.isSome) = true)) = true := by
    decide +kernel
  obtain ⟨s, hs, hp⟩ := exists_trace_of_checkedRun (I := fun _ => True)
    (C := fun s a => OneByOne s a ∧ Unreserved s a) (fun _ _ _ _ _ => trivial)
    (fun _ _ _ hc => of_checksOneByOne hc) trivial hrun
  obtain ⟨hone, htwo, hdisabled⟩ := of_decide_eq_true hp
  exact ⟨s, hone, htwo, hdisabled, enabled_user_remains rfl hs (by omega)⟩

end SmartSchoolCdn.Accounts
