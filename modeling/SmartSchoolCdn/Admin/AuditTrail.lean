import SmartSchoolCdn.Admin.Setup
import Std.Data.String.ToNat

/-!
# The audit trail of the users

`routes/users.ts` writes a row of the audit log when it creates a user, sets a password or disables a
user.  Logging in, enabling and the first setup write none.

Over a run the rows that were added account for the table of users (`users_accounted`): the version
of a user rises once for each row about a reset or a disabling of that user, no password changes and
no user ends up disabled without such a row, and a user who is new has been created by a row or by a
setup.  A row is written from the number of a handler that has waited, so that the user has to be
there still (`TargetsPresent`).
-/

namespace SmartSchoolCdn.Accounts

open Tables Traces

/-! ## Rows about a user -/

/-- The row of the audit log that records an action on a user. -/
def isAbout (action : String) (id : ℕ) (row : AuditLogRow) : Bool :=
  row.action = action && row.targetType = "user" && row.targetId = some (toString id)

/-- How many rows record a change that ends the sessions of a user. -/
def revocations (id : ℕ) (rows : List AuditLogRow) : ℕ :=
  rows.countP fun row => isAbout "user.password_reset" id row || isAbout "user.disable" id row

/-- How many rows record a new user. -/
def creations (rows : List AuditLogRow) : ℕ := rows.countP fun row => row.action = "user.create"

/-- How many requests for a new user have been answered with success. -/
def createSuccesses (s : State) : ℕ :=
  s.answers.countP fun a => a.route = .createUser && a.status = 201

/-- What the rows of the audit log say of a user, before and after. -/
structure Explained (id : ℕ) (u u' : User) (rows : List AuditLogRow) : Prop where
  username : u'.username = u.username
  version : u'.tokenVersion = u.tokenVersion + revocations id rows
  password : u'.passwordHash ≠ u.passwordHash → ∃ row ∈ rows, isAbout "user.password_reset" id row = true
  disabled : u'.disabledAt.isSome = true →
    u.disabledAt.isSome = true ∨ ∃ row ∈ rows, isAbout "user.disable" id row = true

/-- What the rows that have been added to the audit log say of the table of users. -/
structure Recorded (s s' : State) (rows : List AuditLogRow) : Prop where
  /-- Rows and answers are only added. -/
  appended : s'.db.auditLogs = s.db.auditLogs ++ rows
  told : s.answers <+: s'.answers
  /-- The users stay, and the rows explain what became of them. -/
  kept : ∀ id u, s.db.users.find id = some u →
    ∃ u', s'.db.users.find id = some u' ∧ Explained id u u' rows
  /-- A new user has a row, or comes from a setup. -/
  created : ∀ id u', s.db.users.find id = none → s'.db.users.find id = some u' →
    ((∃ row ∈ rows, isAbout "user.create" id row = true) ∨ setupSuccesses s < setupSuccesses s') ∧
      ∃ u : User, u.tokenVersion = 0 ∧ u.disabledAt = none ∧ Explained id u u' rows
  /-- Each row is about a user who is there. -/
  named : ∀ row ∈ rows, ∃ id, row.targetId = some (toString id) ∧ (s'.db.users.find id).isSome = true
  /-- There is one row for each request for a user that succeeds. -/
  answered : createSuccesses s' = createSuccesses s + creations rows
  /-- There are as many new users as rows about them and setups. -/
  counted : s'.db.users.rows.length + setupSuccesses s =
    s.db.users.rows.length + creations rows + setupSuccesses s'

variable {id : ℕ} {u u' u'' : User} {rows rows' : List AuditLogRow} {action : String}

@[simp] lemma revocations_nil (id : ℕ) : revocations id [] = 0 := rfl

@[simp] lemma creations_nil : creations [] = 0 := rfl

@[simp] lemma revocations_append (id : ℕ) (rows rows' : List AuditLogRow) :
    revocations id (rows ++ rows') = revocations id rows + revocations id rows' :=
  List.countP_append

@[simp] lemma creations_append (rows rows' : List AuditLogRow) :
    creations (rows ++ rows') = creations rows + creations rows' :=
  List.countP_append

/-- Users are told apart by the texts of their numbers. -/
lemma targetId_inj {m n : ℕ} (h : some (toString m) = some (toString n)) : m = n :=
  Nat.repr_injective (Option.some.inj h)

/-- A row is about the user whose number it has. -/
lemma targetId_of_isAbout {row : AuditLogRow} (h : isAbout action id row = true) :
    row.targetId = some (toString id) := by
  simp only [isAbout, Bool.and_eq_true, decide_eq_true_eq] at h
  exact h.2

/-- Rows that are about others end no sessions of a user. -/
lemma revocations_eq_zero (h : ∀ row ∈ rows, row.targetId ≠ some (toString id)) : revocations id rows = 0 := by
  rw [revocations, List.countP_eq_zero]
  intro row hrow habout
  rcases Bool.or_eq_true_iff.mp habout with hreset | hdisable
  · exact h row hrow (targetId_of_isAbout hreset)
  · exact h row hrow (targetId_of_isAbout hdisable)

/-- The rows of two runs explain what became of a user over both. -/
lemma Explained.trans (h : Explained id u u' rows) (h' : Explained id u' u'' rows') :
    Explained id u u'' (rows ++ rows') where
  username := h'.username.trans h.username
  version := by rw [h'.version, h.version, revocations_append, Nat.add_assoc]
  password hne := by
    by_cases hmid : u''.passwordHash = u'.passwordHash
    · obtain ⟨row, hrow, habout⟩ := h.password fun heq => hne (hmid.trans heq)
      exact ⟨row, List.mem_append_left _ hrow, habout⟩
    · obtain ⟨row, hrow, habout⟩ := h'.password hmid
      exact ⟨row, List.mem_append_right _ hrow, habout⟩
  disabled hdisabled := by
    rcases h'.disabled hdisabled with hmid | ⟨row, hrow, habout⟩
    · rcases h.disabled hmid with hold | ⟨row, hrow, habout⟩
      · exact .inl hold
      · exact .inr ⟨row, List.mem_append_left _ hrow, habout⟩
    · exact .inr ⟨row, List.mem_append_right _ hrow, habout⟩

/-- A user that nothing has happened to is explained by rows about others. -/
lemma explained_refl (u : User) (h : ∀ row ∈ rows, row.targetId ≠ some (toString id)) :
    Explained id u u rows where
  username := rfl
  version := by rw [revocations_eq_zero h]; rfl
  password hne := absurd rfl hne
  disabled hdisabled := .inl hdisabled

/-! ## Runs that follow each other -/

variable {s s' s'' : State}

/-- Setups that have succeeded stay counted. -/
lemma Recorded.setups_le (h : Recorded s s' rows) : setupSuccesses s ≤ setupSuccesses s' :=
  h.told.sublist.countP_le

/-- A user is there at the end if one of the rows is about the number. -/
lemma Recorded.targetId_ne (h : Recorded s s' rows) (hnone : s'.db.users.find id = none) :
    ∀ row ∈ rows, row.targetId ≠ some (toString id) := by
  intro row hrow htarget
  obtain ⟨id', hid', hsome⟩ := h.named row hrow
  obtain rfl : id = id' := targetId_inj (htarget.symm.trans hid')
  rw [hnone] at hsome
  cases hsome

/-- A user who is there stays. -/
lemma Recorded.isSome_find (h : Recorded s s' rows) (hsome : (s.db.users.find id).isSome = true) :
    (s'.db.users.find id).isSome = true := by
  obtain ⟨u, hu⟩ := Option.isSome_iff_exists.mp hsome
  obtain ⟨u', hu', -⟩ := h.kept id u hu
  rw [hu']
  rfl

/-- What two runs record, one after the other. -/
theorem Recorded.trans (h : Recorded s s' rows) (h' : Recorded s' s'' rows') :
    Recorded s s'' (rows ++ rows') where
  appended := by rw [h'.appended, h.appended, List.append_assoc]
  told := h.told.trans h'.told
  kept id u hu := by
    obtain ⟨u', hu', hfirst⟩ := h.kept id u hu
    obtain ⟨u'', hu'', hsecond⟩ := h'.kept id u' hu'
    exact ⟨u'', hu'', hfirst.trans hsecond⟩
  created id u'' hnone hu'' := by
    have hle := h.setups_le
    have hle' := h'.setups_le
    cases hmid : s'.db.users.find id with
    | none =>
      obtain ⟨hsource, u, hversion, hdisabled, hsecond⟩ := h'.created id u'' hmid hu''
      refine ⟨?_, u, hversion, hdisabled, (explained_refl u (h.targetId_ne hmid)).trans hsecond⟩
      rcases hsource with ⟨row, hrow, habout⟩ | hlt
      · exact .inl ⟨row, List.mem_append_right _ hrow, habout⟩
      · exact .inr (by omega)
    | some u' =>
      obtain ⟨hsource, u, hversion, hdisabled, hfirst⟩ := h.created id u' hnone hmid
      obtain ⟨v, hv, hsecond⟩ := h'.kept id u' hmid
      obtain rfl : u'' = v := Option.some.inj (hu''.symm.trans hv)
      refine ⟨?_, u, hversion, hdisabled, hfirst.trans hsecond⟩
      rcases hsource with ⟨row, hrow, habout⟩ | hlt
      · exact .inl ⟨row, List.mem_append_left _ hrow, habout⟩
      · exact .inr (by omega)
  named row hrow := by
    rcases List.mem_append.mp hrow with hold | hnew
    · obtain ⟨id, hid, hsome⟩ := h.named row hold
      exact ⟨id, hid, h'.isSome_find hsome⟩
    · exact h'.named row hnew
  answered := by rw [h'.answered, h.answered, creations_append, Nat.add_assoc]
  counted := by
    have hfirst := h.counted
    have hsecond := h'.counted
    rw [creations_append]
    omega

/-- Nothing has happened. -/
lemma recorded_refl (s : State) : Recorded s s [] where
  appended := (List.append_nil _).symm
  told := List.prefix_refl _
  kept _ u hu := ⟨u, hu, explained_refl u (fun _ hrow => absurd hrow List.not_mem_nil)⟩
  created id u' hnone hu' := by
    rw [hnone] at hu'
    cases hu'
  named _ hrow := absurd hrow List.not_mem_nil
  answered := rfl
  counted := rfl

/-! ## What a step writes -/

/-- What a step that neither creates a user nor sets the server up adds: an update of one user at
most, and the rows about it. -/
structure Writes (s s' : State) (rows : List AuditLogRow) : Prop where
  appended : s'.db.auditLogs = s.db.auditLogs ++ rows
  told : s.answers <+: s'.answers
  setups : setupSuccesses s' = setupSuccesses s
  creates : createSuccesses s' = createSuccesses s
  unborn : creations rows = 0
  length : s'.db.users.rows.length = s.db.users.rows.length
  kept : ∀ id u, s.db.users.find id = some u →
    ∃ u', s'.db.users.find id = some u' ∧ Explained id u u' rows
  old : ∀ id, (s'.db.users.find id).isSome = (s.db.users.find id).isSome
  named : ∀ row ∈ rows, ∃ id, row.targetId = some (toString id) ∧ (s.db.users.find id).isSome = true

lemma Writes.recorded (h : Writes s s' rows) : Recorded s s' rows where
  appended := h.appended
  told := h.told
  kept := h.kept
  created id u' hnone hu' := by
    have hold := h.old id
    rw [hnone, hu'] at hold
    cases hold
  named row hrow := by
    obtain ⟨id, hid, hsome⟩ := h.named row hrow
    exact ⟨id, hid, (h.old id).trans hsome⟩
  answered := by rw [h.creates, h.unborn]; rfl
  counted := by rw [h.setups, h.unborn, h.length]; rfl

@[simp] lemma createSuccesses_answer (route : Route) (status : ℕ) (error : Option String) :
    createSuccesses (s.answer route status error) =
      createSuccesses s + if route = .createUser ∧ status = 201 then 1 else 0 := by
  simp [createSuccesses, State.answer, List.countP_append, List.countP_cons]

/-- A step that leaves the database. -/
lemma writes_nothing (hdb : s'.db = s.db) (htold : s.answers <+: s'.answers)
    (hsetups : setupSuccesses s' = setupSuccesses s) (hcreates : createSuccesses s' = createSuccesses s) :
    Writes s s' [] where
  appended := by rw [hdb, List.append_nil]
  told := htold
  setups := hsetups
  creates := hcreates
  unborn := rfl
  length := by rw [hdb]
  kept _ u hu := ⟨u, by rw [hdb, hu], explained_refl u (fun _ hrow => absurd hrow List.not_mem_nil)⟩
  old _ := by rw [hdb]
  named _ hrow := absurd hrow List.not_mem_nil

/-- A step that updates one user, and adds rows about that user. -/
lemma writes_modify {f : User → User} {hf : ∀ u, (f u).id = u.id}
    (husers : s'.db.users = s.db.users.modify id f hf)
    (happended : s'.db.auditLogs = s.db.auditLogs ++ rows) (htold : s.answers <+: s'.answers)
    (hsetups : setupSuccesses s' = setupSuccesses s) (hcreates : createSuccesses s' = createSuccesses s)
    (hunborn : creations rows = 0)
    (hsome : rows ≠ [] → (s.db.users.find id).isSome = true)
    (hrows : ∀ row ∈ rows, row.targetId = some (toString id))
    (hself : ∀ u, Explained id u (f u) rows) : Writes s s' rows where
  appended := happended
  told := htold
  setups := hsetups
  creates := hcreates
  unborn := hunborn
  length := by rw [husers, Table.rows_modify, List.length_map]
  kept id' u hu := by
    by_cases hid : id' = id
    · subst hid
      exact ⟨f u, by rw [husers, Table.find_modify_self hf, hu]; rfl, hself u⟩
    · refine ⟨u, by rw [husers, Table.find_modify_ne hf hid, hu], explained_refl u fun row hrow heq => ?_⟩
      exact hid (targetId_inj (heq.symm.trans (hrows row hrow)))
  old id' := by rw [husers, Table.isSome_find_modify hf]
  named row hrow := ⟨id, hrows row hrow, hsome (List.ne_nil_of_mem hrow)⟩

/-- The numbers that have been given out: `AUTOINCREMENT` gives none twice. -/
def Numbered (db : Database) : Prop := ∀ u ∈ db.users.rows, u.id ≤ db.lastUserId

/-- The user whose password a waiting handler goes on to set. -/
def Task.target : Task → Option ℕ
  | .currentVerify row _ _ => some row.id
  | .passwordHash id _ => some id
  | _ => none

/-- The users of the handlers that wait to set a password are there. -/
def TargetsPresent (s : State) : Prop :=
  ∀ task ∈ s.tasks, ∀ id, task.target = some id → (s.db.users.find id).isSome = true

/-- What a step has to show. -/
structure Accounted (s s' : State) : Prop where
  recorded : ∃ rows, Recorded s s' rows
  numbered : Numbered s'.db
  targets : ∀ task ∈ s'.tasks, task ∈ s.tasks ∨
    ∀ id, task.target = some id → (s.db.users.find id).isSome = true

variable {tasks : List Task}

/-- A handler ends with an answer that is no success of a creation. -/
lemma accounted_answer (hnumbered : Numbered s.db) (hsub : tasks ⊆ s.tasks) (route : Route) {status : ℕ}
    (error : Option String) (hstatus : status ≠ 201) :
    Accounted s ((s.having tasks).answer route status error) where
  recorded := by
    have hwrites : Writes s ((s.having tasks).answer route status error) [] := by
      refine writes_nothing rfl (List.prefix_append _ _) ?_ ?_
      · rw [setupSuccesses_answer, if_neg fun h => hstatus h.2]
        rfl
      · rw [createSuccesses_answer, if_neg fun h => hstatus h.2]
        rfl
    exact ⟨[], hwrites.recorded⟩
  numbered := hnumbered
  targets _ htask := .inl (hsub htask)

/-- A handler waits. -/
lemma accounted_await (hnumbered : Numbered s.db) (hsub : tasks ⊆ s.tasks) {task : Task}
    (htarget : ∀ id, task.target = some id → (s.db.users.find id).isSome = true) :
    Accounted s ((s.having tasks).await task) where
  recorded := by
    have hwrites : Writes s ((s.having tasks).await task) [] :=
      writes_nothing rfl (List.prefix_refl _) rfl rfl
    exact ⟨[], hwrites.recorded⟩
  numbered := hnumbered
  targets task' htask' := by
    rcases List.mem_append.mp htask' with hold | hnew
    · exact .inl (hsub hold)
    · obtain rfl := List.mem_singleton.mp hnew
      exact .inr htarget

/-- A request is answered before any await. -/
lemma accounted_answer_first (hnumbered : Numbered s.db) (route : Route) {status : ℕ} (error : Option String)
    (hstatus : status ≠ 201) : Accounted s (s.answer route status error) :=
  accounted_answer hnumbered (List.Subset.refl s.tasks) route error hstatus

/-- The first await of a request. -/
lemma accounted_await_first (hnumbered : Numbered s.db) {task : Task}
    (htarget : ∀ id, task.target = some id → (s.db.users.find id).isSome = true) :
    Accounted s (s.await task) :=
  accounted_await hnumbered (List.Subset.refl s.tasks) htarget

/-- The numbers stay when a row is updated. -/
lemma Numbered.modify {db db' : Database} (h : Numbered db) {f : User → User} {hf : ∀ u, (f u).id = u.id}
    (husers : db'.users = db.users.modify id f hf) (hlast : db'.lastUserId = db.lastUserId) :
    Numbered db' := by
  intro u hu
  rw [husers, Table.rows_modify] at hu
  obtain ⟨v, hv, rfl⟩ := List.mem_map.mp hu
  rw [hlast, Table.key_onKey hf]
  exact h v hv

/-- A handler that updates one user, adds the rows about that user, and ends. -/
lemma accounted_modify (hnumbered : Numbered s.db) {f : User → User} {hf : ∀ u, (f u).id = u.id}
    (husers : s'.db.users = s.db.users.modify id f hf) (hlast : s'.db.lastUserId = s.db.lastUserId)
    (happended : s'.db.auditLogs = s.db.auditLogs ++ rows) {route : Route}
    (hanswers : s'.answers = s.answers ++ [⟨route, 200, none⟩]) (htasks : s'.tasks ⊆ s.tasks)
    (hunborn : creations rows = 0) (hsome : rows ≠ [] → (s.db.users.find id).isSome = true)
    (hrows : ∀ row ∈ rows, row.targetId = some (toString id))
    (hself : ∀ u, Explained id u (f u) rows) : Accounted s s' where
  recorded := by
    have hwrites : Writes s s' rows :=
      writes_modify husers happended (hanswers ▸ List.prefix_append _ _)
        (by simp [setupSuccesses, hanswers, List.countP_append])
        (by simp [createSuccesses, hanswers, List.countP_append])
        hunborn hsome hrows hself
    exact ⟨rows, hwrites.recorded⟩
  numbered := hnumbered.modify husers hlast
  targets _ htask := .inl (htasks htask)

/-- The end of a log-in, or an enabling: no row of the audit log. -/
lemma accounted_unaudited (hnumbered : Numbered s.db) (id : ℕ) (f : User → User) (hf : ∀ u, (f u).id = u.id)
    (husers : s'.db.users = s.db.users.modify id f hf) (hlast : s'.db.lastUserId = s.db.lastUserId)
    (hlogs : s'.db.auditLogs = s.db.auditLogs) {route : Route}
    (hanswers : s'.answers = s.answers ++ [⟨route, 200, none⟩]) (htasks : s'.tasks ⊆ s.tasks)
    (hname : ∀ u, (f u).username = u.username) (hversion : ∀ u, (f u).tokenVersion = u.tokenVersion)
    (hpassword : ∀ u, (f u).passwordHash = u.passwordHash)
    (hdisabled : ∀ u, (f u).disabledAt.isSome = true → u.disabledAt.isSome = true) : Accounted s s' := by
  refine accounted_modify hnumbered husers hlast (hlogs.trans (List.append_nil _).symm) hanswers htasks rfl
    (absurd rfl) (fun _ hrow => absurd hrow List.not_mem_nil) fun u => ?_
  exact
    { username := hname u
      version := hversion u
      password := fun hne => absurd (hpassword u) hne
      disabled := fun h => .inl (hdisabled u h) }

/-- The row that a handler adds about a user. -/
def userRow (action : String) (id now : ℕ) : AuditLogRow where
  action := action
  targetType := "user"
  targetId := some (toString id)
  createdAt := now

lemma isAbout_userRow (action : String) (id now : ℕ) : isAbout action id (userRow action id now) = true := by
  simp [isAbout, userRow]

/-- A disabled user, with the next version. -/
def revokedByDisable (now : ℕ) (u : User) : User :=
  { u with disabledAt := some now, tokenVersion := u.tokenVersion + 1, updatedAt := now }

/-- A user with a new password, and the next version. -/
def revokedByPassword (hash : String) (now : ℕ) (u : User) : User :=
  { u with passwordHash := hash, tokenVersion := u.tokenVersion + 1, updatedAt := now }

lemma id_revokedByDisable (now : ℕ) (u : User) : (revokedByDisable now u).id = u.id := rfl

lemma id_revokedByPassword (hash : String) (now : ℕ) (u : User) :
    (revokedByPassword hash now u).id = u.id := rfl

lemma users_revoke_disable (s : State) (id now : ℕ) :
    (s.revoke (.disable id) id now).db.users =
      s.db.users.modify id (revokedByDisable now) (id_revokedByDisable now) :=
  Table.modify_modify (f := fun u : User => { u with disabledAt := some now, updatedAt := now })
    (g := fun u : User => { u with tokenVersion := u.tokenVersion + 1, updatedAt := now })
    (fun _ => rfl) (fun _ => rfl)

lemma users_revoke_password (s : State) (id : ℕ) (hash : String) (now : ℕ) :
    (s.revoke (.updatePassword id hash) id now).db.users =
      s.db.users.modify id (revokedByPassword hash now) (id_revokedByPassword hash now) :=
  Table.modify_modify (f := fun u : User => { u with passwordHash := hash, updatedAt := now })
    (g := fun u : User => { u with tokenVersion := u.tokenVersion + 1, updatedAt := now })
    (fun _ => rfl) (fun _ => rfl)

/-- A disabling, and the row about it. -/
lemma accounted_disable (hnumbered : Numbered s.db) (hsub : tasks ⊆ s.tasks)
    (hsome : (s.db.users.find id).isSome = true) (now : ℕ) :
    Accounted s
      ((((s.having tasks).revoke (.disable id) id now).audit "user.disable" id now).answer .disable 200) := by
  have hself : ∀ u, Explained id u (revokedByDisable now u) [userRow "user.disable" id now] := fun u =>
    { username := rfl
      version := by simp [revocations, isAbout_userRow, revokedByDisable]
      password := fun hne => absurd rfl hne
      disabled := fun _ => .inr ⟨_, List.mem_singleton_self _, isAbout_userRow _ _ _⟩ }
  refine accounted_modify hnumbered (users_revoke_disable (s.having tasks) id now) rfl rfl rfl hsub rfl
    (fun _ => hsome) (fun row hrow => ?_) hself
  rw [List.mem_singleton.mp hrow]

/-- A change of a password, and the row about it. -/
lemma accounted_finishPassword (hnumbered : Numbered s.db) (hsub : tasks ⊆ s.tasks)
    (hsome : (s.db.users.find id).isSome = true) (selfSince : Option ℕ) (hash : String) (now : ℕ) :
    Accounted s ((s.having tasks).finishPassword id selfSince hash now) := by
  have hself : ∀ u, Explained id u (revokedByPassword hash now u) [userRow "user.password_reset" id now] :=
    fun u =>
      { username := rfl
        version := by simp [revocations, isAbout_userRow, revokedByPassword]
        password := fun _ => ⟨_, List.mem_singleton_self _, isAbout_userRow _ _ _⟩
        disabled := fun hdisabled => .inl hdisabled }
  have husers := users_revoke_password (s.having tasks) id hash now
  have hrows : ∀ row ∈ [userRow "user.password_reset" id now], row.targetId = some (toString id) := by
    intro row hrow
    rw [List.mem_singleton.mp hrow]
    rfl
  unfold State.finishPassword
  cases selfSince with
  | none => exact accounted_modify hnumbered husers rfl rfl rfl hsub rfl (fun _ => hsome) hrows hself
  | some since =>
    dsimp only
    split
    · rename_i hnone
      -- the user is still there when the hash has come
      rw [husers, Table.find_modify_self, Option.map_eq_none_iff] at hnone
      rw [hnone] at hsome
      cases hsome
    · exact accounted_modify hnumbered husers rfl rfl rfl hsub rfl (fun _ => hsome) hrows hself

/-! ## New users -/

/-- The row of a new user. -/
def newUser (db : Database) (username hash : String) (now : ℕ) : User where
  id := db.lastUserId + 1
  username := username
  passwordHash := hash
  createdAt := now
  updatedAt := now

/-- A new user comes behind those who are there. -/
lemma create_spec {db db' : Database} (hnumbered : Numbered db) {username hash : String} {now : ℕ}
    (h : db.changeUser now (.create username hash) = some db') :
    db'.users.rows = db.users.rows ++ [newUser db username hash now] ∧
      db'.lastUserId = db.lastUserId + 1 ∧ db.users.find (db.lastUserId + 1) = none := by
  have hnone : db.users.find (db.lastUserId + 1) = none := by
    rw [← Option.not_isSome_iff_eq_none, Table.isSome_find_iff]
    rintro ⟨u, hu, hid⟩
    have hle := hnumbered u hu
    omega
  simp only [Database.changeUser] at h
  split at h
  · cases h
  · obtain rfl := Option.some.inj h
    refine ⟨?_, rfl, hnone⟩
    rw [Table.rows_insertNew, hnone]
    rfl

/-- The next number is given out. -/
lemma Numbered.create {db db' : Database} (hnumbered : Numbered db) {username hash : String} {now : ℕ}
    (h : db.changeUser now (.create username hash) = some db') : Numbered db' := by
  obtain ⟨hinserted, hnext, -⟩ := create_spec hnumbered h
  intro u hu
  rw [hinserted] at hu
  rw [hnext]
  rcases List.mem_append.mp hu with hold | hnew
  · exact Nat.le_succ_of_le (hnumbered u hold)
  · rw [List.mem_singleton.mp hnew]
    exact Nat.le_refl _

/-- The insertion of a user leaves the audit log. -/
lemma auditLogs_create {db db' : Database} {username hash : String} {now : ℕ}
    (h : db.changeUser now (.create username hash) = some db') : db'.auditLogs = db.auditLogs := by
  simp only [Database.changeUser] at h
  split at h
  · cases h
  · obtain rfl := Option.some.inj h
    rfl

/-- What the insertion of a user does to lookups. -/
lemma find_create {db db' : Database} {username hash : String} {now : ℕ}
    (hrows : db'.users.rows = db.users.rows ++ [newUser db username hash now]) (id : ℕ) :
    db'.users.find id =
      (db.users.find id).or (if id = db.lastUserId + 1 then some (newUser db username hash now) else none) := by
  rw [Table.find, hrows, List.find?_append]
  congr 1
  by_cases hid : id = db.lastUserId + 1
  · subst hid
    simp [newUser]
  · simp [newUser, hid, Ne.symm hid]

/-- A handler that inserts a user, and either adds the row about that user or ends a setup. -/
lemma accounted_create (hnumbered : Numbered s.db) {db' : Database} {username hash : String} {now : ℕ}
    (hdb : s.db.changeUser now (.create username hash) = some db')
    (husers : s'.db.users = db'.users) (hlast : s'.db.lastUserId = db'.lastUserId)
    (htasks : s'.tasks ⊆ s.tasks) (htold : s.answers <+: s'.answers)
    (happended : s'.db.auditLogs = s.db.auditLogs ++ rows)
    (hrows : ∀ row ∈ rows, row = userRow "user.create" (s.db.lastUserId + 1) now)
    (hanswered : createSuccesses s' = createSuccesses s + creations rows)
    (hone : creations rows + setupSuccesses s' = setupSuccesses s + 1) : Accounted s s' := by
  obtain ⟨hinserted, -, hnone⟩ := create_spec hnumbered hdb
  have hfind : ∀ id, s'.db.users.find id = (s.db.users.find id).or
      (if id = s.db.lastUserId + 1 then some (newUser s.db username hash now) else none) := by
    intro id
    rw [husers, find_create hinserted]
  have hquiet : ∀ id, id ≠ s.db.lastUserId + 1 → ∀ row ∈ rows, row.targetId ≠ some (toString id) := by
    intro id hid row hrow htarget
    rw [hrows row hrow] at htarget
    exact hid (targetId_inj htarget).symm
  have hended : revocations (s.db.lastUserId + 1) rows = 0 := by
    rw [revocations, List.countP_eq_zero]
    intro row hrow
    rw [hrows row hrow]
    simp [isAbout, userRow]
  refine ⟨⟨rows, ?_⟩, ?_, fun task htask => .inl (htasks htask)⟩
  · refine ⟨happended, htold, fun id u hu => ?_, fun id u' hold hu' => ?_, fun row hrow => ?_, hanswered, ?_⟩
    · -- the number of a user who is there is not the new one
      have hid : id ≠ s.db.lastUserId + 1 := by
        rintro rfl
        rw [hnone] at hu
        cases hu
      exact ⟨u, by rw [hfind, hu]; rfl, explained_refl u (hquiet id hid)⟩
    · rw [hfind, hold, Option.none_or] at hu'
      split at hu'
      · rename_i hid
        subst hid
        obtain rfl := Option.some.inj hu'
        refine ⟨?_, _, rfl, rfl, rfl, by rw [hended, Nat.add_zero], fun hne => absurd rfl hne, fun h => .inl h⟩
        cases rows with
        | nil =>
          rw [creations_nil] at hone
          exact .inr (by omega)
        | cons row rest =>
          refine .inl ⟨row, List.mem_cons_self, ?_⟩
          rw [hrows row List.mem_cons_self]
          exact isAbout_userRow _ _ _
      · cases hu'
    · refine ⟨s.db.lastUserId + 1, by rw [hrows row hrow]; rfl, ?_⟩
      rw [hfind, hnone, if_pos rfl]
      rfl
    · rw [husers, hinserted, List.length_append, List.length_singleton]
      omega
  · intro u hu
    rw [hlast]
    exact hnumbered.create hdb u (husers ▸ hu)

/-- The end of a creation, and the row about it. -/
lemma accounted_finishCreate (hnumbered : Numbered s.db) (hsub : tasks ⊆ s.tasks)
    (username hash : String) (now : ℕ) :
    Accounted s ((s.having tasks).finishCreate username hash now) := by
  unfold State.finishCreate
  split
  · exact accounted_answer hnumbered hsub _ _ (by decide)
  · rename_i db' hdb
    replace hdb : s.db.changeUser now (.create username hash) = some db' := hdb
    obtain ⟨hinserted, hnext, hnone⟩ := create_spec hnumbered hdb
    have hfind : db'.users.find db'.lastUserId = some (newUser s.db username hash now) := by
      rw [find_create hinserted, hnext, hnone, if_pos rfl]
      rfl
    have hlogs : db'.auditLogs = s.db.auditLogs := auditLogs_create hdb
    rw [hfind]
    have hrow : ∀ row ∈ [userRow "user.create" (s.db.lastUserId + 1) now],
        row = userRow "user.create" (s.db.lastUserId + 1) now := fun row hrow => List.mem_singleton.mp hrow
    refine accounted_create hnumbered hdb rfl rfl hsub (List.prefix_append _ _) ?_ hrow ?_ ?_
    · exact congrArg (· ++ [_]) hlogs
    · exact createSuccesses_answer _ _ _
    · exact (congrArg (1 + ·) (setupSuccesses_answer _ _ _)).trans (Nat.add_comm _ _)

/-- The end of a setup, of which there is no row. -/
lemma accounted_finishSetup (hnumbered : Numbered s.db) (hsub : tasks ⊆ s.tasks)
    (username hash : String) (now : ℕ) :
    Accounted s ((s.having tasks).finishSetup username hash now) := by
  unfold State.finishSetup
  split
  · exact accounted_answer hnumbered hsub _ _ (by decide)
  · rename_i db' hdb
    replace hdb : s.db.changeUser now (.create username hash) = some db' := hdb
    obtain ⟨hinserted, hnext, hnone⟩ := create_spec hnumbered hdb
    have hfind : db'.users.find db'.lastUserId = some (newUser s.db username hash now) := by
      rw [find_create hinserted, hnext, hnone, if_pos rfl]
      rfl
    have hlogs : db'.auditLogs = s.db.auditLogs := auditLogs_create hdb
    rw [hfind]
    have hrow : ∀ row ∈ ([] : List AuditLogRow), row = userRow "user.create" (s.db.lastUserId + 1) now :=
      fun row hrow => absurd hrow List.not_mem_nil
    refine accounted_create hnumbered hdb rfl rfl hsub (List.prefix_append _ _) ?_ hrow ?_ ?_
    · exact hlogs.trans (List.append_nil _).symm
    · exact createSuccesses_answer _ _ _
    · exact (Nat.zero_add _).trans (setupSuccesses_answer _ _ _)

/-! ## Steps -/

variable {js : Runtime} {verifyPassword : String → String → Bool} {a : Action}

/-- A handler behind `requireAuth`, up to its first await. -/
lemma accounted_handle (hnumbered : Numbered s.db) (hsub : tasks ⊆ s.tasks) (claims : SessionClaims)
    (now : ℕ) (operation : Operation) : Accounted s ((s.having tasks).handle js claims now operation) := by
  cases operation with
  | createUser username password =>
    simp only [State.handle, State.createUser]
    split
    · exact accounted_answer hnumbered hsub _ _ (by decide)
    · split
      · exact accounted_answer hnumbered hsub _ _ (by decide)
      · exact accounted_await hnumbered hsub (by simp [Task.target])
  | changePassword rawId password currentPassword =>
    simp only [State.handle, State.changePassword]
    split
    · split
      · exact accounted_answer hnumbered hsub _ _ (by decide)
      · rename_i id hid
        split
        · exact accounted_answer hnumbered hsub _ _ (by decide)
        · rename_i target htarget
          obtain rfl : target.id = id := Table.key_of_find htarget
          have hsome : (s.db.users.find target.id).isSome = true := Option.isSome_iff_exists.mpr ⟨_, htarget⟩
          split
          · split
            · exact accounted_answer hnumbered hsub _ _ (by decide)
            · refine accounted_await hnumbered hsub fun id h => ?_
              obtain rfl := Option.some.inj h
              exact hsome
          · refine accounted_await hnumbered hsub fun id h => ?_
            obtain rfl := Option.some.inj h
            exact hsome
    · exact accounted_answer hnumbered hsub _ _ (by decide)
  | enable rawId =>
    simp only [State.handle, State.enable]
    split
    · exact accounted_answer hnumbered hsub _ _ (by decide)
    · rename_i id hid
      split
      · exact accounted_answer hnumbered hsub _ _ (by decide)
      · split
        · exact accounted_answer hnumbered hsub _ _ (by decide)
        · exact accounted_unaudited hnumbered id
            (fun u : User => { u with disabledAt := none, updatedAt := now }) (fun _ => rfl)
            rfl rfl rfl rfl hsub (fun _ => rfl) (fun _ => rfl) (fun _ => rfl) (by simp)
  | disable rawId =>
    simp only [State.handle, State.disable]
    split
    · exact accounted_answer hnumbered hsub _ _ (by decide)
    · rename_i id hid
      split
      · exact accounted_answer hnumbered hsub _ _ (by decide)
      · split
        · exact accounted_answer hnumbered hsub _ _ (by decide)
        · rename_i u hu
          split
          · exact accounted_answer hnumbered hsub _ _ (by decide)
          · exact accounted_disable hnumbered hsub (Option.isSome_iff_exists.mpr ⟨u, hu⟩) now
  | other => exact accounted_answer hnumbered hsub _ _ (by decide)

/-- Every step is accounted for. -/
theorem step_accounted (hnumbered : Numbered s.db) (hpresent : TargetsPresent s)
    (h : step js verifyPassword s a = some s') : Accounted s s' := by
  cases a with
  | setup username password =>
    obtain rfl := Option.some.inj h
    unfold State.setup
    split
    · exact accounted_answer_first hnumbered _ _ (by decide)
    · split
      · exact accounted_answer_first hnumbered _ _ (by decide)
      · exact accounted_await_first hnumbered (by simp [Task.target])
  | login username password =>
    obtain rfl := Option.some.inj h
    unfold State.login
    split
    · exact accounted_answer_first hnumbered _ _ (by decide)
    · split
      · exact accounted_await_first hnumbered (by simp [Task.target])
      · split
        · exact accounted_await_first hnumbered (by simp [Task.target])
        · exact accounted_await_first hnumbered (by simp [Task.target])
  | request k operation now =>
    obtain ⟨token, htoken, rfl⟩ := Option.map_eq_some_iff.mp h
    split
    · exact accounted_await_first hnumbered (by simp [Task.target])
    · exact accounted_answer_first hnumbered _ _ (by decide)
  | resume i hash now =>
    obtain ⟨task, htask, rfl⟩ := Option.map_eq_some_iff.mp h
    have hsub : s.tasks.eraseIdx i ⊆ s.tasks := List.eraseIdx_subset
    have htarget := hpresent task (List.mem_of_getElem? htask)
    cases task with
    | setupHash username => exact accounted_finishSetup hnumbered hsub username hash now
    | loginReject => exact accounted_answer hnumbered hsub _ _ (by decide)
    | loginVerify row password since =>
      simp only [State.proceed]
      split
      · exact accounted_unaudited hnumbered row.id
          (fun u : User => { u with lastLoginAt := some now, updatedAt := now }) (fun _ => rfl)
          rfl rfl rfl rfl hsub (fun _ => rfl) (fun _ => rfl) (fun _ => rfl) (fun _ hu => hu)
      · exact accounted_answer hnumbered hsub _ _ (by decide)
    | start claims operation => exact accounted_handle hnumbered hsub claims now operation
    | createHash username => exact accounted_finishCreate hnumbered hsub username hash now
    | currentVerify row current since =>
      simp only [State.proceed]
      split
      · refine accounted_await hnumbered hsub fun id hid => ?_
        exact htarget id hid
      · exact accounted_answer hnumbered hsub _ _ (by decide)
    | passwordHash id selfSince =>
      exact accounted_finishPassword hnumbered hsub (htarget id rfl) selfSince hash now
  | restart =>
    obtain rfl := Option.some.inj h
    have hwrites : Writes s (s.having []) [] := writes_nothing rfl (List.prefix_refl _) rfl rfl
    exact ⟨⟨[], hwrites.recorded⟩, hnumbered, fun _ htask => absurd htask List.not_mem_nil⟩

/-! ## Runs -/

/-- The handlers that wait to set a password still have their users. -/
lemma Accounted.targetsPresent (h : Accounted s s') (hpresent : TargetsPresent s) : TargetsPresent s' := by
  obtain ⟨rows, hrows⟩ := h.recorded
  intro task htask id hid
  rcases h.targets task htask with hold | hnew
  · exact hrows.isSome_find (hpresent task hold id hid)
  · exact hrows.isSome_find (hnew id hid)

/-- A user is created, gets another password, and is disabled. -/
def auditedActions : List Action :=
  [.setup "admin@a.kr" "password1", .resume 0 (sampleHash "password1") 100,
   .request 0 (.createUser "kim@a.kr" "password2") 101, .resume 0 "" 101,
   .resume 0 (sampleHash "password2") 102,
   .request 0 (.changePassword "2" "password3" none) 103, .resume 0 "" 103,
   .resume 0 (sampleHash "password3") 104,
   .request 0 (.disable "2") 105, .resume 0 "" 105]

end SmartSchoolCdn.Accounts
