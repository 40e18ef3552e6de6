import SmartSchoolCdn.Admin.Database
import SmartSchoolCdn.Admin.Reply
import SmartSchoolCdn.Foundation.Trace

/-!
# Accounts and sessions

The routes of `routes/auth.ts` and `routes/users.ts` that read or write the users, the session
tokens and `requireAuth`.  A handler runs in one piece between two awaits, so that a step is the
start of a handler up to its first await, or what follows an await up to the next or to the end;
the hook `requireAuth` is a piece of its own.  What `hashPassword` returns comes with the step,
since it is salted; `verifyPassword` is a parameter.

The ghost `history` has the user of every change that ends sessions: a new password, or a
disabling.  A token carries where in the history its credential check was made, and which entry
is the change that issued it.
-/

namespace SmartSchoolCdn.Accounts

open Tables

/-! ## Schemas -/

/-- `\s` of a regular expression. -/
def isJsSpace (c : Char) : Bool :=
  [9, 10, 11, 12, 13, 0x20, 0xA0, 0x1680, 0x2028, 0x2029, 0x202F, 0x205F, 0x3000, 0xFEFF].contains c.toNat
    || (0x2000 ≤ c.toNat && c.toNat ≤ 0x200A)

/-- The length of a string of the runtime, in units of 16 bits. -/
def jsLength (s : String) : ℕ :=
  s.toList.length + s.toList.countP fun c => 0x10000 ≤ c.toNat

/-- `EMAIL_LIKE_RE`: one `@` behind a name, and behind it a dot that is neither first nor last. -/
def isEmailLike (s : String) : Bool :=
  !s.toList.any isJsSpace &&
    match Text.splitBy (· == '@') s.toList with
    | [name, domain] => !name.isEmpty && domain.tail.dropLast.contains '.'
    | _ => false

/-- `normalizeUsername`. -/
def normalizeUsername (js : Runtime) (input : String) : String := js.toLowerCase (js.trim input)

/-- A password that may be set. -/
def passwordValid (password : String) : Bool := 8 ≤ jsLength password && jsLength password ≤ 256

/-- `credentialSchema`. -/
def credentialSchema (js : Runtime) (username password : String) : Option (String × String) :=
  if 3 ≤ jsLength username ∧ jsLength username ≤ 254 ∧ isEmailLike username ∧ passwordValid password then
    some (normalizeUsername js username, password)
  else none

/-- `createSchema`. -/
def createSchema (js : Runtime) (username password : String) : Option (String × String) :=
  if jsLength username ≤ 254 ∧ isEmailLike username ∧ passwordValid password then
    some (normalizeUsername js username, password)
  else none

/-- `passwordSchema`. -/
def passwordSchema (password : String) (currentPassword : Option String) : Bool :=
  passwordValid password &&
    currentPassword.all fun current => 1 ≤ jsLength current && jsLength current ≤ 256

/-- `parseUserId`: decimal digits for a safe integer from 1 on. -/
def parseUserId (raw : String) : Option ℕ :=
  (Text.digits? raw.toList).filter fun n => 1 ≤ n && n ≤ 9007199254740991

/-! ## The repository of users -/

/-- `username LIKE '\_\_dup\_%'`, which ignores the case of ASCII letters. -/
def isArchived (username : String) : Bool :=
  decide ("__dup_".toList <+: (username.toList.map Char.toLower))

/-- `UserRepository.count`. -/
def count (db : Database) : ℕ := (db.users.rows.filter fun u => !isArchived u.username).length

/-- `UserRepository.findByUsername`; the column ignores the case of ASCII letters. -/
def findByUsername (db : Database) (username : String) : Option User :=
  db.users.rows.find? fun u => u.username.toLower = username.toLower && !isArchived u.username

/-! ## Tokens -/

/-- `SessionClaims`; the subject is the number that it is read as. -/
structure SessionClaims where
  sub : ℕ
  username : String
  tv : ℕ
  exp : ℕ
  deriving DecidableEq, Repr

/-- `TTL_SECONDS`. -/
def ttlSeconds : ℕ := 3600

/-- `signSessionToken` for a row. -/
def signSessionToken (u : User) (now : ℕ) : SessionClaims where
  sub := u.id
  username := u.username
  tv := u.tokenVersion
  exp := now + ttlSeconds

/-- A token that has been issued.  The ghosts say how long the history was at its credential
check, and which entry is the change of the password that issued it. -/
structure Token where
  claims : SessionClaims
  since : ℕ
  own : Option ℕ := none
  deriving DecidableEq, Repr

/-- `requireAuth` on a token whose signature is right. -/
def requireAuth (db : Database) (now : ℕ) (claims : SessionClaims) : Bool :=
  decide (now < claims.exp) &&
    match db.users.find claims.sub with
    | some u => u.disabledAt.isNone && u.tokenVersion == claims.tv
    | none => false

/-! ## The system -/

/-- The requests behind `requireAuth`, those that have to do with users by their input. -/
inductive Operation
  | createUser (username password : String)
  | changePassword (id password : String) (currentPassword : Option String)
  | enable (id : String)
  | disable (id : String)
  | other
  deriving DecidableEq, Repr

/-- The handlers that wait: for a dummy hash, a verification or a hash, or to start after
`requireAuth`.  The ghost `since` is the length of the history when `verifyPassword` was called. -/
inductive Task
  | setupHash (username : String)
  | loginReject
  | loginVerify (row : User) (password : String) (since : ℕ)
  | start (claims : SessionClaims) (operation : Operation)
  | createHash (username : String)
  | currentVerify (row : User) (currentPassword : String) (since : ℕ)
  | passwordHash (id : ℕ) (selfSince : Option ℕ)
  deriving DecidableEq, Repr

/-- Where an answer comes from. -/
inductive Route
  | setup
  | login
  | requireAuth
  | createUser
  | password
  | enable
  | disable
  | other
  deriving DecidableEq, Repr

/-- An answer, without the user in its body. -/
structure Answer where
  route : Route
  status : ℕ
  error : Option String := none
  deriving DecidableEq, Repr

/-- The database, the waiting handlers, the issued tokens, the answers given so far and the ghost
history. -/
structure State where
  db : Database
  tasks : List Task
  tokens : List Token
  answers : List Answer
  history : List ℕ

/-- A server that has just started beside a database; no token has been issued yet. -/
def State.start (db : Database) : State := ⟨db, [], [], [], []⟩

/-- The actions: a request to set up, to log in, or with a token; the end of what a handler waits
for, with the hash if it waits for one; a restart of the server. -/
inductive Action
  | setup (username password : String)
  | login (username password : String)
  | request (token : ℕ) (operation : Operation) (now : ℕ)
  | resume (task : ℕ) (hash : String) (now : ℕ)
  | restart
  deriving DecidableEq, Repr

namespace State

variable (s : State)

/-- A handler ends with an answer. -/
def answer (route : Route) (status : ℕ) (error : Option String := none) : State :=
  { s with answers := s.answers ++ [⟨route, status, error⟩] }

/-- A handler waits. -/
def await (task : Task) : State := { s with tasks := s.tasks ++ [task] }

/-- A token is issued for a row. -/
def issue (u : User) (now since : ℕ) (own : Option ℕ) : State :=
  { s with tokens := s.tokens ++ [⟨signSessionToken u now, since, own⟩] }

/-- `updatePassword` or `disable`, and `bumpTokenVersion`. -/
def revoke (change : UserChange) (id now : ℕ) : State :=
  { s with
    db := (s.db.exec (.changeUser change now)).exec (.changeUser (.bumpTokenVersion id) now)
    history := s.history ++ [id] }

/-- `auditRepo.insert` for a user. -/
def audit (action : String) (id now : ℕ) : State :=
  { s with
    db := s.db.exec
      (.insertAudit
        { action := action, targetType := "user", targetId := some (toString id), createdAt := now }) }

/-- `POST /api/auth/setup` up to its await. -/
def setup (js : Runtime) (username password : String) : State :=
  match credentialSchema js username password with
  | none => s.answer .setup 400 (some "invalid_input")
  | some (username, _) =>
    if count s.db ≠ 0 then s.answer .setup 409 (some "setup_already_completed")
    else s.await (.setupHash username)

/-- `POST /api/auth/login` up to its await. -/
def login (js : Runtime) (username password : String) : State :=
  match credentialSchema js username password with
  | none => s.answer .login 400 (some "invalid_input")
  | some (username, password) =>
    match findByUsername s.db username with
    | none => s.await .loginReject
    | some u =>
      if u.disabledAt.isSome then s.await .loginReject
      else s.await (.loginVerify u password s.history.length)

/-- `POST /api/users` up to its await. -/
def createUser (js : Runtime) (username password : String) : State :=
  match createSchema js username password with
  | none => s.answer .createUser 400 (some "invalid_input")
  | some (username, _) =>
    if (findByUsername s.db username).isSome then
      s.answer .createUser 409 (some "username_already_exists")
    else s.await (.createHash username)

/-- `PUT /api/users/:id/password` up to its first await. -/
def changePassword (claims : SessionClaims) (rawId password : String)
    (currentPassword : Option String) : State :=
  if passwordSchema password currentPassword then
    match parseUserId rawId with
    | none => s.answer .password 400 (some "invalid_input")
    | some id =>
      match s.db.users.find id with
      | none => s.answer .password 404 (some "user_not_found")
      | some target =>
        if claims.sub = id then
          match currentPassword with
          | none => s.answer .password 400 (some "current_password_required")
          | some current => s.await (.currentVerify target current s.history.length)
        else s.await (.passwordHash id none)
  else s.answer .password 400 (some "invalid_input")

/-- `PUT /api/users/:id/enable`. -/
def enable (rawId : String) (now : ℕ) : State :=
  match parseUserId rawId with
  | none => s.answer .enable 400 (some "invalid_input")
  | some id =>
    match s.db.users.find id with
    | none => s.answer .enable 404 (some "user_not_found")
    | some u =>
      if u.disabledAt.getD 0 = 0 then s.answer .enable 200
      else ({ s with db := s.db.exec (.changeUser (.enable id) now) }).answer .enable 200

/-- `DELETE /api/users/:id`. -/
def disable (claims : SessionClaims) (rawId : String) (now : ℕ) : State :=
  match parseUserId rawId with
  | none => s.answer .disable 400 (some "invalid_input")
  | some id =>
    if claims.sub = id then s.answer .disable 400 (some "cannot_disable_self")
    else
      match s.db.users.find id with
      | none => s.answer .disable 404 (some "user_not_found")
      | some u =>
        if u.disabledAt.getD 0 ≠ 0 then s.answer .disable 200
        else ((s.revoke (.disable id) id now).audit "user.disable" id now).answer .disable 200

/-- A handler behind `requireAuth` starts. -/
def handle (js : Runtime) (claims : SessionClaims) (now : ℕ) : Operation → State
  | .createUser username password => s.createUser js username password
  | .changePassword id password currentPassword => s.changePassword claims id password currentPassword
  | .enable id => s.enable id now
  | .disable id => s.disable claims id now
  | .other => s.answer .other 200

/-- `POST /api/auth/setup` behind its await. -/
def finishSetup (username hash : String) (now : ℕ) : State :=
  match s.db.changeUser now (.create username hash) with
  | none => s.answer .setup 500 (some "internal_error")
  | some db =>
    match db.users.find db.lastUserId with
    | none => ({ s with db := db }).answer .setup 500 (some "internal_error")
    | some u => (({ s with db := db }).issue u now s.history.length none).answer .setup 201

/-- `POST /api/users` behind its await. -/
def finishCreate (username hash : String) (now : ℕ) : State :=
  match s.db.changeUser now (.create username hash) with
  | none => s.answer .createUser 409 (some "username_already_exists")
  | some db =>
    match db.users.find db.lastUserId with
    | none => ({ s with db := db }).answer .createUser 500 (some "internal_error")
    | some u => (({ s with db := db }).audit "user.create" u.id now).answer .createUser 201

/-- `PUT /api/users/:id/password` behind its last await. -/
def finishPassword (id : ℕ) (selfSince : Option ℕ) (hash : String) (now : ℕ) : State :=
  let changed := s.revoke (.updatePassword id hash) id now
  match selfSince with
  | none => (changed.audit "user.password_reset" id now).answer .password 200
  | some since =>
    match changed.db.users.find id with
    | none => changed.answer .password 500 (some "internal_error")
    | some updated =>
      ((changed.issue updated now since (some s.history.length)).audit "user.password_reset" id now).answer
        .password 200

/-- What a handler does when what it waited for has come. -/
def proceed (js : Runtime) (verifyPassword : String → String → Bool) (hash : String) (now : ℕ) :
    Task → State
  | .setupHash username => s.finishSetup username hash now
  | .loginReject => s.answer .login 401 (some "invalid_credentials")
  | .loginVerify row password since =>
    if verifyPassword row.passwordHash password then
      (({ s with db := s.db.exec (.changeUser (.updateLastLogin row.id) now) }).issue row now since
        none).answer .login 200
    else s.answer .login 401 (some "invalid_credentials")
  | .start claims operation => s.handle js claims now operation
  | .createHash username => s.finishCreate username hash now
  | .currentVerify row current since =>
    if verifyPassword row.passwordHash current then s.await (.passwordHash row.id (some since))
    else s.answer .password 400 (some "invalid_current_password")
  | .passwordHash id selfSince => s.finishPassword id selfSince hash now

end State

/-- One step. -/
def step (js : Runtime) (verifyPassword : String → String → Bool) (s : State) : Action → Option State
  | .setup username password => some (s.setup js username password)
  | .login username password => some (s.login js username password)
  | .request k operation now =>
    (s.tokens[k]?).map fun token =>
      if requireAuth s.db now token.claims then s.await (.start token.claims operation)
      else s.answer .requireAuth 401 (some "unauthenticated")
  | .resume i hash now =>
    (s.tasks[i]?).map fun task =>
      ({ s with tasks := s.tasks.eraseIdx i }).proceed js verifyPassword hash now task
  | .restart => some { s with tasks := [] }

/-! ## What a step can do -/

/-- A handler that needs no session. -/
def Task.isOpen : Task → Bool
  | .setupHash _ => true
  | .loginReject => true
  | _ => false

/-- Why a handler waits: a log-in has just read its row, a handler behind `requireAuth` has a
token, and what comes later in a handler follows what came before. -/
def State.MayWait (s : State) : Task → Prop
  | .setupHash _ => True
  | .loginReject => True
  | .loginVerify row _ since => s.db.users.find row.id = some row ∧ since = s.history.length
  | .start _ _ => s.tokens ≠ []
  | _ => ∃ task ∈ s.tasks, task.isOpen = false

/-- The state without some of the waiting handlers. -/
abbrev State.having (s : State) (tasks : List Task) : State := { s with tasks := tasks }

/-- What an action can lead to. -/
inductive Effect (s : State) : Action → State → Prop
  | answer {a : Action} (tasks : List Task) (hsub : tasks ⊆ s.tasks) (route : Route) (status : ℕ)
      (error : Option String) (h : status ≠ 201) : Effect s a ((s.having tasks).answer route status error)
  | await {a : Action} (tasks : List Task) (hsub : tasks ⊆ s.tasks) (task : Task) (h : s.MayWait task) :
      Effect s a ((s.having tasks).await task)
  | restart : Effect s .restart (s.having [])
  | enable {a : Action} (tasks : List Task) (hsub : tasks ⊆ s.tasks)
      (h : ∃ task ∈ s.tasks, task.isOpen = false) (id now : ℕ) :
      Effect s a
        (({ s.having tasks with db := s.db.exec (.changeUser (.enable id) now) }).answer .enable 200)
  | disable {a : Action} (tasks : List Task) (hsub : tasks ⊆ s.tasks)
      (h : ∃ task ∈ s.tasks, task.isOpen = false) (id now : ℕ) :
      Effect s a
        ((((s.having tasks).revoke (.disable id) id now).audit "user.disable" id now).answer .disable 200)
  | login {a : Action} (tasks : List Task) (hsub : tasks ⊆ s.tasks) (row : User) (password : String)
      (since : ℕ) (h : .loginVerify row password since ∈ s.tasks) (now : ℕ) :
      Effect s a
        ((({ s.having tasks with db := s.db.exec (.changeUser (.updateLastLogin row.id) now) }).issue row
          now since none).answer .login 200)
  | setup (i : ℕ) (hash : String) (now : ℕ) (tasks : List Task) (hsub : tasks ⊆ s.tasks)
      (username : String) (h : s.tasks[i]? = some (.setupHash username)) :
      Effect s (.resume i hash now) ((s.having tasks).finishSetup username hash now)
  | create (i : ℕ) (hash : String) (now : ℕ) (tasks : List Task) (hsub : tasks ⊆ s.tasks)
      (username : String) (h : s.tasks[i]? = some (.createHash username)) :
      Effect s (.resume i hash now) ((s.having tasks).finishCreate username hash now)
  | password (i : ℕ) (hash : String) (now : ℕ) (tasks : List Task) (hsub : tasks ⊆ s.tasks)
      (id : ℕ) (selfSince : Option ℕ) (h : s.tasks[i]? = some (.passwordHash id selfSince)) :
      Effect s (.resume i hash now) ((s.having tasks).finishPassword id selfSince hash now)

/-- The row that is found by its name is the row of its number. -/
lemma find_of_findByUsername {db : Database} {username : String} {u : User}
    (h : findByUsername db username = some u) : db.users.find u.id = some u :=
  Table.find_eq_some_iff.mpr ⟨List.mem_of_find?_eq_some h, rfl⟩

variable {js : Runtime} {verifyPassword : String → String → Bool} {s s' : State} {a : Action}

/-- A handler behind `requireAuth`, up to its first await. -/
lemma effect_handle {tasks : List Task} (hsub : tasks ⊆ s.tasks)
    (h : ∃ task ∈ s.tasks, task.isOpen = false) (claims : SessionClaims) (now : ℕ)
    (operation : Operation) : Effect s a ((s.having tasks).handle js claims now operation) := by
  cases operation with
  | createUser username password =>
    simp only [State.handle, State.createUser]
    split
    · exact .answer tasks hsub _ _ _ (by decide)
    · split
      · exact .answer tasks hsub _ _ _ (by decide)
      · exact .await tasks hsub _ h
  | changePassword id password currentPassword =>
    simp only [State.handle, State.changePassword]
    split
    · split
      · exact .answer tasks hsub _ _ _ (by decide)
      · split
        · exact .answer tasks hsub _ _ _ (by decide)
        · split
          · split
            · exact .answer tasks hsub _ _ _ (by decide)
            · exact .await tasks hsub _ h
          · exact .await tasks hsub _ h
    · exact .answer tasks hsub _ _ _ (by decide)
  | enable id =>
    simp only [State.handle, State.enable]
    split
    · exact .answer tasks hsub _ _ _ (by decide)
    · split
      · exact .answer tasks hsub _ _ _ (by decide)
      · split
        · exact .answer tasks hsub _ _ _ (by decide)
        · exact .enable tasks hsub h _ now
  | disable id =>
    simp only [State.handle, State.disable]
    split
    · exact .answer tasks hsub _ _ _ (by decide)
    · split
      · exact .answer tasks hsub _ _ _ (by decide)
      · split
        · exact .answer tasks hsub _ _ _ (by decide)
        · split
          · exact .answer tasks hsub _ _ _ (by decide)
          · exact .disable tasks hsub h _ now
  | other => exact .answer tasks hsub _ _ _ (by decide)

/-- Everything that a step can do. -/
theorem step_effect (h : step js verifyPassword s a = some s') : Effect s a s' := by
  have hself : s.tasks ⊆ s.tasks := fun _ ht => ht
  cases a with
  | setup username password =>
    obtain rfl := Option.some.inj h
    unfold State.setup
    split
    · exact .answer s.tasks hself _ _ _ (by decide)
    · split
      · exact .answer s.tasks hself _ _ _ (by decide)
      · exact .await s.tasks hself _ trivial
  | login username password =>
    obtain rfl := Option.some.inj h
    unfold State.login
    split
    · exact .answer s.tasks hself _ _ _ (by decide)
    · split
      · exact .await s.tasks hself _ trivial
      · rename_i u hu
        split
        · exact .await s.tasks hself _ trivial
        · exact .await s.tasks hself _ ⟨find_of_findByUsername hu, rfl⟩
  | request k operation now =>
    obtain ⟨token, htoken, rfl⟩ := Option.map_eq_some_iff.mp h
    split
    · exact .await s.tasks hself _ (List.ne_nil_of_mem (List.mem_of_getElem? htoken))
    · exact .answer s.tasks hself _ _ _ (by decide)
  | resume i hash now =>
    obtain ⟨task, htask, rfl⟩ := Option.map_eq_some_iff.mp h
    have hsub : s.tasks.eraseIdx i ⊆ s.tasks := List.eraseIdx_subset
    have hmem := List.mem_of_getElem? htask
    cases task with
    | setupHash username => exact .setup i hash now _ hsub username htask
    | loginReject => exact .answer _ hsub _ _ _ (by decide)
    | loginVerify row password since =>
      simp only [State.proceed]
      split
      · exact .login _ hsub row password since hmem now
      · exact .answer _ hsub _ _ _ (by decide)
    | start claims operation => exact effect_handle hsub ⟨_, hmem, rfl⟩ claims now operation
    | createHash username => exact .create i hash now _ hsub username htask
    | currentVerify row current since =>
      simp only [State.proceed]
      split
      · exact .await _ hsub _ ⟨_, hmem, rfl⟩
      · exact .answer _ hsub _ _ _ (by decide)
    | passwordHash id selfSince => exact .password i hash now _ hsub id selfSince htask
  | restart =>
    obtain rfl := Option.some.inj h
    exact .restart

/-! ## Versions -/

/-- The rows stay, and their versions rise once for each occurrence in `ended`. -/
def Bumps (db db' : Database) (ended : List ℕ) : Prop :=
  ∀ id u, db.users.find id = some u →
    ∃ u', db'.users.find id = some u' ∧ u'.tokenVersion = u.tokenVersion + ended.count id

variable {db db' db'' : Database} {ended ended' : List ℕ}

lemma bumps_refl (db : Database) : Bumps db db [] := fun _ u hu => ⟨u, hu, rfl⟩

lemma Bumps.trans (h : Bumps db db' ended) (h' : Bumps db' db'' ended') :
    Bumps db db'' (ended ++ ended') := by
  intro id u hu
  obtain ⟨u', hu', hversion⟩ := h id u hu
  obtain ⟨u'', hu'', hversion'⟩ := h' id u' hu'
  refine ⟨u'', hu'', ?_⟩
  rw [List.count_append]
  omega

/-- An update of one row. -/
lemma bumps_updateUser (id : ℕ) {f : User → User} {hf : ∀ u, (f u).id = u.id}
    (h : ∀ u, (f u).tokenVersion = u.tokenVersion + ended.count id)
    (hother : ∀ id', id' ≠ id → ended.count id' = 0) : Bumps db (db.updateUser id f hf) ended := by
  intro id' u hu
  by_cases hid : id' = id
  · subst hid
    exact ⟨f u, by rw [Database.updateUser, Table.find_modify_self hf, hu]; rfl, h u⟩
  · exact ⟨u, by rw [Database.updateUser, Table.find_modify_ne hf hid, hu], by rw [hother id' hid]; rfl⟩

/-- An insertion. -/
lemma bumps_create {username hash : String} {now : ℕ}
    (h : db.changeUser now (.create username hash) = some db') : Bumps db db' [] := by
  simp only [Database.changeUser] at h
  split at h
  · cases h
  · obtain rfl := Option.some.inj h
    intro id u hu
    refine ⟨u, ?_, rfl⟩
    by_cases hid : db.lastUserId + 1 = id
    · subst hid
      have hself := Table.find_insertNew_self (t := db.users)
        (r := { id := db.lastUserId + 1, username := username, passwordHash := hash, createdAt := now, updatedAt := now })
      rw [hu] at hself
      exact hself
    · have hne := Table.find_insertNew_ne (t := db.users)
        (r := { id := db.lastUserId + 1, username := username, passwordHash := hash, createdAt := now, updatedAt := now })
        hid
      exact hne.trans hu

/-- The changes that leave the version. -/
lemma bumps_change {change : UserChange} {now : ℕ} (hcreate : ∀ username hash, change ≠ .create username hash)
    (hbump : ∀ id, change ≠ .bumpTokenVersion id) : Bumps db (db.exec (.changeUser change now)) [] := by
  cases change with
  | create username hash => exact absurd rfl (hcreate username hash)
  | bumpTokenVersion id => exact absurd rfl (hbump id)
  | updatePassword id hash => exact bumps_updateUser id (fun _ => rfl) fun _ _ => rfl
  | updateLastLogin id => exact bumps_updateUser id (fun _ => rfl) fun _ _ => rfl
  | disable id => exact bumps_updateUser id (fun _ => rfl) fun _ _ => rfl
  | enable id => exact bumps_updateUser id (fun _ => rfl) fun _ _ => rfl

lemma bumps_bump (id now : ℕ) : Bumps db (db.exec (.changeUser (.bumpTokenVersion id) now)) [id] :=
  bumps_updateUser id (fun u => by rw [List.count_singleton_self])
    fun id' hid => List.count_eq_zero.mpr fun hmem => hid (List.mem_singleton.mp hmem)

/-! ## Samples -/

/-- A runtime for ASCII user names. -/
def asciiRuntime : Runtime where
  trim := Text.trim
  toLowerCase := Text.lower
  parseUrl _ := none

/-- A hash that shows the password. -/
def sampleHash (password : String) : String := "$argon2id$" ++ password

/-- The verification of such hashes. -/
def sampleVerify (hash password : String) : Bool := hash == sampleHash password

end SmartSchoolCdn.Accounts
