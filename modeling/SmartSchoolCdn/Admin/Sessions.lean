import SmartSchoolCdn.Admin.Accounts

/-!
# Revocation of sessions

A token is accepted while the row of its user is enabled and has the version of the token, and
every change that ends sessions raises the version (`Ends`).  A log-in signs the version of the
row against which it checked the password, so its token cannot outlive a later revocation.

The change of one's own password signs the version it finds at its end, which may be that of a
revocation since the check.  In the runs in which no revocation of the user comes between the
check and the change, an accepted token has not been revoked (`accepted_unrevoked`).
-/

namespace SmartSchoolCdn.Accounts

open Tables Traces

variable {ended : List ℕ}

/-! ## The standing of a credential check -/

/-- What a step does to the versions and the history. -/
structure Ends (s s' : State) (ended : List ℕ) : Prop where
  history : s'.history = s.history ++ ended
  bumps : Bumps s.db s'.db ended

/-- A check of the user's password was made on a version that is not past the present one, and
while the versions are equal no entry of the history since then is the user's, but for the
change `own`. -/
def Standing (s : State) (id tv since : ℕ) (own : Option ℕ) : Prop :=
  ∃ u, s.db.users.find id = some u ∧ tv ≤ u.tokenVersion ∧
    (tv = u.tokenVersion → ∀ j, since ≤ j → own ≠ some j → s.history[j]? ≠ some id)

variable {s s' : State} {id tv since : ℕ} {own : Option ℕ}

/-- A step that ends no sessions. -/
lemma ends_nil (hhistory : s'.history = s.history) (hbumps : Bumps s.db s'.db []) : Ends s s' [] :=
  ⟨hhistory.trans (List.append_nil _).symm, hbumps⟩

/-- A check that has just been made. -/
lemma standing_now {u : User} (h : s.db.users.find id = some u) (hsince : s.history.length ≤ since) :
    Standing s id u.tokenVersion since own := by
  refine ⟨u, h, Nat.le_refl _, fun _ j hj _ hentry => ?_⟩
  have hlt := (List.getElem?_eq_some_iff.mp hentry).1
  omega

/-- The check of a change of one's own password, when the change is made and nothing of the user
has come since the check. -/
lemma standing_own {u : User} (h : s'.db.users.find id = some u)
    (hhistory : s'.history = s.history ++ [id])
    (hself : ∀ j, since ≤ j → s.history[j]? ≠ some id) :
    Standing s' id u.tokenVersion since (some s.history.length) := by
  refine ⟨u, h, Nat.le_refl _, fun _ j hj hown hentry => ?_⟩
  rw [hhistory] at hentry
  rcases Nat.lt_trichotomy j s.history.length with hlt | heq | hgt
  · rw [List.getElem?_append_left hlt] at hentry
    exact hself j hj hentry
  · exact hown (congrArg some heq.symm)
  · rw [List.getElem?_eq_none (by simp; omega)] at hentry
    cases hentry

/-- The standing of a check is kept: a revocation of the user raises the version past it. -/
lemma Standing.ends (h : Standing s id tv since own) (hends : Ends s s' ended) :
    Standing s' id tv since own := by
  obtain ⟨u, hu, hle, hunrevoked⟩ := h
  obtain ⟨u', hu', hversion⟩ := hends.bumps id u hu
  refine ⟨u', hu', by omega, fun heq j hj hown hentry => ?_⟩
  have hcount : ended.count id = 0 := by omega
  rw [hends.history] at hentry
  rcases Nat.lt_or_ge j s.history.length with hlt | hge
  · rw [List.getElem?_append_left hlt] at hentry
    exact hunrevoked (by omega) j hj hown hentry
  · rw [List.getElem?_append_right hge] at hentry
    exact List.count_eq_zero.mp hcount (List.mem_of_getElem? hentry)

/-- The checks behind the tokens and behind the log-ins under way stand. -/
structure Sound (s : State) : Prop where
  tokens : ∀ tok ∈ s.tokens, Standing s tok.claims.sub tok.claims.tv tok.since tok.own
  logins : ∀ row password since, .loginVerify row password since ∈ s.tasks →
    Standing s row.id row.tokenVersion since none

/-- A step keeps the checks that were there, so that only the new ones matter. -/
lemma Sound.ends (h : Sound s) (hends : Ends s s' ended)
    (htokens : ∀ tok ∈ s'.tokens, tok ∈ s.tokens ∨
      Standing s' tok.claims.sub tok.claims.tv tok.since tok.own)
    (hlogins : ∀ row password since, .loginVerify row password since ∈ s'.tasks →
      .loginVerify row password since ∈ s.tasks ∨ Standing s' row.id row.tokenVersion since none) :
    Sound s' where
  tokens tok htok := by
    rcases htokens tok htok with hold | hnew
    · exact (h.tokens tok hold).ends hends
    · exact hnew
  logins row password since hlogin := by
    rcases hlogins row password since hlogin with hold | hnew
    · exact (h.logins row password since hold).ends hends
    · exact hnew

/-- A step that issues no token and reads no row. -/
lemma Sound.kept (h : Sound s) (hends : Ends s s' ended) (htokens : s'.tokens ⊆ s.tokens)
    (htasks : s'.tasks ⊆ s.tasks) : Sound s' :=
  h.ends hends (fun _ htok => .inl (htokens htok)) fun _ _ _ ht => .inl (htasks ht)

/-- A step that issues a token, whose check stands, and reads no row. -/
lemma Sound.issued (h : Sound s) (hends : Ends s s' ended) {tok : Token}
    (htokens : s'.tokens = s.tokens ++ [tok])
    (htok : Standing s' tok.claims.sub tok.claims.tv tok.since tok.own)
    (htasks : s'.tasks ⊆ s.tasks) : Sound s' := by
  refine h.ends hends (fun tok' htok' => ?_) fun _ _ _ ht => .inl (htasks ht)
  rw [htokens] at htok'
  rcases List.mem_append.mp htok' with hold | hnew
  · exact .inl hold
  · obtain rfl := List.mem_singleton.mp hnew
    exact .inr htok

/-! ## The condition -/

/-- No revocation of the user comes between the check and the end of a change of one's own
password. -/
def Undisturbed (s : State) : Action → Prop
  | .resume i _ _ => ∀ id since, s.tasks[i]? = some (.passwordHash id (some since)) →
      ∀ j, since ≤ j → s.history[j]? ≠ some id
  | _ => True

/-- No revocation of the user has come since the credential check, but for the change of the
password that issued the token. -/
def Unrevoked (s : State) (tok : Token) : Prop :=
  ∀ j, tok.since ≤ j → tok.own ≠ some j → s.history[j]? ≠ some tok.claims.sub

/-! ## Steps -/

/-- The end of a change of a password. -/
lemma sound_finishPassword {tasks : List Task} {selfSince : Option ℕ} {hash : String} {now : ℕ}
    (h : Sound s) (hsub : tasks ⊆ s.tasks)
    (hself : ∀ since, selfSince = some since → ∀ j, since ≤ j → s.history[j]? ≠ some id) :
    Sound ((s.having tasks).finishPassword id selfSince hash now) := by
  have hbumps : Bumps s.db ((s.having tasks).revoke (.updatePassword id hash) id now).db [id] :=
    (bumps_change (by simp) (by simp)).trans (bumps_bump id now)
  have hends : ∀ s', s'.db.users = ((s.having tasks).revoke (.updatePassword id hash) id now).db.users →
      s'.history = s.history ++ [id] → Ends s s' [id] := by
    intro s' husers hhistory
    refine ⟨hhistory, ?_⟩
    unfold Bumps
    rw [husers]
    exact hbumps
  unfold State.finishPassword
  cases selfSince with
  | none =>
    exact h.kept (hends _ rfl rfl) (fun _ htok => htok) hsub
  | some since =>
    dsimp only
    split
    · exact h.kept (hends _ rfl rfl) (fun _ htok => htok) hsub
    · rename_i updated hupdated
      obtain rfl : updated.id = id := Table.key_of_find hupdated
      have hrow : ((s.having tasks).revoke (.updatePassword updated.id hash) updated.id now).db.users.find
          updated.id = some updated := hupdated
      exact h.issued (hends _ rfl rfl) rfl (standing_own hrow rfl (hself since rfl)) hsub

/-- The end of the setup. -/
lemma sound_finishSetup {tasks : List Task} {username hash : String} {now : ℕ} (h : Sound s)
    (hsub : tasks ⊆ s.tasks) : Sound ((s.having tasks).finishSetup username hash now) := by
  unfold State.finishSetup
  split
  · exact h.kept (ends_nil rfl (bumps_refl _)) (fun _ htok => htok) hsub
  · rename_i db' hdb
    split
    · exact h.kept (ends_nil rfl (bumps_create hdb)) (fun _ htok => htok) hsub
    · rename_i u hu
      have hid : u.id = db'.lastUserId := Table.key_of_find hu
      have hrow : db'.users.find u.id = some u := by rw [hid, hu]
      exact h.issued (ends_nil rfl (bumps_create hdb)) rfl (standing_now hrow (Nat.le_refl _)) hsub

/-- The end of the creation of a user. -/
lemma sound_finishCreate {tasks : List Task} {username hash : String} {now : ℕ} (h : Sound s)
    (hsub : tasks ⊆ s.tasks) : Sound ((s.having tasks).finishCreate username hash now) := by
  unfold State.finishCreate
  split
  · exact h.kept (ends_nil rfl (bumps_refl _)) (fun _ htok => htok) hsub
  · rename_i db' hdb
    split
    · exact h.kept (ends_nil rfl (bumps_create hdb)) (fun _ htok => htok) hsub
    · -- the audit log is another table
      exact h.kept (ends_nil rfl fun id u hu => bumps_create hdb id u hu) (fun _ htok => htok)
        hsub

variable {js : Runtime} {verifyPassword : String → String → Bool} {a : Action}

/-- A step under the condition. -/
lemma sound_step (hs : Sound s) (ha : Undisturbed s a)
    (h : step js verifyPassword s a = some s') : Sound s' := by
  cases step_effect h with
  | answer tasks hsub =>
    exact hs.kept (ends_nil rfl (bumps_refl _)) (fun _ htok => htok) hsub
  | await tasks hsub task hwait =>
    refine hs.ends (ends_nil rfl (bumps_refl _)) (fun tok htok => .inl htok)
      fun row password since ht => ?_
    rcases List.mem_append.mp ht with hold | hnew
    · exact .inl (hsub hold)
    · -- the log-in has just read the row
      obtain rfl := List.mem_singleton.mp hnew
      obtain ⟨hrow, rfl⟩ := hwait
      exact .inr (standing_now hrow (Nat.le_refl _))
  | restart =>
    exact hs.ends (ends_nil rfl (bumps_refl _)) (fun tok htok => .inl htok)
      fun row password since ht => absurd ht List.not_mem_nil
  | enable tasks hsub hopen id now =>
    exact hs.kept (ends_nil rfl (bumps_change (by simp) (by simp))) (fun _ htok => htok) hsub
  | disable tasks hsub hopen id now =>
    have hbumps : Bumps s.db ((s.having tasks).revoke (.disable id) id now).db [id] :=
      (bumps_change (by simp) (by simp)).trans (bumps_bump id now)
    exact hs.kept ⟨rfl, hbumps⟩ (fun _ htok => htok) hsub
  | login tasks hsub row password since hlogin now =>
    have hends : Ends s ((({ s.having tasks with
        db := s.db.exec (.changeUser (.updateLastLogin row.id) now) }).issue row now since none).answer
          .login 200) [] :=
      ends_nil rfl (bumps_change (by simp) (by simp))
    exact hs.issued hends rfl ((hs.logins row password since hlogin).ends hends) hsub
  | setup i hash now tasks hsub username hi => exact sound_finishSetup hs hsub
  | create i hash now tasks hsub username hi => exact sound_finishCreate hs hsub
  | password i hash now tasks hsub id selfSince hi =>
    exact sound_finishPassword hs hsub fun since hsince => ha id since (hi.trans (by rw [hsince]))

/-- In every run in which no revocation of the user comes between the check and the end of a
change of one's own password, an accepted token has not been revoked since its check. -/
theorem accepted_unrevoked {db : Database} {as : List Action}
    (h : Trace (step js verifyPassword) Undisturbed (State.start db) as s) {tok : Token}
    (htok : tok ∈ s.tokens) {now : ℕ} (haccepted : requireAuth s.db now tok.claims = true) :
    Unrevoked s tok := by
  have hstart : Sound (State.start db) := by
    constructor
    · intro tok htok
      cases htok
    · intro row password since ht
      cases ht
  have hsound : Sound s := h.invariant (fun _ _ _ hs ha hstep => sound_step hs ha hstep) hstart
  obtain ⟨u, hu, -, hunrevoked⟩ := hsound.tokens tok htok
  have hversion : tok.claims.tv = u.tokenVersion := by
    unfold requireAuth at haccepted
    rw [hu] at haccepted
    simp only [Bool.and_eq_true, beq_iff_eq] at haccepted
    exact haccepted.2.2.symm
  exact hunrevoked hversion

/-! ## Sample runs -/

/-- An administrator sets the server up and creates a user, who logs in. -/
def signInActions : List Action :=
  [.setup "admin@a.kr" "password1", .resume 0 (sampleHash "password1") 100,
   .request 0 (.createUser "kim@a.kr" "password2") 101, .resume 0 "" 101,
   .resume 0 (sampleHash "password2") 102,
   .login "kim@a.kr" "password2", .resume 0 "" 103]

/-- The user's password is reset while the user, whose old password has been checked, changes
it. -/
def overtakenActions : List Action :=
  signInActions ++
    [.request 1 (.changePassword "2" "password3" (some "password2")) 104, .resume 0 "" 104,
     .resume 0 "" 105,
     .request 0 (.changePassword "2" "password4" none) 106, .resume 1 "" 106,
     .resume 1 (sampleHash "password4") 107,
     .resume 0 (sampleHash "password3") 108]

/-- The user changes the password, and nobody else does. -/
def undisturbedActions : List Action :=
  signInActions ++
    [.request 1 (.changePassword "2" "password3" (some "password2")) 104, .resume 0 "" 104,
     .resume 0 "" 105, .resume 0 (sampleHash "password3") 106]

/-- The session that the user's change has issued outlives the reset. -/
theorem overtaken_session_accepted : ∃ s, Trace (step asciiRuntime sampleVerify) Free
    (State.start (Database.ofDomains Table.empty)) overtakenActions s ∧
    ∃ tok ∈ s.tokens, requireAuth s.db 109 tok.claims = true ∧ ¬ Unrevoked s tok := by
  have hrun : ((run (step asciiRuntime sampleVerify) (State.start (Database.ofDomains Table.empty))
      overtakenActions).any fun s => s.tokens.any fun tok => requireAuth s.db 109 tok.claims &&
        decide (tok.since = 0 ∧ tok.own = some 1 ∧ s.history[0]? = some tok.claims.sub)) = true := by
    decide +kernel
  obtain ⟨s, hs, htokens⟩ := exists_trace_of_run hrun
  obtain ⟨tok, htok, hp⟩ := List.any_eq_true.mp htokens
  rw [Bool.and_eq_true, decide_eq_true_eq] at hp
  obtain ⟨haccepted, hsince, hown, hentry⟩ := hp
  refine ⟨s, hs, tok, htok, haccepted, fun hunrevoked => ?_⟩
  exact hunrevoked 0 (by rw [hsince]) (by rw [hown]; decide) hentry

/-- Whether a step is undisturbed. -/
def checkUndisturbed (s : State) : Action → Bool
  | .resume i _ _ =>
    match s.tasks[i]? with
    | some (.passwordHash id (some since)) => !(s.history.drop since).contains id
    | _ => true
  | _ => true

/-- The check is right. -/
lemma undisturbed_of_check (h : checkUndisturbed s a = true) : Undisturbed s a := by
  cases a with
  | resume i hash now =>
    intro id since htask j hj hentry
    simp only [checkUndisturbed, htask, Bool.not_eq_true', List.contains_eq_mem,
      decide_eq_false_iff_not] at h
    refine h (List.mem_of_getElem? (i := j - since) ?_)
    rwa [List.getElem?_drop, Nat.add_sub_cancel' hj]
  | _ => trivial

/-- The session that an undisturbed change has issued is accepted, and has not been revoked. -/
theorem undisturbed_session_unrevoked : ∃ s, Trace (step asciiRuntime sampleVerify) Undisturbed
    (State.start (Database.ofDomains Table.empty)) undisturbedActions s ∧ s.history = [2] ∧
    ∃ tok ∈ s.tokens, requireAuth s.db 109 tok.claims = true ∧ tok.own = some 0 ∧ Unrevoked s tok := by
  have hrun : ((checkedRun (step asciiRuntime sampleVerify) checkUndisturbed
      (State.start (Database.ofDomains Table.empty)) undisturbedActions).any fun s =>
        decide (s.history = [2]) && s.tokens.any fun tok => requireAuth s.db 109 tok.claims &&
          decide (tok.own = some 0)) = true := by
    decide +kernel
  obtain ⟨s, hs, hp⟩ := exists_trace_of_checkedRun (I := fun _ => True)
    (fun _ _ _ _ _ => trivial) (fun _ _ _ => undisturbed_of_check) trivial hrun
  rw [Bool.and_eq_true, decide_eq_true_eq] at hp
  obtain ⟨hhistory, htokens⟩ := hp
  obtain ⟨tok, htok, haccepted⟩ := List.any_eq_true.mp htokens
  rw [Bool.and_eq_true, decide_eq_true_eq] at haccepted
  exact ⟨s, hs, hhistory, tok, htok, haccepted.1, haccepted.2, accepted_unrevoked hs htok haccepted.1⟩

end SmartSchoolCdn.Accounts
