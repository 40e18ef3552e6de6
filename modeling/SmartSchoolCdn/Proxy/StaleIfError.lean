import SmartSchoolCdn.Proxy.Answers

/-!
# Stale if error

`try_serve_stale` looks for an expired copy at the end of a path that began with an ordinary
lookup of the same key, and an ordinary lookup removes an expired copy.  So the copy is there
only when the ordinary lookup did not reach the storage service: the deployment's normal run
ends with the error of the origin (`expired_copy_lost`).

When no ordinary lookup meets the expired copy, the stale lookup is answered, and the window
is open when it is decided, a leader whose origin fetch fails does answer with the copy
(`failed_fetch_served_stale`).
-/

namespace SmartSchoolCdn

open Traces

variable {cfg : Config} {s s' : State} {a : Action} {key : String} {x : Stored Copy} {e : Time}

/-! ## Steps that keep the copy -/

/-- Ordinary and stale lookups apart, the step leaves the copy under the key in place: it is
not purged, not evicted, not replaced. -/
structure Undisturbed (key : String) (s : State) (a : Action) : Prop where
  called : ∀ m, executed s a = some m → (∃ k allowStale, m = .get k allowStale) ∨
    (s.storage.serve s.now m).2.stored key = s.storage.stored key
  evicted : ∀ needed, a = .storageEvict needed →
    (s.storage.evictLru needed).stored key = s.storage.stored key

/-- What stale-if-error needs of each step: no ordinary lookup meets the expired copy, stale
lookups are answered, and the window `w` is open, `now ≤ e + w`, when it is decided. -/
structure StaleKept (cfg : Config) (key : String) (x : Stored Copy) (e : Time) (s : State)
    (a : Action) : Prop extends Undisturbed key s a where
  lookedUp : executed s a = some (.get key false) → x.isExpired s.now = false
  answered : ∀ rid t, a = .staleLookup rid false → s.tasks rid = some t → t.key ≠ some key
  decided : ∀ rid t, a = .staleDecide rid → s.tasks rid = some t → t.key = some key →
    0 < s.staleWindow cfg t.host ∧ (timestamp s.now : ℤ) ≤ timestamp e + s.staleWindow cfg t.host

/-- A step that leaves the copy in place keeps it, when an ordinary lookup of its key does not meet
it expired. -/
lemma Undisturbed.stored (hC : Undisturbed key s a) (h : Step cfg s a s')
    (hlookup : executed s a = some (.get key false) → x.isExpired s.now = false)
    (hx : s.storage.stored key = some x) : s'.storage.stored key = some x := by
  rcases h.storage with ⟨m, hm, hstorage, -⟩ | ⟨-, -, hstorage | ⟨needed, ha, hstorage⟩⟩
  · rw [hstorage]
    rcases hC.called m hm with ⟨k, allowStale, rfl⟩ | hsame
    · have hget := CacheLayer.stored_getWithStale s.storage s.now k allowStale key
      refine hget.trans ?_
      rw [hx, Option.filter_eq_some_iff]
      refine ⟨rfl, ?_⟩
      by_cases hordinary : key = k ∧ allowStale = false
      · obtain ⟨rfl, rfl⟩ := hordinary
        simp [hlookup hm]
      · cases allowStale with
        | true => simp
        | false => simp [show key ≠ k from fun heq => hordinary ⟨heq, rfl⟩]
    · exact hsame.trans hx
  · rw [hstorage]
    exact hx
  · rw [hstorage]
    exact (hC.evicted needed ha).trans hx

/-- Under these conditions a step keeps the copy. -/
lemma StaleKept.stored (hC : StaleKept cfg key x e s a) (h : Step cfg s a s')
    (hx : s.storage.stored key = some x) : s'.storage.stored key = some x :=
  hC.toUndisturbed.stored h hC.lookedUp hx

/-- In an open window `try_serve_stale` serves the copy it found. -/
lemma staleAdmitted_seen {now lookedUpAt : Time} {window : ℤ} (he : x.expiresAt = some e)
    (hepoch : second ≤ e) (hwindow : 0 < window) (hopen : (timestamp now : ℤ) ≤ timestamp e + window) :
    staleAdmitted now window (x.seen lookedUpAt) = true := by
  have hexpires : (x.seen lookedUpAt).expiresAt = timestamp e := by
    change ((x.expiresAt.map timestamp).getD 0) = timestamp e
    rw [he]
    rfl
  have hpos : 0 < timestamp e := Nat.div_pos hepoch (by decide)
  unfold staleAdmitted
  rw [hexpires]
  have hle : decide (window ≤ 0) = false := decide_eq_false (by omega)
  have hzero : (timestamp e == 0) = false := by simpa using hpos.ne'
  have hlate : decide ((timestamp now : ℤ) > timestamp e + window) = false :=
    decide_eq_false (by omega)
  rw [hle, hzero, hlate]
  exact Bool.or_true _

/-! ## A leader on the stale path -/

/-- The phases of the leader `rid` from the failure of its fetch to the answer, when it finds
the copy `x`. -/
def Phase.servesStale (rid : ℕ) (x : Stored Copy) : Phase → Prop
  | .staleLookup _ _ => True
  | .staleDecision _ _ found => ∃ lookedUpAt, found = x.seen lookedUpAt
  | .publish (.stale found) => ∃ lookedUpAt, found = x.seen lookedUpAt
  | .respond leader (.stale found) => leader = rid ∧ ∃ lookedUpAt, found = x.seen lookedUpAt
  | _ => False

/-- The answer of a leader with the copy `x`. -/
def Answer.fromStale (x : Stored Copy) (ans : Answer) : Prop :=
  ∃ lookedUpAt, ans.via = .coalesced ans.rid (.stale (x.seen lookedUpAt)) ∧
    ans.response = missResponse ans.request (staleResponse (x.seen lookedUpAt))

/-- The copy is in place, and the request is on the stale path or answered from the copy. -/
structure OnStalePath (key : String) (x : Stored Copy) (rid : ℕ) (s : State) : Prop where
  stored : s.storage.stored key = some x
  known : rid < s.nextId
  task : ∀ t, s.tasks rid = some t → t.key = some key ∧ t.phase.servesStale rid x
  answer : ∀ ans ∈ s.answers, ans.rid = rid → ans.fromStale x

/-- A move of a request on the stale path stays on it. -/
lemma StaleKept.moves (hC : StaleKept cfg key x e s a) (he : x.expiresAt = some e)
    (hepoch : second ≤ e) (hx : s.storage.stored key = some x) {rid : ℕ} {t : Task} {phase : Phase}
    (ht : s.tasks rid = some t) (hkey : t.key = some key) (hpath : t.phase.servesStale rid x)
    (h : Moves cfg s a rid t phase) : phase.servesStale rid x := by
  cases h with
  | @staleFound k fetch head y ha hphase hk hstored =>
    obtain rfl : key = k := Option.some.inj (hkey.symm.trans hk)
    obtain rfl : x = y := Option.some.inj (hx.symm.trans hstored)
    exact ⟨s.now, rfl⟩
  | @staleMissing k fetch head phase answered hphase heq ha hk hmissing =>
    obtain rfl : key = k := Option.some.inj (hkey.symm.trans hk)
    cases answered with
    | true =>
      have hnone := hmissing rfl
      rw [hx] at hnone
      cases hnone
    | false => exact absurd hkey (hC.answered rid t ha ht)
  | staleServed hphase ha hadmitted =>
    rw [hphase] at hpath
    exact hpath
  | staleRefused hphase heq ha hrefused =>
    rw [hphase] at hpath
    obtain ⟨lookedUpAt, rfl⟩ := hpath
    obtain ⟨hwindow, hopen⟩ := hC.decided rid t ha ht hkey
    rw [staleAdmitted_seen he hepoch hwindow hopen] at hrefused
    cases hrefused
  | @published result ha hphase =>
    rw [hphase] at hpath
    cases result with
    | stale found => exact ⟨rfl, hpath⟩
    | _ => exact hpath.elim
  | @sentinel leader result r hphase hresponse hmarker =>
    rw [hphase] at hpath
    obtain ⟨status, headers, contentLength, rfl⟩ := (isSentinel_eq_true_iff hresponse).mp hmarker
    exact hpath.elim
  | l1Miss hphase | l2Hit _ hphase | l2Miss hphase | cached hphase | uncached hphase
  | subscribe _ hphase | lead _ hphase | fetch _ hphase | permitTimeout hphase
  | sendFailed hphase | serverError hphase | head hphase | reserve hphase | bufferFull hphase
  | completed hphase | bodyFailed hphase | received hphase | abandoned _ hphase | stream hphase
  | direct hphase =>
    rw [hphase] at hpath
    exact hpath.elim

/-- An answer to a request on the stale path is made from the copy. -/
lemma OnStalePath.replies {rid : ℕ} (hP : OnStalePath key x rid s) {ans : Answer}
    (h : Replies cfg s a ans) (hrid : ans.rid = rid) : ans.fromStale x := by
  cases h with
  | own hown =>
    rcases hown with ⟨t, ht, -, hphase⟩ | hnext
    · have hpath := (hP.task t (hrid ▸ ht)).2
      generalize t.phase = phase at hphase hpath
      cases phase <;> first | exact hpath.elim | cases hphase
    · exact absurd (hrid.symm.trans hnext) (Nat.ne_of_lt hP.known)
  | @l1Hit r t k slot ha ht hkey hphase =>
    obtain rfl : r = rid := hrid
    have hpath := (hP.task t ht).2
    rw [hphase] at hpath
    exact hpath.elim
  | @l2Hit r t k y lookedUpAt ha ht hkey hphase =>
    obtain rfl : r = rid := hrid
    have hpath := (hP.task t ht).2
    rw [hphase] at hpath
    exact hpath.elim
  | @coalesced r t leader result ha ht hphase hmarker =>
    obtain rfl : r = rid := hrid
    have hpath := (hP.task t ht).2
    rw [hphase] at hpath
    cases result with
    | stale found =>
      obtain ⟨rfl, lookedUpAt, rfl⟩ := hpath
      exact ⟨lookedUpAt, rfl, rfl⟩
    | _ => exact hpath.elim

/-- A step keeps a request on the stale path. -/
theorem OnStalePath.step {rid : ℕ} (hP : OnStalePath key x rid s) (he : x.expiresAt = some e)
    (hepoch : second ≤ e) (hC : StaleKept cfg key x e s a) (h : Step cfg s a s') :
    OnStalePath key x rid s' where
  stored := hC.stored h hP.stored
  known := lt_of_lt_of_le hP.known h.advances.nextId
  task := h.keeps_task hP.known hP.task fun _ _ ht _ hmove hpath =>
    ⟨hpath.1, hC.moves he hepoch hP.stored ht hpath.1 hpath.2 hmove⟩
  answer := h.keeps_answers hP.answer fun _ hreply hrid => hP.replies hreply hrid

/-! ## Failing fetches -/

/-- A result with status 200 is sent whole to a requester that asks for no range. -/
lemma missResponse_of_no_range {req : Request} {r : Coalesced} (hstatus : r.status = 200)
    (hrange : req.headers.get "range" = none) :
    (missResponse req r).status = 200 ∧ (missResponse req r).body = r.body := by
  simp [missResponse, missBody, hstatus, evaluateRange_of_no_range hrange]

/-- The origin fetch of the request fails to connect or is answered with a server error. -/
def Action.failsFetch (rid : ℕ) : Action → Prop
  | .sendFailed r => r = rid
  | .head r status _ => r = rid ∧ isServerError status = true
  | _ => False

/-- A leader whose fetch fails goes on to the stale lookup. -/
lemma Step.failsFetch {rid : ℕ} (h : Step cfg s a s') (ha : a.failsFetch rid) :
    ∃ t key fetch head, s.tasks rid = some t ∧ t.key = some key ∧
      s'.tasks rid = some { t with phase := .staleLookup fetch head } ∧ s'.answers = s.answers := by
  cases h with
  | @sendFailed r t key fetch ht hkey hphase =>
    obtain rfl : r = rid := ha
    exact ⟨t, key, fetch, none, ht, hkey, tasks_setPhase_self s r t _, rfl⟩
  | @head r t key fetch status headers ht hkey hphase =>
    obtain ⟨rfl, hstatus⟩ := ha
    refine ⟨t, key, fetch, some (status, headers), ht, hkey, ?_, rfl⟩
    rw [State.head, if_pos hstatus]
    exact tasks_setPhase_self s r t _
  | _ => exact ha.elim

/-- In every run from a state in which the storage holds a copy that expires at `e`: when no
step purges, evicts or replaces the copy, no ordinary lookup meets it expired, and stale
lookups are answered and decided inside the window, every leader of the key whose origin
fetch fails answers with the copy, with status 200 when the whole body was asked for. -/
theorem failed_fetch_served_stale (cfg : Config) (maxSizeBytes : UInt64) (s t : State)
    (as : List Action) (key : String) (x : Stored Copy) (e : Time)
    (hs : Reaches (step cfg) (State.initial maxSizeBytes) s)
    (hx : s.storage.stored key = some x) (he : x.expiresAt = some e) (hepoch : second ≤ e)
    (h : Trace (step cfg) (StaleKept cfg key x e) s as t) :
    ∀ ans ∈ t.answers, requestKey cfg ans.request = some key →
      (∃ a ∈ as, a.failsFetch ans.rid) → ans.fromStale x ∧
      (ans.request.headers.get "range" = none →
        ans.response.status = 200 ∧ ans.response.body = x.body.bytes) := by
  rintro ans hans hrequest ⟨a, ha, hfails⟩
  obtain ⟨bs, cs, rfl⟩ := List.append_of_mem ha
  obtain ⟨u, hbs, hrest⟩ := h.of_append
  cases hrest with
  | @cons _ u' _ _ _ hC hst hcs =>
    -- the requests known when the fetch fails
    have hu : Reaches (step cfg) (State.initial maxSizeBytes) u := hs.trans hbs.reaches
    obtain ⟨hI, hH⟩ := bookkeeping_of_reaches hu
    have hA := answered_of_reaches hu
    obtain ⟨task, k, fetch, head, htask, hk, hnext, hsame⟩ := (step_cases hst).failsFetch hfails
    have hknown := hI.taskKnown _ _ htask
    have hnew : ∀ ans' ∈ u.answers, ans'.rid ≠ ans.rid := by
      intro ans' hans' heq
      have hnone := (hA ans' hans').1
      rw [heq, htask] at hnone
      cases hnone
    have hbelongs : Belongs ans.rid task.request t := by
      refine hcs.invariant (fun _ _ _ hB _ hst => hB.step (step_cases hst)) ⟨?_, ?_, ?_⟩
      · exact lt_of_lt_of_le hknown (step_cases hst).advances.nextId
      · intro t' ht'
        rw [hnext] at ht'
        rw [← Option.some.inj ht']
      · intro ans' hans'
        exact fun hrid => absurd hrid (hnew ans' (hsame ▸ hans'))
    have hkey : task.key = some key := by
      rw [hH.keys _ _ htask, ← hbelongs.answer ans hans rfl]
      exact hrequest
    have hstored : u.storage.stored key = some x :=
      hbs.invariant (fun _ _ _ hx hC hst => hC.stored (step_cases hst) hx) hx
    have hpath : OnStalePath key x ans.rid u' := by
      refine ⟨hC.stored (step_cases hst) hstored, ?_, ?_, ?_⟩
      · exact lt_of_lt_of_le hknown (step_cases hst).advances.nextId
      · intro t' ht'
        rw [hnext] at ht'
        rw [← Option.some.inj ht']
        exact ⟨hkey, trivial⟩
      · intro ans' hans' hrid
        exact absurd hrid (hnew ans' (hsame ▸ hans'))
    have hend : OnStalePath key x ans.rid t :=
      hcs.invariant (fun _ _ _ hP hC hst => hP.step he hepoch hC (step_cases hst)) hpath
    have hstale := hend.answer ans hans rfl
    refine ⟨hstale, fun hrange => ?_⟩
    obtain ⟨lookedUpAt, -, hresponse⟩ := hstale
    rw [hresponse]
    exact missResponse_of_no_range rfl hrange

/-- A page that may be cached for a minute. -/
def minutePageActions : List Action :=
  [sampleDomains, .arrive (sampleRequest .get "/page" [])] ++ missActions 0
    ++ fetchActions 0 200 [("cache-control", "max-age=60"), ("content-type", "text/html")] [1, 2]
    ++ [.publish 0, .respond 0] ++ saveActions 0

/-- A later GET of the page, after its memory entry is gone, while the origin is down. -/
def originDownActions (answered : Bool) : List Action :=
  [.tick (900 * second), .arrive (sampleRequest .get "/page" []), .l1Get 1, .l2Get 1 answered,
   .readBody 1 true, .coalesce 1, .permit 1 true, .sendFailed 1, .staleLookup 1 true]

/-- Whether the step calls the storage service for lookups only and evicts nothing. -/
def onlyLooksUp (s : State) (a : Action) : Bool :=
  (match a with
  | .storageEvict _ => false
  | _ => true) &&
  (match executed s a with
  | some (.get _ _) => true
  | none => true
  | _ => false)

/-- Lookups leave a copy in place. -/
lemma undisturbed_of_onlyLooksUp (key : String) (h : onlyLooksUp s a = true) :
    Undisturbed key s a where
  called := by
    intro m hm
    simp only [onlyLooksUp, hm, Bool.and_eq_true] at h
    cases m with
    | get k allowStale => exact Or.inl ⟨k, allowStale, rfl⟩
    | put => cases h.2
    | purge => cases h.2
  evicted := by
    rintro needed rfl
    cases h

/-- The ordinary lookup of the request itself removes the expired copy: at second 900, inside
the window of an hour after second 60, the GET is answered with status 502. -/
theorem expired_copy_lost :
    ∃ s t, Reaches (step sampleConfig) (State.initial 1000000) s ∧
      (∃ x, s.storage.stored "GET:a.test/page?" = some x ∧ x.expiresAt = some (60 * second)) ∧
      s.staleWindow sampleConfig "a.test" = 3600 ∧
      Trace (step sampleConfig) (Undisturbed "GET:a.test/page?") s
        (originDownActions true ++ [.publish 1, .respond 1]) t ∧
      t.now = 900 * second ∧ ∃ ans ∈ t.answers, ans.rid = 1 ∧ ans.response.status = 502 := by
  have hrun : ((run (step sampleConfig) sampleStart minutePageActions).any fun s =>
      ((s.storage.stored "GET:a.test/page?").any fun x => x.expiresAt == some (60 * second)) &&
        decide (s.staleWindow sampleConfig "a.test" = 3600) &&
        (checkedRun (step sampleConfig) onlyLooksUp s
          (originDownActions true ++ [.publish 1, .respond 1])).any fun t =>
            decide (t.now = 900 * second) &&
              t.answers.any fun ans => decide (ans.rid = 1 ∧ ans.response.status = 502)) = true := by
    decide +kernel
  obtain ⟨s, hs, hcheck⟩ := exists_trace_of_run hrun
  simp only [Bool.and_eq_true, decide_eq_true_eq] at hcheck
  obtain ⟨⟨hcopy, hwindow⟩, hrest⟩ := hcheck
  rw [Option.any_eq_true] at hcopy
  obtain ⟨x, hx, he⟩ := hcopy
  obtain ⟨t, ht, hend⟩ := exists_trace_of_checkedRun (I := fun _ => True)
    (C := Undisturbed "GET:a.test/page?") (fun _ _ _ _ _ => trivial)
    (fun _ _ _ hc => undisturbed_of_onlyLooksUp _ hc) trivial hrest
  simp only [Bool.and_eq_true, List.any_eq_true, decide_eq_true_eq] at hend
  exact ⟨s, t, hs.reaches, ⟨x, hx, beq_iff_eq.mp he⟩, hwindow, ht, hend⟩

/-- Whether the step keeps an expired copy for stale-if-error: lookups are stale ones and are
answered, and the window is open when one is decided. -/
def keepsStale (cfg : Config) (e : Time) (s : State) (a : Action) : Bool :=
  onlyLooksUp s a &&
  (match executed s a with
  | some (.get _ false) => false
  | _ => true) &&
  match a with
  | .staleLookup _ answered => answered
  | .staleDecide rid => (s.tasks rid).all fun t =>
      decide (0 < s.staleWindow cfg t.host ∧
        (timestamp s.now : ℤ) ≤ timestamp e + s.staleWindow cfg t.host)
  | _ => true

/-- The check is right. -/
lemma staleKept_of_keepsStale (key : String) (x : Stored Copy) (h : keepsStale cfg e s a = true) :
    StaleKept cfg key x e s a := by
  simp only [keepsStale, Bool.and_eq_true] at h
  obtain ⟨⟨hlooks, hordinary⟩, hstale⟩ := h
  refine { undisturbed_of_onlyLooksUp key hlooks with lookedUp := ?_, answered := ?_, decided := ?_ }
  · intro hm
    rw [hm] at hordinary
    cases hordinary
  · rintro rid t rfl
    cases hstale
  · rintro rid t rfl ht -
    simp only [ht, Option.all_some, decide_eq_true_eq] at hstale
    exact hstale

/-- When the storage does not answer the ordinary lookup, the GET is answered with the copy. -/
theorem unanswered_lookup_served_stale :
    ∃ s t x, Trace (step sampleConfig) (StaleKept sampleConfig "GET:a.test/page?" x (60 * second)) s
        (originDownActions false ++ [.staleDecide 1, .publish 1, .respond 1]) t ∧
      ∃ ans ∈ t.answers, ans.rid = 1 ∧ ans.fromStale x ∧ ans.response.status = 200 ∧
        ans.response.body = x.body.bytes := by
  have hrun : ((run (step sampleConfig) sampleStart minutePageActions).any fun s =>
      ((s.storage.stored "GET:a.test/page?").any fun x => x.expiresAt == some (60 * second)) &&
        (checkedRun (step sampleConfig) (keepsStale sampleConfig (60 * second)) s
          (originDownActions false ++ [.staleDecide 1, .publish 1, .respond 1])).any fun t =>
            t.answers.any fun ans => decide (ans.rid = 1 ∧
              requestKey sampleConfig ans.request = some "GET:a.test/page?" ∧
              ans.request.headers.get "range" = none)) = true := by
    decide +kernel
  obtain ⟨s, hs, hcheck⟩ := exists_trace_of_run hrun
  rw [Bool.and_eq_true, Option.any_eq_true] at hcheck
  obtain ⟨⟨x, hx, he⟩, hrest⟩ := hcheck
  obtain ⟨t, ht, hend⟩ := exists_trace_of_checkedRun (I := fun _ => True)
    (C := StaleKept sampleConfig "GET:a.test/page?" x (60 * second)) (fun _ _ _ _ _ => trivial)
    (fun _ _ _ hc => staleKept_of_keepsStale _ _ hc) trivial hrest
  simp only [List.any_eq_true, decide_eq_true_eq] at hend
  obtain ⟨ans, hans, hrid, hkey, hrange⟩ := hend
  have hfails : ∃ a ∈ originDownActions false ++ [.staleDecide 1, .publish 1, .respond 1],
      a.failsFetch ans.rid :=
    ⟨.sendFailed 1, by simp [originDownActions], hrid.symm⟩
  obtain ⟨hstale, hwhole⟩ := failed_fetch_served_stale sampleConfig 1000000 s t _ _ x (60 * second)
    hs.reaches hx (beq_iff_eq.mp he) (by decide) ht ans hans hkey hfails
  exact ⟨s, t, x, ht, ans, hans, hrid, hstale, hwhole hrange⟩

end SmartSchoolCdn
