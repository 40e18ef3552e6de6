import SmartSchoolCdn.Foundation.Trace
import SmartSchoolCdn.Services.Tls

/-!
# One certificate per domain

Calls of `get_or_issue` that race for one domain may each generate a certificate, since the
generation is outside of the lock.  The second look into the cache, under the lock, makes them
agree: the first certificate that is stored is what all of them return (`one_certificate`).  A call
whose certificate cannot be generated returns nothing, which rejects that handshake only.

The steps are the locked look, the generation, and the locked insertion, in any order of the calls,
and the clock advances between them.  Generated certificates carry a number, since two of them
differ in their keys even when they are for one domain and of one second.  Nothing is pruned.
-/

namespace SmartSchoolCdn.Tls.Racing

open Traces

/-! ## Calls -/

/-- A certificate with the number of its generation, in place of its key. -/
structure IssuedCert extends CachedCert where
  serial : ℕ
  deriving DecidableEq, Repr

/-- The part of `get_or_issue` that comes next, or how the call has ended: with `None` after a
failed generation, or with a certificate, at a time. -/
inductive Part
  | check
  | generate
  | store (cert : IssuedCert)
  | failed
  | returned (cert : IssuedCert) (time : ℕ)
  deriving DecidableEq, Repr

/-- A call of `get_or_issue`. -/
structure Call where
  domain : String
  part : Part
  deriving DecidableEq, Repr

/-- What the caller has got so far. -/
def Call.answer (c : Call) : Option (Option IssuedCert) :=
  match c.part with
  | .failed => some none
  | .returned cert _ => some (some cert)
  | _ => none

/-- The cache, all calls so far, the clock, and the number of the next certificate. -/
structure Issuer where
  certCache : String → Option IssuedCert
  calls : List Call
  now : ℕ
  serial : ℕ

/-- A call arrives, or takes its next part; `ok` is whether the certificate could be signed. -/
inductive Action
  | call (domain : String)
  | check (i : ℕ)
  | generate (i : ℕ) (ok : Bool)
  | store (i : ℕ)
  | advance (dt : ℕ)
  deriving DecidableEq, Repr

namespace Issuer

variable (s : Issuer)

/-- No calls yet, with an arbitrary cache. -/
def idle (certCache : String → Option IssuedCert) (now serial : ℕ) : Issuer :=
  ⟨certCache, [], now, serial⟩

/-- What both locked parts look for. -/
def cached (d : String) : Option IssuedCert := (s.certCache d).filter fun c => s.now < c.expiresAt

/-- A call goes on to a part. -/
def proceed (i : ℕ) (d : String) (part : Part) : Issuer := { s with calls := s.calls.set i ⟨d, part⟩ }

/-- The locked look into the cache. -/
def check (i : ℕ) (d : String) : Issuer :=
  match s.cached d with
  | some existing => s.proceed i d (.returned existing s.now)
  | none => s.proceed i d .generate

/-- `issue_domain_cert`. -/
def generate (i : ℕ) (ok : Bool) (d : String) : Issuer :=
  match issueDomainCert (fun _ => ok) s.now d with
  | none => s.proceed i d .failed
  | some cert => { s with serial := s.serial + 1 }.proceed i d (.store { cert with serial := s.serial })

/-- The locked insertion, after a second look. -/
def store (i : ℕ) (d : String) (cert : IssuedCert) : Issuer :=
  match s.cached d with
  | some existing => s.proceed i d (.returned existing s.now)
  | none =>
    { s with certCache := Function.update s.certCache d (some cert) }.proceed i d
      (.returned cert s.now)

end Issuer

/-- A call for the domain has returned the certificate at the time. -/
def Issuer.Returned (s : Issuer) (d : String) (cert : IssuedCert) (time : ℕ) : Prop :=
  ⟨d, .returned cert time⟩ ∈ s.calls

/-- One step. -/
def step (s : Issuer) : Action → Option Issuer
  | .call domain => some { s with calls := s.calls ++ [⟨domain, .check⟩] }
  | .check i =>
    match s.calls[i]? with
    | some ⟨d, .check⟩ => some (s.check i d)
    | _ => none
  | .generate i ok =>
    match s.calls[i]? with
    | some ⟨d, .generate⟩ => some (s.generate i ok d)
    | _ => none
  | .store i =>
    match s.calls[i]? with
    | some ⟨d, .store cert⟩ => some (s.store i d cert)
    | _ => none
  | .advance dt => some { s with now := s.now + dt }

/-! ## Lifetimes -/

/-- The certificate of a domain that a call is about to store. -/
def Call.stored (d : String) (c : Call) : Option IssuedCert :=
  match c.part with
  | .store cert => if c.domain = d then some cert else none
  | _ => none

/-- The certificates of a domain: in the cache, and with the calls. -/
def Issuer.held (s : Issuer) (d : String) : List IssuedCert :=
  (s.certCache d).toList ++ s.calls.filterMap (Call.stored d)

/-- No certificate of the domain expires as the clock advances. -/
def Lasting (d : String) (s : Issuer) : Action → Prop
  | .advance dt => ∀ cert ∈ s.held d, s.now < cert.expiresAt → s.now + dt < cert.expiresAt
  | _ => True

instance (d : String) (s : Issuer) (a : Action) : Decidable (Lasting d s a) := by
  cases a <;> unfold Lasting <;> infer_instance

variable {s s' : Issuer} {a : Action} {i now serial time : ℕ} {c : Call} {d d' host : String}
  {part : Part} {cert : IssuedCert}

lemma cached_eq_some : s.cached d = some cert ↔ s.certCache d = some cert ∧ s.now < cert.expiresAt := by
  rw [Issuer.cached, Option.filter_eq_some_iff, decide_eq_true_eq]

lemma mem_held_of_certCache (h : s.certCache d = some cert) : cert ∈ s.held d := by
  rw [Issuer.held, h]
  exact List.mem_append_left _ List.mem_cons_self

lemma mem_held_of_store (h : ⟨d, .store cert⟩ ∈ s.calls) : cert ∈ s.held d :=
  List.mem_append_right _ (List.mem_filterMap.mpr ⟨_, h, if_pos rfl⟩)

/-! ## What a step does -/

/-- What a step can do to the cache, the calls, and the clock. -/
inductive Effect (s : Issuer) : Action → Issuer → Prop
  | call (d : String) : Effect s (.call d) { s with calls := s.calls ++ [⟨d, .check⟩] }
  | pending {a : Action} (i : ℕ) (d : String) (part : Part) (serial : ℕ)
      (hanswer : ∀ cert time, part ≠ .returned cert time)
      (hfresh : ∀ cert, part = .store cert → s.now < cert.expiresAt) :
      Effect s a { s.proceed i d part with serial := serial }
  | hit {a : Action} (i : ℕ) (d : String) (cert : IssuedCert) (hcert : s.cached d = some cert) :
      Effect s a (s.proceed i d (.returned cert s.now))
  | insert (i : ℕ) (d : String) (cert : IssuedCert) (hi : s.calls[i]? = some ⟨d, .store cert⟩)
      (hnone : s.cached d = none) :
      Effect s (.store i)
        ({ s with certCache := Function.update s.certCache d (some cert) }.proceed i d
          (.returned cert s.now))
  | advance (dt : ℕ) : Effect s (.advance dt) { s with now := s.now + dt }

/-- Everything that a step can do. -/
theorem step_effect (h : step s a = some s') : Effect s a s' := by
  cases a with
  | call domain =>
    obtain rfl := Option.some.inj h
    exact .call domain
  | check i =>
    simp only [step] at h
    split at h
    · rename_i d hi
      obtain rfl := Option.some.inj h
      unfold Issuer.check
      split
      · rename_i existing hexisting
        exact .hit i d existing hexisting
      · exact .pending i d .generate s.serial (fun _ _ => Part.noConfusion) (fun _ => Part.noConfusion)
    · cases h
  | generate i ok =>
    simp only [step] at h
    split at h
    · rename_i d hi
      obtain rfl := Option.some.inj h
      unfold Issuer.generate
      cases ok with
      | false =>
        exact .pending i d .failed s.serial (fun _ _ => Part.noConfusion) (fun _ => Part.noConfusion)
      | true =>
        refine .pending i d _ (s.serial + 1) (fun _ _ => Part.noConfusion) fun cert hcert => ?_
        obtain rfl := Part.store.inj hcert
        have hpositive : 0 < lifetime := by decide
        exact Nat.lt_add_of_pos_right hpositive
    · cases h
  | store i =>
    simp only [step] at h
    split at h
    · rename_i d cert hi
      obtain rfl := Option.some.inj h
      unfold Issuer.store
      split
      · rename_i existing hexisting
        exact .hit i d existing hexisting
      · rename_i hnone
        exact .insert i d cert hi hnone
    · cases h
  | advance dt =>
    obtain rfl := Option.some.inj h
    exact .advance dt

/-! ## Agreement -/

/-- The invariant for a domain: what has been returned is in the cache and has not expired, and
neither has what is about to be stored. -/
structure Agreed (d : String) (s : Issuer) : Prop where
  returned : ∀ cert time, s.Returned d cert time →
    s.certCache d = some cert ∧ time ≤ s.now ∧ s.now < cert.expiresAt
  stored : ∀ cert, ⟨d, .store cert⟩ ∈ s.calls → s.now < cert.expiresAt

/-- A call after another one has gone on. -/
lemma mem_proceed (h : c ∈ (s.proceed i d part).calls) : c ∈ s.calls ∨ c = ⟨d, part⟩ :=
  List.mem_or_eq_of_mem_set h

/-- A lasting step. -/
lemma Agreed.step (hs : Agreed d s) (hC : Lasting d s a) (h : step s a = some s') : Agreed d s' := by
  cases step_effect h with
  | call d' =>
    have hold : ∀ part, part ≠ .check →
        ⟨d, part⟩ ∈ s.calls ++ [⟨d', .check⟩] → ⟨d, part⟩ ∈ s.calls := by
      intro part hpart hmem
      rcases List.mem_append.mp hmem with hmem | hmem
      · exact hmem
      · exact absurd (Call.mk.inj (List.mem_singleton.mp hmem)).2 hpart
    exact
      { returned := fun cert time hmem => hs.returned cert time (hold _ Part.noConfusion hmem)
        stored := fun cert hmem => hs.stored cert (hold _ Part.noConfusion hmem) }
  | pending i d' part serial hanswer hfresh =>
    constructor
    · intro cert time hmem
      rcases mem_proceed hmem with hold | hnew
      · exact hs.returned cert time hold
      · exact absurd (Call.mk.inj hnew).2.symm (hanswer cert time)
    · intro cert hmem
      rcases mem_proceed hmem with hold | hnew
      · exact hs.stored cert hold
      · exact hfresh cert (Call.mk.inj hnew).2.symm
  | hit i d' existing hexisting =>
    constructor
    · intro cert time hmem
      rcases mem_proceed hmem with hold | hnew
      · exact hs.returned cert time hold
      · obtain ⟨rfl, hpart⟩ := Call.mk.inj hnew
        obtain ⟨rfl, rfl⟩ := Part.returned.inj hpart
        obtain ⟨hcached, hvalid⟩ := cached_eq_some.mp hexisting
        exact ⟨hcached, le_refl s.now, hvalid⟩
    · intro cert hmem
      rcases mem_proceed hmem with hold | hnew
      · exact hs.stored cert hold
      · cases hnew
  | insert i d' new hi hnone =>
    constructor
    · intro cert time hmem
      rcases mem_proceed hmem with hold | hnew
      · obtain ⟨hcached, htime, hvalid⟩ := hs.returned cert time hold
        -- nothing has been returned for the domain of the insertion, whose cache was of no use
        have hne : d ≠ d' := by
          rintro rfl
          rw [cached_eq_some.mpr ⟨hcached, hvalid⟩] at hnone
          cases hnone
        exact ⟨(Function.update_of_ne hne _ _).trans hcached, htime, hvalid⟩
      · obtain ⟨rfl, hpart⟩ := Call.mk.inj hnew
        obtain ⟨rfl, rfl⟩ := Part.returned.inj hpart
        exact ⟨Function.update_self _ _ _, le_refl s.now, hs.stored cert (List.mem_of_getElem? hi)⟩
    · intro cert hmem
      rcases mem_proceed hmem with hold | hnew
      · exact hs.stored cert hold
      · cases hnew
  | advance dt =>
    constructor
    · intro cert time hmem
      obtain ⟨hcached, htime, hvalid⟩ := hs.returned cert time hmem
      exact ⟨hcached, Nat.le_add_right_of_le htime, hC cert (mem_held_of_certCache hcached) hvalid⟩
    · intro cert hmem
      exact hC cert (mem_held_of_store hmem) (hs.stored cert hmem)

/-! ## Calls come to an end -/

/-- A call at its insertion returns. -/
lemma returns_of_store (hi : s.calls[i]? = some ⟨d, .store cert⟩) : ∃ as s' cert time, as.length ≤ 1 ∧
    Trace step (Lasting d) s as s' ∧ s'.calls[i]? = some ⟨d, .returned cert time⟩ := by
  have hlt : i < s.calls.length := (List.getElem?_eq_some_iff.mp hi).1
  have hstep : step s (.store i) = some (s.store i d cert) := by simp only [step, hi]
  have htrace : Trace step (Lasting d) s [.store i] (s.store i d cert) :=
    .cons (a := Action.store i) trivial hstep (.nil _)
  unfold Issuer.store at htrace
  split at htrace
  · rename_i existing _
    exact ⟨_, _, existing, s.now, le_refl 1, htrace, List.getElem?_set_self hlt⟩
  · exact ⟨_, _, cert, s.now, le_refl 1, htrace, List.getElem?_set_self hlt⟩

/-- A call at its generation returns, when the certificate can be signed. -/
lemma returns_of_generate (hi : s.calls[i]? = some ⟨d, .generate⟩) : ∃ as s' cert time, as.length ≤ 2 ∧
    Trace step (Lasting d) s as s' ∧ s'.calls[i]? = some ⟨d, .returned cert time⟩ := by
  have hlt : i < s.calls.length := (List.getElem?_eq_some_iff.mp hi).1
  have hstep : step s (.generate i true) = some (s.generate i true d) := by simp only [step, hi]
  obtain ⟨as, s', cert, time, has, htrace, hs'⟩ :=
    returns_of_store (s := s.generate i true d) (List.getElem?_set_self hlt)
  exact ⟨.generate i true :: as, s', cert, time, Nat.succ_le_succ has,
    .cons (a := Action.generate i true) trivial hstep htrace, hs'⟩

/-- A call that has not failed returns a certificate after three steps of its own at most, when the
certificate can be signed. -/
lemma returns_of_getElem? (hi : s.calls[i]? = some ⟨d, part⟩) (hpart : part ≠ .failed) :
    ∃ as s' cert time, as.length ≤ 3 ∧ Trace step (Lasting d) s as s' ∧
      s'.calls[i]? = some ⟨d, .returned cert time⟩ := by
  have hlt : i < s.calls.length := (List.getElem?_eq_some_iff.mp hi).1
  cases part with
  | check =>
    have hstep : step s (.check i) = some (s.check i d) := by simp only [step, hi]
    unfold Issuer.check at hstep
    split at hstep
    · rename_i existing _
      exact ⟨[.check i], s.proceed i d _, existing, s.now, Nat.le_add_left 1 2,
        .cons (a := Action.check i) trivial hstep (.nil _), List.getElem?_set_self hlt⟩
    · obtain ⟨as, s', cert, time, has, htrace, hs'⟩ :=
        returns_of_generate (s := s.proceed i d .generate) (List.getElem?_set_self hlt)
      exact ⟨.check i :: as, s', cert, time, Nat.succ_le_succ has,
        .cons (a := Action.check i) trivial hstep htrace, hs'⟩
  | generate =>
    obtain ⟨as, s', cert, time, has, htrace, hs'⟩ := returns_of_generate hi
    exact ⟨as, s', cert, time, Nat.le_succ_of_le has, htrace, hs'⟩
  | store cert =>
    obtain ⟨as, s', cert, time, has, htrace, hs'⟩ := returns_of_store hi
    exact ⟨as, s', cert, time, by omega, htrace, hs'⟩
  | failed => exact absurd rfl hpart
  | returned cert time => exact ⟨[], s, cert, time, Nat.zero_le 3, .nil s, hi⟩

/-! ## The theorem -/

/-- In every run of any number of calls in which no certificate of the domain expires, all calls for
the domain that return a certificate return the same one, which has not expired then; and a call
that has not failed can always come to its end and return one. -/
theorem one_certificate {certCache : String → Option IssuedCert} {as : List Action}
    (h : Trace step (Lasting d) (Issuer.idle certCache now serial) as s) :
    (∀ cert cert' time time', s.Returned d cert time → s.Returned d cert' time' → cert = cert') ∧
      (∀ cert time, s.Returned d cert time → time < cert.expiresAt) ∧
      ∀ (i : ℕ) (part : Part), s.calls[i]? = some ⟨d, part⟩ → part ≠ .failed →
        ∃ bs s' cert time, bs.length ≤ 3 ∧ Trace step (Lasting d) s bs s' ∧
          s'.calls[i]? = some ⟨d, .returned cert time⟩ := by
  have hend : Agreed d s := by
    refine h.invariant (fun s a s' hs hC hst => hs.step hC hst) ?_
    constructor
    · intro cert time hmem
      cases hmem
    · intro cert hmem
      cases hmem
  refine ⟨fun cert cert' time time' hmem hmem' => ?_, fun cert time hmem => ?_,
    fun i part hi hpart => returns_of_getElem? hi hpart⟩
  · have hcached := (hend.returned cert time hmem).1
    have hcached' := (hend.returned cert' time' hmem').1
    exact Option.some.inj (hcached.symm.trans hcached')
  · obtain ⟨-, htime, hvalid⟩ := hend.returned cert time hmem
    exact lt_of_le_of_lt htime hvalid

/-! ## A call alone -/

/-- The manager, without the numbers of its certificates. -/
def Issuer.manager (s : Issuer) : TlsManager where
  certCache host := (s.certCache host).map IssuedCert.toCachedCert

lemma cached_manager : s.manager.cached s.now d = (s.cached d).map IssuedCert.toCachedCert := by
  unfold TlsManager.cached Issuer.cached
  change Option.filter _ ((s.certCache d).map IssuedCert.toCachedCert) = _
  rw [Option.filter_map]
  rfl

/-- A generated certificate is in the cache for its domain only. -/
lemma manager_update (cert : IssuedCert) :
    ({ s with certCache := Function.update s.certCache d (some cert) } : Issuer).manager =
      ⟨Function.update s.manager.certCache d (some cert.toCachedCert)⟩ := by
  unfold Issuer.manager
  congr 1
  funext host
  by_cases hhost : host = d
  · subst hhost
    simp
  · simp [Function.update_of_ne hhost]

/-- Without others, a call does what `getOrIssue` does. -/
theorem call_alone (certCache : String → Option IssuedCert) (now serial : ℕ) (issues : String → Bool)
    (d : String) : ∃ as s', Trace step Free (Issuer.idle certCache now serial) (.call d :: as) s' ∧
      s'.manager = ((Issuer.idle certCache now serial).manager.getOrIssue issues now d).2 ∧
      s'.calls.map (fun c => c.answer.map (Option.map IssuedCert.toCachedCert)) =
        [some ((Issuer.idle certCache now serial).manager.getOrIssue issues now d).1] := by
  let s₁ : Issuer := { Issuer.idle certCache now serial with calls := [⟨d, .check⟩] }
  have hcall : step (Issuer.idle certCache now serial) (.call d) = some s₁ := rfl
  have hcheck : step s₁ (.check 0) = some (s₁.check 0 d) := rfl
  have hcached : (Issuer.idle certCache now serial).manager.cached now d = _ :=
    cached_manager (s := s₁) (d := d)
  unfold Issuer.check at hcheck
  unfold TlsManager.getOrIssue
  cases hfound : s₁.cached d with
  | some existing =>
    rw [hfound] at hcheck hcached
    rw [hcached]
    exact ⟨_, _, .cons trivial hcall (.cons (a := Action.check 0) trivial hcheck (.nil _)), rfl, rfl⟩
  | none =>
    rw [hfound] at hcheck hcached
    cases hissues : issues d with
    | false =>
      have hgenerate : step (s₁.proceed 0 d .generate) (.generate 0 false) =
          some (s₁.proceed 0 d .failed) := rfl
      simp only [hcached, issueDomainCert, hissues]
      exact ⟨_, _, .cons trivial hcall (.cons (a := Action.check 0) trivial hcheck
        (.cons (a := Action.generate 0 false) trivial hgenerate (.nil _))), rfl, rfl⟩
    | true =>
      let cert : IssuedCert := ⟨⟨d, now, now + lifetime⟩, serial⟩
      let s₂ : Issuer := { s₁ with serial := serial + 1, calls := [⟨d, .store cert⟩] }
      have hgenerate : step (s₁.proceed 0 d .generate) (.generate 0 true) = some s₂ := rfl
      have hstore : step s₂ (.store 0) = some (s₂.store 0 d cert) := rfl
      have hmiss : s₂.cached d = none := hfound
      simp only [Issuer.store, hmiss] at hstore
      simp only [hcached, issueDomainCert, hissues, TlsManager.store]
      exact ⟨_, _, .cons trivial hcall (.cons (a := Action.check 0) trivial hcheck
        (.cons (a := Action.generate 0 true) trivial hgenerate
          (.cons (a := Action.store 0) trivial hstore (.nil _)))), manager_update cert, rfl⟩

/-! ## Sample runs -/

/-- A cache with a certificate that has expired. -/
def expiredCache : String → Option IssuedCert :=
  Function.update (fun _ => none) "a.test" (some ⟨⟨"a.test", 0, 5⟩, 0⟩)

/-- Two calls generate a certificate each, while a call for another domain goes on; the one that
stores last returns the certificate of the other. -/
def racingActions : List Action :=
  [.call "a.test", .call "a.test", .call "b.test", .check 1, .check 0, .generate 0 true,
   .generate 1 true, .check 2, .store 1, .advance 60, .generate 2 true, .store 2, .store 0]

/-- Both return the certificate that has been generated second. -/
theorem one_certificate_racing : ∃ (s : Issuer) (cert cert' : IssuedCert) (time time' : ℕ),
    s.Returned "a.test" cert time ∧ s.Returned "a.test" cert' time' ∧ time < time' ∧ cert.serial = 2 ∧
      cert = cert' ∧ time' < cert'.expiresAt := by
  have hrun : ((checkedRun step (fun s a => decide (Lasting "a.test" s a))
      (Issuer.idle expiredCache 10 1) racingActions).any fun s =>
      decide (s.calls[1]? = some ⟨"a.test", .returned ⟨⟨"a.test", 10, 2592010⟩, 2⟩ 10⟩ ∧
        s.calls[0]? = some ⟨"a.test", .returned ⟨⟨"a.test", 10, 2592010⟩, 2⟩ 70⟩)) = true := by
    decide +kernel
  obtain ⟨s, hs, hp⟩ := exists_trace_of_checkedRun (I := fun _ => True) (C := Lasting "a.test")
    (fun _ _ _ _ _ => trivial) (fun _ _ _ hc => of_decide_eq_true hc) trivial hrun
  obtain ⟨hfirst, hsecond⟩ := of_decide_eq_true hp
  obtain ⟨hsame, hvalid, -⟩ := one_certificate hs
  have hmem : s.Returned "a.test" _ 10 := List.mem_of_getElem? hfirst
  have hmem' : s.Returned "a.test" _ 70 := List.mem_of_getElem? hsecond
  exact ⟨s, _, _, 10, 70, hmem, hmem', by decide, rfl, hsame _ _ _ _ hmem hmem', hvalid _ _ hmem'⟩

/-- Of two calls, in a run in which no time passes, the one whose certificate cannot be signed
returns `None` and the other one a certificate. -/
theorem failed_call_returns_none : ∃ s cert, Trace step (Lasting "a.test")
    (Issuer.idle (fun _ => none) 10 1)
    [.call "a.test", .call "a.test", .check 0, .check 1, .generate 0 false, .generate 1 true,
      .store 1] s ∧
    s.calls.map Call.domain = ["a.test", "a.test"] ∧
    s.calls.map Call.answer = [some none, some (some cert)] := by
  have hrun : ((checkedRun step (fun s a => decide (Lasting "a.test" s a))
      (Issuer.idle (fun _ => none) 10 1)
      [.call "a.test", .call "a.test", .check 0, .check 1, .generate 0 false, .generate 1 true,
        .store 1]).any fun s =>
      decide (s.calls.map Call.domain = ["a.test", "a.test"] ∧
        s.calls.map Call.answer = [some none, some (some ⟨⟨"a.test", 10, 2592010⟩, 1⟩)])) = true := by
    decide +kernel
  obtain ⟨s, hs, hp⟩ := exists_trace_of_checkedRun (I := fun _ => True) (C := Lasting "a.test")
    (fun _ _ _ _ _ => trivial) (fun _ _ _ hc => of_decide_eq_true hc) trivial hrun
  obtain ⟨hdomains, hanswers⟩ := of_decide_eq_true hp
  exact ⟨s, _, hs, hdomains, hanswers⟩

end SmartSchoolCdn.Tls.Racing
