import SmartSchoolCdn.Proxy.Answers

/-!
# Who gets an origin response

A coalesced fetch is sent with the headers of its leader.  Its response is handed to every
follower, whatever `classify_outcome` says about it, so that a response which may not be
shared reaches other requests when some are subscribed at the moment of the broadcast
(`unshareable_reaches_follower`).  Without such subscribers it stays with the request whose
headers were sent (`unshareable_stays_with_its_request`).
-/

namespace SmartSchoolCdn

open Traces

variable {cfg : Config} {s s' : State} {a : Action}

/-- The step does not broadcast an origin response outside the `miss` outcome to
subscribers. -/
def SharesMissesOnly (s : State) (a : Action) : Prop :=
  ∀ rid t x, a = .publish rid → s.tasks rid = some t → t.phase = .publish (.origin x) →
    x.outcome ≠ .miss → ∀ other t', s.tasks other = some t' → t'.phase ≠ .follower rid

/-- Responses outside the `miss` outcome are on their way to their leader only. -/
def KeptByLeader (s : State) : Prop :=
  ∀ rid t leader x, s.tasks rid = some t → t.phase = .respond leader (.origin x) →
    x.outcome ≠ .miss → leader = rid

/-- Under the side condition they stay on their way to their leader only. -/
lemma KeptByLeader.step (hK : KeptByLeader s) (hC : SharesMissesOnly s a) (h : Step cfg s a s') :
    KeptByLeader s' := by
  intro rid t' leader x ht' hphase hx
  rcases h.moved ht' hphase rfl with hold | ⟨t, ht, rfl, hmove⟩
  · exact hK rid t' leader x hold hphase hx
  · rcases hmove.respond with ⟨rfl, -, -⟩ | ⟨ha, hfollows, tl, htl, hpublish⟩ | ⟨-, -, hfailed⟩
    · rfl
    · exact absurd hfollows (hC leader tl x ha htl hpublish hx rid t ht)
    · cases hfailed

/-- An answer with a response outside the `miss` outcome goes to the request that fetched
it. -/
lemma KeptByLeader.replies (hK : KeptByLeader s) (hS : Sourced cfg (fun x => x.outcome = .miss) s)
    {ans : Answer} (h : Replies cfg s a ans) {x : Exchange} (hsource : ans.via.source = some x)
    (hx : x.outcome ≠ .miss) : x.rid = ans.rid ∧ x.request = ans.request := by
  have hbacked := hS.replies h
  cases h with
  | own => cases hsource
  | l1Hit =>
    obtain ⟨key, -, hfrom, -⟩ := hbacked
    obtain rfl := Option.some.inj hsource
    exact absurd hfrom.1 hx
  | l2Hit =>
    obtain ⟨key, -, hfrom, -⟩ := hbacked
    obtain rfl := Option.some.inj hsource
    exact absurd hfrom.1 hx
  | @coalesced rid t leader result ha ht hphase hmarker =>
    cases result with
    | stale found =>
      obtain ⟨key, -, hfrom, -⟩ := hbacked
      obtain rfl := Option.some.inj hsource
      exact absurd hfrom.1 hx
    | origin y =>
      obtain rfl := Option.some.inj hsource
      obtain ⟨hrid, -, hreq, -⟩ := hbacked
      have hleader := hK rid t leader y ht hphase hx
      exact ⟨hrid.trans hleader, hreq hleader⟩
    | _ => cases hsource

/-- In every run that never broadcasts an origin response outside the `miss` outcome to
subscribers, such a response is delivered only to the request whose headers were sent. -/
theorem unshareable_stays_with_its_request (cfg : Config) (maxSizeBytes : UInt64) (t : State)
    (as : List Action)
    (h : Trace (step cfg) SharesMissesOnly (State.initial maxSizeBytes) as t) :
    ∀ ans ∈ t.answers, ∀ x, ans.via.source = some x → x.outcome ≠ .miss →
      x.rid = ans.rid ∧ x.request = ans.request := by
  refine answers_of_trace
    (I := fun s => Sourced cfg (fun x => x.outcome = .miss) s ∧ KeptByLeader s)
    (Q := fun _ ans => ∀ x, ans.via.source = some x → x.outcome ≠ .miss →
      x.rid = ans.rid ∧ x.request = ans.request) h ?_ ?_ ?_ ?_ ?_
  · rintro s a s' ⟨hS, hK⟩ hC hst
    exact ⟨hS.step hst (fun _ hx => hx) (fun _ hx => hx.2.1), hK.step hC (step_cases hst)⟩
  · exact fun _ _ _ _ _ hQ => hQ
  · rintro s a s' ans ⟨hS, hK⟩ - - hreply x hsource hx
    exact hK.replies hS hreply hsource hx
  · refine ⟨sourced_initial cfg _ maxSizeBytes, ?_⟩
    intro rid t leader x ht
    exact absurd ht (by simp [State.initial])
  · intro ans hans
    exact absurd hans (by simp [State.initial])

/-- Two visitors ask for the same page with cookies of their own while it is being fetched. -/
def privatePageActions : List Action :=
  [sampleDomains, .arrive (sampleRequest .get "/me" [("cookie", "session=a")]),
   .arrive (sampleRequest .get "/me" [("cookie", "session=b")])]
    ++ missActions 0 ++ missActions 1
    ++ fetchActions 0 200 [("cache-control", "private"), ("content-type", "text/html")] [1, 2]
    ++ [.publish 0, .respond 0, .respond 1]

/-- The second visitor is answered with the response to the first one's cookie. -/
theorem unshareable_reaches_follower :
    ∃ t, Trace (step sampleConfig) Free (State.initial 1000000) privatePageActions t ∧
      ∃ ans ∈ t.answers, ∃ x, ans.via.source = some x ∧ x.outcome ≠ .miss ∧ x.rid ≠ ans.rid ∧
        x.request.headers ≠ ans.request.headers := by
  have hrun : ((run (step sampleConfig) sampleStart privatePageActions).any fun t =>
      t.answers.any fun ans => ans.via.source.any fun x =>
        decide (x.outcome ≠ .miss ∧ x.rid ≠ ans.rid ∧ x.request.headers ≠ ans.request.headers)) =
      true := by
    decide +kernel
  obtain ⟨t, ht, hany⟩ := exists_trace_of_run hrun
  simp only [List.any_eq_true, Option.any_eq_true, decide_eq_true_eq] at hany
  obtain ⟨ans, hans, x, hsource, hx⟩ := hany
  exact ⟨t, ht, ans, hans, x, hsource, hx⟩

/-- The same page for a visitor who is alone. -/
def singleVisitorActions : List Action :=
  [sampleDomains, .arrive (sampleRequest .get "/me" [("cookie", "session=a")])] ++ missActions 0
    ++ fetchActions 0 200 [("cache-control", "private"), ("content-type", "text/html")] [1, 2]
    ++ [.publish 0, .respond 0]

/-- A visitor who is alone gets the response to the request that was sent. -/
theorem unshareable_stays_with_single_visitor :
    ∃ t, Trace (step sampleConfig) SharesMissesOnly (State.initial 1000000) singleVisitorActions t ∧
      ∃ ans ∈ t.answers, ∃ x, ans.via.source = some x ∧ x.outcome ≠ .miss ∧
        x.rid = ans.rid ∧ x.request = ans.request := by
  have hrun : ((checkedRun (step sampleConfig)
      (fun s a => match a with | .publish rid => s.unfollowed rid | _ => true)
      sampleStart singleVisitorActions).any fun t =>
        t.answers.any fun ans => ans.via.source.any fun x => decide (x.outcome ≠ .miss)) = true := by
    decide +kernel
  obtain ⟨t, ht, hany⟩ := exists_trace_of_checkedRun (I := Coalescing) (C := SharesMissesOnly)
    (fun s a s' hI hst => hI.step (step_cases hst))
    (fun s a hI hc rid tl x ha _ _ _ other t' ht' => by
      subst ha
      exact hI.of_unfollowed hc ht')
    (coalescing_initial 1000000) hrun
  simp only [List.any_eq_true, Option.any_eq_true, decide_eq_true_eq] at hany
  obtain ⟨ans, hans, x, hsource, hx⟩ := hany
  exact ⟨t, ht, ans, hans, x, hsource, hx,
    unshareable_stays_with_its_request sampleConfig 1000000 t _ ht ans hans x hsource hx⟩

end SmartSchoolCdn
