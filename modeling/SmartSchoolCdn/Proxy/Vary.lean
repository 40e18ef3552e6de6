import SmartSchoolCdn.Proxy.FieldLines
import SmartSchoolCdn.Proxy.Replay

/-!
# The Vary header

The extraction leaves out a `Vary` line that names `Accept-Encoding` alone, because a HIT of an entry
with a brotli variant adds that line itself.  No other response does: not the MISS that delivers the
origin response, not its followers, not a HIT of an entry without a variant.

So the answers of a run say that they depend on `Accept-Encoding` exactly when each of them that does
is a HIT of an entry with a variant, or has a `Vary` line that the extraction keeps: one that names
something else as well, among the first eight kilobytes (`vary_on_every_answer_iff`).
-/

namespace SmartSchoolCdn

open Traces Text

variable {cfg : Config} {headers headers' : HeaderMap} {e : MemoryCacheEntry}
  {x : Exchange} {req : Request} {s t : State} {a : Action} {as : List Action}

/-! ## Header lists -/

/-- The line names `Accept-Encoding`. -/
def NamesAcceptEncoding (line : String) : Prop :=
  ∃ member ∈ lineMembers line, lower member = "accept-encoding"

/-- The `Vary` list names `Accept-Encoding`. -/
def ListsAcceptEncoding (headers : HeaderMap) : Prop :=
  ∃ member ∈ headers.listMembers "vary", lower member = "accept-encoding"

instance (headers : HeaderMap) : Decidable (ListsAcceptEncoding headers) :=
  inferInstanceAs (Decidable (∃ member ∈ headers.listMembers "vary", lower member = "accept-encoding"))

/-- The list names what one of its lines names. -/
lemma listsAcceptEncoding_iff :
    ListsAcceptEncoding headers ↔ ∃ line, ("vary", line) ∈ headers ∧ NamesAcceptEncoding line := by
  have hline : ∀ line, line ∈ headers.getAll "vary" ↔ ("vary", line) ∈ headers := by
    intro line
    simp [HeaderMap.getAll]
  simp only [ListsAcceptEncoding, NamesAcceptEncoding, HeaderMap.listMembers, List.mem_flatMap, hline]
  grind

/-- Header lists one after the other. -/
lemma listsAcceptEncoding_append :
    ListsAcceptEncoding (headers ++ headers') ↔
      ListsAcceptEncoding headers ∨ ListsAcceptEncoding headers' := by
  simp only [listsAcceptEncoding_iff, List.mem_append, or_and_right, exists_or]

/-- Headers with other names list nothing. -/
lemma not_listsAcceptEncoding (hnames : ∀ nv ∈ headers, nv.1 ≠ "vary") :
    ¬ ListsAcceptEncoding headers := by
  rw [listsAcceptEncoding_iff]
  rintro ⟨line, hline, -⟩
  exact hnames _ hline rfl

/-- An optional header with another name lists nothing. -/
lemma not_listsAcceptEncoding_headerIf (name : String) (value : Option String) (hname : name ≠ "vary") :
    ¬ ListsAcceptEncoding (headerIf name value) := by
  refine not_listsAcceptEncoding fun nv hnv => ?_
  unfold headerIf at hnv
  split at hnv
  · rw [List.mem_singleton.mp hnv]
    exact hname
  · cases hnv

/-- A HIT lists what its entry lists, and `Accept-Encoding` if the entry has a variant. -/
lemma listsAcceptEncoding_hitResponse (reason : CacheOutcome) :
    ListsAcceptEncoding (hitResponse cfg reason req e).headers ↔
      ListsAcceptEncoding e.cachedHeaders ∨ e.bodyBr.isSome = true := by
  have hvary : ListsAcceptEncoding
      (headerIf "vary" (if e.bodyBr.isSome then some "Accept-Encoding" else none)) ↔
        e.bodyBr.isSome = true := by
    cases e.bodyBr.isSome <;> decide
  have hfirst : ¬ ListsAcceptEncoding [("accept-ranges", "bytes")] := by decide
  have hlast : ¬ ListsAcceptEncoding [("x-cache-status", "HIT"), ("x-cache-reason", reason.asHeader),
      ("x-served-by", "smart-school-cdn")] := not_listsAcceptEncoding (by simp)
  simp only [hitResponse, listsAcceptEncoding_append, hvary, hfirst, hlast,
    not_listsAcceptEncoding_headerIf "content-length" _ (by decide),
    not_listsAcceptEncoding_headerIf "content-type" _ (by decide),
    not_listsAcceptEncoding_headerIf "content-range" _ (by decide),
    not_listsAcceptEncoding_headerIf "content-encoding" _ (by decide), false_or, or_false]

/-- A response after a coalesced fetch lists what its cached headers list. -/
lemma listsAcceptEncoding_missResponse {r : Coalesced}
    (hpassed : ∀ nv ∈ r.passthroughHeaders, nv.1 ≠ "vary") :
    ListsAcceptEncoding (missResponse req r).headers ↔ ListsAcceptEncoding r.cachedHeaders := by
  have hfirst : ¬ ListsAcceptEncoding [("accept-ranges", "bytes")] := by decide
  have hlast : ¬ ListsAcceptEncoding [("x-cache-status", "MISS"),
      ("x-cache-reason", r.outcome.asHeader), ("x-served-by", "smart-school-cdn")] :=
    not_listsAcceptEncoding (by simp)
  simp only [missResponse, listsAcceptEncoding_append, hfirst, hlast,
    not_listsAcceptEncoding hpassed, not_listsAcceptEncoding_headerIf "content-type" _ (by decide),
    not_listsAcceptEncoding_headerIf "content-range" _ (by decide), false_or, or_false]

/-! ## What the extraction keeps -/

/-- The lines of the whitelist that may be stored: the readable ones, without a `Vary` that names
`Accept-Encoding` alone. -/
def storableLines (headers : HeaderMap) : HeaderMap :=
  cacheableHeaders.flatMap fun wanted =>
    (headers.getAll wanted).filterMap fun value =>
      (toStr value).bind fun v =>
        if wanted == "vary" && lower (trim v) == "accept-encoding" then none else some (wanted, v)

/-- The bytes of names and values. -/
def headerBytes (headers : HeaderMap) : ℕ := (headers.map fun nv => nv.1.length + nv.2.length).sum

/-- The limit keeps a line if it fits together with the lines before it. -/
lemma mem_takeWithin_iff {limit total : ℕ} {nv : String × String} :
    nv ∈ takeWithin limit total headers ↔
      ∃ before after, headers = before ++ nv :: after ∧
        total + headerBytes (before ++ [nv]) ≤ limit := by
  induction headers generalizing total with
  | nil => simp [takeWithin]
  | cons first rest ih =>
    have hbytes : ∀ before, total + headerBytes (first :: before ++ [nv]) =
        total + (first.1.length + first.2.length) + headerBytes (before ++ [nv]) := by
      intro before
      simp only [headerBytes, List.cons_append, List.map_cons, List.sum_cons]
      omega
    rw [takeWithin]
    constructor
    · intro h
      split at h
      · cases h
      · rcases List.mem_cons.mp h with rfl | h
        · refine ⟨[], rest, rfl, ?_⟩
          simp only [headerBytes, List.nil_append, List.map_cons, List.map_nil, List.sum_cons,
            List.sum_nil]
          omega
        · obtain ⟨before, after, hrest, hfits⟩ := ih.mp h
          exact ⟨first :: before, after, by rw [hrest, List.cons_append], (hbytes before).trans_le hfits⟩
    · rintro ⟨before, after, heq, hfits⟩
      cases before with
      | nil =>
        obtain ⟨rfl, rfl⟩ := List.cons.inj heq
        simp only [headerBytes, List.nil_append, List.map_cons, List.map_nil, List.sum_cons,
          List.sum_nil] at hfits
        rw [if_neg (by omega)]
        exact List.mem_cons_self
      | cons b before =>
        obtain ⟨rfl, hrest⟩ := List.cons.inj heq
        rw [hbytes] at hfits
        rw [if_neg (by omega)]
        exact List.mem_cons_of_mem _ (ih.mpr ⟨before, after, hrest, hfits⟩)

/-- Some `Vary` line that names `Accept-Encoding` may be stored, and fits together with the storable
lines before it. -/
def KeepsVary (headers : HeaderMap) : Prop :=
  ∃ before line after, storableLines headers = before ++ ("vary", line) :: after ∧
    headerBytes (before ++ [("vary", line)]) ≤ maxCachedHeadersBytes ∧ NamesAcceptEncoding line

/-- The extraction keeps the name exactly then. -/
lemma listsAcceptEncoding_extractCacheableHeaders :
    ListsAcceptEncoding (extractCacheableHeaders headers) ↔ KeepsVary headers := by
  have hextract : extractCacheableHeaders headers =
      takeWithin maxCachedHeadersBytes 0 (storableLines headers) := rfl
  rw [listsAcceptEncoding_iff, hextract]
  constructor
  · rintro ⟨line, hline, hnames⟩
    obtain ⟨before, after, heq, hfits⟩ := mem_takeWithin_iff.mp hline
    rw [Nat.zero_add] at hfits
    exact ⟨before, line, after, heq, hfits, hnames⟩
  · rintro ⟨before, line, after, heq, hfits, hnames⟩
    exact ⟨line, mem_takeWithin_iff.mpr ⟨before, after, heq, (Nat.zero_add _).trans_le hfits⟩, hnames⟩

/-! ## Answers -/

/-- The proxy holds a brotli variant for the URL of the request: in a cache level or on its way to
one. -/
def HoldsVariant (cfg : Config) (s : State) (req : Request) : Prop :=
  ∃ key e, requestKey cfg req = some key ∧ e.bodyBr.isSome = true ∧
    (Prepared s key e ∨ ∃ copy, s.storage.stored key = some copy ∧ e = copy.toEntry)

/-- The answer is sent with status 200 by a cache level or a coalesced fetch, and what is sent for
its URL can depend on `Accept-Encoding`: the origin response behind it says so, or there is a
variant. -/
def CanDepend (cfg : Config) (s : State) (ans : Answer) (x : Exchange) : Prop :=
  ans.via.source = some x ∧ ans.response.status = 200 ∧
    (ListsAcceptEncoding x.response.headers ∨ HoldsVariant cfg s ans.request)

/-- An answer that can depend on `Accept-Encoding` says so. -/
def CarriesVary (cfg : Config) (s : State) (ans : Answer) : Prop :=
  ∀ x, CanDepend cfg s ans x → ListsAcceptEncoding ans.response.headers

/-- An answer that can depend on `Accept-Encoding` is a HIT of an entry with a variant, or the
extraction keeps what the origin response says. -/
def VaryKept (cfg : Config) (s : State) (ans : Answer) : Prop :=
  ∀ x, CanDepend cfg s ans x →
    (∃ e, ans.via.entry = some e ∧ e.bodyBr.isSome = true) ∨ KeepsVary x.response.headers

/-- The entry of a HIT is made from the exchange behind it. -/
lemma Via.source_of_entry {via : Via} (h : via.entry = some e) : via.source = some e.body.source := by
  cases via with
  | l1Hit slot =>
    obtain rfl := Option.some.inj h
    rfl
  | l2Hit y lookedUpAt =>
    obtain rfl := Option.some.inj h
    rfl
  | coalesced leader result => cases h
  | own => cases h

/-- What the headers of a backed answer list. -/
lemma Answer.Backed.listsAcceptEncoding {ans : Answer}
    (h : ans.Backed cfg fun x => x.outcome = .miss) (hsource : ans.via.source = some x) :
    ListsAcceptEncoding ans.response.headers ↔
      (∃ e, ans.via.entry = some e ∧ e.bodyBr.isSome = true) ∨ KeepsVary x.response.headers := by
  cases hentry : ans.via.entry with
  | some e =>
    obtain ⟨reason, -, hmiss, hderives, hsent⟩ := h.entry hentry
    obtain rfl := Option.some.inj ((Via.source_of_entry hentry).symm.trans hsource)
    have hheaders := (hderives.keeps hmiss).1
    rw [hsent, listsAcceptEncoding_hitResponse, hheaders, listsAcceptEncoding_extractCacheableHeaders]
    simp [or_comm]
  | none =>
    have hnone : ¬ ∃ e : MemoryCacheEntry, none = some e ∧ e.bodyBr.isSome = true := by simp
    rw [or_iff_right hnone]
    unfold Answer.Backed at h
    cases hvia : ans.via with
    | own =>
      rw [hvia] at hsource
      cases hsource
    | l1Hit slot =>
      rw [hvia] at hentry
      cases hentry
    | l2Hit y lookedUpAt =>
      rw [hvia] at hentry
      cases hentry
    | coalesced leader result =>
      rw [hvia] at h hsource
      cases result with
      | stale found =>
        obtain rfl := Option.some.inj hsource
        obtain ⟨key, -, ⟨hmiss, -, hderives⟩, hsent⟩ := h
        have hheaders : found.cachedHeaders =
            extractCacheableHeaders found.body.source.response.headers := (hderives.keeps hmiss).1
        have hfilter : ListsAcceptEncoding (staleResponse found).cachedHeaders ↔
            ListsAcceptEncoding found.cachedHeaders := by
          simp [listsAcceptEncoding_iff, staleResponse]
        rw [hsent, listsAcceptEncoding_missResponse, hfilter, hheaders,
          listsAcceptEncoding_extractCacheableHeaders]
        simp [staleResponse]
      | origin y =>
        obtain rfl := Option.some.inj hsource
        obtain ⟨-, -, -, hsent⟩ := h
        have hpassed : ∀ nv ∈ (originResponse y).passthroughHeaders, nv.1 ≠ "vary" := by
          intro nv hnv heq
          have hname := name_mem_of_mem_extractPassthroughHeaders hnv
          rw [heq] at hname
          exact absurd hname (by decide)
        rw [hsent, listsAcceptEncoding_missResponse hpassed]
        exact listsAcceptEncoding_extractCacheableHeaders
      | _ => cases hsource

/-- An answer that is backed says what it has to exactly then. -/
lemma Answer.Backed.carriesVary_iff {ans : Answer} (h : ans.Backed cfg fun x => x.outcome = .miss) :
    CarriesVary cfg s ans ↔ VaryKept cfg s ans :=
  forall_congr' fun _ => imp_congr_right fun hdepends => h.listsAcceptEncoding hdepends.1

/-! ## Runs -/

/-- The answer that the step sends has the property. -/
def Sends (cfg : Config) (P : State → Answer → Prop) (s : State) (a : Action) : Prop :=
  ∀ s' ans, step cfg s a = some s' → s'.answers = ans :: s.answers → P s ans

/-- Every answer of a run was sent by a step. -/
lemma sent_of_trace {P : State → Answer → Prop} {maxSizeBytes : UInt64}
    (h : Trace (step cfg) (Sends cfg P) (State.initial maxSizeBytes) as t) :
    ∀ ans ∈ t.answers, ∃ s, P s ans := by
  refine h.carried (I := fun _ => True) (K := fun s => { ans | ans ∈ s.answers })
    (P := fun _ ans => ∃ s, P s ans) (fun _ _ _ _ _ _ => trivial) ?_ trivial
    (fun ans hans => absurd hans (by simp [State.initial]))
  intro s a s' ans _ hC hst hmem
  rcases (step_cases hst).answers with hsame | ⟨new, hnew, -⟩
  · rw [Set.mem_ofPred_eq, hsame] at hmem
    exact Or.inl ⟨ans, hmem, id⟩
  · rw [Set.mem_ofPred_eq, hnew, List.mem_cons] at hmem
    rcases hmem with rfl | hmem
    · exact Or.inr ⟨s, hC s' ans hst hnew⟩
    · exact Or.inl ⟨ans, hmem, id⟩

/-- In every run, every answer with status 200 of a cache level or a coalesced fetch that can depend
on `Accept-Encoding` has a `Vary` that lists it, if and only if every such answer is a HIT of an
entry with a variant, or the extraction keeps the `Vary` of the origin response behind it. -/
theorem vary_on_every_answer_iff (cfg : Config) (maxSizeBytes : UInt64) (as : List Action) (t : State) :
    Trace (step cfg) (Sends cfg (CarriesVary cfg)) (State.initial maxSizeBytes) as t ↔
      Trace (step cfg) (Sends cfg (VaryKept cfg)) (State.initial maxSizeBytes) as t := by
  have hstep : ∀ r a, Reaches (step cfg) (State.initial maxSizeBytes) r → ∀ s' ans,
      step cfg r a = some s' → s'.answers = ans :: r.answers →
      (CarriesVary cfg r ans ↔ VaryKept cfg r ans) := by
    rintro r a ⟨bs, hbs⟩ s' ans hst hsent
    have hrun := hbs.append (Trace.cons trivial hst (Trace.nil s'))
    exact (backed_of_run hrun ans (hsent ▸ List.mem_cons_self)).carriesVary_iff
  constructor
  · intro h
    refine h.weaken_of_reaches fun r a hr hC s' ans hst hsent => ?_
    exact (hstep r a hr s' ans hst hsent).mp (hC s' ans hst hsent)
  · intro h
    refine h.weaken_of_reaches fun r a hr hC s' ans hst hsent => ?_
    exact (hstep r a hr s' ans hst hsent).mpr (hC s' ans hst hsent)

/-- A text that the origin sends with `Vary: Accept-Encoding` is fetched and saved, then asked for
again. -/
def variedTextActions : List Action :=
  [sampleDomains, .arrive (sampleRequest .get "/page" [])] ++ missActions 0
    ++ fetchActions 0 200 [("content-type", "text/plain"), ("vary", "Accept-Encoding")] [7]
    ++ [.publish 0, .respond 0] ++ saveActions 0
    ++ [.arrive (sampleRequest .get "/page" []), .l1Get 1]

/-- Neither the MISS nor the HIT has a `Vary`. -/
theorem vary_dropped :
    ∃ t, Trace (step sampleConfig) Free (State.initial 1000000) variedTextActions t ∧
      t.answers.length = 2 ∧ (∀ ans ∈ t.answers, ans.response.status = 200 ∧
        ans.response.headers.get "vary" = none ∧
        ∃ x, ans.via.source = some x ∧ ListsAcceptEncoding x.response.headers) ∧
      ¬ Trace (step sampleConfig) (Sends sampleConfig (CarriesVary sampleConfig))
        (State.initial 1000000) variedTextActions t := by
  have hrun : ((run (step sampleConfig) sampleStart variedTextActions).any fun t =>
      t.answers.length == 2 && t.answers.all fun ans =>
        decide (ans.response.status = 200 ∧ ans.response.headers.get "vary" = none ∧
          ¬ ListsAcceptEncoding ans.response.headers) &&
        ans.via.source.any fun x => decide (ListsAcceptEncoding x.response.headers)) = true := by
    decide +kernel
  obtain ⟨t, ht, hall⟩ := exists_trace_of_run hrun
  simp only [Bool.and_eq_true, beq_iff_eq, List.all_eq_true, Option.any_eq_true,
    decide_eq_true_eq] at hall
  obtain ⟨hlength, hall⟩ := hall
  refine ⟨t, ht, hlength, fun ans hans => ?_, fun hcarries => ?_⟩
  · obtain ⟨⟨hstatus, hvary, -⟩, x, hx, hlists⟩ := hall ans hans
    exact ⟨hstatus, hvary, x, hx, hlists⟩
  · obtain ⟨ans, hans⟩ := List.exists_mem_of_length_pos (by rw [hlength]; decide)
    obtain ⟨⟨hstatus, -, hnone⟩, x, hx, hlists⟩ := hall ans hans
    obtain ⟨s, hs⟩ := sent_of_trace hcarries ans hans
    exact hnone (hs x ⟨hx, hstatus, Or.inl hlists⟩)

end SmartSchoolCdn
