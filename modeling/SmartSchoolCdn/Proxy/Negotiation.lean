import SmartSchoolCdn.Foundation.Grammar
import SmartSchoolCdn.Proxy.Compress

/-!
# Negotiation of the content coding

An `Accept-Encoding` value lists codings with weights.  A coding is *granted* when one of its
listings has a weight above zero, and *acceptable* when it is granted, or when it is not listed and
the wildcard is granted.  The loop of `negotiate_encoding` keeps one flag for each of `br`, `gzip`
and `*` and reads the wildcard as brotli, also where brotli is listed and refused; and it knows the
weight only under a lower-case `q`.

So the negotiated coding is the preferred acceptable one exactly when brotli is acceptable, or a
lower-case weight refuses it and the wildcard wherever they are listed (`negotiates_iff`).
-/

namespace SmartSchoolCdn

open Text

variable {cs : List Char} {n places : ℕ} {v item name : String} {acceptEncoding : Option String}

/-! ## Weights -/

/-- A decimal with at most three digits after the point, and its digits as a number. -/
inductive QValue : List Char → ℕ → Prop
  | whole {cs : List Char} {n : ℕ} : Decimal cs n → QValue cs n
  | point {cs ds : List Char} {n : ℕ} : Decimal (cs ++ ds) n → ds.length ≤ 3 →
      QValue (cs ++ '.' :: ds) n

/-- The mantissa of a decimal is its digits. -/
lemma decimalMantissa_eq_some_iff :
    decimalMantissa cs = some (n, places) ↔
      (Decimal cs n ∧ places = 0) ∨
        ∃ as ds, cs = as ++ '.' :: ds ∧ Decimal (as ++ ds) n ∧ places = ds.length := by
  have hpoint : ∀ {as : List Char}, '.' ∉ as → ∀ c ∈ as, (c != '.') = true :=
    fun has c hc => bne_iff_ne.mpr fun heq => has (heq ▸ hc)
  unfold decimalMantissa
  constructor
  · intro h
    obtain ⟨m, hm, heq⟩ := Option.map_eq_some_iff.mp h
    obtain ⟨rfl, rfl⟩ := Prod.mk.inj heq
    have hsplit := List.takeWhile_append_dropWhile (p := (· != '.')) (l := cs)
    cases hdrop : cs.dropWhile (· != '.') with
    | nil =>
      rw [hdrop, List.append_nil] at hsplit
      rw [hdrop, hsplit] at hm
      exact Or.inl ⟨digits?_eq_some_iff.mp (by simpa using hm), rfl⟩
    | cons d ds =>
      have hd : d = '.' := by
        have hhead := List.head_dropWhile_not (· != '.') (l := cs)
          (by rw [hdrop]; exact List.cons_ne_nil d ds)
        simpa [hdrop] using hhead
      subst hd
      rw [hdrop] at hsplit hm
      exact Or.inr ⟨_, ds, hsplit.symm, digits?_eq_some_iff.mp hm, rfl⟩
  · rintro (⟨hn, rfl⟩ | ⟨as, ds, rfl, hn, rfl⟩)
    · have hnone := hpoint (hn.not_mem (by decide))
      have htake : cs.takeWhile (· != '.') = cs := List.takeWhile_eq_self_iff.mpr hnone
      have hdrop : cs.dropWhile (· != '.') = [] := List.dropWhile_eq_nil_iff.mpr hnone
      simp only [htake, hdrop, List.drop_nil, List.append_nil, digits?_eq_some_iff.mpr hn]
      rfl
    · have hnone := hpoint fun hmem => hn.not_mem (by decide) (List.mem_append_left ds hmem)
      have htake : (as ++ '.' :: ds).takeWhile (· != '.') = as := by
        rw [List.takeWhile_append_of_pos hnone]
        simp
      have hdrop : (as ++ '.' :: ds).dropWhile (· != '.') = '.' :: ds := by
        rw [List.dropWhile_append_of_pos hnone]
        simp
      simp only [htake, hdrop, List.drop_one, List.tail_cons, digits?_eq_some_iff.mpr hn]
      rfl

/-- A weight consists of digits and a point. -/
lemma QValue.digit_or_point (h : QValue cs n) : ∀ c ∈ cs, c.isDigit = true ∨ c = '.' := by
  cases h with
  | whole hn => exact fun c hc => Or.inl (hn.isDigit c hc)
  | point hn _ =>
    intro c hc
    rcases List.mem_append.mp hc with hc | hc
    · exact Or.inl (hn.isDigit c (List.mem_append_left _ hc))
    · rcases List.mem_cons.mp hc with rfl | hc
      · exact Or.inr rfl
      · exact Or.inl (hn.isDigit c (List.mem_append_right _ hc))

/-- The mantissa of a weight. -/
lemma QValue.mantissa (h : QValue cs n) : ∃ places ≤ 3, decimalMantissa cs = some (n, places) := by
  cases h with
  | whole hn => exact ⟨0, Nat.zero_le 3, decimalMantissa_eq_some_iff.mpr (Or.inl ⟨hn, rfl⟩)⟩
  | @point as ds _ hn hlen =>
    exact ⟨ds.length, hlen, decimalMantissa_eq_some_iff.mpr (Or.inr ⟨as, ds, rfl, hn, rfl⟩)⟩

/-- Three digits after the point do not make a number too small for an `f32`. -/
lemma scaledIsPositive_neg (hplaces : places ≤ 3) :
    scaledIsPositive n (-(places : ℤ)) = decide (0 < n) := by
  unfold scaledIsPositive
  split
  · rfl
  · rw [Int.natAbs_neg, Int.natAbs_natCast]
    rcases Nat.eq_zero_or_pos n with rfl | hn
    · simp
    · have hpow : 10 ^ places ≤ 10 ^ 3 := Nat.pow_le_pow_right (by decide) hplaces
      have hlt : 10 ^ places < n * 2 ^ 150 := by omega
      rw [decide_eq_true hlt, decide_eq_true hn]

/-- A digit or a point is no letter and no sign. -/
lemma ne_of_digit_or_point {c d : Char} (hc : c.isDigit = true ∨ c = '.') (hd : d.isDigit = false)
    (hpoint : d ≠ '.') : c ≠ d := by
  rintro rfl
  rcases hc with hc | hc
  · rw [hd] at hc
    cases hc
  · exact hpoint hc

/-- Digits and points have no case. -/
lemma toLower_of_digit_or_point {c : Char} (hc : c.isDigit = true ∨ c = '.') : c.toLower = c := by
  rcases hc with hc | rfl
  · have hdigit : c.val ≤ 57 := by
      simp only [Char.isDigit, Bool.and_eq_true, decide_eq_true_eq] at hc
      exact hc.2
    unfold Char.toLower
    grind
  · rfl

/-- An `f32` reads a weight as positive exactly when it is not zero. -/
theorem f32IsPositive_of_qvalue (h : QValue v.toList n) : f32IsPositive v = some (decide (0 < n)) := by
  have hchars := h.digit_or_point
  obtain ⟨places, hplaces, hmantissa⟩ := h.mantissa
  have hlower : (lower v).toList = v.toList := by
    rw [lower, String.toList_ofList]
    exact (List.map_congr_left fun c hc => toLower_of_digit_or_point (hchars c hc)).trans
      (List.map_id v.toList)
  have hhead : ∀ d rest, v.toList = d :: rest → d ≠ '-' ∧ d ≠ '+' ∧ d ≠ 'i' ∧ d ≠ 'n' := by
    intro d rest heq
    have hd := hchars d (heq ▸ List.mem_cons_self)
    exact ⟨ne_of_digit_or_point hd (by decide) (by decide),
      ne_of_digit_or_point hd (by decide) (by decide),
      ne_of_digit_or_point hd (by decide) (by decide),
      ne_of_digit_or_point hd (by decide) (by decide)⟩
  have hexp : ∀ c ∈ v.toList, (c != 'e') = true := fun c hc =>
    bne_iff_ne.mpr (ne_of_digit_or_point (hchars c hc) (by decide) (by decide))
  have htake : v.toList.takeWhile (· != 'e') = v.toList := List.takeWhile_eq_self_iff.mpr hexp
  have hdrop : v.toList.dropWhile (· != 'e') = [] := List.dropWhile_eq_nil_iff.mpr hexp
  have hinf : ¬ (v.toList = ['i', 'n', 'f'] ∨ v.toList = "infinity".toList) := by
    rintro (heq | heq)
    · exact (hhead _ _ heq).2.2.1 rfl
    · exact (hhead 'i' "nfinity".toList heq).2.2.1 rfl
  have hnan : ¬ v.toList = ['n', 'a', 'n'] := fun heq => (hhead _ _ heq).2.2.2 rfl
  unfold f32IsPositive
  rw [hlower]
  simp only
  -- the text has no sign
  split
  · exact absurd rfl (hhead _ _ ‹_›).1
  · exact absurd rfl (hhead _ _ ‹_›).2.1
  · simp only [if_neg hinf, if_neg hnan, htake, hdrop, hmantissa, Option.bind_some,
      scaledIsPositive_neg hplaces, Bool.not_false, Bool.true_and]

/-- The value of a weight, without its point. -/
def qvalue? (v : String) : Option ℕ :=
  (decimalMantissa v.toList).bind fun mant => if mant.2 ≤ 3 then some mant.1 else none

/-- `qvalue?` reads the weights. -/
lemma qvalue?_eq_some_iff : qvalue? v = some n ↔ QValue v.toList n := by
  unfold qvalue?
  constructor
  · intro h
    obtain ⟨⟨m, places⟩, hmantissa, h⟩ := Option.bind_eq_some_iff.mp h
    split at h
    · rename_i hplaces
      obtain rfl := Option.some.inj h
      rcases decimalMantissa_eq_some_iff.mp hmantissa with ⟨hn, -⟩ | ⟨as, ds, heq, hn, rfl⟩
      · exact QValue.whole hn
      · rw [heq]
        exact QValue.point hn hplaces
    · cases h
  · intro h
    obtain ⟨places, hplaces, hmantissa⟩ := h.mantissa
    rw [hmantissa, Option.bind_some, if_pos hplaces]

/-- Whether a weight is above zero: a decimal with at most three digits after the point is if it is
not zero, any other text is what an `f32` makes of it, and a text that is no number is malformed. -/
def weightIsPositive (v : String) : Option Bool :=
  match qvalue? v with
  | some n => some (decide (0 < n))
  | none => f32IsPositive v

/-- The loop reads the weights right. -/
lemma f32IsPositive_eq_weightIsPositive (v : String) : f32IsPositive v = weightIsPositive v := by
  unfold weightIsPositive
  cases hq : qvalue? v with
  | none => rfl
  | some n => exact f32IsPositive_of_qvalue (qvalue?_eq_some_iff.mp hq)

/-! ## Listings -/

/-- The members of an `Accept-Encoding` value. -/
def listings (acceptEncoding : Option String) : List String :=
  match acceptEncoding with
  | none => []
  | some raw => ((split raw ',').map trim).filter fun item => !item.isEmpty

/-- The coding that a member names, in lower case. -/
def listedCoding (item : String) : String :=
  lower (((split item ';').map trim).headD "")

/-- The weights of a member that are spelled so, as far as they are numbers. -/
def spelledWeights (spelling item : String) : List Bool :=
  (((split item ';').map trim).drop 1).filterMap fun p =>
    (stripHead p spelling).bind weightIsPositive

/-- Whether the weight of a member is above zero; it is one if no other is given. If a member has
several weights the last one counts, those with a lower-case letter before the others. -/
def grants (item : String) : Bool :=
  ((spelledWeights "Q=" item ++ spelledWeights "q=" item).getLast?).getD true

/-- The member refuses its coding by a weight of zero under a lower-case letter. -/
def refusesInLowerCase (item : String) : Bool :=
  (spelledWeights "q=" item).getLast? == some false

/-- Some member names the coding. -/
def Listed (acceptEncoding : Option String) (coding : String) : Prop :=
  ∃ item ∈ listings acceptEncoding, listedCoding item = coding

/-- Some member names the coding with a weight above zero. -/
def Granted (acceptEncoding : Option String) (coding : String) : Prop :=
  ∃ item ∈ listings acceptEncoding, listedCoding item = coding ∧ grants item = true

/-- The client accepts the coding: by its name, or by the wildcard if it is not listed. -/
def Acceptable (acceptEncoding : Option String) (coding : String) : Prop :=
  Granted acceptEncoding coding ∨ (¬ Listed acceptEncoding coding ∧ Granted acceptEncoding "*")

/-- Every member that names the coding refuses it in lower case. -/
def RefusedInLowerCase (acceptEncoding : Option String) (coding : String) : Prop :=
  ∀ item ∈ listings acceptEncoding, listedCoding item = coding → refusesInLowerCase item = true

/-- The preferred coding among those that the client accepts. -/
structure Negotiates (acceptEncoding : Option String) (chosen : Encoding) : Prop where
  noRefusedBrotli : Listed acceptEncoding "br" → ¬ Granted acceptEncoding "br" → chosen ≠ .br
  noRefusedGzip : Listed acceptEncoding "gzip" → ¬ Granted acceptEncoding "gzip" → chosen ≠ .gzip
  brotli : Acceptable acceptEncoding "br" → chosen = .br
  gzip : Acceptable acceptEncoding "gzip" → ¬ Acceptable acceptEncoding "br" → chosen = .gzip
  identity : ¬ Acceptable acceptEncoding "br" → ¬ Acceptable acceptEncoding "gzip" →
    chosen = .identity

/-! ## The loop -/

/-- A loop that keeps the last value found ends with it. -/
lemma foldl_found {α β : Type*} {keep : β → α → β} {found : α → Option β}
    (h : ∀ kept x, keep kept x = (found x).getD kept) (l : List α) (start : β) :
    l.foldl keep start = ((l.filterMap found).getLast?).getD start := by
  induction l generalizing start with
  | nil => rfl
  | cons x l ih =>
    rw [List.foldl_cons, ih, h, List.filterMap_cons]
    cases found x with
    | none => rfl
    | some b => rw [List.getLast?_cons, Option.getD_some, Option.getD_some]

/-- The loop takes a member for accepted unless it is refused in lower case. -/
lemma acceptMember_eq (item : String) :
    acceptMember item = (listedCoding item, !refusesInLowerCase item) := by
  have hloop : (acceptMember item).2 = ((spelledWeights "q=" item).getLast?).getD true := by
    refine foldl_found (fun accepted p => ?_) _ true
    rw [← funext f32IsPositive_eq_weightIsPositive]
    cases (stripHead p "q=").bind f32IsPositive <;> rfl
  refine Prod.ext rfl (hloop.trans ?_)
  rw [refusesInLowerCase]
  cases (spelledWeights "q=" item).getLast? with
  | none => rfl
  | some b => cases b <;> rfl

/-- The flag that the loop keeps of a coding. -/
def stands (acceptEncoding : Option String) (coding : String) : Bool :=
  (listings acceptEncoding).any fun item => listedCoding item == coding && !refusesInLowerCase item

/-- The flag is not set exactly when every member refuses the coding in lower case. -/
lemma stands_eq_false_iff {coding : String} :
    stands acceptEncoding coding = false ↔ RefusedInLowerCase acceptEncoding coding := by
  simp [stands, RefusedInLowerCase]

/-- The outcome in terms of the flags. -/
lemma negotiateEncoding_eq (acceptEncoding : Option String) :
    negotiateEncoding acceptEncoding =
      if stands acceptEncoding "br" || stands acceptEncoding "*" then .br
      else if stands acceptEncoding "gzip" then .gzip else .identity := by
  have hflag : ∀ raw coding, ((acceptMembers raw).any fun m => m.1 == coding && m.2) =
      stands (some raw) coding := by
    intro raw coding
    simp only [acceptMembers, stands, listings, List.any_map, Function.comp_def, acceptMember_eq]
  cases acceptEncoding with
  | none => rfl
  | some raw =>
    simp only [negotiateEncoding, hflag]
    by_cases hblank : trim raw = ""
    · -- a blank value has no members
      have hcomma : ∀ c ∈ raw.toList, (c == ',') = false := by
        intro c hc
        refine beq_eq_false_iff_ne.mpr ?_
        rintro rfl
        rcases isSpace_or_mem_trim hc with hspace | hkept
        · exact absurd hspace (by decide)
        · simp [hblank] at hkept
      have hnone : listings (some raw) = [] := by
        simp [listings, split, splitBy_eq_singleton hcomma, hblank]
      simp [hblank, stands, hnone]
    · have hne : (trim raw).isEmpty = false := by
        rw [Bool.eq_false_iff]
        exact fun hempty => hblank (String.isEmpty_iff.mp hempty)
      rw [hne, if_neg Bool.false_ne_true]

/-- A coding that is granted stands. -/
lemma Granted.stands {coding : String} (h : Granted acceptEncoding coding) :
    stands acceptEncoding coding = true := by
  obtain ⟨item, hitem, hcoding, hgrants⟩ := h
  have hkept : refusesInLowerCase item = false := by
    unfold refusesInLowerCase
    rw [beq_eq_false_iff_ne]
    intro hlast
    rw [grants, List.getLast?_append, hlast] at hgrants
    cases hgrants
  exact List.any_eq_true.mpr ⟨item, hitem, by simp [hcoding, hkept]⟩

/-- A coding that stands is listed. -/
lemma listed_of_stands {coding : String} (h : stands acceptEncoding coding = true) :
    Listed acceptEncoding coding := by
  obtain ⟨item, hitem, hstands⟩ := List.any_eq_true.mp h
  rw [Bool.and_eq_true, beq_iff_eq] at hstands
  exact ⟨item, hitem, hstands.1⟩

/-! ## The condition -/

/-- For every `Accept-Encoding` value, the outcome is the preferred coding among those that the
client accepts if and only if brotli is acceptable, or every member that names brotli or the
wildcard refuses it in lower case and gzip is granted by its name or refused in lower case. -/
theorem negotiates_iff (acceptEncoding : Option String) :
    Negotiates acceptEncoding (negotiateEncoding acceptEncoding) ↔
      Acceptable acceptEncoding "br" ∨
        RefusedInLowerCase acceptEncoding "br" ∧ RefusedInLowerCase acceptEncoding "*" ∧
          (Granted acceptEncoding "gzip" ∨ RefusedInLowerCase acceptEncoding "gzip") := by
  rw [negotiateEncoding_eq]
  simp only [← stands_eq_false_iff]
  have hwildcard : Granted acceptEncoding "*" → stands acceptEncoding "*" = true := Granted.stands
  by_cases hbr : Acceptable acceptEncoding "br"
  · -- brotli is acceptable, and selected
    refine iff_of_true ?_ (Or.inl hbr)
    have hstands : (stands acceptEncoding "br" || stands acceptEncoding "*") = true := by
      rw [Bool.or_eq_true]
      exact hbr.imp Granted.stands fun h => h.2.stands
    rw [if_pos hstands]
    refine ⟨fun hlisted hnot => ?_, fun _ _ => by decide, fun _ => rfl,
      fun _ hnot => absurd hbr hnot, fun hnot => absurd hbr hnot⟩
    rcases hbr with hgranted | ⟨hunlisted, -⟩
    · exact absurd hgranted hnot
    · exact absurd hlisted hunlisted
  · constructor
    · intro h
      right
      have hne : (stands acceptEncoding "br" || stands acceptEncoding "*") = false := by
        rw [Bool.eq_false_iff]
        intro hstands
        rw [if_pos hstands] at h
        by_cases hgzip : Acceptable acceptEncoding "gzip"
        · exact Encoding.noConfusion (h.gzip hgzip hbr)
        · exact Encoding.noConfusion (h.identity hbr hgzip)
      obtain ⟨hbrFlag, hstarFlag⟩ := Bool.or_eq_false_iff.mp hne
      refine ⟨hbrFlag, hstarFlag, ?_⟩
      rw [hne, if_neg Bool.false_ne_true] at h
      by_cases hgranted : Granted acceptEncoding "gzip"
      · exact Or.inl hgranted
      · refine Or.inr (Bool.eq_false_iff.mpr fun hstands => ?_)
        rw [if_pos hstands] at h
        exact h.noRefusedGzip (listed_of_stands hstands) hgranted rfl
    · rintro (hacceptable | ⟨hbrFlag, hstarFlag, hgzip⟩)
      · exact absurd hacceptable hbr
      have hstar : ¬ Granted acceptEncoding "*" := by
        intro hgranted
        rw [hgranted.stands] at hstarFlag
        cases hstarFlag
      have hflags : (stands acceptEncoding "br" || stands acceptEncoding "*") = false :=
        Bool.or_eq_false_iff.mpr ⟨hbrFlag, hstarFlag⟩
      rw [hflags, if_neg Bool.false_ne_true]
      have haccept : Acceptable acceptEncoding "gzip" ↔ Granted acceptEncoding "gzip" :=
        ⟨fun h => h.resolve_right fun hwild => hstar hwild.2, Or.inl⟩
      by_cases hgranted : Granted acceptEncoding "gzip"
      · rw [if_pos hgranted.stands]
        exact ⟨fun _ _ => by decide, fun _ hnot => absurd hgranted hnot,
          fun h => absurd h hbr, fun _ _ => rfl,
          fun _ hnot => absurd (haccept.mpr hgranted) hnot⟩
      · rw [hgzip.resolve_left hgranted, if_neg Bool.false_ne_true]
        exact ⟨fun _ _ => by decide, fun _ _ => by decide, fun h => absurd h hbr,
          fun h => absurd (haccept.mp h) hgranted, fun _ _ => rfl⟩

/-- Brotli is refused by its name, any other coding accepted: brotli is selected. -/
theorem not_negotiates_wildcard :
    ¬ Negotiates (some "br;q=0, *") (negotiateEncoding (some "br;q=0, *")) := by
  intro h
  refine h.noRefusedBrotli ⟨"br;q=0", by decide, by decide⟩ ?_ (by decide)
  rintro ⟨item, hitem, hcoding, hgrants⟩
  have hmembers : listings (some "br;q=0, *") = ["br;q=0", "*"] := by decide
  rw [hmembers, List.mem_cons, List.mem_singleton] at hitem
  rcases hitem with rfl | rfl
  · exact absurd hgrants (by decide)
  · exact absurd hcoding (by decide)

end SmartSchoolCdn
