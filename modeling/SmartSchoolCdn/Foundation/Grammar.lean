import SmartSchoolCdn.Foundation.Text

/-!
# Small grammars

What the text primitives accept, as relations on lists of characters that do not compute: a
prefix, a cut at a separator, a decimal numeral.
-/

namespace Text

variable {s head rest p q : String} {sep c : Char} {cs ds : List Char} {n m : ℕ}

/-- `stripHead` finds what follows the head. -/
theorem stripHead_eq_some_iff : stripHead s head = some rest ↔ s.toList = head.toList ++ rest.toList := by
  unfold stripHead
  constructor
  · intro h
    split at h
    · rename_i hprefix
      obtain rfl := Option.some.inj h
      rw [String.toList_ofList]
      exact (List.prefix_iff_eq_append.mp hprefix).symm
    · cases h
  · intro h
    have hprefix : head.toList <+: s.toList := ⟨rest.toList, h.symm⟩
    rw [if_pos hprefix, h, List.drop_left, String.ofList_toList]

/-- A cut at the first separator, which is the only way to write the list so. -/
theorem cut_unique {as bs as' bs' : List Char} (h : as ++ sep :: bs = as' ++ sep :: bs')
    (has : sep ∉ as) (has' : sep ∉ as') : as = as' ∧ bs = bs' := by
  induction as generalizing as' with
  | nil =>
    cases as' with
    | nil => exact ⟨rfl, List.tail_eq_of_cons_eq h⟩
    | cons c as' =>
      obtain rfl := List.head_eq_of_cons_eq h
      exact absurd List.mem_cons_self has'
  | cons c as ih =>
    cases as' with
    | nil =>
      obtain rfl := List.head_eq_of_cons_eq h
      exact absurd List.mem_cons_self has
    | cons c' as' =>
      obtain rfl := List.head_eq_of_cons_eq h
      rw [List.mem_cons, not_or] at has has'
      obtain ⟨rfl, rfl⟩ := ih (List.tail_eq_of_cons_eq h) has.2 has'.2
      exact ⟨rfl, rfl⟩

/-- `splitOnce` cuts at the first separator. -/
theorem splitOnce_eq_some_iff :
    splitOnce s sep = some (p, q) ↔ s.toList = p.toList ++ sep :: q.toList ∧ sep ∉ p.toList := by
  have hsplit := List.takeWhile_append_dropWhile (p := (· != sep)) (l := s.toList)
  have hbefore : sep ∉ s.toList.takeWhile (· != sep) := by
    intro hmem
    have hne := List.mem_takeWhile_imp hmem
    simp at hne
  unfold splitOnce
  cases hdrop : s.toList.dropWhile (· != sep) with
  | nil =>
    -- the separator does not occur
    refine iff_of_false (by simp) fun h => ?_
    rw [hdrop, List.append_nil] at hsplit
    rw [hsplit, h.1] at hbefore
    exact hbefore (List.mem_append_right _ List.mem_cons_self)
  | cons d rest =>
    have hd : d = sep := by
      have hhead := List.head_dropWhile_not (· != sep) (l := s.toList) (by rw [hdrop]; exact List.cons_ne_nil d rest)
      simpa [hdrop] using hhead
    subst hd
    rw [hdrop] at hsplit
    constructor
    · intro h
      obtain ⟨rfl, rfl⟩ := Prod.mk.inj (Option.some.inj h)
      rw [beforeFirst, String.toList_ofList, String.toList_ofList]
      exact ⟨hsplit.symm, hbefore⟩
    · rintro ⟨h, hp⟩
      obtain ⟨hp', hq⟩ := cut_unique (hsplit.trans h) hbefore hp
      simp only [beforeFirst, hp', hq, String.ofList_toList]

/-- `splitOnce` finds no separator only where there is none. -/
theorem splitOnce_eq_none_iff : splitOnce s sep = none ↔ sep ∉ s.toList := by
  unfold splitOnce
  split
  · rename_i hdrop
    refine iff_of_true rfl fun hmem => ?_
    have hne := List.dropWhile_eq_nil_iff.mp hdrop sep hmem
    simp at hne
  · rename_i d rest hdrop
    refine iff_of_false (Option.some_ne_none _) fun hno => ?_
    have hnil : s.toList.dropWhile (· != sep) = [] :=
      List.dropWhile_eq_nil_iff.mpr fun c hc => bne_iff_ne.mpr fun heq => hno (heq ▸ hc)
    rw [hnil] at hdrop
    cases hdrop

/-- A string without a separator is before the first one. -/
theorem beforeFirst_eq_self (h : sep ∉ s.toList) : beforeFirst s sep = s := by
  unfold beforeFirst
  rw [List.takeWhile_eq_self_iff.mpr, String.ofList_toList]
  exact fun c hc => bne_iff_ne.mpr fun heq => h (heq ▸ hc)

/-- A list without a separator is one piece. -/
theorem splitBy_eq_singleton {α : Type*} {f : α → Bool} {l : List α} (h : ∀ x ∈ l, f x = false) :
    splitBy f l = [l] := by
  induction l with
  | nil => rfl
  | cons x l ih =>
    have hx : f x = false := h x List.mem_cons_self
    rw [splitBy, hx, if_neg Bool.false_ne_true, ih fun y hy => h y (List.mem_cons_of_mem x hy)]

/-- There is always a piece. -/
theorem splitBy_ne_nil {α : Type*} (f : α → Bool) (l : List α) : splitBy f l ≠ [] := by
  cases l with
  | nil => exact List.cons_ne_nil _ _
  | cons x l =>
    rw [splitBy]
    split
    · exact List.cons_ne_nil _ _
    · split <;> exact List.cons_ne_nil _ _

/-- An item separates pieces or belongs to one. -/
theorem sep_or_mem_splitBy {α : Type*} (f : α → Bool) {x : α} {l : List α} (hx : x ∈ l) :
    f x = true ∨ ∃ w ∈ splitBy f l, x ∈ w := by
  induction l with
  | nil => cases hx
  | cons y l ih =>
    rw [splitBy]
    by_cases hy : f y = true
    · rw [if_pos hy]
      rcases List.mem_cons.mp hx with rfl | hx
      · exact Or.inl hy
      · refine (ih hx).imp_right fun ⟨w, hw, hxw⟩ => ?_
        exact ⟨w, List.mem_cons_of_mem _ hw, hxw⟩
    · rw [if_neg hy]
      cases hsplit : splitBy f l with
      | nil => exact absurd hsplit (splitBy_ne_nil f l)
      | cons w ws =>
        rcases List.mem_cons.mp hx with rfl | hx
        · exact Or.inr ⟨x :: w, List.mem_cons_self, List.mem_cons_self⟩
        · refine (ih hx).imp_right fun ⟨v, hv, hxv⟩ => ?_
          rw [hsplit] at hv
          rcases List.mem_cons.mp hv with rfl | hv
          · exact ⟨y :: v, List.mem_cons_self, List.mem_cons_of_mem _ hxv⟩
          · exact ⟨v, List.mem_cons_of_mem _ hv, hxv⟩

/-- A separator at the end is followed by an empty piece. -/
theorem splitBy_concat {α : Type*} {f : α → Bool} {x : α} (hx : f x = true) (l : List α) :
    splitBy f (l ++ [x]) = splitBy f l ++ [[]] := by
  induction l with
  | nil => simp [splitBy, hx]
  | cons y l ih =>
    rw [List.cons_append, splitBy, splitBy, ih]
    by_cases hy : f y = true
    · rw [if_pos hy, if_pos hy, List.cons_append]
    · rw [if_neg hy, if_neg hy]
      cases hsplit : splitBy f l with
      | nil => exact absurd hsplit (splitBy_ne_nil f l)
      | cons w ws => rfl

/-- A character is trimmed away or kept. -/
theorem isSpace_or_mem_trim (hc : c ∈ s.toList) : isSpace c = true ∨ c ∈ (trim s).toList := by
  rw [trim, String.toList_ofList]
  rw [← List.takeWhile_append_dropWhile (p := isSpace) (l := s.toList), List.mem_append] at hc
  rcases hc with hc | hc
  · exact Or.inl (List.mem_takeWhile_imp hc)
  · rw [← List.rdropWhile_append_rtakeWhile (p := isSpace) (l := s.toList.dropWhile isSpace),
      List.mem_append] at hc
    rcases hc with hc | hc
    · exact Or.inr hc
    · exact Or.inl (List.mem_rtakeWhile_imp hc)

/-! ## Lists with quoted strings -/

/-- The double quote. -/
def quoteMark : Char := Char.ofNat 34

/-- The backslash. -/
def backslash : Char := Char.ofNat 92

/-- Where in a text with quoted strings a character stands; a backslash escapes the next one. -/
inductive Quote
  | outside
  | inside
  | escaped
  deriving DecidableEq, Repr

/-- What follows a character. -/
def Quote.next : Quote → Char → Quote
  | .outside, c => if c = quoteMark then .inside else .outside
  | .inside, c => if c = quoteMark then .outside else if c = backslash then .escaped else .inside
  | .escaped, _ => .inside

/-- The pieces between the separators that are not quoted; there is always one. -/
def splitUnquoted (sep : Char) : Quote → List Char → List (List Char)
  | _, [] => [[]]
  | q, c :: cs =>
    if q = .outside ∧ c = sep then [] :: splitUnquoted sep .outside cs
    else
      match splitUnquoted sep (q.next c) cs with
      | [] => [[c]]
      | w :: ws => (c :: w) :: ws

/-- There is always a piece. -/
theorem splitUnquoted_ne_nil (q : Quote) : splitUnquoted sep q cs ≠ [] := by
  cases cs with
  | nil => exact List.cons_ne_nil _ _
  | cons c cs =>
    rw [splitUnquoted]
    split
    · exact List.cons_ne_nil _ _
    · split <;> exact List.cons_ne_nil _ _

/-- A text without the separator is one piece. -/
theorem splitUnquoted_eq_singleton (h : sep ∉ cs) (q : Quote) : splitUnquoted sep q cs = [cs] := by
  induction cs generalizing q with
  | nil => rfl
  | cons c cs ih =>
    rw [List.mem_cons, not_or] at h
    rw [splitUnquoted, if_neg fun hsep => h.1 hsep.2.symm, ih h.2]

/-- Two texts joined by a separator have the pieces of both, if the first one closes its quotes. -/
theorem splitUnquoted_append {q : Quote} (hsep : sep ≠ quoteMark)
    (hclosed : cs.foldl Quote.next q = .outside) :
    splitUnquoted sep q (cs ++ sep :: ds) = splitUnquoted sep q cs ++ splitUnquoted sep .outside ds := by
  induction cs generalizing q with
  | nil =>
    obtain rfl : q = .outside := hclosed
    simp [splitUnquoted]
  | cons c cs ih =>
    rw [List.foldl_cons] at hclosed
    rw [List.cons_append, splitUnquoted, splitUnquoted]
    split
    · rename_i hcut
      obtain ⟨rfl, rfl⟩ := hcut
      rw [Quote.next, if_neg hsep] at hclosed
      rw [ih hclosed, List.cons_append]
    · rw [ih hclosed]
      cases hpieces : splitUnquoted sep (q.next c) cs with
      | nil => exact absurd hpieces (splitUnquoted_ne_nil _)
      | cons w ws => rfl

/-! ## Decimal numerals -/

/-- The numeral of a number in decimal digits, possibly with leading zeros. -/
inductive Decimal : List Char → ℕ → Prop
  | digit {c : Char} : c.isDigit = true → Decimal [c] (c.toNat - 48)
  | snoc {cs : List Char} {n : ℕ} {c : Char} : Decimal cs n → c.isDigit = true →
      Decimal (cs ++ [c]) (10 * n + (c.toNat - 48))

/-- Every character of a numeral is a digit. -/
theorem Decimal.isDigit (h : Decimal cs n) : ∀ c ∈ cs, c.isDigit = true := by
  induction h with
  | digit hc =>
    intro c hmem
    rwa [List.mem_singleton.mp hmem]
  | snoc _ hc ih =>
    intro c hmem
    rcases List.mem_append.mp hmem with hmem | hmem
    · exact ih c hmem
    · rwa [List.mem_singleton.mp hmem]

/-- There is a digit in it. -/
theorem Decimal.ne_nil (h : Decimal cs n) : cs ≠ [] := by
  cases h with
  | digit => exact List.cons_ne_nil _ _
  | snoc => exact List.append_ne_nil_of_right_ne_nil _ (List.cons_ne_nil _ _)

/-- The loop over the digits reads the numeral. -/
theorem Decimal.foldl (h : Decimal cs n) : cs.foldl (fun n c => 10 * n + (c.toNat - 48)) 0 = n := by
  induction h with
  | digit => simp
  | snoc _ _ ih => rw [List.foldl_concat, ih]

/-- Digits are a numeral. -/
theorem decimal_of_isDigit (hne : cs ≠ []) (h : ∀ c ∈ cs, c.isDigit = true) :
    Decimal cs (cs.foldl (fun n c => 10 * n + (c.toNat - 48)) 0) := by
  induction cs using List.reverseRecOn with
  | nil => exact absurd rfl hne
  | append_singleton cs c ih =>
    have hc : c.isDigit = true := h c (List.mem_append_right _ (List.mem_singleton_self c))
    rw [List.foldl_concat]
    cases cs with
    | nil => simpa using Decimal.digit hc
    | cons d cs => exact (ih (List.cons_ne_nil d cs) fun x hx => h x (List.mem_append_left _ hx)).snoc hc

/-- `digits?` reads the numerals. -/
theorem digits?_eq_some_iff : digits? cs = some n ↔ Decimal cs n := by
  unfold digits?
  constructor
  · intro h
    split at h
    · cases h
    · rename_i hdigits
      simp only [Bool.or_eq_true, not_or, List.isEmpty_iff, Bool.not_eq_true', Bool.not_eq_false,
        List.all_eq_true] at hdigits
      obtain rfl := Option.some.inj h
      exact decimal_of_isDigit hdigits.1 hdigits.2
  · intro h
    have hdigits : (cs.isEmpty || !cs.all Char.isDigit) = false := by
      rw [Bool.or_eq_false_iff, Bool.not_eq_false', List.all_eq_true]
      exact ⟨List.isEmpty_eq_false_iff.mpr h.ne_nil, h.isDigit⟩
    rw [hdigits, if_neg Bool.false_ne_true, h.foldl]

/-- A numeral has one value. -/
theorem Decimal.unique (h : Decimal cs n) (h' : Decimal cs m) : n = m :=
  h.foldl.symm.trans h'.foldl

/-- A character that is no digit is in no numeral. -/
theorem Decimal.not_mem (h : Decimal cs n) (hc : c.isDigit = false) : c ∉ cs := by
  intro hmem
  rw [h.isDigit c hmem] at hc
  cases hc

end Text
