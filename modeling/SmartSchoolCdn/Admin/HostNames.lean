import SmartSchoolCdn.Foundation.Grammar

/-!
# Names of domains

The domain routes register a host only if it matches `DOMAIN_RE`: two labels or more, behind `*.`
for a wildcard entry.  What the readers of the domain map rely on is that such a name has a dot, and
none of the characters that separate the parts of a URL (`hostChar_of_mem`).
-/

namespace SmartSchoolCdn.Admin

open Text

/-! ## The expression -/

/-- `[a-z0-9-]`, in either letter case. -/
def isLabelChar (c : Char) : Bool := isAlphanum c || c == '-'

/-- `[a-z0-9]([a-z0-9-]{0,61}[a-z0-9])?`, in either letter case. -/
def isLabel (cs : List Char) : Bool :=
  cs.length ≤ 63 && cs.all isLabelChar && cs.head?.any isAlphanum && cs.getLast?.any isAlphanum

/-- A host without the `*.` of a wildcard entry. -/
def withoutStar (host : String) : String := (stripHead host "*.").getD host

/-- `DOMAIN_RE.test(host)`. -/
def matchesDomainRe (host : String) : Bool :=
  let labels := splitBy (· == '.') (withoutStar host).toList
  2 ≤ labels.length && labels.all isLabel

/-- The characters of a host that matches. -/
def isHostChar (c : Char) : Bool := isLabelChar c || c == '.' || c == '*'

variable {host : String} {c : Char} {cs : List Char}

/-! ## What matches -/

/-- A host with its `*.` if it has one. -/
lemma toList_withoutStar (host : String) :
    host.toList = (withoutStar host).toList ∨
      host.toList = '*' :: '.' :: (withoutStar host).toList := by
  unfold withoutStar
  cases hstrip : stripHead host "*." with
  | none => exact Or.inl rfl
  | some rest => exact Or.inr (stripHead_eq_some_iff.mp hstrip)

/-- The parts of a match. -/
lemma labels_of_matches (h : matchesDomainRe host = true) :
    2 ≤ (splitBy (· == '.') (withoutStar host).toList).length ∧
      ∀ label ∈ splitBy (· == '.') (withoutStar host).toList, isLabel label = true := by
  unfold matchesDomainRe at h
  rw [Bool.and_eq_true, decide_eq_true_eq, List.all_eq_true] at h
  exact h

lemma labelChar_of_isLabel (h : isLabel cs = true) (hc : c ∈ cs) : isLabelChar c = true := by
  unfold isLabel at h
  simp only [Bool.and_eq_true] at h
  exact List.all_eq_true.mp h.1.1.2 c hc

/-- A host that matches has a dot. -/
theorem dot_mem_of_matches (h : matchesDomainRe host = true) : '.' ∈ host.toList := by
  have hdot : '.' ∈ (withoutStar host).toList := by
    by_contra hno
    have hone := splitBy_eq_singleton (f := (· == '.')) (l := (withoutStar host).toList)
      fun c hc => beq_eq_false_iff_ne.mpr fun heq => hno (heq ▸ hc)
    have htwo := (labels_of_matches h).1
    rw [hone, List.length_singleton] at htwo
    omega
  rcases toList_withoutStar host with heq | heq
  · rw [heq]
    exact hdot
  · rw [heq]
    exact List.mem_cons_of_mem _ List.mem_cons_self

/-- Its characters are those of labels, dots and stars. -/
theorem hostChar_of_mem (h : matchesDomainRe host = true) (hc : c ∈ host.toList) :
    isHostChar c = true := by
  have hbody : ∀ c ∈ (withoutStar host).toList, isHostChar c = true := by
    intro c hc
    rcases sep_or_mem_splitBy (· == '.') hc with hsep | ⟨label, hlabel, hmem⟩
    · rw [eq_of_beq hsep]
      decide
    · have hchar := labelChar_of_isLabel ((labels_of_matches h).2 label hlabel) hmem
      simp [isHostChar, hchar]
  rcases toList_withoutStar host with heq | heq
  · rw [heq] at hc
    exact hbody c hc
  · rw [heq, List.mem_cons, List.mem_cons] at hc
    rcases hc with rfl | rfl | hc
    · decide
    · decide
    · exact hbody c hc

/-- A character that is in no host name is not in one that matches. -/
lemma not_mem_of_matches (h : matchesDomainRe host = true) (hc : isHostChar c = false) :
    c ∉ host.toList := by
  intro hmem
  rw [hostChar_of_mem h hmem] at hc
  cases hc

/-- The codes of the letters and digits. -/
lemma toNat_of_isAlphanum (hc : isAlphanum c = true) :
    (65 ≤ c.toNat ∧ c.toNat ≤ 90) ∨ (97 ≤ c.toNat ∧ c.toNat ≤ 122) ∨
      (48 ≤ c.toNat ∧ c.toNat ≤ 57) := by
  rcases Bool.or_eq_true_iff.mp hc with hletter | hdigit
  · rcases Bool.or_eq_true_iff.mp hletter with hupper | hlower
    · obtain ⟨hlow, hhigh⟩ := of_decide_eq_true hupper
      exact .inl ⟨UInt32.le_iff_toNat_le.mp hlow, UInt32.le_iff_toNat_le.mp hhigh⟩
    · obtain ⟨hlow, hhigh⟩ := Bool.and_eq_true_iff.mp hlower
      exact .inr (.inl ⟨UInt32.le_iff_toNat_le.mp (of_decide_eq_true hlow),
        UInt32.le_iff_toNat_le.mp (of_decide_eq_true hhigh)⟩)
  · exact .inr (.inr (Char.isDigit_iff_toNat.mp hdigit))

/-- All of them are visible ASCII. -/
lemma visible_of_isHostChar (hc : isHostChar c = true) : 32 ≤ c.toNat ∧ c.toNat < 127 := by
  simp only [isHostChar, isLabelChar, Bool.or_eq_true, beq_iff_eq] at hc
  rcases hc with ((halnum | rfl) | rfl) | rfl
  · have hcodes := toNat_of_isAlphanum halnum
    omega
  · decide
  · decide
  · decide

/-- It does not end with a dot. -/
theorem not_dot_last_of_matches (h : matchesDomainRe host = true) (front : List Char) :
    host.toList ≠ front ++ ['.'] := by
  obtain ⟨hlength, hlabels⟩ := labels_of_matches h
  have hbody : ∀ front, (withoutStar host).toList ≠ front ++ ['.'] := by
    intro front heq
    rw [heq, splitBy_concat rfl] at hlabels
    exact absurd (hlabels [] (List.mem_append_right _ List.mem_cons_self)) (by decide)
  intro heq
  rcases toList_withoutStar host with hself | hstar
  · exact hbody front (hself.symm.trans heq)
  · rw [hstar] at heq
    match front with
    | [] => cases heq
    | [c] =>
      -- `*.` alone has one label
      have hnil : (withoutStar host).toList = [] :=
        List.tail_eq_of_cons_eq (List.tail_eq_of_cons_eq heq)
      rw [hnil] at hlength
      exact absurd hlength (by decide)
    | _ :: _ :: front =>
      exact hbody front (List.tail_eq_of_cons_eq (List.tail_eq_of_cons_eq heq))

example : matchesDomainRe "*.school.example" = true := by decide

example : matchesDomainRe "example" = false := by decide

end SmartSchoolCdn.Admin
