import Mathlib.Data.List.Infix

/-!
# Patterns of `LIKE`

A pattern is a list of parts: any string, any one character, or a character up to a folding
of the letters.  It is read from a text in which `%` and `_` are the wildcards and an escape
character makes a literal of the character behind it.

A text in which every special character is escaped is read as its literal characters
(`parts_quoted`), and literal characters between two `%` are found in exactly the texts that
have them as an infix (`accepts_infix`), in front of one `%` in those that have them as a
prefix (`accepts_initial`).
-/

namespace Like

/-- The parts of a pattern. -/
inductive Part (α : Type*)
  | any
  | one
  | lit (c : α)
  deriving DecidableEq, Repr

/-! ## Matching -/

section Matching

variable {α β : Type*} [DecidableEq β] (fold : α → β)

/-- Whether a text matches a pattern. -/
def accepts : List (Part α) → List α → Bool
  | [], s => s.isEmpty
  | .any :: p, s => s.tails.any (accepts p)
  | .one :: _, [] => false
  | .one :: p, _ :: s => accepts p s
  | .lit _ :: _, [] => false
  | .lit c :: p, d :: s => fold c = fold d && accepts p s

variable {fold} {p : List (Part α)} {s w : List α}

theorem accepts_any : accepts fold (.any :: p) s ↔ ∃ t, t <:+ s ∧ accepts fold p t := by
  simp [accepts]

theorem accepts_lit {c : α} :
    accepts fold (.lit c :: p) s ↔ ∃ d t, s = d :: t ∧ fold c = fold d ∧ accepts fold p t := by
  cases s with
  | nil => simp [accepts]
  | cons d t => simp [accepts]

/-- The pattern `%` alone. -/
theorem accepts_any_nil : accepts fold [.any] s :=
  accepts_any.mpr ⟨[], List.nil_suffix, rfl⟩

/-- Literal characters match the same characters up to the folding. -/
theorem accepts_lits :
    accepts fold (w.map .lit ++ p) s ↔
      ∃ u t, s = u ++ t ∧ u.map fold = w.map fold ∧ accepts fold p t := by
  induction w generalizing s with
  | nil => simp
  | cons c w ih =>
    rw [List.map_cons, List.cons_append, accepts_lit]
    constructor
    · rintro ⟨d, s', rfl, hd, hs'⟩
      obtain ⟨u, t, rfl, hu, ht⟩ := ih.mp hs'
      exact ⟨d :: u, t, rfl, by rw [List.map_cons, List.map_cons, hd, hu], ht⟩
    · rintro ⟨u, t, rfl, hu, ht⟩
      cases u with
      | nil => cases hu
      | cons d u =>
        rw [List.map_cons, List.map_cons, List.cons.injEq] at hu
        exact ⟨d, u ++ t, rfl, hu.1.symm, ih.mpr ⟨u, t, rfl, hu.2, ht⟩⟩

/-- Literal characters in front of `%` match the texts that begin with them. -/
theorem accepts_initial :
    accepts fold (w.map .lit ++ [.any]) s ↔ w.map fold <+: s.map fold := by
  rw [accepts_lits]
  constructor
  · rintro ⟨u, t, rfl, hu, -⟩
    exact ⟨t.map fold, by rw [← hu, List.map_append]⟩
  · rintro ⟨t', ht'⟩
    obtain ⟨u, t, rfl, hu, -⟩ := List.map_eq_append_iff.mp ht'.symm
    exact ⟨u, t, rfl, hu, accepts_any_nil⟩

/-- Literal characters between two `%` match the texts in which they occur. -/
theorem accepts_infix :
    accepts fold (.any :: (w.map .lit ++ [.any])) s ↔ w.map fold <:+: s.map fold := by
  rw [accepts_any]
  constructor
  · rintro ⟨t, ht, hw⟩
    exact (accepts_initial.mp hw).isInfix.trans (ht.map fold).isInfix
  · rintro ⟨u', t', hs⟩
    rw [List.append_assoc] at hs
    obtain ⟨u, t, rfl, -, ht⟩ := List.map_eq_append_iff.mp hs.symm
    exact ⟨t, List.suffix_append u t, accepts_initial.mpr ⟨t', ht.symm⟩⟩

end Matching

/-! ## Reading a pattern -/

/-- What a character says where it is not escaped. -/
def Part.ofChar (c : Char) : Part Char := if c = '%' then .any else if c = '_' then .one else .lit c

/-- Read a pattern; there is none where its last character is the escape character. -/
def parts (esc : Char) : List Char → Option (List (Part Char))
  | [] => some []
  | [c] => if c = esc then none else some [.ofChar c]
  | c :: d :: cs =>
    if c = esc then (parts esc cs).map (.lit d :: ·) else (parts esc (d :: cs)).map (.ofChar c :: ·)

/-- `s LIKE pattern ESCAPE esc`, which ignores the case of ASCII letters. -/
def like (esc : Char) (s pattern : String) : Bool :=
  (parts esc pattern.toList).any fun p => accepts Char.toLower p s.toList

/-- A literal character as a pattern. -/
def quote (esc c : Char) : List Char := if c = '%' ∨ c = '_' ∨ c = esc then [esc, c] else [c]

variable {esc c : Char} {w cs : List Char}

theorem parts_cons (h : c ≠ esc) : parts esc (c :: cs) = (parts esc cs).map (.ofChar c :: ·) := by
  cases cs with
  | nil => simp [parts, h]
  | cons d cs => rw [parts, if_neg h]

theorem parts_escaped : parts esc (esc :: c :: cs) = (parts esc cs).map (.lit c :: ·) := by
  rw [parts, if_pos rfl]

theorem parts_quote : parts esc (quote esc c ++ cs) = (parts esc cs).map (.lit c :: ·) := by
  unfold quote
  split
  · exact parts_escaped
  · next h =>
    push Not at h
    rw [List.singleton_append, parts_cons h.2.2, Part.ofChar, if_neg h.1, if_neg h.2.1]

/-- A text in which every special character is escaped stands for itself. -/
theorem parts_quoted :
    parts esc (w.flatMap (quote esc) ++ cs) = (parts esc cs).map (w.map .lit ++ ·) := by
  induction w with
  | nil => simp
  | cons c w ih =>
    rw [List.flatMap_cons, List.append_assoc, parts_quote, ih, Option.map_map]
    rfl

theorem parts_percent (h : '%' ≠ esc) : parts esc ['%'] = some [.any] := by
  rw [parts_cons h]
  rfl

/-- The escaped text between two `%` is searched for literally, up to the case of letters. -/
theorem like_contains (h : '%' ≠ esc) (s : String) :
    like esc s (String.ofList ('%' :: (w.flatMap (quote esc) ++ ['%']))) ↔
      w.map Char.toLower <:+: s.toList.map Char.toLower := by
  rw [like, String.toList_ofList, parts_cons h, parts_quoted, parts_percent h, ← accepts_infix]
  rfl

/-- The escaped text in front of a `%` is the beginning, up to the case of letters. -/
theorem like_startsWith (h : '%' ≠ esc) (s : String) :
    like esc s (String.ofList (w.flatMap (quote esc) ++ ['%'])) ↔
      w.map Char.toLower <+: s.toList.map Char.toLower := by
  rw [like, String.toList_ofList, parts_quoted, parts_percent h, ← accepts_initial]
  rfl

end Like
