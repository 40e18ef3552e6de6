import Mathlib.Algebra.Group.Nat.Defs
import Mathlib.Data.List.DropRight
import Mathlib.Data.List.Infix

/-!
# Text primitives

Splitting, trimming, ASCII letter case and decimal parsing on strings.  The algorithms run
on the list of characters of a string, so that they compute in the kernel and can be
reasoned about by induction on that list.
-/

namespace Text

/-- Split a list at every element satisfying `p`; the result is never empty. -/
def splitBy {α : Type*} (p : α → Bool) : List α → List (List α)
  | [] => [[]]
  | c :: cs =>
    if p c then [] :: splitBy p cs
    else
      match splitBy p cs with
      | [] => [[c]]
      | w :: ws => (c :: w) :: ws

/-- The pieces of a string between the occurrences of `sep`. -/
def split (s : String) (sep : Char) : List String :=
  (splitBy (· == sep) s.toList).map String.ofList

/-- The piece of a string before the first occurrence of `sep`. -/
def beforeFirst (s : String) (sep : Char) : String :=
  String.ofList (s.toList.takeWhile (· != sep))

/-- The piece of a string after the last occurrence of `sep`, the whole string if there is
none. -/
def afterLast (s : String) (sep : Char) : String :=
  String.ofList (s.toList.rtakeWhile (· != sep))

/-- Cut a string at the first occurrence of `sep`, which belongs to neither part. -/
def splitOnce (s : String) (sep : Char) : Option (String × String) :=
  match s.toList.dropWhile (· != sep) with
  | [] => none
  | _ :: rest => some (beforeFirst s sep, String.ofList rest)

/-- The white space of header values and host names: blanks, tabs and line breaks. -/
def isSpace (c : Char) : Bool :=
  c == ' ' || c == '\t' || c == '\n' || c == '\r' || c == Char.ofNat 11 || c == Char.ofNat 12

/-- A string without the white space at its two ends. -/
def trim (s : String) : String :=
  String.ofList ((s.toList.dropWhile isSpace).rdropWhile isSpace)

/-- ASCII letters in lower case, everything else unchanged. -/
def lower (s : String) : String :=
  String.ofList (s.toList.map Char.toLower)

/-- ASCII letter or digit. -/
def isAlphanum (c : Char) : Bool := c.isAlpha || c.isDigit

/-- The value of a string of decimal digits; there has to be at least one. -/
def digits? (cs : List Char) : Option ℕ :=
  if cs.isEmpty || !cs.all Char.isDigit then none
  else some (cs.foldl (fun n c => 10 * n + (c.toNat - 48)) 0)

/-- Parse a 64-bit unsigned number: an optional plus sign and decimal digits. -/
def parseU64 (s : String) : Option ℕ :=
  let body := match s.toList with
    | '+' :: rest => rest
    | cs => cs
  match digits? body with
  | some n => if n < 2 ^ 64 then some n else none
  | none => none

/-- Whether `needle` occurs in `s`. -/
def contains (s needle : String) : Bool :=
  decide (needle.toList <:+: s.toList)

/-- The rest of a string that starts with `head`. -/
def stripHead (s head : String) : Option String :=
  if head.toList <+: s.toList then some (String.ofList (s.toList.drop head.toList.length))
  else none

/-- Whether a string starts with `head`. -/
def startsWith (s head : String) : Bool :=
  decide (head.toList <+: s.toList)

example : split "a, b,,c" ',' = ["a", " b", "", "c"] := by decide

example : splitOnce "max-age=3=4" '=' = some ("max-age", "3=4") := by decide

example : afterLast "/a.b/video.MP4" '.' = "MP4" := by decide

/-! ## Letter case and white space -/

/-- Only letters have a case. -/
theorem toLower_eq_iff {c d : Char} (hd : d.toNat < 65) : c.toLower = d ↔ c = d := by
  unfold Char.toLower
  split
  · next hupper =>
    have hle : 65 ≤ c.val.toNat := UInt32.le_iff_toNat_le.mp hupper.1
    have hupper' : c.val.toNat ≤ 90 := UInt32.le_iff_toNat_le.mp hupper.2
    constructor
    · intro heq
      have hval := congrArg (fun c : Char => c.val.toNat) heq
      have hd' : d.val.toNat < 65 := hd
      simp only [UInt32.toNat_add, UInt32.toNat_sub] at hval
      have ha : 'a'.val.toNat = 97 := rfl
      have hA : 'A'.val.toNat = 65 := rfl
      omega
    · rintro rfl
      exact absurd hle (Nat.not_le.mpr hd)
  · rfl

theorem toLower_toLower (c : Char) : c.toLower.toLower = c.toLower := by
  unfold Char.toLower
  grind

theorem isSpace_toLower (c : Char) : isSpace c.toLower = isSpace c := by
  have heq : ∀ d : Char, d.toNat < 65 → (c.toLower == d) = (c == d) := by
    intro d hd
    rw [Bool.eq_iff_iff, beq_iff_eq, beq_iff_eq, toLower_eq_iff hd]
  rw [isSpace, isSpace, heq _ (by decide), heq _ (by decide), heq _ (by decide), heq _ (by decide),
    heq _ (by decide), heq _ (by decide)]

/-- A trimmed text has no white space in front. -/
theorem dropWhile_trimmed (l : List Char) :
    ((l.dropWhile isSpace).rdropWhile isSpace).dropWhile isSpace = (l.dropWhile isSpace).rdropWhile isSpace := by
  have hidem : (l.dropWhile isSpace).dropWhile isSpace = l.dropWhile isSpace := List.dropWhile_idempotent _ _
  have hprefix : (l.dropWhile isSpace).rdropWhile isSpace <+: l.dropWhile isSpace := List.rdropWhile_prefix _ _
  cases htrimmed : (l.dropWhile isSpace).rdropWhile isSpace with
  | nil => rfl
  | cons c cs =>
    rw [htrimmed] at hprefix
    obtain ⟨rest, hrest⟩ := hprefix
    have hfirst : isSpace c = false := by
      rw [← hrest, List.cons_append, List.dropWhile_cons] at hidem
      by_contra hspace
      rw [if_pos (by simpa using hspace)] at hidem
      have hlength := (List.dropWhile_suffix isSpace (l := cs ++ rest)).length_le
      rw [hidem, List.length_cons] at hlength
      omega
    rw [List.dropWhile_cons, if_neg (by simp [hfirst])]

theorem dropWhile_isSpace_map_toLower (l : List Char) :
    (l.map Char.toLower).dropWhile isSpace = (l.dropWhile isSpace).map Char.toLower := by
  rw [List.dropWhile_map]
  congr 2
  funext c
  exact isSpace_toLower c

/-- A text that is trimmed and in lower case stays so. -/
theorem lower_trim_lower_trim (s : String) : lower (trim (lower (trim s))) = lower (trim s) := by
  let l := (s.toList.dropWhile isSpace).rdropWhile isSpace
  have hfirst : (lower (trim s)).toList = l.map Char.toLower := by
    rw [lower, trim, String.toList_ofList, String.toList_ofList]
  have hfront : (l.map Char.toLower).dropWhile isSpace = l.map Char.toLower := by
    rw [dropWhile_isSpace_map_toLower, dropWhile_trimmed]
  have hback : (l.map Char.toLower).rdropWhile isSpace = l.map Char.toLower := by
    rw [List.rdropWhile, ← List.map_reverse, dropWhile_isSpace_map_toLower, ← List.map_reverse]
    exact congrArg (List.map Char.toLower) (List.rdropWhile_idempotent _ _)
  rw [lower, trim, hfirst, hfront, hback, String.toList_ofList, List.map_map]
  have hcase : Char.toLower ∘ Char.toLower = Char.toLower := funext toLower_toLower
  rw [hcase, ← hfirst, String.ofList_toList]

end Text
