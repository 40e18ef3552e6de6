import SmartSchoolCdn.Admin.Accounts
import SmartSchoolCdn.Foundation.Like
import Mathlib.Data.Rat.Init

/-!
# Searches in the lists of domains and users

The conditions of `DomainRepository.findAll` and `UserRepository.listWithTotal`.  Both put the
searched text between two `%` after `escapeLike`, which three replacements of a character
after each other make; the backslash goes first, so that the ones of the other two stay
single (`toList_escapeLike`).
-/

namespace SmartSchoolCdn

/-! ## Escaping -/

/-- `s.replace(/c/g, replacement)`. -/
def replaceAll (c : Char) (replacement s : String) : String :=
  String.ofList (s.toList.flatMap fun d => if d = c then replacement.toList else [d])

/-- `escapeLike`, which `UserRepository` has in its own body. -/
def escapeLike (s : String) : String :=
  replaceAll '_' "\\_" (replaceAll '%' "\\%" (replaceAll '\\' "\\\\" s))

/-- The pattern that is searched for. -/
def searchPattern (q : String) : String := "%" ++ escapeLike q ++ "%"

/-- `column LIKE ? ESCAPE '\'` with the pattern of a search. -/
def columnLike (column q : String) : Bool := Like.like '\\' column (searchPattern q)

/-- The three replacements escape every special character once. -/
theorem toList_escapeLike (s : String) : (escapeLike s).toList = s.toList.flatMap (Like.quote '\\') := by
  have hchar : ∀ c : Char,
      ((if c = '\\' then "\\\\".toList else [c]).flatMap fun d =>
          (if d = '%' then "\\%".toList else [d]).flatMap fun e =>
            if e = '_' then "\\_".toList else [e]) = Like.quote '\\' c := by
    intro c
    unfold Like.quote
    by_cases hb : c = '\\'
    · subst hb
      rfl
    · by_cases hp : c = '%'
      · subst hp
        rfl
      · by_cases hu : c = '_'
        · subst hu
          rfl
        · simp [hb, hp, hu]
  simp only [escapeLike, replaceAll, String.toList_ofList, List.flatMap_assoc, hchar]

/-- A column is like the pattern of a search when it has the searched text in it, up to the
case of ASCII letters. -/
theorem columnLike_iff (column q : String) :
    columnLike column q = true ↔ Text.contains (Text.lower column) (Text.lower q) = true := by
  have hpattern : searchPattern q =
      String.ofList ('%' :: (q.toList.flatMap (Like.quote '\\') ++ ['%'])) := by
    rw [← String.ofList_toList (s := searchPattern q), searchPattern, String.toList_append,
      String.toList_append, toList_escapeLike]
    rfl
  rw [columnLike, hpattern, Like.like_contains (by decide), Text.contains, Text.lower, Text.lower,
    String.toList_ofList, String.toList_ofList, decide_eq_true_iff]

/-- The mark of the archived users as a pattern. -/
theorem like_archived (username : String) :
    Like.like '\\' username "\\_\\_dup\\_%" = Accounts.isArchived username := by
  have hpattern : "\\_\\_dup\\_%" =
      String.ofList ("__dup_".toList.flatMap (Like.quote '\\') ++ ['%']) := by decide
  rw [Bool.eq_iff_iff, hpattern, Like.like_startsWith (by decide), Accounts.isArchived, decide_eq_true_iff]
  exact Iff.rfl

/-! ## The conditions of the two lists -/

/-- The filters of `DomainRepository.findAll`. -/
structure FindAllOptions where
  q : Option String := none
  enabled : Option Bool := none
  deriving DecidableEq, Repr

/-- The `WHERE` of `findAll`; an empty `q` is no condition. -/
def FindAllOptions.selects (options : FindAllOptions) (d : Domain) : Bool :=
  (options.q.all fun q => q = "" || (columnLike d.host q || columnLike d.origin q)) &&
    options.enabled.all fun enabled => d.enabled = if enabled then 1 else 0

/-- The options of `UserRepository.listWithTotal`; a limit or an offset that is not a finite
number counts as none. -/
structure UserListOptions where
  sort : Option String := none
  order : Option String := none
  q : Option String := none
  enabled : Option Bool := none
  limit : Option ℚ := none
  offset : Option ℚ := none
  deriving DecidableEq, Repr

/-- The `WHERE` of `listWithTotal`; a blank `q` is no condition. -/
def UserListOptions.selects (js : Runtime) (options : UserListOptions) (u : User) : Bool :=
  !Like.like '\\' u.username "\\_\\_dup\\_%" &&
    (options.q.all fun q => js.trim q = "" || columnLike u.username (js.trim q)) &&
    options.enabled.all fun enabled => u.disabledAt.isNone = enabled

example : columnLike "50%_off\\sale.example" "%_OFF\\" = true := by decide +kernel

example : columnLike "50x_off.example" "50%" = false := by decide +kernel

end SmartSchoolCdn
