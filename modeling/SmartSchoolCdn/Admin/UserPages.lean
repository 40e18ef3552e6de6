import SmartSchoolCdn.Admin.Search
import SmartSchoolCdn.Foundation.Ranking
import Mathlib.Data.List.Lex
import Mathlib.Data.Rat.Cast.Defs
import Mathlib.Order.WithBot

/-!
# The list of users in pages

`UserRepository.listWithTotal`: the rows in the order that was asked for, or a page of them,
and the number of all that meet the conditions.  Where a sort key has ties the database could
order the rows one way for one page and another way for the next; the number of the user at
the end of `ORDER BY` tells all rows apart, so that the answer is determined (`isAnswer_iff`).
-/

namespace SmartSchoolCdn

open Tables Ranking

/-- `USER_SORT_WHITELIST`. -/
inductive UserSortColumn
  | id
  | username
  | createdAt
  | updatedAt
  | lastLoginAt
  deriving DecidableEq, Repr

/-- The rows by a column, `NULL` first; `username` ignores the case of ASCII letters. -/
def UserSortColumn.comparison : UserSortColumn → Comparison User
  | .id => .column User.id
  | .username => .column fun u => u.username.toList.map fun c => c.toLower.toNat
  | .createdAt => .column User.createdAt
  | .updatedAt => .column User.updatedAt
  | .lastLoginAt => .column (β := WithBot ℕ) fun u => u.lastLoginAt

namespace UserListOptions

variable (js : Runtime) (options : UserListOptions)

/-- The column to sort by: `created_at` unless another of the list is named. -/
def sortCol : UserSortColumn :=
  match options.sort with
  | some "id" => .id
  | some "username" => .username
  | some "updated_at" => .updatedAt
  | some "last_login_at" => .lastLoginAt
  | _ => .createdAt

/-- Whether the direction is `ASC`: it is `DESC` unless `asc` is named. -/
def ascending : Bool := options.order.any fun order => js.toLowerCase order = "asc"

/-- A comparison in the direction that was asked for. -/
def directed (c : Comparison User) : Comparison User :=
  if options.ascending js then c else c.descending

/-- `ORDER BY`: users who never logged in are last also in the descending order, and the number
of the user decides ties. -/
def orderBy : Comparison User :=
  let columns := (options.directed js options.sortCol.comparison).thenBy
    (options.directed js UserSortColumn.id.comparison)
  if options.sortCol = .lastLoginAt ∧ options.ascending js = false then
    (Comparison.column fun u : User => u.lastLoginAt.isNone).thenBy columns
  else columns

/-- The limit: at most 1000, and none where it is not positive. -/
def safeLimit : Option ℕ :=
  options.limit.bind fun limit => if 0 < limit then some (min 1000 limit.floor.toNat) else none

/-- The offset: 0 where it is negative. -/
def safeOffset : ℕ := (options.offset.filter fun offset => 0 ≤ offset).elim 0 fun offset => offset.floor.toNat

/-- `LIMIT` and `OFFSET`; without a limit there is no offset either. -/
def cut {α : Type*} (rows : List α) : List α :=
  match options.safeLimit with
  | some limit => page limit options.safeOffset rows
  | none => rows

end UserListOptions

/-- `UserListResult`. -/
structure UserListResult where
  rows : List User
  total : ℕ
  deriving DecidableEq, Repr

/-- `listWithTotal`. -/
def listWithTotal (js : Runtime) (options : UserListOptions) (users : Table User.id) : UserListResult where
  rows := options.cut ((options.orderBy js).sort (users.rows.filter (options.selects js)))
  total := users.rows.countP (options.selects js)

/-- What the two statements may answer when the database orders tied rows as it likes. -/
def IsListAnswer (js : Runtime) (options : UserListOptions) (users : Table User.id)
    (result : UserListResult) : Prop :=
  ∃ ranked, (options.orderBy js).IsRanking (users.rows.filter (options.selects js)) ranked ∧
    result = ⟨options.cut ranked, users.rows.countP (options.selects js)⟩

/-! ## The order is total -/

variable {js : Runtime} {options : UserListOptions} {users : Table User.id}

/-- A tie in one direction is one in the other. -/
lemma UserListOptions.tie_directed {c : Comparison User} {u v : User}
    (huv : (options.directed js c).le u v = true) (hvu : (options.directed js c).le v u = true) :
    c.le u v = true ∧ c.le v u = true := by
  unfold directed at huv hvu
  cases hasc : options.ascending js with
  | true =>
    rw [if_pos hasc] at huv hvu
    exact ⟨huv, hvu⟩
  | false =>
    rw [if_neg (Bool.eq_false_iff.mp hasc)] at huv hvu
    exact ⟨hvu, huv⟩

/-- Tied rows have the same number. -/
lemma UserListOptions.id_eq_of_tie {u v : User} (huv : (options.orderBy js).le u v = true)
    (hvu : (options.orderBy js).le v u = true) : u.id = v.id := by
  have hcolumns : ∀ {c : Comparison User},
      (c.thenBy (options.directed js UserSortColumn.id.comparison)).le u v = true →
      (c.thenBy (options.directed js UserSortColumn.id.comparison)).le v u = true → u.id = v.id := by
    intro c h h'
    obtain ⟨hid, hid'⟩ := Comparison.tie_thenBy h h'
    obtain ⟨hle, hle'⟩ := options.tie_directed hid hid'
    exact Comparison.tie_column hle hle'
  by_cases hnulls : options.sortCol = .lastLoginAt ∧ options.ascending js = false
  · rw [orderBy, if_pos hnulls] at huv hvu
    obtain ⟨h, h'⟩ := Comparison.tie_thenBy huv hvu
    exact hcolumns h h'
  · rw [orderBy, if_neg hnulls] at huv hvu
    exact hcolumns huv hvu

/-- The rows that meet the conditions have one ranking. -/
theorem ranking_unique {ranked ranked' : List User}
    (h : (options.orderBy js).IsRanking (users.rows.filter (options.selects js)) ranked)
    (h' : (options.orderBy js).IsRanking (users.rows.filter (options.selects js)) ranked') :
    ranked = ranked' := by
  refine h.unique (fun u hu v hv huv hvu => ?_) h'
  exact List.inj_on_of_nodup_map users.keys_nodup (List.mem_filter.mp hu).1 (List.mem_filter.mp hv).1
    (options.id_eq_of_tie huv hvu)

/-- The answer is determined. -/
theorem isListAnswer_iff {result : UserListResult} :
    IsListAnswer js options users result ↔ result = listWithTotal js options users := by
  constructor
  · rintro ⟨ranked, hranked, rfl⟩
    rw [ranking_unique hranked Comparison.isRanking_sort]
    rfl
  · rintro rfl
    exact ⟨_, Comparison.isRanking_sort, rfl⟩

/-! ## Pages -/

/-- The options of a page of a size. -/
def UserListOptions.pageAt (options : UserListOptions) (size k : ℕ) : UserListOptions :=
  { options with limit := some (size : ℚ), offset := some ((k * size : ℕ) : ℚ) }

/-- The options without a page. -/
def UserListOptions.unpaged (options : UserListOptions) : UserListOptions :=
  { options with limit := none, offset := none }

lemma floor_natCast (n : ℕ) : ((n : ℕ) : ℚ).floor.toNat = n := by
  rw [← Int.cast_natCast (R := ℚ), Rat.floor_intCast, Int.toNat_natCast]

lemma UserListOptions.cut_pageAt {size : ℕ} (hpos : 1 ≤ size) (hle : size ≤ 1000) (k : ℕ) {α : Type*}
    (rows : List α) : (options.pageAt size k).cut rows = page size (k * size) rows := by
  have hlimit : (options.pageAt size k).safeLimit = some size := by
    have hq : (0 : ℚ) < size := by exact_mod_cast hpos
    simp [safeLimit, pageAt, hq, floor_natCast, hle]
  have hoffset : (options.pageAt size k).safeOffset = k * size := by
    have hq : (0 : ℚ) ≤ (k * size : ℕ) := by exact_mod_cast Nat.zero_le _
    simp only [safeOffset, pageAt, Option.filter_some, decide_eq_true hq, if_true, Option.elim_some,
      floor_natCast]
  rw [cut, hlimit, hoffset]

/-- Pages partition the list.  Whatever the order, the search and the filter, the pages of a size
up to 1000 at the offsets before the first empty page make up the unpaged list, in which every
user that meets the conditions is once; each page reports how many these are. -/
theorem pages_partition {size : ℕ} (hpos : 1 ≤ size) (hle : size ≤ 1000) {pages : ℕ → UserListResult}
    (hpages : ∀ k, IsListAnswer js (options.pageAt size k) users (pages k)) {all : UserListResult}
    (hall : IsListAnswer js options.unpaged users all) :
    (∃ n, (pages n).rows = [] ∧ (∀ k < n, (pages k).rows ≠ []) ∧
      ((List.range n).flatMap fun k => (pages k).rows) = all.rows) ∧
    all.rows.Nodup ∧ (∀ u, u ∈ all.rows ↔ u ∈ users.rows ∧ options.selects js u = true) ∧
    (∀ k, (pages k).total = users.rows.countP (options.selects js)) ∧
    all.rows.length = users.rows.countP (options.selects js) := by
  obtain ⟨ranked, hranked, rfl⟩ := hall
  have hrows : ∀ k, (pages k).rows = page size (k * size) ranked := by
    intro k
    obtain ⟨ranked', hranked', hk⟩ := hpages k
    have hsame : ranked' = ranked := @ranking_unique js options users _ _ hranked' hranked
    rw [hk, UserListOptions.cut_pageAt hpos hle, hsame]
  have htotal : ∀ k, (pages k).total = users.rows.countP (options.selects js) := by
    intro k
    obtain ⟨ranked', -, hk⟩ := hpages k
    rw [hk]
    rfl
  have hnodup : ranked.Nodup :=
    hranked.1.nodup_iff.mpr ((List.Nodup.of_map _ users.keys_nodup).filter _)
  refine ⟨?_, hnodup, fun u => hranked.1.mem_iff.trans List.mem_filter, htotal, ?_⟩
  · simp only [hrows]
    exact exists_first_empty_page hpos ranked
  · exact hranked.1.length_eq.trans List.countP_eq_length_filter.symm

/-- Users with a tie, users who never logged in, and an archived user. -/
def sampleUsers : Table User.id where
  rows :=
    [{ id := 1, username := "Ada@school", passwordHash := "", createdAt := 5, updatedAt := 5 },
      { id := 2, username := "__dup_2__ada@school", passwordHash := "", createdAt := 6, updatedAt := 6 },
      { id := 3, username := "bo@school", passwordHash := "", createdAt := 7, updatedAt := 7,
        lastLoginAt := some 9 },
      { id := 4, username := "cy@school", passwordHash := "", createdAt := 8, updatedAt := 8,
        lastLoginAt := some 9 }]
  keys_nodup := by decide

/-- The newest logins first. -/
def byLastLogin : UserListOptions := { sort := some "last_login_at", q := some " SCHOOL " }

/-- The pages of two of the sample. -/
theorem pages_partition_byLastLogin :
    (∃ n, (listWithTotal Accounts.asciiRuntime (byLastLogin.pageAt 2 n) sampleUsers).rows = [] ∧
      (∀ k < n, (listWithTotal Accounts.asciiRuntime (byLastLogin.pageAt 2 k) sampleUsers).rows ≠ []) ∧
      ((List.range n).flatMap fun k =>
          (listWithTotal Accounts.asciiRuntime (byLastLogin.pageAt 2 k) sampleUsers).rows) =
        (listWithTotal Accounts.asciiRuntime byLastLogin.unpaged sampleUsers).rows) ∧
    (listWithTotal Accounts.asciiRuntime byLastLogin.unpaged sampleUsers).rows.map User.id = [4, 3, 1] :=
  ⟨(pages_partition (by decide) (by decide) (fun _ => isListAnswer_iff.mpr rfl)
    (isListAnswer_iff.mpr rfl)).1, by decide +kernel⟩

end SmartSchoolCdn
