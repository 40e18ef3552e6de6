import SmartSchoolCdn.Foundation.Grouping
import SmartSchoolCdn.Foundation.Statements
import SmartSchoolCdn.Foundation.Text
import Mathlib.Data.List.Sort
import Std.Data.String.ToNat

/-!
# The normalisation of user names at boot

`index.ts` puts the names of the users in lower case and without blanks around them.  Of the users
whose names are then the same, one keeps the name: an active one before those that are disabled,
then the one with the smallest number.  The others are disabled, and their names get the mark
`__dup_<id>__` in front if they have none of the kind.

The times that it writes are texts, in columns of type `INTEGER`; a marked name may be taken; and
the next boot normalises the marked names like all others.
-/

namespace SmartSchoolCdn.Usernames

open Tables Grouping Ranking

/-! ## The table -/

/-- A value in a column of type `INTEGER`, which takes a text that is not a number as it is. -/
inductive Stamp
  | integer (n : ℤ)
  | text (s : String)
  deriving DecidableEq, Repr

/-- Whether a value is a number. -/
def Stamp.isInteger : Stamp → Bool
  | integer _ => true
  | text _ => false

/-- A row of `users` as the database has it. -/
structure UserRow where
  id : ℕ
  username : String
  passwordHash : String
  createdAt : Stamp
  updatedAt : Stamp
  disabledAt : Option Stamp
  lastLoginAt : Option Stamp
  tokenVersion : ℕ
  deriving DecidableEq, Repr

/-- `trim().toLowerCase()` of an ASCII name. -/
def normalize (username : String) : String := Text.lower (Text.trim username)

namespace UserRow

/-- The name by which the users are grouped. -/
def lower (u : UserRow) : String := normalize u.username

/-- The name as the column compares it, with `COLLATE NOCASE`. -/
def folded (u : UserRow) : String := Text.lower u.username

/-- All times are numbers. -/
def integerTyped (u : UserRow) : Bool :=
  u.createdAt.isInteger && u.updatedAt.isInteger && u.disabledAt.all Stamp.isInteger &&
    u.lastLoginAt.all Stamp.isInteger

/-- `startsWith('__dup_')`. -/
def isMarked (u : UserRow) : Bool := Text.startsWith u.username "__dup_"

/-- `__dup_${loser.id}__${loser.username}`. -/
def dupName (u : UserRow) : String := "__dup_" ++ toString u.id ++ "__" ++ u.username

/-- The row with its marked name. -/
def archived (u : UserRow) : UserRow := { u with username := u.dupName }

end UserRow

/-- The table of users, whose names are unique up to the case. -/
abbrev UsersTable := UniqueTable UserRow.id UserRow.folded

/-- A table in the current schema. -/
structure CurrentUsers extends UniqueTable UserRow.id UserRow.folded where
  typed : ∀ u ∈ rows, u.integerTyped = true

/-! ## The pass -/

/-- `UPDATE users SET disabled_at = ?, updated_at = ? WHERE id = ?`. -/
def disable (now : String) (id : ℕ) : RowUpdate UserRow.id where
  target := id
  apply u := { u with disabledAt := some (.text now), updatedAt := .text now }
  keeps _ := rfl

/-- `UPDATE users SET username = ? WHERE id = ?`. -/
def rename (id : ℕ) (username : String) : RowUpdate UserRow.id where
  target := id
  apply u := { u with username := username }
  keeps _ := rfl

/-- `UPDATE users SET username = ?, updated_at = ? WHERE id = ?`. -/
def adopt (now : String) (id : ℕ) (username : String) : RowUpdate UserRow.id where
  target := id
  apply u := { u with username := username, updatedAt := .text now }
  keeps _ := rfl

/-- The keys of the groups, in the order in which they are inserted into the map. -/
def groupKeys (rows : List UserRow) : List String := ((rows.map UserRow.lower).reverse.dedup).reverse

/-- `groups`. -/
def groups (rows : List UserRow) : List (String × List UserRow) :=
  (groupKeys rows).map fun lower => (lower, rowsOf UserRow.lower lower rows)

/-- Active users first, then by number. -/
def byKeeper : Comparison UserRow :=
  (Comparison.column fun u => if u.disabledAt = none then 0 else 1).thenBy (.column UserRow.id)

/-- What happens to a user who does not keep the name. -/
def loserStatements (now : String) (loser : UserRow) : List (RowUpdate UserRow.id) :=
  (if loser.disabledAt = none then [disable now loser.id] else []) ++
    if loser.isMarked then [] else [rename loser.id loser.dupName]

/-- What happens to the user who keeps the name. -/
def keeperStatements (now lower : String) (keeper : UserRow) : List (RowUpdate UserRow.id) :=
  if keeper.username ≠ lower then [adopt now keeper.id lower] else []

/-- The body of the loop; a group of one row that has the name already is skipped. -/
def groupStatements (now : String) (group : String × List UserRow) : List (RowUpdate UserRow.id) :=
  if group.2.map UserRow.username = [group.1] then []
  else
    match byKeeper.sort group.2 with
    | [] => []
    | keeper :: losers =>
      losers.flatMap (loserStatements now) ++ keeperStatements now group.1 keeper

/-- The statements of the transaction; they depend on the rows as they were before it. -/
def statements (now : String) (rows : List UserRow) : List (RowUpdate UserRow.id) :=
  (groups rows).flatMap (groupStatements now)

/-- The pass, which throws when a statement fails. -/
def normalizeUsers (now : String) (users : UsersTable) : Option UsersTable :=
  users.transaction (statements now users.rows)

/-! ## What the pass should do -/

/-- The pass succeeds and keeps the number of rows, one row has the normal form of each name, all
times are numbers, and another pass changes nothing. -/
def Normalises (now now' : String) (users : CurrentUsers) : Prop :=
  ∃ t, normalizeUsers now users.toUniqueTable = some t ∧
    t.rows.length = users.rows.length ∧
    (∀ u ∈ users.rows, ∃! v, v ∈ t.rows ∧ v.username = u.lower) ∧
    (∀ v ∈ t.rows, v.integerTyped = true) ∧
    normalizeUsers now' t = some t

/-- The users that get a marked name, in the order of the statements. -/
def renames (rows : List UserRow) : List UserRow :=
  (groups rows).flatMap fun group => (byKeeper.sort group.2).tail.filter fun u => !u.isMarked

/-- A user who goes before one that is disabled. -/
def Precedes (v u : UserRow) : Prop := v.disabledAt = none ∨ v.id < u.id

/-- The rows that the pass normalises: each name is in normal form, or the user is disabled and goes
behind one whose name is the normal form; a marked name is not that of a row which the statements
before have left alone; and it is in normal form, or the user goes behind one whose name is its normal
form. -/
structure Settled (rows : List UserRow) : Prop where
  named : ∀ u ∈ rows, ∃ v ∈ rows, v.username = u.lower ∧ (u = v ∨ u.disabledAt ≠ none ∧ Precedes v u)
  free : ∀ p r s, renames rows = p ++ r :: s → ∀ q ∈ rows, q ∉ p → q.folded ≠ r.archived.folded
  stable : ∀ r ∈ renames rows, r.dupName = r.archived.lower ∨
    ∃ v ∈ rows, v.username = r.archived.lower ∧ Precedes v r

/-! ## Names -/

variable {u v r : UserRow}

lemma normalize_normalize (username : String) : normalize (normalize username) = normalize username :=
  Text.lower_trim_lower_trim username

/-- A row that has a normal form as its name has its own. -/
lemma lower_of_username (h : v.username = u.lower) : v.lower = u.lower := by
  rw [UserRow.lower, h, UserRow.lower, normalize_normalize]

/-- Names that are equal are equal up to the case. -/
lemma folded_congr (h : u.username = v.username) : u.folded = v.folded := congrArg Text.lower h

/-- The characters of a marked name up to what follows the number. -/
def mark (id : ℕ) (rest : List Char) : List Char :=
  ['_', '_', 'd', 'u', 'p', '_'] ++ (Nat.toDigits 10 id ++ '_' :: rest)

/-- A mark has the number of its user. -/
lemma mark_inj {m n : ℕ} {rest rest' : List Char} (h : mark m rest = mark n rest') : m = n := by
  have htail := List.append_cancel_left h
  have hdigits : ∀ (n : ℕ) (rest : List Char),
      (Nat.toDigits 10 n ++ '_' :: rest).takeWhile (· != '_') = Nat.toDigits 10 n := by
    intro n rest
    rw [List.takeWhile_append_of_pos fun c hc => ?_]
    · simp
    · rw [bne_iff_ne]
      rintro rfl
      exact Nat.underscore_not_in_toDigits hc
  have hsame := congrArg (List.takeWhile (· != '_')) htail
  rw [hdigits, hdigits] at hsame
  rw [← Nat.ofDigitChars_ten_toDigits (n := m), hsame, Nat.ofDigitChars_ten_toDigits]

lemma toList_dupName (u : UserRow) : u.dupName.toList = mark u.id ('_' :: u.username.toList) := by
  simp [UserRow.dupName, mark]

/-- Marks are in lower case. -/
lemma map_toLower_mark (id : ℕ) (rest : List Char) :
    (mark id rest).map Char.toLower = mark id (rest.map Char.toLower) := by
  have hdigits : (Nat.toDigits 10 id).map Char.toLower = Nat.toDigits 10 id := by
    refine (List.map_congr_left fun c hc => ?_).trans (List.map_id _)
    have hdigit := Nat.isDigit_of_mem_toDigits (by decide) (by decide) hc
    rw [Char.isDigit_iff_toNat] at hdigit
    have hbelow : c.toNat < 65 := Nat.lt_of_le_of_lt hdigit.2 (by decide)
    exact (Text.toLower_eq_iff hbelow).mpr rfl
  rw [mark, List.map_append, List.map_append, hdigits, List.map_cons]
  rfl

/-- White space at the end of a text does not reach beyond a character that is none. -/
lemma exists_rdropWhile_append {p : Char → Bool} {x : Char} (hx : p x = false) (a b : List Char) :
    ∃ rest, (a ++ x :: b).rdropWhile p = a ++ x :: rest := by
  induction b using List.reverseRecOn with
  | nil => exact ⟨[], List.rdropWhile_concat_neg _ _ _ (by simp [hx])⟩
  | append_singleton b y ih =>
    rw [← List.cons_append, ← List.append_assoc]
    by_cases hy : p y = true
    · rw [List.rdropWhile_concat_pos _ _ _ hy]
      exact ih
    · rw [List.rdropWhile_concat_neg _ _ _ hy]
      exact ⟨b ++ [y], by simp⟩

lemma toList_folded_archived (r : UserRow) :
    r.archived.folded.toList = mark r.id (('_' :: r.username.toList).map Char.toLower) := by
  rw [UserRow.folded, Text.lower, String.toList_ofList, UserRow.archived, toList_dupName, map_toLower_mark]

lemma exists_toList_lower_archived (r : UserRow) : ∃ rest, r.archived.lower.toList = mark r.id rest := by
  obtain ⟨rest, hrest⟩ := exists_rdropWhile_append (p := Text.isSpace) (x := '_') (by decide)
    (['_', '_', 'd', 'u', 'p', '_'] ++ Nat.toDigits 10 r.id) ('_' :: r.username.toList)
  have hfront : (mark r.id ('_' :: r.username.toList)).dropWhile Text.isSpace =
      mark r.id ('_' :: r.username.toList) := rfl
  refine ⟨rest.map Char.toLower, ?_⟩
  rw [UserRow.lower, normalize, Text.lower, Text.trim, String.toList_ofList, String.toList_ofList,
    UserRow.archived, toList_dupName, hfront, mark, ← List.append_assoc, hrest, List.append_assoc, ← mark,
    map_toLower_mark]

/-- Marked names of different users differ in more than their case. -/
lemma id_of_folded_archived (h : u.archived.folded = v.archived.folded) : u.id = v.id := by
  have hlist := congrArg String.toList h
  rw [toList_folded_archived, toList_folded_archived] at hlist
  exact mark_inj hlist

/-- So do their normal forms. -/
lemma id_of_lower_archived (h : u.archived.lower = v.archived.lower) : u.id = v.id := by
  obtain ⟨rest, hrest⟩ := exists_toList_lower_archived u
  obtain ⟨rest', hrest'⟩ := exists_toList_lower_archived v
  rw [← h, hrest] at hrest'
  exact mark_inj hrest'

/-- A marked name is longer than the name. -/
lemma folded_archived_ne (r : UserRow) : r.folded ≠ r.archived.folded := by
  intro h
  have hlist := congrArg String.toList h
  rw [toList_folded_archived, UserRow.folded, Text.lower, String.toList_ofList] at hlist
  have hlength := congrArg List.length hlist
  simp only [mark, List.length_append, List.length_cons, List.length_map] at hlength
  omega

lemma isMarked_archived (r : UserRow) : r.archived.isMarked = true := by
  rw [UserRow.isMarked, Text.startsWith, decide_eq_true_iff, UserRow.archived, toList_dupName]
  exact List.prefix_append _ _

/-! ## Groups and their keepers -/

variable {t : UsersTable} {rows losers : List UserRow} {keeper : UserRow} {lower now : String}

lemma eq_of_id (hu : u ∈ t.rows) (hv : v ∈ t.rows) (h : u.id = v.id) : u = v :=
  List.inj_on_of_nodup_map t.keys_nodup hu hv h

lemma eq_of_username (hu : u ∈ t.rows) (hv : v ∈ t.rows) (h : u.username = v.username) : u = v :=
  List.inj_on_of_nodup_map t.unique hu hv (folded_congr h)

lemma nodup_groupKeys (rows : List UserRow) : (groupKeys rows).Nodup :=
  List.nodup_reverse.mpr (List.nodup_dedup _)

lemma mem_groupKeys : lower ∈ groupKeys rows ↔ ∃ u ∈ rows, u.lower = lower := by
  rw [groupKeys, List.mem_reverse, List.mem_dedup, List.mem_reverse, List.mem_map]

/-- A group in the order of its rows. -/
def ranked (rows : List UserRow) (lower : String) : List UserRow :=
  byKeeper.sort (rowsOf UserRow.lower lower rows)

lemma mem_ranked : u ∈ ranked rows lower ↔ u ∈ rows ∧ u.lower = lower := by
  rw [ranked, Comparison.isRanking_sort.1.mem_iff, rowsOf, List.mem_filter, decide_eq_true_iff]

lemma nodup_ranked (t : UsersTable) (lower : String) : (ranked t.rows lower).Nodup :=
  Comparison.isRanking_sort.1.nodup_iff.mpr (t.keys_nodup.of_map.filter _)

lemma exists_ranked (hu : u ∈ rows) : ∃ keeper losers, ranked rows u.lower = keeper :: losers :=
  List.exists_cons_of_ne_nil (List.ne_nil_of_mem (mem_ranked.mpr ⟨hu, rfl⟩))

/-- The user who keeps a name is one of those who have it, and comes before the others. -/
lemma ranked_cons (h : ranked rows lower = keeper :: losers) :
    keeper ∈ rows ∧ keeper.lower = lower ∧
      ∀ v ∈ rows, v.lower = lower → v = keeper ∨ v ∈ losers ∧ byKeeper.le keeper v = true := by
  have hmem : ∀ v, v ∈ keeper :: losers ↔ v ∈ rows ∧ v.lower = lower := fun v => h ▸ mem_ranked
  obtain ⟨hkeeper, hlower⟩ := (hmem keeper).mp List.mem_cons_self
  have hsorted : (ranked rows lower).Pairwise fun a b => byKeeper.le a b = true :=
    Comparison.isRanking_sort.2
  rw [h] at hsorted
  refine ⟨hkeeper, hlower, fun v hv hvlower => ?_⟩
  rcases List.mem_cons.mp ((hmem v).mpr ⟨hv, hvlower⟩) with rfl | hloser
  · exact Or.inl rfl
  · exact Or.inr ⟨hloser, List.rel_of_pairwise_cons hsorted hloser⟩

/-- The order in front of a user who is disabled. -/
lemma le_iff_of_disabled (hv : v.disabledAt ≠ none) :
    byKeeper.le u v = true ↔ u.disabledAt = none ∨ u.id ≤ v.id := by
  by_cases hu : u.disabledAt = none
  · simp [byKeeper, Comparison.thenBy, Comparison.column, hu, hv]
  · simp [byKeeper, Comparison.thenBy, Comparison.column, hu, hv]

/-- The order behind a user who is disabled. -/
lemma le_eq_false_of_precedes (hu : u.disabledAt ≠ none) (h : Precedes v u) : byKeeper.le u v = false := by
  by_cases hv : v.disabledAt = none
  · simp [byKeeper, Comparison.thenBy, Comparison.column, hu, hv]
  · have hid := h.resolve_left hv
    simp [byKeeper, Comparison.thenBy, Comparison.column, hu, hv]
    omega

/-- Every group has its name with its keeper, and the others are disabled and have a property. -/
def KeepersNamed (Q : UserRow → Prop) (rows : List UserRow) : Prop :=
  ∀ u ∈ rows, ∀ keeper losers, ranked rows u.lower = keeper :: losers →
    keeper.username = u.lower ∧ (u = keeper ∨ u.disabledAt ≠ none ∧ Q u)

/-- Every user keeps the name, or is disabled, has a property, and goes behind one with the name. -/
def Kept (Q : UserRow → Prop) (rows : List UserRow) : Prop :=
  ∀ u ∈ rows, ∃ v ∈ rows, v.username = u.lower ∧
    (u = v ∨ (u.disabledAt ≠ none ∧ Q u) ∧ Precedes v u)

/-- The two say the same, since the keeper is who goes before the others. -/
lemma keepersNamed_iff {t : UsersTable} {Q : UserRow → Prop} : KeepersNamed Q t.rows ↔ Kept Q t.rows := by
  constructor
  · intro h u hu
    obtain ⟨keeper, losers, hranked⟩ := exists_ranked hu
    obtain ⟨hkeeper, -, hbefore⟩ := ranked_cons hranked
    obtain ⟨hname, hkeeps⟩ := h u hu keeper losers hranked
    refine ⟨keeper, hkeeper, hname, ?_⟩
    rcases hkeeps with rfl | hdisabled
    · exact Or.inl rfl
    · rcases hbefore u hu rfl with rfl | ⟨hloser, hle⟩
      · exact Or.inl rfl
      · refine Or.inr ⟨hdisabled, ((le_iff_of_disabled hdisabled.1).mp hle).imp_right fun hid => ?_⟩
        refine lt_of_le_of_ne hid fun heq => ?_
        have hsame := eq_of_id hkeeper hu heq
        have hnodup := nodup_ranked t u.lower
        rw [hranked, hsame, List.nodup_cons] at hnodup
        exact hnodup.1 hloser
  · intro h u hu keeper losers hranked
    obtain ⟨hkeeper, hlower, hbefore⟩ := ranked_cons hranked
    -- nobody goes before the keeper
    have hname : keeper.username = u.lower := by
      obtain ⟨w, hw, hwname, hkeeps⟩ := h keeper hkeeper
      rcases hkeeps with rfl | ⟨⟨hdisabled, -⟩, hprecedes⟩
      · rw [hwname, hlower]
      · have hwlower : w.lower = u.lower := (lower_of_username hwname).trans hlower
        rcases hbefore w hw hwlower with rfl | ⟨-, hle⟩
        · rw [hwname, hlower]
        · rw [le_eq_false_of_precedes hdisabled hprecedes] at hle
          cases hle
    refine ⟨hname, ?_⟩
    obtain ⟨v, hv, hvname, hkeeps⟩ := h u hu
    have hsame : v = keeper := eq_of_username hv hkeeper (hvname.trans hname.symm)
    rcases hkeeps with heq | ⟨hdisabled, -⟩
    · exact Or.inl (heq.trans hsame)
    · exact Or.inr hdisabled

end SmartSchoolCdn.Usernames
