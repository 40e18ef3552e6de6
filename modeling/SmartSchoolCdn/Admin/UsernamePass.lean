import SmartSchoolCdn.Admin.Usernames

/-!
# Two passes over the user names

What the statements of the pass make of a row depends on its group only: the keeper gets the name
of the group, the others a time and a mark.  From this follows when the pass is sound, lossless and
final (`normalises_iff`): nobody gets a time, no marked name is taken when it is given, and the second
pass finds nothing to do for the marked names.
-/

namespace SmartSchoolCdn.Usernames

open Tables Grouping Ranking

variable {u v r : UserRow} {t : UsersTable} {rows losers : List UserRow} {keeper : UserRow}
  {lower now : String}

/-! ## What the statements do to a row -/

/-- The statements of a group, whether it is skipped or not. -/
lemma groupStatements_eq (h : ranked rows lower = keeper :: losers) :
    groupStatements now (lower, rowsOf UserRow.lower lower rows) =
      losers.flatMap (loserStatements now) ++ keeperStatements now lower keeper := by
  rw [groupStatements]
  split
  · next hskip =>
    obtain ⟨u, hgroup, hname⟩ := List.map_eq_singleton_iff.mp hskip
    have hrows : rowsOf UserRow.lower lower rows = [u] := hgroup
    have hone : ranked rows lower = [u] := by
      rw [ranked, hrows]
      rfl
    obtain ⟨rfl, rfl⟩ := List.cons.inj (hone.symm.trans h)
    rw [keeperStatements, if_neg (not_not.mpr hname)]
    rfl
  · have hsort : byKeeper.sort (rowsOf UserRow.lower lower rows) = keeper :: losers := h
    rw [hsort]

lemma target_loserStatements {s : RowUpdate UserRow.id} (hs : s ∈ loserStatements now u) : s.target = u.id := by
  rcases List.mem_append.mp hs with hs | hs
  · split at hs
    · rw [List.mem_singleton.mp hs]
      rfl
    · cases hs
  · split at hs
    · cases hs
    · rw [List.mem_singleton.mp hs]
      rfl

lemma target_keeperStatements {s : RowUpdate UserRow.id} (hs : s ∈ keeperStatements now lower u) :
    s.target = u.id := by
  unfold keeperStatements at hs
  split at hs
  · rw [List.mem_singleton.mp hs]
    rfl
  · cases hs

/-- The statements of a group are on its rows. -/
lemma target_groupStatements {s : RowUpdate UserRow.id} (h : ranked rows lower = keeper :: losers)
    (hs : s ∈ groupStatements now (lower, rowsOf UserRow.lower lower rows)) :
    ∃ v ∈ keeper :: losers, s.target = v.id := by
  rw [groupStatements_eq h] at hs
  rcases List.mem_append.mp hs with hs | hs
  · obtain ⟨v, hv, hs⟩ := List.mem_flatMap.mp hs
    exact ⟨v, List.mem_cons_of_mem _ hv, target_loserStatements hs⟩
  · exact ⟨keeper, List.mem_cons_self, target_keeperStatements hs⟩

/-- The statements of other groups leave a row alone. -/
lemma effectOf_statements_group (hu : u ∈ t.rows) :
    effectOf (statements now t.rows) u =
      effectOf (groupStatements now (u.lower, rowsOf UserRow.lower u.lower t.rows)) u := by
  rw [statements, groups, List.flatMap_map]
  refine effectOf_flatMap (nodup_groupKeys t.rows) (mem_groupKeys.mpr ⟨u, hu, rfl⟩) ?_
  rintro lower hlower hne s hs heq
  obtain ⟨w, hw, rfl⟩ := mem_groupKeys.mp hlower
  obtain ⟨_, _, hranked⟩ := exists_ranked hw
  obtain ⟨v, hv, htarget⟩ := target_groupStatements hranked hs
  obtain ⟨hvrow, hvlower⟩ := mem_ranked.mp (hranked ▸ hv)
  have hsame : v = u := eq_of_id hvrow hu (htarget.symm.trans heq)
  exact hne (hvlower.symm.trans (congrArg UserRow.lower hsame))

/-- The statements of the pass do to a row what its group has for it. -/
lemma effectOf_statements (hu : u ∈ t.rows) (h : ranked t.rows u.lower = keeper :: losers) :
    effectOf (statements now t.rows) u =
      if u = keeper then effectOf (keeperStatements now u.lower u) u
      else effectOf (loserStatements now u) u := by
  have hmem : ∀ v ∈ keeper :: losers, v ∈ t.rows := fun v hv => (mem_ranked.mp (h ▸ hv)).1
  have hnodup := nodup_ranked t u.lower
  rw [h, List.nodup_cons] at hnodup
  rw [effectOf_statements_group hu, groupStatements_eq h, effectOf_append]
  split
  · next heq =>
    subst heq
    have hothers : effectOf (losers.flatMap (loserStatements now)) u = u := by
      refine effectOf_of_ne fun s hs htarget => ?_
      obtain ⟨v, hv, hs⟩ := List.mem_flatMap.mp hs
      rw [target_loserStatements hs] at htarget
      have hsame := eq_of_id (hmem v (List.mem_cons_of_mem _ hv)) hu htarget
      exact hnodup.1 (hsame ▸ hv)
    rw [hothers]
  · next hne =>
    have hloser : u ∈ losers := (List.mem_cons.mp (h ▸ mem_ranked.mpr ⟨hu, rfl⟩)).resolve_left hne
    have hlosers : effectOf (losers.flatMap (loserStatements now)) u = effectOf (loserStatements now u) u := by
      refine effectOf_flatMap hnodup.2 hloser fun v hv hvu s hs htarget => ?_
      rw [target_loserStatements hs] at htarget
      exact hvu (eq_of_id (hmem v (List.mem_cons_of_mem _ hv)) hu htarget)
    rw [hlosers]
    refine effectOf_of_ne fun s hs htarget => ?_
    have hkey : (effectOf (loserStatements now u) u).id = u.id := key_effectOf
    rw [target_keeperStatements hs, hkey] at htarget
    exact hne (eq_of_id hu (hmem keeper List.mem_cons_self) htarget.symm)

lemma effectOf_keeperStatements (now lower : String) (u : UserRow) :
    effectOf (keeperStatements now lower u) u =
      if u.username ≠ lower then { u with username := lower, updatedAt := .text now } else u := by
  rw [keeperStatements]
  split
  · exact effectOf_singleton rfl
  · rfl

lemma effectOf_disable (now : String) (u : UserRow) :
    effectOf [disable now u.id] u = { u with disabledAt := some (.text now), updatedAt := .text now } :=
  effectOf_singleton rfl

lemma effectOf_rename (u : UserRow) {id : ℕ} (username : String) (h : id = u.id) :
    effectOf [rename id username] u = { u with username := username } :=
  effectOf_singleton h

/-- Without a mark the name gets one, and a user who is active gets a time. -/
lemma effectOf_loserStatements (now : String) (u : UserRow) :
    effectOf (loserStatements now u) u =
      { u with
        username := if u.isMarked = true then u.username else u.dupName
        disabledAt := if u.disabledAt = none then some (.text now) else u.disabledAt
        updatedAt := if u.disabledAt = none then .text now else u.updatedAt } := by
  rw [loserStatements, effectOf_append]
  by_cases hactive : u.disabledAt = none
  · rw [if_pos hactive, if_pos hactive, if_pos hactive, effectOf_disable]
    by_cases hmarked : u.isMarked = true
    · rw [if_pos hmarked, if_pos hmarked, effectOf_nil]
    · rw [if_neg hmarked, if_neg hmarked]
      exact effectOf_rename _ u.dupName rfl
  · rw [if_neg hactive, if_neg hactive, if_neg hactive, effectOf_nil]
    by_cases hmarked : u.isMarked = true
    · rw [if_pos hmarked, if_pos hmarked, effectOf_nil]
    · rw [if_neg hmarked, if_neg hmarked]
      exact effectOf_rename _ u.dupName rfl

/-- What holds of every row and what the statements make of it, when it holds of a keeper who has the
name, and of the others if they are disabled and have a property. -/
lemma forall_effectOf_iff {R : UserRow → UserRow → Prop} {Q : UserRow → Prop}
    (hkeeper : ∀ u ∈ t.rows, R u (effectOf (keeperStatements now u.lower u) u) ↔ u.username = u.lower)
    (hloser : ∀ u ∈ t.rows, R u (effectOf (loserStatements now u) u) ↔ u.disabledAt ≠ none ∧ Q u) :
    (∀ u ∈ t.rows, R u (effectOf (statements now t.rows) u)) ↔ Kept Q t.rows := by
  rw [← keepersNamed_iff]
  constructor
  · intro h u hu keeper losers hranked
    obtain ⟨hrow, hlower, -⟩ := ranked_cons hranked
    have hname : keeper.username = u.lower := by
      have hR := h keeper hrow
      have hsame : ranked t.rows keeper.lower = keeper :: losers := by rw [hlower, hranked]
      rw [effectOf_statements hrow hsame, if_pos rfl, hkeeper keeper hrow] at hR
      exact hR.trans hlower
    refine ⟨hname, ?_⟩
    by_cases heq : u = keeper
    · exact Or.inl heq
    · have hR := h u hu
      rw [effectOf_statements hu hranked, if_neg heq, hloser u hu] at hR
      exact Or.inr hR
  · intro h u hu
    obtain ⟨keeper, losers, hranked⟩ := exists_ranked hu
    obtain ⟨hname, hkeeps⟩ := h u hu keeper losers hranked
    rw [effectOf_statements hu hranked]
    split
    · next heq =>
      refine (hkeeper u hu).mpr ?_
      rw [← hname, heq]
    · next hne => exact (hloser u hu).mpr (hkeeps.resolve_left hne)

/-- Times stay numbers when nobody gets one. -/
lemma typed_iff (htyped : ∀ u ∈ t.rows, u.integerTyped = true) :
    (∀ u ∈ t.rows, (effectOf (statements now t.rows) u).integerTyped = true) ↔
      Kept (fun _ => True) t.rows := by
  refine forall_effectOf_iff (R := fun _ w => w.integerTyped = true) (fun u hu => ?_) fun u hu => ?_
  · rw [effectOf_keeperStatements]
    by_cases hname : u.username = u.lower
    · rw [if_neg (not_not.mpr hname)]
      exact iff_of_true (htyped u hu) hname
    · rw [if_pos hname]
      refine iff_of_false (fun h => ?_) hname
      simp [UserRow.integerTyped, Stamp.isInteger] at h
  · have hu' := htyped u hu
    rw [effectOf_loserStatements, and_true]
    by_cases hactive : u.disabledAt = none
    · rw [if_pos hactive, if_pos hactive]
      refine iff_of_false (fun h => ?_) (not_not.mpr hactive)
      simp [UserRow.integerTyped, Stamp.isInteger] at h
    · rw [if_neg hactive, if_neg hactive]
      exact iff_of_true hu' hactive

lemma username_ne_dupName (u : UserRow) : u.username ≠ u.dupName := fun h =>
  folded_archived_ne u (congrArg Text.lower h)

/-- Rows stay as they are when nobody gets a time and the names of the others are marked. -/
lemma unchanged_iff :
    (∀ u ∈ t.rows, effectOf (statements now t.rows) u = u) ↔
      Kept (fun u => u.isMarked = true) t.rows := by
  refine forall_effectOf_iff (R := fun u w => w = u) (fun u _ => ?_) fun u _ => ?_
  · rw [effectOf_keeperStatements]
    by_cases hname : u.username = u.lower
    · rw [if_neg (not_not.mpr hname)]
      exact iff_of_true rfl hname
    · rw [if_pos hname]
      exact iff_of_false (fun h => hname (congrArg UserRow.username h).symm) hname
  · rw [effectOf_loserStatements]
    by_cases hactive : u.disabledAt = none
    · rw [if_pos hactive]
      refine iff_of_false (fun h => ?_) fun h => h.1 hactive
      have htime := congrArg UserRow.disabledAt h
      rw [hactive] at htime
      cases htime
    · rw [if_neg hactive, if_neg hactive]
      by_cases hmarked : u.isMarked = true
      · rw [if_pos hmarked]
        exact iff_of_true rfl ⟨hactive, hmarked⟩
      · rw [if_neg hmarked]
        refine iff_of_false (fun h => ?_) fun h => hmarked h.2
        exact username_ne_dupName u (congrArg UserRow.username h).symm

/-! ## Marked names -/

/-- The statement that marks a name. -/
def archive (r : UserRow) : RowUpdate UserRow.id := rename r.id r.dupName

lemma mem_renames : r ∈ renames rows ↔ r.isMarked = false ∧ r ∈ (ranked rows r.lower).tail := by
  rw [renames, groups, List.flatMap_map, List.mem_flatMap]
  constructor
  · rintro ⟨lower, -, hr⟩
    obtain ⟨htail, hmarked⟩ := List.mem_filter.mp hr
    have hlower : r.lower = lower := (mem_ranked.mp (List.mem_of_mem_tail htail)).2
    exact ⟨by simpa using hmarked, hlower ▸ htail⟩
  · rintro ⟨hmarked, htail⟩
    have hrow := (mem_ranked.mp (List.mem_of_mem_tail htail)).1
    exact ⟨r.lower, mem_groupKeys.mpr ⟨r, hrow, rfl⟩, List.mem_filter.mpr ⟨htail, by simp [hmarked]⟩⟩

lemma mem_of_mem_renames (hr : r ∈ renames rows) : r ∈ rows :=
  (mem_ranked.mp (List.mem_of_mem_tail (mem_renames.mp hr).2)).1

/-- In a table with nothing to write but names, the statements mark the names. -/
lemma statements_eq (h : KeepersNamed (fun _ => True) t.rows) :
    statements now t.rows = (renames t.rows).map archive := by
  rw [statements, renames, groups, List.flatMap_map, List.flatMap_map, List.map_flatMap]
  refine List.flatMap_congr fun lower hlower => ?_
  obtain ⟨w, hw, rfl⟩ := mem_groupKeys.mp hlower
  obtain ⟨keeper, losers, hranked⟩ := exists_ranked hw
  have hkeeper : keeperStatements now w.lower keeper = [] :=
    if_neg (not_not.mpr (h w hw keeper losers hranked).1)
  have hnodup := nodup_ranked t w.lower
  rw [hranked, List.nodup_cons] at hnodup
  have hlosers : ∀ v ∈ losers, v.disabledAt ≠ none := by
    intro v hv
    obtain ⟨hvrow, hvlower⟩ := mem_ranked.mp (hranked ▸ List.mem_cons_of_mem keeper hv)
    have hsame : ranked t.rows v.lower = keeper :: losers := by rw [hvlower, hranked]
    rcases (h v hvrow keeper losers hsame).2 with rfl | hdisabled
    · exact absurd hv hnodup.1
    · exact hdisabled.1
  have hmarks : losers.flatMap (loserStatements now) = (losers.filter fun u => !u.isMarked).map archive := by
    clear hnodup hranked hkeeper
    induction losers with
    | nil => rfl
    | cons v losers ih =>
      rw [List.flatMap_cons, ih fun v' hv' => hlosers v' (List.mem_cons_of_mem v hv'), loserStatements,
        if_neg (hlosers v List.mem_cons_self), List.filter_cons]
      cases v.isMarked <;> rfl
  have htail : byKeeper.sort (rowsOf UserRow.lower w.lower t.rows) = keeper :: losers := hranked
  rw [groupStatements_eq hranked, hkeeper, List.append_nil, hmarks, htail, List.tail_cons]

/-- The effect of some of these statements. -/
lemma effectOf_archives {p : List UserRow} (hp : ∀ r ∈ p, r ∈ t.rows) (hu : u ∈ t.rows) :
    effectOf (p.map archive) u = if u ∈ p then u.archived else u := by
  have hall : ∀ w : UserRow, w = u ∨ w = u.archived →
      effectOf (p.map archive) w = if u ∈ p then u.archived else w := by
    induction p with
    | nil => exact fun w _ => rfl
    | cons r p ih =>
      intro w hw
      have hid : w.id = u.id := by
        rcases hw with rfl | rfl
        · rfl
        · rfl
      have hrest := ih fun r' hr' => hp r' (List.mem_cons_of_mem r hr')
      rw [List.map_cons, effectOf_cons]
      by_cases hr : u = r
      · subst hr
        have hfirst : (archive u).effect w = u.archived := by
          refine (if_pos hid).trans ?_
          rcases hw with rfl | rfl
          · rfl
          · rfl
        rw [hfirst, hrest u.archived (Or.inr rfl), ite_self, if_pos List.mem_cons_self]
      · have hfirst : (archive r).effect w = w := by
          refine if_neg fun heq => hr ?_
          exact eq_of_id hu (hp r List.mem_cons_self) (hid.symm.trans heq)
        have hmem : u ∈ r :: p ↔ u ∈ p := by simp [hr]
        rw [hfirst, hrest w hw]
        simp only [hmem]
  exact hall u (Or.inl rfl)

/-- The effect of these statements on a table. -/
lemma map_effectOf_archives {p : List UserRow} (hp : p <+: renames t.rows) :
    t.rows.map (effectOf (p.map archive)) = t.rows.map fun u => if u ∈ p then u.archived else u :=
  List.map_congr_left fun _ hu => effectOf_archives (fun _ hr => mem_of_mem_renames (hp.subset hr)) hu

/-- The names can be marked one after the other when none of the marked names is that of a row which
has not been renamed before. -/
lemma unique_archives_iff (t : UsersTable) :
    (∀ p, p <+: (renames t.rows).map archive → ((t.rows.map (effectOf p)).map UserRow.folded).Nodup) ↔
      ∀ p r s, renames t.rows = p ++ r :: s → ∀ q ∈ t.rows, q ∉ p → q.folded ≠ r.archived.folded := by
  have hrows : t.rows.Nodup := t.keys_nodup.of_map
  refine ⟨fun hunique p r s hsplit q hq hqp heq => ?_, fun hfree p' hp' => ?_⟩
  · have hinitial : p ++ [r] <+: renames t.rows := ⟨s, by rw [hsplit, List.append_assoc, List.singleton_append]⟩
    have hr : r ∈ t.rows := mem_of_mem_renames (hinitial.subset (by simp))
    have hnodup := hunique _ (hinitial.map archive)
    rw [map_effectOf_archives hinitial, List.map_map] at hnodup
    by_cases hqr : q = r
    · subst hqr
      exact folded_archived_ne q heq
    · have hq' : q ∉ p ++ [r] := by simp [hqp, hqr]
      refine hqr (List.inj_on_of_nodup_map hnodup hq hr ?_)
      simp only [Function.comp_apply, if_neg hq', if_pos (List.mem_append_right p List.mem_cons_self)]
      exact heq
  · obtain ⟨p, hp, rfl⟩ : ∃ p, p <+: renames t.rows ∧ p' = p.map archive :=
      ⟨(renames t.rows).take p'.length, List.take_prefix _ _, by
        rw [List.map_take]
        exact List.prefix_iff_eq_take.mp hp'⟩
    -- a row that has been renamed against one that has not
    have hnew : ∀ u v, u ∈ p → v ∈ t.rows → v ∉ p → v.folded ≠ u.archived.folded := by
      intro u v hu hv hvp
      obtain ⟨p₁, p₂, rfl⟩ := List.append_of_mem hu
      obtain ⟨s, hs⟩ := hp
      refine hfree p₁ u (p₂ ++ s) ?_ v hv fun hvp₁ => hvp (List.mem_append_left _ hvp₁)
      rw [← hs, List.append_assoc, List.cons_append]
    rw [map_effectOf_archives hp, List.map_map, List.nodup_map_iff_inj_on hrows]
    intro u hu v hv heq
    simp only [Function.comp_apply] at heq
    by_cases hup : u ∈ p
    · by_cases hvp : v ∈ p
      · rw [if_pos hup, if_pos hvp] at heq
        exact eq_of_id hu hv (id_of_folded_archived heq)
      · rw [if_pos hup, if_neg hvp] at heq
        exact absurd heq.symm (hnew u v hup hv hvp)
    · by_cases hvp : v ∈ p
      · rw [if_neg hup, if_pos hvp] at heq
        exact absurd heq (hnew v u hvp hu hup)
      · rw [if_neg hup, if_neg hvp] at heq
        exact List.inj_on_of_nodup_map t.unique hu hv heq

/-- Nothing is renamed when the names of all users who are not keepers are marked. -/
lemma renames_eq_nil (h : Kept (fun u => u.isMarked = true) t.rows) : renames t.rows = [] := by
  refine List.eq_nil_iff_forall_not_mem.mpr fun r hr => ?_
  obtain ⟨hmarked, htail⟩ := mem_renames.mp hr
  obtain ⟨keeper, losers, hranked⟩ := exists_ranked (mem_of_mem_renames hr)
  obtain ⟨-, hkeeps⟩ := keepersNamed_iff.mpr h r (mem_of_mem_renames hr) keeper losers hranked
  have hnodup := nodup_ranked t r.lower
  rw [hranked, List.tail_cons] at htail
  rw [hranked, List.nodup_cons] at hnodup
  rcases hkeeps with rfl | ⟨-, hmarked'⟩
  · exact hnodup.1 htail
  · rw [hmarked] at hmarked'
    cases hmarked'

/-! ## The second pass -/

section Stable

variable {t' : UsersTable} (hkept : Kept (fun _ => True) t.rows)
  (hrows : t'.rows = t.rows.map fun u => if u ∈ renames t.rows then u.archived else u)

include hkept in
/-- A row with the name of its group is not renamed. -/
lemma not_mem_renames_of_name (hv : v ∈ t.rows) (hname : v.username = v.lower) : v ∉ renames t.rows := by
  intro hmem
  obtain ⟨keeper, losers, hranked⟩ := exists_ranked hv
  obtain ⟨hkeeper, hlower, -⟩ := ranked_cons hranked
  obtain ⟨hkeepername, -⟩ := keepersNamed_iff.mpr hkept v hv keeper losers hranked
  have hsame : v = keeper := eq_of_username hv hkeeper (hname.trans hkeepername.symm)
  have htail := (mem_renames.mp hmem).2
  have hnodup := nodup_ranked t v.lower
  rw [hranked, List.tail_cons] at htail
  rw [hranked, List.nodup_cons, ← hsame] at hnodup
  exact hnodup.1 htail

include hkept in
/-- A row that does not have the name of its group is disabled, and renamed unless it is marked. -/
lemma renamed_of_name_ne (hu : u ∈ t.rows) (hname : u.username ≠ u.lower) :
    u.disabledAt ≠ none ∧ (u.isMarked = true ∨ u ∈ renames t.rows) := by
  obtain ⟨keeper, losers, hranked⟩ := exists_ranked hu
  obtain ⟨-, -, hbefore⟩ := ranked_cons hranked
  obtain ⟨hkeepername, hkeeps⟩ := keepersNamed_iff.mpr hkept u hu keeper losers hranked
  have hne : u ≠ keeper := fun heq => hname ((congrArg UserRow.username heq).trans hkeepername)
  have hloser : u ∈ losers := ((hbefore u hu rfl).resolve_left hne).1
  have htail : u ∈ (ranked t.rows u.lower).tail := by
    rw [hranked]
    exact hloser
  refine ⟨(hkeeps.resolve_left hne).1, ?_⟩
  by_cases hmarked : u.isMarked = true
  · exact Or.inl hmarked
  · exact Or.inr (mem_renames.mpr ⟨Bool.eq_false_of_not_eq_true hmarked, htail⟩)

include hrows in
lemma mem_again : r ∈ t'.rows ↔ ∃ u ∈ t.rows, (if u ∈ renames t.rows then u.archived else u) = r := by
  rw [hrows, List.mem_map]

include hkept hrows in
/-- A row that has a normal form as its name stays. -/
lemma mem_again_of_username (hv : v ∈ t.rows) (hname : v.username = u.lower) : v ∈ t'.rows := by
  have hself : v.username = v.lower := hname.trans (lower_of_username hname).symm
  exact (mem_again hrows).mpr ⟨v, hv, if_neg (not_mem_renames_of_name hkept hv hself)⟩

include hkept hrows in
/-- Who was not renamed keeps the name, or is disabled and marked. -/
lemma kept_again_of_not_mem (hu : u ∈ t.rows) (hur : u ∉ renames t.rows) :
    ∃ v ∈ t'.rows, v.username = u.lower ∧
      (u = v ∨ (u.disabledAt ≠ none ∧ u.isMarked = true) ∧ Precedes v u) := by
  obtain ⟨v, hv, hname, hkeeps⟩ := hkept u hu
  refine ⟨v, mem_again_of_username hkept hrows hv hname, hname, ?_⟩
  rcases hkeeps with heq | ⟨⟨hdisabled, -⟩, hprecedes⟩
  · exact Or.inl heq
  · by_cases heq : u.username = u.lower
    · exact Or.inl (eq_of_username hu hv (heq.trans hname.symm))
    · exact Or.inr ⟨⟨hdisabled, (renamed_of_name_ne hkept hu heq).2.resolve_right hur⟩, hprecedes⟩

include hkept hrows in
/-- The second pass changes nothing when each marked name is in normal form, or yields to a row that
has its normal form. -/
lemma kept_again_iff :
    Kept (fun u => u.isMarked = true) t'.rows ↔
      ∀ r ∈ renames t.rows, r.dupName = r.archived.lower ∨
        ∃ v ∈ t.rows, v.username = r.archived.lower ∧ Precedes v r := by
  constructor
  · intro h r hr
    obtain ⟨w, hw, hname, hkeeps⟩ :=
      h r.archived ((mem_again hrows).mpr ⟨r, mem_of_mem_renames hr, if_pos hr⟩)
    rcases hkeeps with rfl | ⟨-, hprecedes⟩
    · exact Or.inl hname
    · obtain ⟨v, hv, rfl⟩ := (mem_again hrows).mp hw
      by_cases hvr : v ∈ renames t.rows
      · -- the name of another user has another number
        rw [if_pos hvr] at hname
        obtain rfl := eq_of_id hv (mem_of_mem_renames hr) (id_of_lower_archived (lower_of_username hname))
        exact Or.inl hname
      · rw [if_neg hvr] at hname hprecedes
        exact Or.inr ⟨v, hv, hname, hprecedes⟩
  · intro h w hw
    obtain ⟨u, hu, rfl⟩ := (mem_again hrows).mp hw
    by_cases hur : u ∈ renames t.rows
    · rw [if_pos hur]
      rcases h u hur with hname | ⟨v, hv, hname, hprecedes⟩
      · exact ⟨u.archived, (mem_again hrows).mpr ⟨u, hu, if_pos hur⟩, hname, Or.inl rfl⟩
      · have hne : u.username ≠ u.lower := fun heq => not_mem_renames_of_name hkept hu heq hur
        refine ⟨v, mem_again_of_username hkept hrows hv hname, hname,
          Or.inr ⟨⟨?_, isMarked_archived u⟩, hprecedes⟩⟩
        exact (renamed_of_name_ne hkept hu hne).1
    · rw [if_neg hur]
      exact kept_again_of_not_mem hkept hrows hu hur

include hkept hrows in
/-- The normal form of each name is that of one row. -/
lemma existsUnique_again (hu : u ∈ t.rows) : ∃! v, v ∈ t'.rows ∧ v.username = u.lower := by
  obtain ⟨v, hv, hname, -⟩ := hkept u hu
  have hvt := mem_again_of_username hkept hrows hv hname
  exact ⟨v, ⟨hvt, hname⟩, fun w hw => eq_of_username hw.1 hvt (hw.2.trans hname.symm)⟩

end Stable

/-- A pass over rows that it leaves as they are. -/
lemma normalizeUsers_of_kept (h : Kept (fun u => u.isMarked = true) t.rows) :
    normalizeUsers now t = some t := by
  have hweak : Kept (fun _ => True) t.rows := by
    intro u hu
    obtain ⟨v, hv, hname, hkeeps⟩ := h u hu
    exact ⟨v, hv, hname, hkeeps.imp_right fun h => ⟨⟨h.1.1, trivial⟩, h.2⟩⟩
  rw [normalizeUsers, statements_eq (keepersNamed_iff.mpr hweak), renames_eq_nil h]
  rfl

/-- The pass succeeds without loss and for good, with numbers for all times, exactly for the tables in
which nobody gets a time, each marked name is free when it is given, and each is in normal form or
yields to the user that has it. -/
theorem normalises_iff (users : CurrentUsers) (now now' : String) :
    Normalises now now' users ↔ Settled users.rows := by
  have hnamed : Kept (fun _ => True) users.rows ↔ ∀ u ∈ users.rows, ∃ v ∈ users.rows,
      v.username = u.lower ∧ (u = v ∨ u.disabledAt ≠ none ∧ Precedes v u) := by
    simp only [Kept, and_true]
  constructor
  · rintro ⟨t, hpass, -, -, htyped, hagain⟩
    obtain ⟨hunique, hrows⟩ := UniqueTable.transaction_eq_some_iff.mp hpass
    have hkept := (@typed_iff users.toUniqueTable now users.typed).mp fun u hu =>
      htyped _ (hrows ▸ List.mem_map_of_mem hu)
    rw [statements_eq (keepersNamed_iff.mpr hkept)] at hunique hrows
    rw [map_effectOf_archives (List.prefix_refl _)] at hrows
    have hstill := unchanged_iff.mp fun u (hu : u ∈ t.rows) =>
      UniqueTable.effectOf_of_transaction (l := statements now' t.rows) hagain hu
    exact ⟨hnamed.mp hkept, (unique_archives_iff _).mp hunique, (kept_again_iff hkept hrows).mp hstill⟩
  · rintro ⟨hyields, hfree, hstable⟩
    have hkept : Kept (fun _ => True) users.toUniqueTable.rows := hnamed.mpr hyields
    have hstatements : statements now users.toUniqueTable.rows = _ :=
      statements_eq (keepersNamed_iff.mpr hkept)
    have hunique := (unique_archives_iff users.toUniqueTable).mpr hfree
    rw [← hstatements] at hunique
    obtain ⟨t, hpass⟩ := UniqueTable.exists_transaction hunique
    have heffect := (UniqueTable.transaction_eq_some_iff.mp hpass).2
    have hrows := heffect
    rw [hstatements, map_effectOf_archives (List.prefix_refl _)] at hrows
    refine ⟨t, hpass, by rw [heffect, List.length_map], fun u hu => existsUnique_again hkept hrows hu,
      fun w hw => ?_, normalizeUsers_of_kept ((kept_again_iff hkept hrows).mpr hstable)⟩
    rw [heffect] at hw
    obtain ⟨u, hu, rfl⟩ := List.mem_map.mp hw
    exact (@typed_iff users.toUniqueTable now users.typed).mpr hkept u hu

/-- One active user, whose name has an upper-case letter. -/
def bob : UserRow where
  id := 1
  username := "Bob@school.kr"
  passwordHash := ""
  createdAt := .integer 1700000000
  updatedAt := .integer 1700000000
  disabledAt := none
  lastLoginAt := none
  tokenVersion := 0

def bobAlone : CurrentUsers where
  rows := [bob]
  keys_nodup := by decide
  unique := by decide
  typed := by decide

/-- His name is put in lower case with a text as the time of the change. -/
theorem bob_gets_text : ¬ ∀ (users : CurrentUsers) (now now' : String), Normalises now now' users := by
  intro h
  obtain ⟨t, hpass, -, -, htyped, -⟩ := h bobAlone "2026-05-01T00:00:00.000Z" "2026-05-02T00:00:00.000Z"
  have hrows := (UniqueTable.transaction_eq_some_iff.mp hpass).2
  obtain ⟨v, hv, hname, -⟩ := (typed_iff (t := bobAlone.toUniqueTable) bobAlone.typed).mp
    (fun u hu => htyped _ (hrows ▸ List.mem_map_of_mem hu)) bob List.mem_cons_self
  rw [List.mem_singleton.mp hv] at hname
  exact absurd hname (by decide)

end SmartSchoolCdn.Usernames
