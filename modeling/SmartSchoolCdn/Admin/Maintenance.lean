import SmartSchoolCdn.Foundation.Calendar
import SmartSchoolCdn.Foundation.Table
import SmartSchoolCdn.Foundation.Trace
import Mathlib.Algebra.Order.Ring.Rat
import Mathlib.Data.Finset.Max
import Mathlib.Tactic.Linarith

/-!
# The daily backup

`SqliteMaintenanceJob`: every tick of a timer asks for the hour, and the first one in the hour of the
backup copies the database into a file named by its second and deletes the backups that are too old.

A tick is a task with one step for each file operation it awaits, with the code from there to the next
one; ticks may overlap, every operation may fail, the process may be restarted, and others may put files
of other names into the directory.  A whole backup is only ever deleted when another one is whole that is
younger by more than the retention (`backups_kept`).  When the timer is on time and no backup fails, every
day has one, so that the newest is never older than a day and an hour (`newest_backup_recent`).
-/

namespace SmartSchoolCdn.Maintenance

open Calendar Tables Traces

/-! ## Names -/

def dayMs : ℕ := 86400000

/-- The hour of a time in milliseconds, `getUTCHours`. -/
def hourOf (now : ℕ) : ℕ := now / 3600000 % 24

/-- The text of the day, `dayKey`. -/
def dayText (now : ℕ) : List Char :=
  let d := Date.ofDays (now / dayMs)
  Nat.toDigits 10 d.year ++ pad 2 (d.month + 1) ++ pad 2 d.day

def dayKey (now : ℕ) : String := String.ofList (dayText now)

/-- The text of the time of day in a stamp. -/
def timeText (now : ℕ) : List Char :=
  pad 2 (hourOf now) ++ pad 2 (now / 60000 % 60) ++ pad 2 (now / 1000 % 60)

/-- The name of the backup of a tick. -/
def nameText (now : ℕ) : List Char :=
  "admin-".toList ++ dayText now ++ '-' :: timeText now ++ ".db".toList

def backupName (now : ℕ) : String := String.ofList (nameText now)

/-- A text fits a pattern of one test for each character. -/
def fits : List (Char → Bool) → List Char → Bool
  | [], [] => true
  | p :: ps, c :: cs => p c && fits ps cs
  | _, _ => false

/-- A pattern that only a literal text fits. -/
def literal (text : List Char) : List (Char → Bool) := text.map fun c d => d == c

/-- `/^admin-\d{8}-\d{6}\.db$/`. -/
def namePattern : List (Char → Bool) :=
  literal "admin-".toList ++ List.replicate 8 Char.isDigit ++ (· == '-') :: List.replicate 6 Char.isDigit ++
    literal ".db".toList

def isBackupName (name : String) : Bool := fits namePattern name.toList

/-! ## The job -/

/-- What a file holds: a whole database, or any other bytes. -/
inductive Content (δ : Type)
  | database (data : δ)
  | bytes (text : String)
  deriving DecidableEq, Repr

/-- A file of the directory, with the time of its last change in nanoseconds. -/
structure File (δ : Type) where
  name : String
  mtimeNs : ℕ
  content : Content δ
  deriving DecidableEq, Repr

/-- The numbers that the environment and the options give, `none` where there is none. -/
structure Config where
  maintenanceHour : Option ℚ
  backupRetentionDays : Option ℚ
  retentionDaysOption : Option ℚ

/-- The hour of the backup. -/
def Config.backupHour (cfg : Config) : ℚ :=
  match cfg.maintenanceHour with
  | some h => if 0 ≤ h ∧ h ≤ 23 then h else 4
  | none => 4

/-- The retention in days. -/
def Config.retentionDays (cfg : Config) : ℚ :=
  cfg.retentionDaysOption.getD
    (match cfg.backupRetentionDays with
    | some r => if 0 < r then r else 7
    | none => 7)

/-- What a tick waits for, and what it has returned. -/
inductive Phase
  | makingDir
  | checking
  | listing
  | dating (name : String) (rest : List String) (removed : ℕ)
  | unlinking (name : String) (rest : List String) (removed : ℕ)
  | ended (backup : Option String) (pruned : ℕ)
  | killed
  deriving DecidableEq, Repr

/-- A tick that has begun at a time of the clock, in milliseconds. -/
structure Tick where
  now : ℕ
  phase : Phase
  deriving DecidableEq, Repr

/-- The name that a tick gives to its backup. -/
def Tick.name (t : Tick) : String := backupName t.now

/-- The database, the directory of backups, all ticks so far and the memory of the job. -/
structure State (δ : Type) where
  clockNs : ℕ
  db : δ
  dir : Table (File.name (δ := δ))
  ticks : List Tick
  lastBackupDay : Option String

variable {δ : Type}

/-- The server starts with a directory. -/
def State.start (clockNs : ℕ) (db : δ) (dir : Table (File.name (δ := δ))) : State δ :=
  ⟨clockNs, db, dir, [], none⟩

/-- `Date.now()`. -/
def State.now (s : State δ) : ℕ := s.clockNs / 1000000

/-- How an awaited operation ends.  `done` after `mkdir` is the success of `VACUUM INTO`, `broken` its
failure with a part of the file written. -/
inductive Reply
  | done
  | failed
  | broken (text : String)
  | names (names : List String)
  deriving DecidableEq, Repr

inductive Action (δ : Type)
  | wait (ns : ℕ)
  | write (data : δ)
  | put (file : File δ)
  | remove (name : String)
  | tick (checkpointOk : Bool)
  | resume (i : ℕ) (reply : Reply)
  | restart
  deriving DecidableEq, Repr

/-- A file is written anew. -/
def State.save (s : State δ) (name : String) (content : Content δ) : State δ :=
  { s with dir := (s.dir.eraseWhere (· == name)).insertNew ⟨name, s.clockNs, content⟩ }

/-- `VACUUM INTO` wants no file, or an empty one. -/
def State.isFree [DecidableEq δ] (s : State δ) (name : String) : Bool :=
  (s.dir.find name).all fun f => f.content == .bytes ""

/-- The loop over the names goes on to the next backup. -/
def Tick.goOn (t : Tick) : List String → ℕ → Phase
  | [], removed => .ended (some t.name) removed
  | name :: rest, removed => if isBackupName name then .dating name rest removed else t.goOn rest removed

/-- A file is older than the retention, seen from a tick. -/
def Config.isOld (cfg : Config) (now : ℕ) (f : File δ) : Bool :=
  decide ((f.mtimeNs : ℚ) < ((now : ℚ) - cfg.retentionDays * dayMs) * 1000000)

/-- A tick begins: the checkpoint, then the question whether it is time for the backup. -/
def State.begin_ (cfg : Config) (s : State δ) (checkpointOk : Bool) : Phase :=
  if checkpointOk && decide ((hourOf s.now : ℚ) = cfg.backupHour) &&
      s.lastBackupDay != some (dayKey s.now) then .makingDir
  else .ended none 0

/-- A tick goes on when what it has waited for ends. -/
def State.resume [DecidableEq δ] (cfg : Config) (s : State δ) (t : Tick) :
    Phase → Reply → Option (State δ × Phase)
  | .makingDir, .done => if s.isFree t.name then some (s.save t.name (.database s.db), .checking) else none
  | .makingDir, .broken text =>
    if s.isFree t.name then some (s.save t.name (.bytes text), .ended none 0) else none
  | .makingDir, .failed => some (s, .ended none 0)
  | .checking, .done => some ({ s with lastBackupDay := some (dayKey t.now) }, .listing)
  | .checking, .failed => some (s, .ended none 0)
  | .listing, .names names =>
    if names.Perm (s.dir.rows.map File.name) then some (s, t.goOn names 0) else none
  | .listing, .failed => some (s, t.goOn [] 0)
  | .dating name rest removed, .done =>
    (s.dir.find name).map fun f =>
      (s, if cfg.isOld t.now f then .unlinking name rest removed else t.goOn rest removed)
  | .dating _ rest removed, .failed => some (s, t.goOn rest removed)
  | .unlinking name rest removed, .done =>
    some ({ s with dir := s.dir.eraseWhere (· == name) }, t.goOn rest (removed + 1))
  | .unlinking _ rest removed, .failed => some (s, t.goOn rest (removed + 1))
  | _, _ => none

/-- A tick that a restart of the process interrupts. -/
def Tick.kill (t : Tick) : Tick :=
  match t.phase with
  | .ended _ _ => t
  | _ => { t with phase := .killed }

/-- What others do to the directory. -/
def others (dir : Table (File.name (δ := δ))) : Action δ → Table (File.name (δ := δ))
  | .put file => (dir.eraseWhere (· == file.name)).insertNew file
  | .remove name => dir.eraseWhere (· == name)
  | _ => dir

def step [DecidableEq δ] (cfg : Config) (s : State δ) : Action δ → Option (State δ)
  | .wait ns => some { s with clockNs := s.clockNs + ns }
  | .write data => some { s with db := data }
  | .put file => if isBackupName file.name then none else some { s with dir := others s.dir (.put file) }
  | .remove name => if isBackupName name then none else some { s with dir := others s.dir (.remove name) }
  | .tick checkpointOk => some { s with ticks := s.ticks ++ [⟨s.now, s.begin_ cfg checkpointOk⟩] }
  | .resume i reply =>
    (s.ticks[i]?).bind fun t => (s.resume cfg t t.phase reply).map fun r =>
      { r.1 with ticks := s.ticks.set i ⟨t.now, r.2⟩ }
  | .restart => some { s with ticks := s.ticks.map Tick.kill, lastBackupDay := none }

/-- The backup that a step makes whole. -/
def State.saves (s : State δ) : Action δ → List (File δ)
  | .resume i .done =>
    match s.ticks[i]? with
    | some ⟨now, .makingDir⟩ => [⟨backupName now, s.clockNs, .database s.db⟩]
    | _ => []
  | _ => []

/-- The backups that a run makes whole. -/
def backups [DecidableEq δ] (cfg : Config) : State δ → List (Action δ) → List (File δ)
  | _, [] => []
  | s, a :: as => s.saves a ++ (step cfg s a).elim [] fun s' => backups cfg s' as

/-- The name that a tick is about to delete. -/
def Phase.unlinks : Phase → Option String
  | .unlinking name _ _ => some name
  | _ => none

/-- No file, no tick and no deletion on its way has this name. -/
def State.Unused (s : State δ) (name : String) : Prop :=
  s.dir.find name = none ∧ ∀ t ∈ s.ticks, t.name ≠ name ∧ t.phase.unlinks ≠ some name

/-- The first millisecond of the year 10000. -/
def endOfTime : ℕ := yearStart 8030 * dayMs

/-- Every tick begins in a second of its own, in a year of four digits. -/
def OwnSecond (s : State δ) : Action δ → Prop
  | .tick _ => s.now < endOfTime ∧ s.Unused (backupName s.now)
  | _ => True

/-! ## Names of backups -/

variable {now : ℕ} {name : String} {p q : List (Char → Bool)} {cs ds : List Char}

lemma fits_append (h : fits p cs = true) (h' : fits q ds = true) : fits (p ++ q) (cs ++ ds) = true := by
  induction p generalizing cs with
  | nil =>
    cases cs with
    | nil => exact h'
    | cons c cs => cases h
  | cons x p ih =>
    cases cs with
    | nil => cases h
    | cons c cs =>
      obtain ⟨hx, hrest⟩ : x c = true ∧ fits p cs = true := by simpa [fits] using h
      simp [fits, hx, ih hrest]

lemma fits_literal (text : List Char) : fits (literal text) text = true := by
  induction text with
  | nil => rfl
  | cons c text ih =>
    simp only [literal, List.map_cons, fits, beq_self_eq_true, Bool.true_and]
    exact ih

lemma fits_replicate {x : Char → Bool} (h : ∀ c ∈ cs, x c = true) :
    fits (List.replicate cs.length x) cs = true := by
  induction cs with
  | nil => rfl
  | cons c cs ih =>
    simp only [List.length_cons, List.replicate_succ, fits, h c List.mem_cons_self, Bool.true_and]
    exact ih fun d hd => h d (List.mem_cons_of_mem _ hd)

lemma isDigit_dayText {c : Char} (h : c ∈ dayText now) : c.isDigit = true := by
  rw [dayText, List.mem_append, List.mem_append] at h
  rcases h with (hyear | hmonth) | hday
  · exact Nat.isDigit_of_mem_toDigits (by decide) (by decide) hyear
  · exact isDigit_of_mem_pad hmonth
  · exact isDigit_of_mem_pad hday

lemma length_dayText (h : now < endOfTime) : (dayText now).length = 8 := by
  have hday : now / dayMs < yearStart 8030 := Nat.div_lt_of_lt_mul (by rwa [Nat.mul_comm])
  obtain ⟨hfrom, htil⟩ := Date.year_ofDays hday
  have hle := (Nat.length_toDigits_le_iff (b := 10) (k := 4) (by decide) (by decide)).mpr htil
  have hgt := (Nat.length_toDigits_le_iff (b := 10) (k := 3) (by decide) (by decide)).not.mpr
    (by omega : ¬(Date.ofDays (now / dayMs)).year < 10 ^ 3)
  have hmonth := Date.month_ofDays (now / dayMs)
  have hdate := Date.day_ofDays (now / dayMs)
  simp only [dayText, List.length_append]
  rw [length_pad (by decide) (by omega), length_pad (by decide) (by omega)]
  omega

lemma isDigit_timeText {c : Char} (h : c ∈ timeText now) : c.isDigit = true := by
  rw [timeText, List.mem_append, List.mem_append] at h
  rcases h with (hhour | hminute) | hsecond
  · exact isDigit_of_mem_pad hhour
  · exact isDigit_of_mem_pad hminute
  · exact isDigit_of_mem_pad hsecond

lemma length_timeText (now : ℕ) : (timeText now).length = 6 := by
  simp only [timeText, hourOf, List.length_append]
  rw [length_pad (by decide) (by omega), length_pad (by decide) (by omega),
    length_pad (by decide) (by omega)]

lemma fits_nameText (h : now < endOfTime) : fits namePattern (nameText now) = true := by
  have hday : fits (List.replicate (dayText now).length Char.isDigit) (dayText now) = true :=
    fits_replicate fun c hc => isDigit_dayText hc
  have htime : fits (List.replicate (timeText now).length Char.isDigit) (timeText now) = true :=
    fits_replicate fun c hc => isDigit_timeText hc
  rw [length_dayText h] at hday
  rw [length_timeText] at htime
  have hmiddle : fits ((· == '-') :: List.replicate 6 Char.isDigit) ('-' :: timeText now) = true := by
    rw [fits, htime]
    rfl
  exact fits_append (fits_append (fits_append (fits_literal "admin-".toList) hday) hmiddle)
    (fits_literal ".db".toList)

/-- The job can delete what it has made. -/
lemma isBackupName_backupName (h : now < endOfTime) : isBackupName (backupName now) = true :=
  (congrArg (fits namePattern) String.toList_ofList).trans (fits_nameText h)

/-! ## Invariants -/

variable {cfg : Config} {s s' t : State δ} {a : Action δ} {as : List (Action δ)}
  {earlier made : List (File δ)} {k : Tick} {i : ℕ} {ticks : List Tick}

/-- A tick deletes backups, or is about to. -/
def Phase.prunes : Phase → Bool
  | .checking | .listing | .dating _ _ _ | .unlinking _ _ _ => true
  | _ => false

/-- The name that a tick looks at. -/
def Phase.target : Phase → Option String
  | .dating name _ _ | .unlinking name _ _ => some name
  | _ => none

/-- A newer backup is whole, younger by more than the retention. -/
def Outlived (cfg : Config) (made : List (File δ)) (b : File δ) : Prop :=
  ∃ b' ∈ made, (b.mtimeNs : ℚ) + cfg.retentionDays * dayMs * 1000000 < b'.mtimeNs

/-- What holds of the ticks and the backups that were there earlier or have been made. -/
structure Kept (cfg : Config) (earlier made : List (File δ)) (s : State δ) : Prop where
  /-- The name of a backup that is still to be made belongs to nothing. -/
  making : ∀ k ∈ s.ticks, k.phase = .makingDir → isBackupName k.name = true ∧
    s.dir.find k.name = none ∧ ∀ u ∈ s.ticks, u.phase.unlinks ≠ some k.name
  distinct : (s.ticks.map Tick.name).Nodup
  past : ∀ k ∈ s.ticks, k.now * 1000000 ≤ s.clockNs
  /-- A tick deletes only when it has made a backup. -/
  saved : ∀ k ∈ s.ticks, k.phase.prunes = true → ∃ b ∈ made, k.now * 1000000 ≤ b.mtimeNs
  target : ∀ k ∈ s.ticks, ∀ name, k.phase.target = some name → isBackupName name = true
  /-- What a tick is about to delete is too old. -/
  old : ∀ k ∈ s.ticks, ∀ name, k.phase.unlinks = some name →
    ∀ f, s.dir.find name = some f → cfg.isOld k.now f = true
  named : ∀ b ∈ earlier ++ made, isBackupName b.name = true
  kept : ∀ b ∈ earlier ++ made, s.dir.find b.name = some b ∨ Outlived cfg made b

lemma Phase.target_of_unlinks {p : Phase} (h : p.unlinks = some name) : p.target = some name := by
  cases p <;> simp_all [Phase.unlinks, Phase.target]

lemma Phase.unlinks_of_target {p : Phase} (h : p.target = none) : p.unlinks = none := by
  cases p <;> simp_all [Phase.unlinks, Phase.target]

lemma Outlived.append {b : File δ} {new : List (File δ)} (h : Outlived cfg made b) :
    Outlived cfg (made ++ new) b := by
  obtain ⟨b', hb', hless⟩ := h
  exact ⟨b', List.mem_append_left _ hb', hless⟩

/-- A file that is too old for a tick is outlived by what the tick has made. -/
lemma outlived_of_isOld {b b' : File δ} (h : cfg.isOld k.now b = true) (hb' : b' ∈ made)
    (hnow : k.now * 1000000 ≤ b'.mtimeNs) : Outlived cfg made b := by
  refine ⟨b', hb', ?_⟩
  have hold : (b.mtimeNs : ℚ) < ((k.now : ℚ) - cfg.retentionDays * dayMs) * 1000000 :=
    of_decide_eq_true h
  have hcast : (k.now : ℚ) * 1000000 ≤ b'.mtimeNs := by exact_mod_cast hnow
  linarith

/-- A changed list of ticks has the same names. -/
lemma names_set {p : Phase} (hk : ticks[i]? = some k) :
    (ticks.set i ⟨k.now, p⟩).map Tick.name = ticks.map Tick.name := by
  obtain ⟨hi, rfl⟩ := List.getElem?_eq_some_iff.mp hk
  rw [List.map_set]
  refine List.ext_getElem (by simp) fun j hj hj' => ?_
  rw [List.getElem_set]
  split
  · rename_i h
    subst h
    simp [Tick.name]
  · rfl

/-- The ticks besides one that has gone on. -/
lemma other_of_mem_set {u v : Tick} (hk : ticks[i]? = some k) (hnodup : (ticks.map Tick.name).Nodup)
    (hu : u ∈ ticks.set i v) : u = v ∨ u ∈ ticks ∧ u.name ≠ k.name := by
  obtain ⟨hi, rfl⟩ := List.getElem?_eq_some_iff.mp hk
  obtain ⟨j, hj, rfl⟩ := List.mem_iff_getElem.mp hu
  rw [List.getElem_set]
  split
  · exact .inl rfl
  · rename_i hij
    rw [List.length_set] at hj
    have hpairwise := List.pairwise_iff_getElem.mp (List.pairwise_map.mp hnodup)
    refine .inr ⟨List.getElem_mem _, fun hname => ?_⟩
    rcases Nat.lt_or_gt_of_ne hij with hlt | hgt
    · exact hpairwise i j hi hj hlt hname.symm
    · exact hpairwise j i hj hi hgt hname

lemma goOn_spec (k : Tick) (names : List String) (removed : ℕ) :
    k.goOn names removed ≠ .makingDir ∧ (k.goOn names removed).unlinks = none ∧
      ∀ name, (k.goOn names removed).target = some name → isBackupName name = true := by
  induction names with
  | nil => exact ⟨by simp [Tick.goOn], rfl, by simp [Tick.goOn, Phase.target]⟩
  | cons name rest ih =>
    rw [Tick.goOn]
    split
    · rename_i hname
      exact ⟨by simp, rfl, by simp [Phase.target, hname]⟩
    · exact ih

/-! ## Steps -/

/-- A tick goes on and leaves the directory alone.  What it is about to delete then, it has found to be
too old. -/
lemma Kept.goesOn (h : Kept cfg earlier made s) (hk : s.ticks[i]? = some k) {p : Phase} {day : Option String}
    (hmaking : p ≠ .makingDir) (hprunes : p.prunes = true → k.phase.prunes = true)
    (htarget : ∀ name, p.target = some name → isBackupName name = true)
    (hunlinks : ∀ name, p.unlinks = some name → ∃ f, s.dir.find name = some f ∧ cfg.isOld k.now f = true) :
    Kept cfg earlier made { s with ticks := s.ticks.set i ⟨k.now, p⟩, lastBackupDay := day } := by
  have hmem : k ∈ s.ticks := List.mem_of_getElem? hk
  have hset : ∀ u ∈ s.ticks.set i ⟨k.now, p⟩, u ∈ s.ticks ∨ u = ⟨k.now, p⟩ := fun u hu =>
    List.mem_or_eq_of_mem_set hu
  constructor
  case making =>
    intro u hu hphase
    obtain hu | rfl := hset u hu
    · obtain ⟨hname, hnone, hfree⟩ := h.making u hu hphase
      refine ⟨hname, hnone, fun v hv hv' => ?_⟩
      obtain hv | rfl := hset v hv
      · exact hfree v hv hv'
      · obtain ⟨f, hf, -⟩ := hunlinks _ hv'
        rw [hnone] at hf
        cases hf
    · exact absurd hphase hmaking
  case distinct =>
    rw [names_set hk]
    exact h.distinct
  case past =>
    intro u hu
    obtain hu | rfl := hset u hu
    · exact h.past u hu
    · exact h.past k hmem
  case saved =>
    intro u hu hphase
    obtain hu | rfl := hset u hu
    · exact h.saved u hu hphase
    · exact h.saved k hmem (hprunes hphase)
  case target =>
    intro u hu name hname
    obtain hu | rfl := hset u hu
    · exact h.target u hu name hname
    · exact htarget name hname
  case old =>
    intro u hu name hname f hf
    obtain hu | rfl := hset u hu
    · exact h.old u hu name hname f hf
    · obtain ⟨f', hf', hold⟩ := hunlinks name hname
      obtain rfl : f' = f := Option.some.inj (hf'.symm.trans hf)
      exact hold
  case named => exact h.named
  case kept => exact h.kept

/-- A file that is too old is deleted. -/
lemma Kept.unlink (h : Kept cfg earlier made s) (hmem : k ∈ s.ticks) (hk : k.phase.unlinks = some name)
    (hprunes : k.phase.prunes = true) :
    Kept cfg earlier made { s with dir := s.dir.eraseWhere (· == name) } := by
  have hfind : ∀ n f, (s.dir.eraseWhere (· == name)).find n = some f → s.dir.find n = some f := by
    intro n f hf
    rw [Table.find_eraseWhere] at hf
    split at hf
    · cases hf
    · exact hf
  constructor
  case making =>
    intro u hu hphase
    obtain ⟨hname, hnone, hfree⟩ := h.making u hu hphase
    refine ⟨hname, ?_, hfree⟩
    rw [Table.find_eraseWhere, hnone, ite_self]
  case distinct => exact h.distinct
  case past => exact h.past
  case saved => exact h.saved
  case target => exact h.target
  case old => exact fun u hu n hn f hf => h.old u hu n hn f (hfind n f hf)
  case named => exact h.named
  case kept =>
    intro b hb
    rcases h.kept b hb with hfound | hout
    · by_cases hname : b.name = name
      · obtain ⟨b', hb', hnow⟩ := h.saved k hmem hprunes
        exact .inr (outlived_of_isOld (h.old k hmem name hk b (hname ▸ hfound)) hb' hnow)
      · left
        rw [Table.find_eraseWhere, if_neg (by simpa using hname)]
        exact hfound
    · exact .inr hout

/-- A file that is written is found, and the others are found as before. -/
lemma find_rewrite {dir : Table (File.name (δ := δ))} (f : File δ) (n : String) :
    ((dir.eraseWhere (· == f.name)).insertNew f).find n = if n = f.name then some f else dir.find n := by
  split
  · rename_i hn
    have hnone : (dir.eraseWhere (· == f.name)).find f.name = none := by simp [Table.find_eraseWhere]
    rw [hn, Table.find_insertNew_self, hnone, Option.getD_none]
  · rename_i hn
    rw [Table.find_insertNew_ne (Ne.symm hn), Table.find_eraseWhere, if_neg (by simpa using hn)]

lemma find_save {content : Content δ} (n : String) : (s.save name content).dir.find n =
    if n = name then some ⟨name, s.clockNs, content⟩ else s.dir.find n := find_rewrite _ n

/-- A tick writes the file of its name, whole or not, and goes on. -/
lemma Kept.save (h : Kept cfg earlier made s) (hk : s.ticks[i]? = some k) (hphase : k.phase = .makingDir)
    {p : Phase} {content : Content δ} {new : List (File δ)} (hmaking : p ≠ .makingDir)
    (htarget : p.target = none) (hprunes : p.prunes = true → new ≠ [])
    (hnew : ∀ b ∈ new, b = ⟨k.name, s.clockNs, content⟩) :
    Kept cfg earlier (made ++ new)
      { s.save k.name content with ticks := s.ticks.set i ⟨k.now, p⟩ } := by
  have hmem : k ∈ s.ticks := List.mem_of_getElem? hk
  obtain ⟨hbackup, hnone, hfree⟩ := h.making k hmem hphase
  have hunlinks : p.unlinks = none := Phase.unlinks_of_target htarget
  constructor
  case making =>
    intro u hu hmaking'
    obtain rfl | ⟨hu, hne⟩ := other_of_mem_set hk h.distinct hu
    · exact absurd hmaking' hmaking
    · obtain ⟨hname, hfind, hfree'⟩ := h.making u hu hmaking'
      refine ⟨hname, ?_, fun v hv hv' => ?_⟩
      · rw [find_save, if_neg hne]
        exact hfind
      · obtain hv | rfl := List.mem_or_eq_of_mem_set hv
        · exact hfree' v hv hv'
        · rw [hunlinks] at hv'
          cases hv'
  case distinct =>
    rw [names_set hk]
    exact h.distinct
  case past =>
    intro u hu
    obtain hu | rfl := List.mem_or_eq_of_mem_set hu
    · exact h.past u hu
    · exact h.past k hmem
  case saved =>
    intro u hu hprunes'
    obtain hu | rfl := List.mem_or_eq_of_mem_set hu
    · obtain ⟨b, hb, hnow⟩ := h.saved u hu hprunes'
      exact ⟨b, List.mem_append_left _ hb, hnow⟩
    · obtain ⟨b, hb⟩ := List.exists_mem_of_ne_nil _ (hprunes hprunes')
      refine ⟨b, List.mem_append_right _ hb, ?_⟩
      rw [hnew b hb]
      exact h.past k hmem
  case target =>
    intro u hu name hname
    obtain hu | rfl := List.mem_or_eq_of_mem_set hu
    · exact h.target u hu name hname
    · rw [htarget] at hname
      cases hname
  case old =>
    intro u hu name hname f hf
    obtain hu | rfl := List.mem_or_eq_of_mem_set hu
    · have hne : name ≠ k.name := fun heq => hfree u hu (heq ▸ hname)
      rw [find_save, if_neg hne] at hf
      exact h.old u hu name hname f hf
    · rw [hunlinks] at hname
      cases hname
  case named =>
    intro b hb
    rw [← List.append_assoc] at hb
    rcases List.mem_append.mp hb with hb | hb
    · exact h.named b hb
    · rw [hnew b hb]
      exact hbackup
  case kept =>
    intro b hb
    rw [← List.append_assoc] at hb
    rcases List.mem_append.mp hb with hb | hb
    · rcases h.kept b hb with hfound | hout
      · left
        have hne : b.name ≠ k.name := by
          intro heq
          rw [heq, hnone] at hfound
          cases hfound
        rw [find_save, if_neg hne]
        exact hfound
      · exact .inr hout.append
    · left
      rw [hnew b hb, find_save, if_pos rfl]

/-- Others leave the files alone that are named like backups. -/
lemma find_others {dir : Table (File.name (δ := δ))} (hname : isBackupName name = true)
    (hput : ∀ file, a = .put file → isBackupName file.name = false)
    (hremove : ∀ n, a = .remove n → isBackupName n = false) : (others dir a).find name = dir.find name := by
  have hne : ∀ n, isBackupName n = false → name ≠ n := by
    rintro n hn rfl
    rw [hname] at hn
    cases hn
  cases a with
  | put file =>
    rw [others, find_rewrite, if_neg (hne _ (hput file rfl))]
  | remove n =>
    have hn := hne _ (hremove n rfl)
    rw [others, Table.find_eraseWhere, if_neg (by simpa using hn)]
  | _ => rfl

/-- What is named like a backup is found as before. -/
lemma Kept.congr_dir (h : Kept cfg earlier made s) {dir : Table (File.name (δ := δ))}
    (hdir : ∀ n, isBackupName n = true → dir.find n = s.dir.find n) :
    Kept cfg earlier made { s with dir := dir } where
  making u hu hphase := by
    obtain ⟨hname, hnone, hfree⟩ := h.making u hu hphase
    exact ⟨hname, (hdir _ hname).trans hnone, hfree⟩
  distinct := h.distinct
  past := h.past
  saved := h.saved
  target := h.target
  old u hu n hn f hf :=
    h.old u hu n hn f ((hdir n (h.target u hu n (Phase.target_of_unlinks hn))).symm.trans hf)
  named := h.named
  kept b hb := by
    rw [hdir _ (h.named b hb)]
    exact h.kept b hb

/-- A tick begins under a name that is not in use. -/
lemma Kept.begins (h : Kept cfg earlier made s) (ok : Bool) (hnow : s.now < endOfTime)
    (hunused : s.Unused (backupName s.now)) :
    Kept cfg earlier made { s with ticks := s.ticks ++ [⟨s.now, s.begin_ cfg ok⟩] } := by
  have hphase : (s.begin_ cfg ok).unlinks = none ∧ (s.begin_ cfg ok).prunes = false ∧
      (s.begin_ cfg ok).target = none := by
    unfold State.begin_
    split <;> exact ⟨rfl, rfl, rfl⟩
  have hmem : ∀ u ∈ s.ticks ++ [⟨s.now, s.begin_ cfg ok⟩], u ∈ s.ticks ∨ u = ⟨s.now, s.begin_ cfg ok⟩ := by
    intro u hu
    simpa using hu
  have hclock : s.now * 1000000 ≤ s.clockNs := Nat.div_mul_le_self _ _
  constructor
  case making =>
    intro u hu hmaking
    have hlast : ∀ n, (⟨s.now, s.begin_ cfg ok⟩ : Tick).phase.unlinks ≠ some n := by
      intro n hn
      rw [hphase.1] at hn
      cases hn
    obtain hu | rfl := hmem u hu
    · obtain ⟨hname, hnone, hfree⟩ := h.making u hu hmaking
      refine ⟨hname, hnone, fun v hv => ?_⟩
      obtain hv | rfl := hmem v hv
      · exact hfree v hv
      · exact hlast _
    · refine ⟨isBackupName_backupName hnow, hunused.1, fun v hv => ?_⟩
      obtain hv | rfl := hmem v hv
      · exact (hunused.2 v hv).2
      · exact hlast _
  case distinct =>
    rw [List.map_append, List.nodup_append]
    refine ⟨h.distinct, by simp, ?_⟩
    rintro n hn n' hn' rfl
    obtain ⟨u, hu, rfl⟩ := List.mem_map.mp hn
    exact (hunused.2 u hu).1 (by simpa [Tick.name] using hn')
  case past =>
    intro u hu
    obtain hu | rfl := hmem u hu
    · exact h.past u hu
    · exact hclock
  case saved =>
    intro u hu hprunes
    obtain hu | rfl := hmem u hu
    · exact h.saved u hu hprunes
    · rw [hphase.2.1] at hprunes
      cases hprunes
  case target =>
    intro u hu n hn
    obtain hu | rfl := hmem u hu
    · exact h.target u hu n hn
    · rw [hphase.2.2] at hn
      cases hn
  case old =>
    intro u hu n hn
    obtain hu | rfl := hmem u hu
    · exact h.old u hu n hn
    · rw [hphase.1] at hn
      cases hn
  case named => exact h.named
  case kept => exact h.kept

/-- A restart ends every tick. -/
lemma kill_spec (k : Tick) : k.kill.now = k.now ∧ k.kill.phase ≠ .makingDir ∧ k.kill.phase.prunes = false ∧
    k.kill.phase.target = none ∧ k.kill.phase.unlinks = none := by
  obtain ⟨now, p⟩ := k
  cases p <;> exact ⟨rfl, by simp [Tick.kill], rfl, rfl, rfl⟩

lemma Kept.restart (h : Kept cfg earlier made s) :
    Kept cfg earlier made { s with ticks := s.ticks.map Tick.kill, lastBackupDay := none } := by
  have hname : ∀ u : Tick, u.kill.name = u.name := fun u => by rw [Tick.name, (kill_spec u).1, Tick.name]
  constructor
  case making =>
    intro u hu hmaking
    obtain ⟨v, -, rfl⟩ := List.mem_map.mp hu
    exact absurd hmaking (kill_spec v).2.1
  case distinct =>
    have hnames : (s.ticks.map Tick.kill).map Tick.name = s.ticks.map Tick.name := by
      rw [List.map_map]
      exact List.map_congr_left fun u _ => hname u
    rw [hnames]
    exact h.distinct
  case past =>
    intro u hu
    obtain ⟨v, hv, rfl⟩ := List.mem_map.mp hu
    rw [(kill_spec v).1]
    exact h.past v hv
  case saved =>
    intro u hu hprunes
    obtain ⟨v, -, rfl⟩ := List.mem_map.mp hu
    rw [(kill_spec v).2.2.1] at hprunes
    cases hprunes
  case target =>
    intro u hu n hn
    obtain ⟨v, -, rfl⟩ := List.mem_map.mp hu
    rw [(kill_spec v).2.2.2.1] at hn
    cases hn
  case old =>
    intro u hu n hn
    obtain ⟨v, -, rfl⟩ := List.mem_map.mp hu
    rw [(kill_spec v).2.2.2.2] at hn
    cases hn
  case named => exact h.named
  case kept => exact h.kept

variable [DecidableEq δ]

omit [DecidableEq δ] in
/-- Only a tick that waits for its directory makes a backup. -/
lemma saves_eq_nil {reply : Reply} (hk : s.ticks[i]? = some k) (hphase : k.phase ≠ .makingDir) :
    s.saves (.resume i reply) = [] := by
  obtain ⟨now, p⟩ := k
  cases reply with
  | done =>
    simp only [State.saves, hk]
    cases p with
    | makingDir => exact absurd rfl hphase
    | _ => rfl
  | _ => rfl

/-- A tick that goes on keeps the invariant, with what it has made whole. -/
lemma Kept.resume (h : Kept cfg earlier made s) (hk : s.ticks[i]? = some k) {reply : Reply}
    {r : State δ × Phase} (hr : s.resume cfg k k.phase reply = some r) :
    Kept cfg earlier (made ++ s.saves (.resume i reply))
      { r.1 with ticks := s.ticks.set i ⟨k.now, r.2⟩ } := by
  have hmem : k ∈ s.ticks := List.mem_of_getElem? hk
  -- a step that leaves the directory alone
  have hgoes : ∀ {p : Phase} {day : Option String}, s.saves (.resume i reply) = [] → p ≠ .makingDir →
      (p.prunes = true → k.phase.prunes = true) →
      (∀ name, p.target = some name → isBackupName name = true) →
      (∀ name, p.unlinks = some name → ∃ f, s.dir.find name = some f ∧ cfg.isOld k.now f = true) →
      Kept cfg earlier (made ++ s.saves (.resume i reply))
        { s with ticks := s.ticks.set i ⟨k.now, p⟩, lastBackupDay := day } := by
    intro p day hsaves hmaking hprunes htarget hunlinks
    rw [hsaves, List.append_nil]
    exact h.goesOn hk hmaking hprunes htarget hunlinks
  have hplain : ∀ {p : Phase} {day : Option String}, s.saves (.resume i reply) = [] → p ≠ .makingDir →
      (p.prunes = true → k.phase.prunes = true) → p.target = none →
      Kept cfg earlier (made ++ s.saves (.resume i reply))
        { s with ticks := s.ticks.set i ⟨k.now, p⟩, lastBackupDay := day } := by
    intro p day hsaves hmaking hprunes htarget
    refine hgoes hsaves hmaking hprunes (fun name hname => ?_) fun name hname => ?_
    · rw [htarget] at hname
      cases hname
    · rw [Phase.unlinks_of_target htarget] at hname
      cases hname
  have hnext : ∀ (names : List String) (removed : ℕ), s.saves (.resume i reply) = [] →
      k.phase.prunes = true →
      Kept cfg earlier (made ++ s.saves (.resume i reply))
        { s with ticks := s.ticks.set i ⟨k.now, k.goOn names removed⟩ } := by
    intro names removed hsaves hprunes
    obtain ⟨hmaking, hunlinks, htarget⟩ := goOn_spec k names removed
    exact hgoes hsaves hmaking (fun _ => hprunes) htarget fun name hname => by
      rw [hunlinks] at hname
      cases hname
  cases hphase : k.phase with
  | makingDir =>
    rw [hphase] at hr
    cases reply with
    | done =>
      obtain ⟨-, rfl⟩ : s.isFree k.name = true ∧ (s.save k.name (.database s.db), Phase.checking) = r := by
        simpa [State.resume] using hr
      obtain ⟨now, p⟩ := k
      obtain rfl : p = .makingDir := hphase
      have hsaves : s.saves (.resume i .done) = [⟨backupName now, s.clockNs, .database s.db⟩] := by
        simp only [State.saves, hk]
      rw [hsaves]
      exact h.save hk rfl (by simp) rfl (fun _ => by simp) fun b hb => List.mem_singleton.mp hb
    | broken text =>
      obtain ⟨-, rfl⟩ : s.isFree k.name = true ∧ (s.save k.name (.bytes text), Phase.ended none 0) = r := by
        simpa [State.resume] using hr
      exact h.save hk hphase (by simp) rfl (fun hp => by cases hp) fun b hb => by cases hb
    | failed =>
      obtain rfl : (s, Phase.ended none 0) = r := by simpa [State.resume] using hr
      exact hplain rfl (by simp) (fun hp => by cases hp) rfl
    | names names => simp [State.resume] at hr
  | checking =>
    have hsaves : s.saves (.resume i reply) = [] := saves_eq_nil hk (by simp [hphase])
    rw [hphase] at hr
    cases reply with
    | done =>
      obtain rfl : ({ s with lastBackupDay := some (dayKey k.now) }, Phase.listing) = r := by
        simpa [State.resume] using hr
      exact hplain hsaves (by simp) (fun _ => by rw [hphase]; rfl) rfl
    | failed =>
      obtain rfl : (s, Phase.ended none 0) = r := by simpa [State.resume] using hr
      exact hplain hsaves (by simp) (fun hp => by cases hp) rfl
    | _ => simp [State.resume] at hr
  | listing =>
    have hsaves : s.saves (.resume i reply) = [] := saves_eq_nil hk (by simp [hphase])
    have hprunes : k.phase.prunes = true := by rw [hphase]; rfl
    rw [hphase] at hr
    cases reply with
    | names names =>
      obtain ⟨-, rfl⟩ : names.Perm (s.dir.rows.map File.name) ∧ (s, k.goOn names 0) = r := by
        simpa [State.resume] using hr
      exact hnext _ _ hsaves hprunes
    | failed =>
      obtain rfl : (s, k.goOn [] 0) = r := by simpa [State.resume] using hr
      exact hnext _ _ hsaves hprunes
    | _ => simp [State.resume] at hr
  | dating name rest removed =>
    have hsaves : s.saves (.resume i reply) = [] := saves_eq_nil hk (by simp [hphase])
    have hprunes : k.phase.prunes = true := by rw [hphase]; rfl
    rw [hphase] at hr
    cases reply with
    | done =>
      rw [State.resume, Option.map_eq_some_iff] at hr
      obtain ⟨f, hf, rfl⟩ := hr
      dsimp only
      split
      · rename_i hold
        refine hgoes hsaves (by simp) (fun _ => hprunes) (fun n hn => ?_) fun n hn => ?_
        · obtain rfl : name = n := Option.some.inj hn
          exact h.target k hmem name (by rw [hphase]; rfl)
        · obtain rfl : name = n := Option.some.inj hn
          exact ⟨f, hf, hold⟩
      · exact hnext _ _ hsaves hprunes
    | failed =>
      obtain rfl : (s, k.goOn rest removed) = r := by simpa [State.resume] using hr
      exact hnext _ _ hsaves hprunes
    | _ => simp [State.resume] at hr
  | unlinking name rest removed =>
    have hsaves : s.saves (.resume i reply) = [] := saves_eq_nil hk (by simp [hphase])
    have hprunes : k.phase.prunes = true := by rw [hphase]; rfl
    rw [hphase] at hr
    cases reply with
    | done =>
      obtain rfl : ({ s with dir := s.dir.eraseWhere (· == name) }, k.goOn rest (removed + 1)) = r := by
        simpa [State.resume] using hr
      obtain ⟨hmaking, hunlinks, htarget⟩ := goOn_spec k rest (removed + 1)
      have hgone := h.unlink hmem (by rw [hphase]; rfl) hprunes
      rw [hsaves, List.append_nil]
      exact hgone.goesOn hk hmaking (fun _ => hprunes) htarget fun n hn => by
        rw [hunlinks] at hn
        cases hn
    | failed =>
      obtain rfl : (s, k.goOn rest (removed + 1)) = r := by simpa [State.resume] using hr
      exact hnext _ _ hsaves hprunes
    | _ => simp [State.resume] at hr
  | ended backup pruned => rw [hphase] at hr; simp [State.resume] at hr
  | killed => rw [hphase] at hr; simp [State.resume] at hr

/-- A step keeps the invariant, with what it has made whole. -/
lemma Kept.next (h : Kept cfg earlier made s) (hC : OwnSecond s a) (hst : step cfg s a = some s') :
    Kept cfg earlier (made ++ s.saves a) s' := by
  cases a with
  | resume i reply =>
    rw [step, Option.bind_eq_some_iff] at hst
    obtain ⟨k, hk, hr⟩ := hst
    rw [Option.map_eq_some_iff] at hr
    obtain ⟨r, hr, rfl⟩ := hr
    exact h.resume hk hr
  | wait ns =>
    obtain rfl : { s with clockNs := s.clockNs + ns } = s' := by simpa [step] using hst
    change Kept cfg earlier (made ++ []) _
    rw [List.append_nil]
    exact { h with past := fun u hu => (h.past u hu).trans (Nat.le_add_right _ _) }
  | write data =>
    obtain rfl : { s with db := data } = s' := by simpa [step] using hst
    change Kept cfg earlier (made ++ []) _
    rw [List.append_nil]
    exact { h with }
  | put file =>
    obtain ⟨hfile, rfl⟩ : isBackupName file.name = false ∧
        { s with dir := others s.dir (.put file) } = s' := by simpa [step] using hst
    change Kept cfg earlier (made ++ []) _
    rw [List.append_nil]
    refine h.congr_dir fun n hn => find_others hn (fun file' heq => ?_) fun n' heq => by cases heq
    obtain rfl : file = file' := by simpa using heq
    exact hfile
  | remove name =>
    obtain ⟨hname, rfl⟩ : isBackupName name = false ∧
        { s with dir := others s.dir (.remove name) } = s' := by simpa [step] using hst
    change Kept cfg earlier (made ++ []) _
    rw [List.append_nil]
    refine h.congr_dir fun n hn => find_others hn (fun file' heq => by cases heq) fun n' heq => ?_
    obtain rfl : name = n' := by simpa using heq
    exact hname
  | tick ok =>
    obtain rfl : { s with ticks := s.ticks ++ [⟨s.now, s.begin_ cfg ok⟩] } = s' := by
      simpa [step] using hst
    change Kept cfg earlier (made ++ []) _
    rw [List.append_nil]
    exact h.begins ok hC.1 hC.2
  | restart =>
    obtain rfl : { s with ticks := s.ticks.map Tick.kill, lastBackupDay := none } = s' := by
      simpa [step] using hst
    change Kept cfg earlier (made ++ []) _
    rw [List.append_nil]
    exact h.restart

/-- A run keeps the invariant, with what it has made whole. -/
lemma Kept.trace (h : Kept cfg earlier made s) (hrun : Trace (step cfg) OwnSecond s as t) :
    Kept cfg earlier (made ++ backups cfg s as) t := by
  induction hrun generalizing made with
  | nil s =>
    rw [backups, List.append_nil]
    exact h
  | cons hC hst _ ih =>
    have hrest := ih (h.next hC hst)
    rw [backups, hst, Option.elim_some, ← List.append_assoc]
    exact hrest

/-- A step leaves a file alone that is not named like a backup, unless it is one of the others. -/
lemma find_foreign_step (h : Kept cfg earlier made s) (hst : step cfg s a = some s')
    (hname : isBackupName name = false) {dir : Table (File.name (δ := δ))}
    (hdir : dir.find name = s.dir.find name) : (others dir a).find name = s'.dir.find name := by
  have hne : ∀ n, isBackupName n = true → name ≠ n := by
    rintro n hn rfl
    rw [hname] at hn
    cases hn
  cases a with
  | put file =>
    obtain ⟨-, rfl⟩ : isBackupName file.name = false ∧
        { s with dir := others s.dir (.put file) } = s' := by simpa [step] using hst
    simp only [others, find_rewrite, hdir]
  | remove n =>
    obtain ⟨-, rfl⟩ : isBackupName n = false ∧
        { s with dir := others s.dir (.remove n) } = s' := by simpa [step] using hst
    simp only [others, Table.find_eraseWhere, hdir]
  | resume i reply =>
    rw [step, Option.bind_eq_some_iff] at hst
    obtain ⟨k, hk, hr⟩ := hst
    rw [Option.map_eq_some_iff] at hr
    obtain ⟨r, hr, rfl⟩ := hr
    have hmem : k ∈ s.ticks := List.mem_of_getElem? hk
    refine hdir.trans ?_
    change s.dir.find name = r.1.dir.find name
    cases hphase : k.phase with
    | makingDir =>
      have hbackup := hne _ (h.making k hmem hphase).1
      rw [hphase] at hr
      cases reply <;> simp [State.resume] at hr
      · obtain ⟨-, rfl⟩ := hr
        rw [find_save, if_neg hbackup]
      · subst hr
        rfl
      · obtain ⟨-, rfl⟩ := hr
        rw [find_save, if_neg hbackup]
    | unlinking n rest removed =>
      have hbackup := hne _ (h.target k hmem n (by rw [hphase]; rfl))
      rw [hphase] at hr
      cases reply <;> simp [State.resume] at hr
      · subst hr
        rw [Table.find_eraseWhere, if_neg (by simpa using hbackup)]
      · subst hr
        rfl
    | dating n rest removed =>
      rw [hphase] at hr
      cases reply <;> simp [State.resume] at hr
      · obtain ⟨f, -, rfl⟩ := hr
        rfl
      · subst hr
        rfl
    | listing =>
      rw [hphase] at hr
      cases reply <;> simp [State.resume] at hr
      · subst hr
        rfl
      · obtain ⟨-, rfl⟩ := hr
        rfl
    | checking =>
      rw [hphase] at hr
      cases reply <;> simp [State.resume] at hr <;> subst hr <;> rfl
    | ended backup pruned => rw [hphase] at hr; simp [State.resume] at hr
    | killed => rw [hphase] at hr; simp [State.resume] at hr
  | wait ns =>
    obtain rfl : { s with clockNs := s.clockNs + ns } = s' := by simpa [step] using hst
    exact hdir
  | write data =>
    obtain rfl : { s with db := data } = s' := by simpa [step] using hst
    exact hdir
  | tick ok =>
    obtain rfl : { s with ticks := s.ticks ++ [⟨s.now, s.begin_ cfg ok⟩] } = s' := by
      simpa [step] using hst
    exact hdir
  | restart =>
    obtain rfl : { s with ticks := s.ticks.map Tick.kill, lastBackupDay := none } = s' := by
      simpa [step] using hst
    exact hdir

/-- The files that are not named like backups are those that the others leave. -/
lemma find_foreign (h : Kept cfg earlier made s) (hrun : Trace (step cfg) OwnSecond s as t)
    (hname : isBackupName name = false) {dir : Table (File.name (δ := δ))}
    (hdir : dir.find name = s.dir.find name) : (as.foldl others dir).find name = t.dir.find name := by
  induction hrun generalizing made dir with
  | nil s => exact hdir
  | cons hC hst _ ih => exact ih (h.next hC hst) (find_foreign_step h hst hname hdir)

/-- The retention that the environment gives is positive. -/
lemma retentionDays_pos (h : cfg.retentionDaysOption = none) : 0 < cfg.retentionDays := by
  rw [Config.retentionDays, h, Option.getD_none]
  split
  · split
    · assumption
    · norm_num
  · norm_num

/-- The hour of the backup is one of the day. -/
lemma backupHour_lt (cfg : Config) : cfg.backupHour < 24 := by
  rw [Config.backupHour]
  split
  · split
    · rename_i h
      exact h.2.trans_lt (by norm_num)
    · norm_num
  · norm_num

omit [DecidableEq δ] in
/-- The newest backup is kept when the retention is that of the environment. -/
lemma Kept.find_newest (h : Kept cfg earlier made s) (henv : cfg.retentionDaysOption = none) {b : File δ}
    (hb : b ∈ made) (hnewest : ∀ b' ∈ made, b'.mtimeNs ≤ b.mtimeNs) : s.dir.find b.name = some b := by
  refine (h.kept b (List.mem_append_right _ hb)).resolve_right ?_
  rintro ⟨b', hb', hless⟩
  have hle : (b'.mtimeNs : ℚ) ≤ b.mtimeNs := by exact_mod_cast hnewest b' hb'
  have hday : (0 : ℚ) ≤ cfg.retentionDays * dayMs * 1000000 := by
    have hpos := retentionDays_pos henv
    positivity
  linarith

omit [DecidableEq δ] in
/-- The invariant holds before the first tick. -/
lemma Kept.start (cfg : Config) (hidle : s.ticks = []) :
    Kept cfg (s.dir.rows.filter fun f => isBackupName f.name) [] s := by
  constructor
  case named =>
    intro b hb
    rw [List.append_nil] at hb
    exact (List.mem_filter.mp hb).2
  case kept =>
    intro b hb
    rw [List.append_nil] at hb
    exact .inl (Table.find_eq_some_iff.mpr ⟨(List.mem_filter.mp hb).1, rfl⟩)
  all_goals simp [hidle]

/-- In every run in which each tick begins in a second of its own, however the ticks overlap, whatever
fails and whenever the process is restarted: a backup that was in the directory or has been made whole is
found there unchanged, unless one has been made whole that is younger by more than the retention.  With
the retention of the environment the newest backup is never lost.  Files of other names are those that the
others leave. -/
theorem backups_kept (cfg : Config) {s t : State δ} {as : List (Action δ)} (hidle : s.ticks = [])
    (h : Trace (step cfg) OwnSecond s as t) :
    let earlier := s.dir.rows.filter fun f => isBackupName f.name
    let made := backups cfg s as
    (∀ b ∈ earlier ++ made, t.dir.find b.name = some b ∨
      ∃ b' ∈ made, (b.mtimeNs : ℚ) + cfg.retentionDays * dayMs * 1000000 < b'.mtimeNs) ∧
    (cfg.retentionDaysOption = none → ∀ b ∈ made, (∀ b' ∈ made, b'.mtimeNs ≤ b.mtimeNs) →
      t.dir.find b.name = some b) ∧
    ∀ name, isBackupName name = false → t.dir.find name = (as.foldl others s.dir).find name := by
  intro earlier made
  have hstart := Kept.start cfg hidle
  have hend : Kept cfg earlier made t := hstart.trace h
  exact ⟨hend.kept, fun henv b hb hnewest => hend.find_newest henv hb hnewest,
    fun name hname => (find_foreign hstart h hname rfl).symm⟩

/-- The retention is half a day. -/
def sampleConfig : Config := ⟨none, some (1 / 2), none⟩

/-- The server starts on the first day at half past four, beside a note. -/
def sampleStart : State ℕ :=
  State.start 16200000000000 0 (Table.empty.insertNew ⟨"notes.txt", 0, .bytes "n"⟩)

/-- A backup on the first day, and two on the second, whose ticks overlap and both delete the first. -/
def sampleActions : List (Action ℕ) :=
  let first := "admin-19700101-043000.db"
  let second := "admin-19700102-043000.db"
  let third := "admin-19700102-043001.db"
  [.tick true, .write 1, .resume 0 .done, .resume 0 .done, .resume 0 (.names ["notes.txt", first]),
    .resume 0 .done, .wait 86400000000000, .tick true, .wait 1000000000, .tick true, .resume 1 .done,
    .write 2, .resume 2 .done, .resume 1 .done, .resume 2 .done,
    .resume 1 (.names ["notes.txt", first, second, third]),
    .resume 2 (.names [first, second, third, "notes.txt"]), .resume 1 .done, .resume 2 .done, .resume 1 .done,
    .resume 2 .failed, .resume 1 .failed, .remove "notes.txt"]

instance (s : State δ) (name : String) : Decidable (s.Unused name) := inferInstanceAs (Decidable (_ ∧ _))

instance (s : State δ) : (a : Action δ) → Decidable (OwnSecond s a)
  | .tick _ => inferInstanceAs (Decidable (_ ∧ _))
  | .wait _ | .write _ | .put _ | .remove _ | .resume _ _ | .restart => isTrue trivial

/-- The first backup is deleted, and the newest one stays. -/
theorem backups_kept_overlapping : ∃ t, Trace (step sampleConfig) OwnSecond sampleStart sampleActions t ∧
    t.dir.find "admin-19700101-043000.db" = none ∧
    ∀ b ∈ backups sampleConfig sampleStart sampleActions,
      (∀ b' ∈ backups sampleConfig sampleStart sampleActions, b'.mtimeNs ≤ b.mtimeNs) →
      t.dir.find b.name = some b := by
  have hrun : (checkedRun (step sampleConfig) (fun s a => decide (OwnSecond s a)) sampleStart
      sampleActions).any (fun t => decide (t.dir.find "admin-19700101-043000.db" = none)) = true := by
    decide +kernel
  obtain ⟨t, ht, hgone⟩ := exists_trace_of_checkedRun (I := fun _ => True) (C := OwnSecond)
    (fun _ _ _ _ _ => trivial) (fun _ _ _ hc => of_decide_eq_true hc) trivial hrun
  exact ⟨t, ht, of_decide_eq_true hgone, (backups_kept sampleConfig rfl ht).2.1 rfl⟩

/-! ## Every day -/

omit [DecidableEq δ] in
/-- Times with one key are of one day. -/
lemma day_of_dayKey {n m : ℕ} (h : dayKey n = dayKey m) : n / dayMs = m / dayMs := by
  have htext : dayText n = dayText m := by
    have hlist := congrArg String.toList h
    rwa [dayKey, dayKey, String.toList_ofList, String.toList_ofList] at hlist
  have hday := Date.day_ofDays (n / dayMs)
  have hday' := Date.day_ofDays (m / dayMs)
  have hmonth := Date.month_ofDays (n / dayMs)
  have hmonth' := Date.month_ofDays (m / dayMs)
  unfold dayText at htext
  obtain ⟨hrest, hdays⟩ := List.append_inj' htext (by
    rw [length_pad (by decide) (by omega), length_pad (by decide) (by omega)])
  obtain ⟨hyears, hmonths⟩ := List.append_inj' hrest (by
    rw [length_pad (by decide) (by omega), length_pad (by decide) (by omega)])
  have hyear := congrArg (fun cs => Nat.ofDigitChars 10 cs 0) hyears
  simp only [Nat.ofDigitChars_ten_toDigits] at hyear
  refine Date.ofDays_injective ?_
  have hmonth := pad_injective 2 hmonths
  have hday := pad_injective 2 hdays
  generalize Date.ofDays (n / dayMs) = d at *
  generalize Date.ofDays (m / dayMs) = d' at *
  obtain ⟨y, mo, da⟩ := d
  obtain ⟨y', mo', da'⟩ := d'
  simp only [Date.mk.injEq]
  exact ⟨hyear, by simpa using hmonth, hday⟩

/-- A tick has not ended. -/
def Phase.isUnderway (p : Phase) : Bool := p == .makingDir || p.prunes

/-- The beginning of the hour of the backup, in milliseconds. -/
def hourStart (hour d : ℕ) : ℕ := d * dayMs + hour * 3600000

/-- The timer is never late by more than its hour, the process goes on, and no backup fails. -/
def OnTime (s : State δ) : Action δ → Prop
  | .tick checkpointOk => OwnSecond s (.tick checkpointOk) ∧ checkpointOk = true
  | .wait ns => ∃ k ∈ s.ticks, (s.clockNs + ns) / 1000000 ≤ k.now + 3600000
  | .resume i reply => ∀ k ∈ s.ticks[i]?, k.phase = .makingDir ∨ k.phase = .checking → reply = .done
  | .restart => False
  | _ => True

omit [DecidableEq δ] in
lemma OnTime.ownSecond (h : OnTime s a) : OwnSecond s a := by
  cases a with
  | tick ok => exact h.1
  | _ => trivial

/-- What holds of the ticks of a timer that is on time and of the backups made so far. -/
structure Daily (hour start : ℕ) (made : List (File δ)) (s : State δ) : Prop where
  near : (s.ticks = [] ∧ s.now = start) ∨ ∃ k ∈ s.ticks, s.now ≤ k.now + 3600000
  /-- No hour passes without a tick. -/
  gap : ∀ n, start ≤ n → (∃ k ∈ s.ticks, n ≤ k.now) → ∃ k ∈ s.ticks, n ≤ k.now ∧ k.now < n + 3600000
  /-- A tick in the hour of the backup is under way, or there is a backup of its day. -/
  backed : ∀ k ∈ s.ticks, hourOf k.now = hour → k.phase.isUnderway = true ∨
    ∃ b ∈ made, hourStart hour (k.now / dayMs) * 1000000 ≤ b.mtimeNs
  /-- A backup is of the hour. -/
  making : ∀ k ∈ s.ticks, k.phase.isUnderway = true → hourOf k.now = hour
  /-- The day in memory has a backup. -/
  remembered : ∀ key, s.lastBackupDay = some key → ∃ n, key = dayKey n ∧
    ∃ b ∈ made, hourStart hour (n / dayMs) * 1000000 ≤ b.mtimeNs

/-- A time in the hour is not before its beginning. -/
lemma hourStart_le {hour n : ℕ} (h : hourOf n = hour) : hourStart hour (n / dayMs) ≤ n := by
  unfold hourOf at h
  unfold hourStart dayMs
  omega

/-- The times of the hour after its beginning are in it. -/
lemma hourOf_of_hourStart {hour d n : ℕ} (hhour : hour < 24) (hfrom : hourStart hour d ≤ n)
    (htil : n < hourStart hour d + 3600000) : hourOf n = hour ∧ n / dayMs = d := by
  unfold hourStart dayMs at *
  unfold hourOf
  omega

/-- A changed list of ticks has the same times. -/
lemma exists_now_set {p : Phase} (hk : ticks[i]? = some k) {u : Tick} (hu : u ∈ ticks) :
    ∃ v ∈ ticks.set i ⟨k.now, p⟩, v.now = u.now := by
  obtain ⟨hi, rfl⟩ := List.getElem?_eq_some_iff.mp hk
  obtain ⟨j, hj, rfl⟩ := List.mem_iff_getElem.mp hu
  have hj' : j < (ticks.set i ⟨ticks[i].now, p⟩).length := by simpa using hj
  refine ⟨(ticks.set i ⟨ticks[i].now, p⟩)[j], List.getElem_mem hj', ?_⟩
  rw [List.getElem_set]
  split
  · rename_i h
    subst h
    rfl
  · rfl

/-- Only a tick under way goes on; the clock and, but for a backup that has been checked, the memory of
the job stay. -/
lemma resume_effect {reply : Reply} {r : State δ × Phase} (hr : s.resume cfg k k.phase reply = some r) :
    k.phase.isUnderway = true ∧ r.1.clockNs = s.clockNs ∧
      (r.1.lastBackupDay = s.lastBackupDay ∨
        k.phase = .checking ∧ r.1.lastBackupDay = some (dayKey k.now)) ∧
      (k.phase = .makingDir → reply = .done → r.2 = .checking) := by
  obtain ⟨now, p⟩ := k
  cases p with
  | makingDir =>
    cases reply <;> simp only [State.resume, Option.ite_none_right_eq_some, Option.some.injEq] at hr
    · obtain ⟨-, rfl⟩ := hr
      exact ⟨rfl, rfl, .inl rfl, fun _ _ => rfl⟩
    · subst hr
      exact ⟨rfl, rfl, .inl rfl, fun _ h => by cases h⟩
    · obtain ⟨-, rfl⟩ := hr
      exact ⟨rfl, rfl, .inl rfl, fun _ h => by cases h⟩
    · cases hr
  | checking =>
    cases reply <;> simp only [State.resume, Option.some.injEq] at hr
    · subst hr
      exact ⟨rfl, rfl, .inr ⟨rfl, rfl⟩, fun h => by cases h⟩
    · subst hr
      exact ⟨rfl, rfl, .inl rfl, fun h => by cases h⟩
    · cases hr
    · cases hr
  | listing =>
    cases reply <;> simp only [State.resume, Option.ite_none_right_eq_some, Option.some.injEq] at hr
    · cases hr
    · subst hr
      exact ⟨rfl, rfl, .inl rfl, fun h => by cases h⟩
    · cases hr
    · obtain ⟨-, rfl⟩ := hr
      exact ⟨rfl, rfl, .inl rfl, fun h => by cases h⟩
  | dating name rest removed =>
    cases reply <;> simp only [State.resume, Option.map_eq_some_iff, Option.some.injEq] at hr
    · obtain ⟨f, -, rfl⟩ := hr
      exact ⟨rfl, rfl, .inl rfl, fun h => by cases h⟩
    · subst hr
      exact ⟨rfl, rfl, .inl rfl, fun h => by cases h⟩
    · cases hr
    · cases hr
  | unlinking name rest removed =>
    cases reply <;> simp only [State.resume, Option.some.injEq] at hr
    · subst hr
      exact ⟨rfl, rfl, .inl rfl, fun h => by cases h⟩
    · subst hr
      exact ⟨rfl, rfl, .inl rfl, fun h => by cases h⟩
    · cases hr
    · cases hr
  | ended backup pruned => cases reply <;> cases hr
  | killed => cases reply <;> cases hr

variable {hour start : ℕ}

omit [DecidableEq δ] in
/-- A tick begins on time. -/
lemma Daily.begins (h : Daily hour start made s) (hhour : cfg.backupHour = hour) :
    Daily hour start made { s with ticks := s.ticks ++ [⟨s.now, s.begin_ cfg true⟩] } := by
  have hmem : ∀ u ∈ s.ticks ++ [⟨s.now, s.begin_ cfg true⟩], u ∈ s.ticks ∨ u = ⟨s.now, s.begin_ cfg true⟩ := by
    intro u hu
    simpa using hu
  have hlast : (⟨s.now, s.begin_ cfg true⟩ : Tick) ∈ s.ticks ++ [⟨s.now, s.begin_ cfg true⟩] := by simp
  have hold : ∀ u ∈ s.ticks, u ∈ s.ticks ++ [⟨s.now, s.begin_ cfg true⟩] := fun u hu =>
    List.mem_append_left _ hu
  have hcast : ((hourOf s.now : ℚ) = cfg.backupHour) ↔ hourOf s.now = hour := by
    rw [hhour]
    exact Nat.cast_inj
  constructor
  case near => exact .inr ⟨_, hlast, Nat.le_add_right _ _⟩
  case gap =>
    intro n hn hex
    by_cases hearlier : ∃ k ∈ s.ticks, n ≤ k.now
    · obtain ⟨k, hk, hrange⟩ := h.gap n hn hearlier
      exact ⟨k, hold k hk, hrange⟩
    · obtain ⟨u, hu, hle⟩ := hex
      obtain hu | rfl := hmem u hu
      · exact absurd ⟨u, hu, hle⟩ hearlier
      · refine ⟨_, hlast, hle, ?_⟩
        change s.now < n + 3600000
        rcases h.near with ⟨-, hnow⟩ | ⟨k, hk, hnow⟩
        · omega
        · have hless : k.now < n := Nat.lt_of_not_le fun hge => hearlier ⟨k, hk, hge⟩
          omega
  case backed =>
    intro u hu hin
    obtain hu | rfl := hmem u hu
    · exact h.backed u hu hin
    · have hin' : hourOf s.now = hour := hin
      by_cases hkey : s.lastBackupDay = some (dayKey s.now)
      · obtain ⟨n, hn, b, hb, hle⟩ := h.remembered _ hkey
        right
        rw [← day_of_dayKey hn] at hle
        exact ⟨b, hb, hle⟩
      · left
        have hcond : (true && decide ((hourOf s.now : ℚ) = cfg.backupHour) &&
            s.lastBackupDay != some (dayKey s.now)) = true := by
          rw [decide_eq_true (hcast.mpr hin')]
          simpa using hkey
        change (s.begin_ cfg true).isUnderway = true
        rw [State.begin_, if_pos hcond]
        rfl
  case making =>
    intro u hu hunder
    obtain hu | rfl := hmem u hu
    · exact h.making u hu hunder
    · change (s.begin_ cfg true).isUnderway = true at hunder
      change hourOf s.now = hour
      rw [State.begin_] at hunder
      split at hunder
      · rename_i hcond
        simp only [Bool.true_and, Bool.and_eq_true, decide_eq_true_eq] at hcond
        exact hcast.mp hcond.1
      · cases hunder
  case remembered => exact h.remembered

/-- A tick goes on, and no backup fails. -/
lemma Daily.resume (h : Daily hour start made s) (hkept : Kept cfg earlier made s)
    (hk : s.ticks[i]? = some k) {reply : Reply} {r : State δ × Phase}
    (hr : s.resume cfg k k.phase reply = some r)
    (hdone : k.phase = .makingDir ∨ k.phase = .checking → reply = .done) (new : List (File δ)) :
    Daily hour start (made ++ new) { r.1 with ticks := s.ticks.set i ⟨k.now, r.2⟩ } := by
  have hmem : k ∈ s.ticks := List.mem_of_getElem? hk
  obtain ⟨hunder, hclock, hday, hchecking⟩ := resume_effect hr
  have hnow : State.now { r.1 with ticks := s.ticks.set i ⟨k.now, r.2⟩ } = s.now := by
    rw [State.now, State.now, hclock]
  have hbacked : k.phase.prunes = true →
      ∃ b ∈ made ++ new, hourStart hour (k.now / dayMs) * 1000000 ≤ b.mtimeNs := by
    intro hprunes
    obtain ⟨b, hb, hle⟩ := hkept.saved k hmem hprunes
    have hstart := hourStart_le (h.making k hmem hunder)
    exact ⟨b, List.mem_append_left _ hb, (Nat.mul_le_mul_right _ hstart).trans hle⟩
  have hlater : ∀ {n}, (∃ b ∈ made, n ≤ b.mtimeNs) → ∃ b ∈ made ++ new, n ≤ b.mtimeNs := by
    rintro n ⟨b, hb, hle⟩
    exact ⟨b, List.mem_append_left _ hb, hle⟩
  constructor
  case near =>
    rw [hnow]
    right
    rcases h.near with ⟨hnil, -⟩ | ⟨u, hu, hle⟩
    · rw [hnil] at hmem
      cases hmem
    · obtain ⟨v, hv, hvu⟩ := exists_now_set (p := r.2) hk hu
      exact ⟨v, hv, hvu ▸ hle⟩
  case gap =>
    rintro n hn ⟨u, hu, hle⟩
    have hex : ∃ u ∈ s.ticks, n ≤ u.now := by
      obtain hu | rfl := List.mem_or_eq_of_mem_set hu
      · exact ⟨u, hu, hle⟩
      · exact ⟨k, hmem, hle⟩
    obtain ⟨u', hu', hrange⟩ := h.gap n hn hex
    obtain ⟨v, hv, hvu⟩ := exists_now_set (p := r.2) hk hu'
    exact ⟨v, hv, hvu ▸ hrange⟩
  case backed =>
    intro u hu hin
    obtain hu | rfl := List.mem_or_eq_of_mem_set hu
    · exact (h.backed u hu hin).imp_right hlater
    · cases hprunes : k.phase.prunes with
      | true => exact .inr (hbacked hprunes)
      | false =>
        have hmaking : k.phase = .makingDir := by
          rw [Phase.isUnderway, hprunes, Bool.or_false] at hunder
          exact eq_of_beq hunder
        left
        change r.2.isUnderway = true
        rw [hchecking hmaking (hdone (.inl hmaking))]
        rfl
  case making =>
    intro u hu hunder'
    obtain hu | rfl := List.mem_or_eq_of_mem_set hu
    · exact h.making u hu hunder'
    · exact h.making k hmem hunder
  case remembered =>
    intro key hkey
    rcases hday with hsame | ⟨hphase, hnew⟩
    · obtain ⟨n, hn, hb⟩ := h.remembered key (hsame ▸ hkey)
      exact ⟨n, hn, hlater hb⟩
    · refine ⟨k.now, Option.some.inj (hkey.symm.trans hnew), hbacked ?_⟩
      rw [hphase]
      rfl

/-- A step on time keeps that every day has its backup. -/
lemma Daily.next (h : Daily hour start made s) (hkept : Kept cfg earlier made s)
    (hhour : cfg.backupHour = hour) (hC : OnTime s a) (hst : step cfg s a = some s') :
    Daily hour start (made ++ s.saves a) s' := by
  cases a with
  | resume i reply =>
    rw [step, Option.bind_eq_some_iff] at hst
    obtain ⟨k, hk, hr⟩ := hst
    rw [Option.map_eq_some_iff] at hr
    obtain ⟨r, hr, rfl⟩ := hr
    exact h.resume hkept hk hr (hC k hk) _
  | wait ns =>
    obtain rfl : { s with clockNs := s.clockNs + ns } = s' := by simpa [step] using hst
    change Daily hour start (made ++ []) _
    rw [List.append_nil]
    exact { h with near := .inr hC }
  | write data =>
    obtain rfl : { s with db := data } = s' := by simpa [step] using hst
    change Daily hour start (made ++ []) _
    rw [List.append_nil]
    exact { h with }
  | put file =>
    obtain ⟨-, rfl⟩ : isBackupName file.name = false ∧
        { s with dir := others s.dir (.put file) } = s' := by simpa [step] using hst
    change Daily hour start (made ++ []) _
    rw [List.append_nil]
    exact { h with }
  | remove name =>
    obtain ⟨-, rfl⟩ : isBackupName name = false ∧
        { s with dir := others s.dir (.remove name) } = s' := by simpa [step] using hst
    change Daily hour start (made ++ []) _
    rw [List.append_nil]
    exact { h with }
  | tick ok =>
    obtain ⟨-, rfl⟩ := hC
    obtain rfl : { s with ticks := s.ticks ++ [⟨s.now, s.begin_ cfg true⟩] } = s' := by
      simpa [step] using hst
    change Daily hour start (made ++ []) _
    rw [List.append_nil]
    exact h.begins hhour
  | restart => exact hC.elim

lemma Daily.trace (h : Daily hour start made s) (hkept : Kept cfg earlier made s)
    (hhour : cfg.backupHour = hour) (hrun : Trace (step cfg) OnTime s as t) :
    Daily hour start (made ++ backups cfg s as) t := by
  induction hrun generalizing made with
  | nil s =>
    rw [backups, List.append_nil]
    exact h
  | cons hC hst _ ih =>
    have hrest := ih (h.next hkept hhour hC hst) (hkept.next hC.ownSecond hst)
    rw [backups, hst, Option.elim_some, ← List.append_assoc]
    exact hrest

omit [DecidableEq δ] in
/-- When the timer is on time, every hour of the backup that has passed has a backup. -/
lemma Daily.backup_of_day (h : Daily hour start made s) (hhour : hour < 24)
    (hquiet : ∀ k ∈ s.ticks, k.phase.isUnderway = false) {d : ℕ} (hfrom : start ≤ hourStart hour d)
    (htil : hourStart hour d + 3600000 ≤ s.now) : ∃ b ∈ made, hourStart hour d * 1000000 ≤ b.mtimeNs := by
  have hex : ∃ k ∈ s.ticks, hourStart hour d ≤ k.now := by
    rcases h.near with ⟨-, hnow⟩ | ⟨k, hk, hnow⟩
    · omega
    · exact ⟨k, hk, by omega⟩
  obtain ⟨k, hk, hle, hlt⟩ := h.gap _ hfrom hex
  obtain ⟨hin, hday⟩ := hourOf_of_hourStart hhour hle hlt
  rcases h.backed k hk hin with hunder | hbacked
  · rw [hquiet k hk] at hunder
    cases hunder
  · rwa [hday] at hbacked

/-- A day and an hour from the start on, the newest backup is less than that old: in every run in which
the timer is on time and no backup fails, whenever no tick is under way, the directory holds a whole backup
younger than 25 hours. -/
theorem newest_backup_recent (cfg : Config) {hour : ℕ} (hhour : cfg.backupHour = hour)
    (henv : cfg.retentionDaysOption = none) {s t : State δ} {as : List (Action δ)} (hidle : s.ticks = [])
    (hfirst : s.lastBackupDay = none) (h : Trace (step cfg) OnTime s as t)
    (hquiet : ∀ k ∈ t.ticks, k.phase.isUnderway = false) (hday : s.now + 25 * 3600000 ≤ t.now) :
    ∃ b ∈ backups cfg s as, t.dir.find b.name = some b ∧
      t.now * 1000000 < b.mtimeNs + 25 * 3600000 * 1000000 := by
  have hless : hour < 24 := by
    have hbound := backupHour_lt cfg
    rw [hhour] at hbound
    exact_mod_cast hbound
  have hkept := Kept.start cfg hidle
  have hstart : Daily hour s.now ([] : List (File δ)) s := by
    constructor
    case near => exact .inl ⟨hidle, rfl⟩
    all_goals simp [hidle, hfirst]
  have hend := hstart.trace hkept hhour h
  have hkeptEnd := hkept.trace (h.weaken fun _ _ => OnTime.ownSecond)
  rw [List.nil_append] at hend hkeptEnd
  -- the last hour of the backup that has passed
  let d := (t.now - (hour + 1) * 3600000) / dayMs
  have hd : hourStart hour d + 3600000 ≤ t.now ∧ t.now < hourStart hour d + 25 * 3600000 := by
    unfold hourStart
    simp only [d, dayMs]
    omega
  obtain ⟨b, hb, hle⟩ := hend.backup_of_day hless hquiet (by omega) hd.1
  obtain ⟨b', hb', hnewest⟩ := (backups cfg s as).toFinset.exists_max_image File.mtimeNs
    ⟨b, List.mem_toFinset.mpr hb⟩
  have hb'' := List.mem_toFinset.mp hb'
  have hmax := hnewest b (List.mem_toFinset.mpr hb)
  refine ⟨b', hb'', hkeptEnd.find_newest henv hb'' fun c hc => hnewest c (List.mem_toFinset.mpr hc), ?_⟩
  have hmin := hd.2
  omega

instance (s : State δ) : (a : Action δ) → Decidable (OnTime s a)
  | .tick _ => inferInstanceAs (Decidable (_ ∧ _))
  | .wait _ => inferInstanceAs (Decidable (∃ k ∈ s.ticks, _))
  | .resume i _ => inferInstanceAs (Decidable (∀ k ∈ s.ticks[i]?, _))
  | .write _ | .put _ | .remove _ => isTrue trivial
  | .restart => isFalse id

/-- The numbers of the environment are not set. -/
def defaultConfig : Config := ⟨none, none, none⟩

/-- The server starts on the first day at half past three. -/
def nightStart : State ℕ := State.start 12600000000000 0 .empty

/-- Ticks every hour until half past four of the second day, with a backup on both days. -/
def dayActions : List (Action ℕ) :=
  let first := "admin-19700101-043000.db"
  let second := "admin-19700102-043000.db"
  let hourly : List (Action ℕ) := [.wait 3600000000000, .tick true]
  [.tick true] ++ hourly ++ [.resume 1 .done, .resume 1 .done, .resume 1 (.names [first]), .resume 1 .done] ++
    (List.replicate 24 hourly).flatten ++
    [.resume 25 .done, .resume 25 .done, .resume 25 (.names [first, second]), .resume 25 .done,
      .resume 25 .done]

/-- At half past four of the second day there is a backup of that time. -/
theorem newest_backup_recent_night : ∃ t, Trace (step defaultConfig) OnTime nightStart dayActions t ∧
    t.now = 102600000 ∧ ∃ b ∈ backups defaultConfig nightStart dayActions,
      t.dir.find b.name = some b ∧ t.now * 1000000 < b.mtimeNs + 25 * 3600000 * 1000000 := by
  have hrun : (checkedRun (step defaultConfig) (fun s a => decide (OnTime s a)) nightStart dayActions).any
      (fun t => decide (t.now = 102600000 ∧ ∀ k ∈ t.ticks, k.phase.isUnderway = false)) = true := by
    decide +kernel
  obtain ⟨t, ht, hend⟩ := exists_trace_of_checkedRun (I := fun _ => True) (C := OnTime)
    (fun _ _ _ _ _ => trivial) (fun _ _ _ hc => of_decide_eq_true hc) trivial hrun
  obtain ⟨hnow, hquiet⟩ := of_decide_eq_true hend
  have hhour : defaultConfig.backupHour = (4 : ℕ) := by
    norm_num [defaultConfig, Config.backupHour]
  exact ⟨t, ht, hnow, newest_backup_recent defaultConfig hhour rfl rfl rfl ht hquiet (by
    rw [hnow]
    decide +kernel)⟩

end SmartSchoolCdn.Maintenance
