/-
The first installation and the database (`mediawiki/_core.py`, `mediawiki/_database.py`).

`_install` runs the installation script up to three times.  Whether a failed attempt is followed
by a reset of the database is decided once, by whether the database was empty when the function
was called, and the last attempt is followed by none.  Afterwards the schema is updated and a
flag table marks the database as initialized, which keeps later hooks from installing again.

`Core.install` embeds the same function as far as the container is concerned, with the answers
of the database given.  Here the database is the state, and what does not touch it is a step
that may fail.
-/
import MediawikiCharm.Core
import MediawikiCharm.Lib.Machine
import MediawikiCharm.PrimaryKeys

namespace MediawikiCharm
namespace Installation

open PrimaryKeys (dbRetry isMysql)

/-- `_INSTALLED_FLAG_TABLE` -/
def installedFlagTable : String := "mediawiki_charm_setup"

/-- What happened to the database. -/
inductive DbEvent
  /-- An attempt at the installation, with the tables it started on -/
  | attempt (tables : List String) (succeeded : Bool)
  /-- An update of the schema -/
  | update (succeeded : Bool)
deriving DecidableEq

/-- The database: its tables, and what happened to it, the latest first. -/
structure DbState where
  tables : List String := []
  history : List DbEvent := []

/-- How a maintenance script ends, and the tables it leaves. -/
structure ScriptRun where
  returnCode : Except Exc ℤ := .ok 0
  tables : List String := []

/-- The script has succeeded. -/
def ScriptRun.succeeded (run : ScriptRun) : Bool :=
  match run.returnCode with
  | .ok returnCode => returnCode == 0
  | .error _ => false

/-- A script touches any table but the flag table. -/
def ScriptRun.leaves (run : ScriptRun) (tables : List String) : List String :=
  tables.filter (· == installedFlagTable) ++ run.tables.filter (· != installedFlagTable)

/-- A run of `update_database_schema`. -/
structure UpdateRun where
  writeWrapper : Option Exc := none
  script : ScriptRun := {}
  primaryKeys : Option Exc := none
  storageEngine : Option Exc := none

/-- The calls on a connection that drop no table. -/
inductive ResetCall
  | connect
  | disableForeignKeyChecks
  | showTables
  | enableForeignKeyChecks
  | commit
  | rollback

/-- The errors of a reset, by attempt. -/
structure ResetRun where
  call : ℕ → ResetCall → Option Exc := fun _ _ => none
  dropTable : ℕ → String → Option Exc := fun _ _ => none
  /-- How many attempts there are before the deadline. -/
  attempts : ℕ := 1

/-- The steps that do not touch the database, and the questions about it. -/
inductive InstallStep
  | isDatabaseInitialized
  | settingsReconciliation
  | isDatabaseEmpty
  | blankUserSettings
  | localisationCacheReconciliation
  | pushUserSettings
  | recordSettingsChange

/-- What a call meets.  The attempts at the installation are counted by how many are left. -/
structure InstallEnv where
  step : InstallStep → Option Exc := fun _ => none
  installPreConfigured : ℕ → ScriptRun := fun _ => {}
  reset : ℕ → ResetRun := fun _ => {}
  retryUpdate : ℕ → UpdateRun := fun _ => {}
  update : UpdateRun := {}
  /-- The errors before and after the flag table is created, by attempt. -/
  setDatabaseInitialized : ℕ → Option Exc × Option Exc := fun _ => (none, none)
  setAttempts : ℕ := 1

variable (env : InstallEnv)

/-- Raise the exception, if there is one. -/
def raise (e : Option Exc) : Prog DbState Exc Unit := fun s =>
  (match e with
    | some e => .error e
    | none => .ok (), s)

/-- Note what happened. -/
def note (event : DbEvent) : Prog DbState Exc Unit :=
  Prog.modify fun s => { s with history := event :: s.history }

/-- `SHOW TABLES LIKE`, where an underscore stands for any character. -/
def like (pattern name : List Char) : Bool :=
  pattern.length == name.length && (pattern.zip name).all fun (p, c) => p == '_' || p == c

/-- `_is_database_initialized` -/
def isDatabaseInitialized : Prog DbState Exc Bool := do
  raise (env.step .isDatabaseInitialized)
  let s ← Prog.get
  pure (s.tables.any fun table => like installedFlagTable.toList table.toList)

/-- `_is_database_empty` -/
def isDatabaseEmpty : Prog DbState Exc Bool := do
  raise (env.step .isDatabaseEmpty)
  let s ← Prog.get
  pure s.tables.isEmpty

/-- `DROP TABLE IF EXISTS` -/
def dropTable (run : ResetRun) (n : ℕ) (table : String) : Prog DbState Exc Unit := do
  raise (run.dropTable n table)
  Prog.modify fun s => { s with tables := s.tables.filter (· != table) }

/-- One attempt at `_reset_partially_initialized_database`. -/
def resetAttempt (run : ResetRun) (n : ℕ) : Prog DbState Exc Unit := do
  raise (run.call n .connect)
  tryCatch (do
    raise (run.call n .disableForeignKeyChecks)
    raise (run.call n .showTables)
    let s ← Prog.get
    s.tables.forM (dropTable run n)
    raise (run.call n .enableForeignKeyChecks)
    raise (run.call n .commit)) fun e => do
      raise (run.call n .rollback)
      throw e

/-- `_reset_partially_initialized_database` -/
def resetPartiallyInitializedDatabase (run : ResetRun) : Prog DbState Exc Unit :=
  dbRetry (resetAttempt run) run.attempts 0

/-- `_run_maintenance_script` of `installPreConfigured` -/
def installPreConfigured (run : ScriptRun) : Prog DbState Exc ℤ := fun s =>
  (run.returnCode,
    { tables := run.leaves s.tables, history := .attempt s.tables run.succeeded :: s.history })

/-- The script of `update_database_schema`. -/
def updateScript (run : ScriptRun) : Prog DbState Exc Unit := fun s =>
  (match run.returnCode with
    | .ok returnCode =>
      if returnCode = 0 then .ok ()
      else .error (.installError "Database schema update failed; see logs for details.")
    | .error e => .error e, { s with tables := run.leaves s.tables })

/-- `update_database_schema` -/
def updateDatabaseSchema (run : UpdateRun) : Prog DbState Exc Unit :=
  tryCatch (do
    raise run.writeWrapper
    updateScript run.script
    raise run.primaryKeys
    raise run.storageEngine
    note (.update true)) fun e => do
      note (.update false)
      throw e

/-- The schema update before another attempt; its failure is ignored. -/
def retryUpdate (run : UpdateRun) : Prog DbState Exc Unit :=
  tryCatch (updateDatabaseSchema run) fun
    | .installError _ => pure ()
    | e => throw e

/-- The attempts at `installPreConfigured` that are left. -/
def installAttempts (databaseEmptyAtInstallStart : Bool) : ℕ → Prog DbState Exc Unit
  | 0 => throw (.installError "MediaWiki installation failed; see logs for details.")
  | n + 1 => do
    let returnCode ← installPreConfigured (env.installPreConfigured n)
    if returnCode = 0 then pure ()
    else
      (if n = 0 then pure ()
        else if databaseEmptyAtInstallStart then resetPartiallyInitializedDatabase (env.reset n)
        else retryUpdate (env.retryUpdate n) : Prog DbState Exc Unit)
      installAttempts databaseEmptyAtInstallStart n

/-- One attempt at `_set_database_initialized`. -/
def setAttempt (n : ℕ) : Prog DbState Exc Unit := do
  raise (env.setDatabaseInitialized n).1
  Prog.modify fun s =>
    if installedFlagTable ∈ s.tables then s
    else { s with tables := s.tables ++ [installedFlagTable] }
  raise (env.setDatabaseInitialized n).2

/-- `_set_database_initialized` -/
def setDatabaseInitialized : Prog DbState Exc Unit := dbRetry (setAttempt env) env.setAttempts 0

/-- What follows a successful attempt. -/
def completeInstall : Prog DbState Exc Unit := do
  raise (env.step .pushUserSettings)
  raise (env.step .recordSettingsChange)
  updateDatabaseSchema env.update
  setDatabaseInitialized env

/-- `_install` of the leader -/
def install : Prog DbState Exc Unit := do
  let databaseEmptyAtInstallStart ← isDatabaseEmpty env
  raise (env.step .blankUserSettings)
  raise (env.step .localisationCacheReconciliation)
  installAttempts env databaseEmptyAtInstallStart Core.installMaxAttempts
  completeInstall env

/-- The part of `_reconcile_configuration` that reaches the database. -/
def reconcileConfiguration : Prog DbState Exc Unit := do
  if !(← isDatabaseInitialized env) then
    raise (env.step .settingsReconciliation)
    install env
  else pure ()

/-- The hooks of the leader, from an empty database on. -/
def machine : Machine DbState InstallEnv where
  init s := s = {}
  step s env s' := s' = (reconcileConfiguration env s).2

/-! ### Histories -/

/-- An attempt has succeeded. -/
def Succeeded (history : List DbEvent) : Prop := ∃ tables, .attempt tables true ∈ history

/-- Until an attempt has succeeded, the attempts start on an empty database. -/
def FromEmpty : List DbEvent → Prop
  | [] => True
  | .attempt tables _ :: earlier => (¬ Succeeded earlier → tables = []) ∧ FromEmpty earlier
  | .update _ :: earlier => FromEmpty earlier

/-- An attempt succeeded, and so did the update that followed it. -/
def Completed (history : List DbEvent) : Prop :=
  ∃ later tables earlier,
    history = later ++ .update true :: .attempt tables true :: earlier

variable {env} {s s' : DbState}

lemma Succeeded.append {earlier : List DbEvent} (h : Succeeded earlier) (later : List DbEvent) :
    Succeeded (later ++ earlier) := by
  obtain ⟨tables, h⟩ := h
  exact ⟨tables, List.mem_append_right _ h⟩

lemma Completed.append {earlier : List DbEvent} (h : Completed earlier) (later : List DbEvent) :
    Completed (later ++ earlier) := by
  obtain ⟨l, tables, e, rfl⟩ := h
  exact ⟨later ++ l, tables, e, (List.append_assoc ..).symm⟩

/-- Once an attempt has succeeded, nothing is asked of the later ones. -/
lemma FromEmpty.append {earlier : List DbEvent} (h : FromEmpty earlier) (hs : Succeeded earlier)
    (later : List DbEvent) : FromEmpty (later ++ earlier) := by
  induction later with
  | nil => exact h
  | cons event later ih =>
    cases event with
    | attempt tables succeeded => exact ⟨fun hno => absurd (hs.append later) hno, ih⟩
    | update succeeded => exact ih

/-! ### What the functions keep -/

/-- What happened is only added to, and the flag table is not created. -/
def Extends (s s' : DbState) : Prop :=
  (∃ later, s'.history = later ++ s.history) ∧
    (installedFlagTable ∈ s'.tables → installedFlagTable ∈ s.tables)

instance : Std.Refl Extends := ⟨fun _ => ⟨⟨[], rfl⟩, id⟩⟩

instance : IsTrans DbState Extends where
  trans _ _ _ h h' := by
    obtain ⟨⟨later, hlater⟩, hflag⟩ := h
    obtain ⟨⟨later', hlater'⟩, hflag'⟩ := h'
    refine ⟨⟨later' ++ later, ?_⟩, fun h => hflag (hflag' h)⟩
    rw [hlater', hlater, List.append_assoc]

lemma extends_raise (e : Option Exc) : Prog.Within Extends (raise e) := fun s => refl_of Extends s

lemma extends_note (event : DbEvent) : Prog.Within Extends (note event) :=
  .modify fun _ => ⟨⟨[event], rfl⟩, id⟩

lemma flag_mem_leaves {script : ScriptRun} {tables : List String}
    (h : installedFlagTable ∈ script.leaves tables) : installedFlagTable ∈ tables := by
  rcases List.mem_append.1 h with h | h
  · exact List.mem_of_mem_filter h
  · simpa using (List.mem_filter.1 h).2

lemma extends_installPreConfigured (script : ScriptRun) :
    Prog.Within Extends (installPreConfigured script) := fun _ => ⟨⟨[_], rfl⟩, flag_mem_leaves⟩

lemma within_dbRetry {R : DbState → DbState → Prop} [Std.Refl R] [IsTrans DbState R]
    {func : ℕ → Prog DbState Exc Unit} (h : ∀ n, Prog.Within R (func n)) (left n : ℕ) :
    Prog.Within R (dbRetry func left n) := by
  induction left generalizing n with
  | zero => exact .throw _
  | succ left ih => exact .tryCatch (h n) fun _ => .ite (ih _) (.throw _)

lemma extends_reset (run : ResetRun) :
    Prog.Within Extends (resetPartiallyInitializedDatabase run) := by
  have hdrop : ∀ n table, Prog.Within Extends (dropTable run n table) := fun n table =>
    .bind (extends_raise _) fun _ => .modify fun _ => ⟨⟨[], rfl⟩, List.mem_of_mem_filter⟩
  have hattempt : ∀ n, Prog.Within Extends (resetAttempt run n) := fun n =>
    .bind (extends_raise _) fun _ => .tryCatch (.bind (extends_raise _) fun _ =>
      .bind (extends_raise _) fun _ => .bind .get fun _ => .bind (.forM (hdrop n) _) fun _ =>
      .bind (extends_raise _) fun _ => extends_raise _) fun _ =>
      .bind (extends_raise _) fun _ => .throw _
  exact within_dbRetry hattempt _ _

lemma extends_update (update : UpdateRun) : Prog.Within Extends (updateDatabaseSchema update) := by
  have hscript : Prog.Within Extends (updateScript update.script) := fun _ =>
    ⟨⟨[], rfl⟩, flag_mem_leaves⟩
  exact .tryCatch (.bind (extends_raise _) fun _ => .bind hscript fun _ =>
    .bind (extends_raise _) fun _ => .bind (extends_raise _) fun _ => extends_note _) fun _ =>
    .bind (extends_note _) fun _ => .throw _

lemma extends_installAttempts (empty : Bool) (n : ℕ) :
    Prog.Within Extends (installAttempts env empty n) := by
  have hretry : ∀ update, Prog.Within Extends (retryUpdate update) := fun update =>
    .tryCatch (extends_update update) fun e => by
      cases e <;> first | exact .pure _ | exact .throw _
  induction n with
  | zero => exact .throw _
  | succ n ih =>
    exact .bind (extends_installPreConfigured _) fun _ => .ite (.pure _) (.bind (.ite (.pure _)
      (.ite (extends_reset _) (hretry _))) fun _ => ih)

/-! ### The flag table -/

/-- The flag table is there only after a completed installation. -/
def Flagged (s : DbState) : Prop := installedFlagTable ∈ s.tables → Completed s.history

lemma Flagged.of_extends (h : Flagged s) (hs : Extends s s') : Flagged s' := by
  obtain ⟨⟨later, hlater⟩, hflag⟩ := hs
  intro hmem
  rw [hlater]
  exact (h (hflag hmem)).append later

/-- Attempts that return end with a successful one. -/
lemma installAttempts_wp (empty : Bool) (n : ℕ) (s : DbState) :
    (installAttempts env empty n).wp
      (fun _ s' => ∃ tables earlier, s'.history = .attempt tables true :: earlier)
      (fun _ _ => True) s := by
  induction n generalizing s with
  | zero => exact trivial
  | succ n ih =>
    have hscript : (installPreConfigured (env.installPreConfigured n)).wp
        (fun returnCode s' => s'.history =
          .attempt s.tables (decide (returnCode = 0)) :: s.history) (fun _ _ => True) s := by
      unfold installPreConfigured ScriptRun.succeeded Prog.wp
      cases (env.installPreConfigured n).returnCode <;> trivial
    refine Prog.wp_bind.2 (Prog.wp_mono hscript (fun returnCode s₁ hs₁ => ?_) fun _ _ h => h)
    refine Prog.wp_ite.2 ⟨fun h => ?_, fun h => ?_⟩
    · rw [decide_eq_true h] at hs₁
      exact ⟨_, _, hs₁⟩
    · refine Prog.wp_bind.2 (Prog.wp_iff.2 ⟨fun _ s₂ _ => ih s₂, fun _ _ _ => trivial⟩)

lemma raise_wp (e : Option Exc) (s : DbState) :
    (raise e).wp (fun _ s' => s' = s ∧ e = none) (fun e' s' => s' = s ∧ e = some e') s := by
  cases e with
  | none => exact ⟨rfl, rfl⟩
  | some e => exact ⟨rfl, rfl⟩

/-- An update that returns is noted. -/
lemma update_wp (update : UpdateRun) (s : DbState) :
    (updateDatabaseSchema update).wp (fun _ s' => s'.history = .update true :: s.history)
      (fun _ _ => True) s := by
  have hraise : ∀ e s₁, s₁.history = s.history →
      (raise e).wp (fun _ s' => s'.history = s.history) (fun _ _ => True) s₁ := fun e s₁ hs₁ =>
    Prog.wp_mono (raise_wp e s₁) (fun _ _ h => h.1 ▸ hs₁) fun _ _ _ => trivial
  have hscript : ∀ s₁, s₁.history = s.history →
      (updateScript update.script).wp (fun _ s' => s'.history = s.history) (fun _ _ => True) s₁ := by
    intro s₁ hs₁
    exact Prog.wp_iff.2 ⟨fun _ s' hrun => (congrArg DbState.history
      (congrArg Prod.snd hrun).symm).trans hs₁, fun _ _ _ => trivial⟩
  have hnote : ∀ (e : Exc) s₁, (note (.update false) >>= fun _ => throw e : Prog DbState Exc Unit).wp
      (fun _ s' => s'.history = .update true :: s.history) (fun _ _ => True) s₁ := fun _ _ => trivial
  refine Prog.wp_tryCatch.2 (Prog.wp_bind.2 (Prog.wp_mono (hraise _ s rfl) (fun _ s₁ hs₁ => ?_)
    fun e s₁ _ => hnote e s₁))
  refine Prog.wp_bind.2 (Prog.wp_mono (hscript s₁ hs₁) (fun _ s₂ hs₂ => ?_)
    fun e s₁ _ => hnote e s₁)
  refine Prog.wp_bind.2 (Prog.wp_mono (hraise _ s₂ hs₂) (fun _ s₃ hs₃ => ?_)
    fun e s₁ _ => hnote e s₁)
  refine Prog.wp_bind.2 (Prog.wp_mono (hraise _ s₃ hs₃) (fun _ s₄ hs₄ => ?_)
    fun e s₁ _ => hnote e s₁)
  exact congrArg (DbEvent.update true :: ·) hs₄

lemma frame_setDatabaseInitialized : Prog.Frame DbState.history (setDatabaseInitialized env) := by
  have hraise : ∀ e, Prog.Frame DbState.history (raise e) := fun _ _ => rfl
  have hattempt : ∀ n, Prog.Frame DbState.history (setAttempt env n) := by
    refine fun n => .bind (hraise _) fun _ => .bind (.modify fun s => ?_) fun _ => hraise _
    split <;> rfl
  have hretry : ∀ left n, Prog.Frame DbState.history (dbRetry (setAttempt env) left n) := by
    intro left
    induction left with
    | zero => exact fun _ => .throw _
    | succ left ih => exact fun n => .tryCatch (hattempt n) fun _ => .ite (ih _) (.throw _)
  exact hretry _ _

/-- The flag table is created after an update that followed a successful attempt. -/
lemma flagged_completeInstall {tables : List String} {earlier : List DbEvent}
    (hs : s.history = .attempt tables true :: earlier) (h : Flagged s) :
    Flagged (completeInstall env s).2 := by
  have hraise : ∀ e, (raise e).wp (fun _ s' => s' = s) (fun _ s' => Flagged s') s := fun e =>
    Prog.wp_mono (raise_wp e s) (fun _ _ hs' => hs'.1) fun _ _ hs' => hs'.1 ▸ h
  have hupdate : (updateDatabaseSchema env.update).wp (fun _ s' => Completed s'.history)
      (fun _ s' => Flagged s') s := by
    have hextends := extends_update env.update s
    refine Prog.wp_iff.2 ⟨fun _ s' hrun => ?_, fun e s' hrun => ?_⟩
    · have hnoted := Prog.wp_of_ok (update_wp env.update s) hrun
      exact ⟨[], tables, earlier, by rw [hnoted, hs]; rfl⟩
    · rw [hrun] at hextends
      exact h.of_extends hextends
  have hcomplete : (completeInstall env).wp (fun _ s' => Flagged s') (fun _ s' => Flagged s') s := by
    refine Prog.wp_bind.2 (Prog.wp_mono (hraise _) ?_ fun _ _ h => h)
    rintro - s₁ rfl
    refine Prog.wp_bind.2 (Prog.wp_mono (hraise _) ?_ fun _ _ h => h)
    rintro - s₁ rfl
    refine Prog.wp_bind.2 (Prog.wp_mono hupdate (fun _ s₁ hs₁ => ?_) fun _ _ h => h)
    exact Prog.wp_mono (frame_setDatabaseInitialized.wp s₁) (fun _ s' hs' _ => hs' ▸ hs₁)
      fun _ s' hs' _ => hs' ▸ hs₁
  exact Prog.wp_state hcomplete (fun _ _ h => h) fun _ _ h => h

/-- Nothing fails before the attempts of a call. -/
def Attempted (env : InstallEnv) : Prop :=
  env.step .isDatabaseInitialized = none ∧ env.step .settingsReconciliation = none ∧
    env.step .isDatabaseEmpty = none ∧ env.step .blankUserSettings = none ∧
    env.step .localisationCacheReconciliation = none

/-- A hook leaves the database as it is, or makes attempts, after which it goes on if the last one
has succeeded. -/
lemma reconcile_wp {P : DbState → Prop} (hs : P s)
    (hattempts : Attempted env →
      (installAttempts env s.tables.isEmpty Core.installMaxAttempts).wp
        (fun _ s₁ => P (completeInstall env s₁).2) (fun _ s₁ => P s₁) s) :
    P (reconcileConfiguration env s).2 := by
  have hraise : ∀ e, (raise e).wp (fun _ s' => s' = s ∧ e = none) (fun _ s' => P s') s := fun e =>
    Prog.wp_mono (raise_wp e s) (fun _ _ hs' => hs') fun _ _ hs' => hs'.1 ▸ hs
  have hempty : (isDatabaseEmpty env).wp (fun empty s' => s' = s ∧ empty = s.tables.isEmpty ∧
      env.step .isDatabaseEmpty = none) (fun _ s' => P s') s := by
    refine Prog.wp_bind.2 (Prog.wp_mono (hraise _) ?_ fun _ _ h => h)
    rintro - s₁ ⟨rfl, hanswered⟩
    exact ⟨rfl, rfl, hanswered⟩
  have hinitialized : (isDatabaseInitialized env).wp
      (fun _ s' => s' = s ∧ env.step .isDatabaseInitialized = none) (fun _ s' => P s') s := by
    refine Prog.wp_bind.2 (Prog.wp_mono (hraise _) ?_ fun _ _ h => h)
    rintro - s₁ ⟨rfl, hanswered⟩
    exact ⟨rfl, hanswered⟩
  -- every step up to the attempts answers or ends the hook
  have hall : (reconcileConfiguration env).wp (fun _ s' => P s') (fun _ s' => P s') s := by
    refine Prog.wp_bind.2 (Prog.wp_mono hinitialized ?_ fun _ _ h => h)
    rintro initialized s₁ ⟨rfl, h₁⟩
    refine Prog.wp_ite.2 ⟨fun _ => ?_, fun _ => hs⟩
    refine Prog.wp_bind.2 (Prog.wp_mono (hraise _) ?_ fun _ _ h => h)
    rintro - s₁ ⟨rfl, h₂⟩
    refine Prog.wp_bind.2 (Prog.wp_mono hempty ?_ fun _ _ h => h)
    rintro empty s₁ ⟨rfl, rfl, h₃⟩
    refine Prog.wp_bind.2 (Prog.wp_mono (hraise _) ?_ fun _ _ h => h)
    rintro - s₁ ⟨rfl, h₄⟩
    refine Prog.wp_bind.2 (Prog.wp_mono (hraise _) ?_ fun _ _ h => h)
    rintro - s₁ ⟨rfl, h₅⟩
    refine Prog.wp_bind.2 (Prog.wp_mono (hattempts ⟨h₁, h₂, h₃, h₄, h₅⟩) (fun _ s₂ hs₂ => ?_)
      fun _ _ h => h)
    refine Prog.wp_iff.2 ⟨fun _ s' hrun => ?_, fun _ s' hrun => ?_⟩ <;>
      · rw [hrun] at hs₂
        exact hs₂
  exact Prog.wp_state hall (fun _ _ h => h) fun _ _ h => h

lemma flagged_reconcile (h : Flagged s) : Flagged (reconcileConfiguration env s).2 := by
  refine reconcile_wp h fun _ => Prog.wp_iff.2 ⟨fun u s₁ hrun => ?_, fun e s₁ hrun => ?_⟩
  · have hextends : Extends s
        (installAttempts env s.tables.isEmpty Core.installMaxAttempts s).2 :=
      extends_installAttempts _ _ s
    have hreturned := Prog.wp_of_ok (installAttempts_wp _ _ s) hrun
    obtain ⟨tables, earlier, hs₁⟩ := hreturned
    rw [hrun] at hextends
    exact flagged_completeInstall hs₁ (h.of_extends hextends)
  · have hextends : Extends s
        (installAttempts env s.tables.isEmpty Core.installMaxAttempts s).2 :=
      extends_installAttempts _ _ s
    rw [hrun] at hextends
    exact h.of_extends hextends

/-! ### Resets -/

/-- The error makes `_db_retry_deco` try again. -/
def Retried (e : Exc) : Prop := (isMysql e || e.isWaiting) = true

/-- Something fails with the error in an attempt at a reset. -/
def ResetRun.Fails (run : ResetRun) (n : ℕ) (e : Exc) : Prop :=
  (∃ call, run.call n call = some e) ∨ ∃ table, run.dropTable n table = some e

/-- Before the deadline there is an attempt without errors, and the errors before it make the
decorator try again. -/
def ResetRun.GetsThrough (run : ResetRun) : Prop :=
  ∃ n < run.attempts, (∀ e, ¬ run.Fails n e) ∧ ∀ m < n, ∀ e, run.Fails m e → Retried e

variable {run : ResetRun}

lemma dropTables_wp (n : ℕ) (tables : List String) (s : DbState) :
    (tables.forM (dropTable run n)).wp
      (fun _ s' => s'.tables = s.tables.filter (fun table => decide (table ∉ tables)) ∧
        s'.history = s.history)
      (fun e s' => run.Fails n e ∧ s'.tables ⊆ s.tables ∧ s'.history = s.history) s := by
  induction tables generalizing s with
  | nil =>
    refine ⟨?_, rfl⟩
    simp
  | cons table tables ih =>
    have hdrop : (dropTable run n table).wp
        (fun _ s' => s'.tables = s.tables.filter (· != table) ∧ s'.history = s.history)
        (fun e s' => run.Fails n e ∧ s' = s) s := by
      refine Prog.wp_bind.2 (Prog.wp_mono (raise_wp _ s) ?_ ?_)
      · rintro - s₁ ⟨rfl, -⟩
        exact ⟨rfl, rfl⟩
      · rintro e s₁ ⟨rfl, he⟩
        exact ⟨.inr ⟨table, he⟩, rfl⟩
    refine Prog.wp_bind.2 (Prog.wp_mono hdrop ?_ ?_)
    · rintro - s₁ ⟨htables, hhistory⟩
      refine Prog.wp_mono (ih s₁) ?_ ?_
      · rintro - s₂ ⟨htables₂, hhistory₂⟩
        refine ⟨?_, hhistory₂.trans hhistory⟩
        rw [htables₂, htables, List.filter_filter]
        -- dropping one table after the other drops them all
        refine List.filter_congr fun name _ => ?_
        by_cases h : name = table <;> simp [h]
      · rintro e s₂ ⟨hfails, hsub, hhistory₂⟩
        refine ⟨hfails, fun name hname => ?_, hhistory₂.trans hhistory⟩
        have hmem := hsub hname
        rw [htables] at hmem
        exact List.mem_of_mem_filter hmem
    · rintro e s₁ ⟨hfails, rfl⟩
      exact ⟨hfails, fun _ h => h, rfl⟩

lemma resetAttempt_wp (n : ℕ) (s : DbState) :
    (resetAttempt run n).wp (fun _ s' => s'.tables = [] ∧ s'.history = s.history)
      (fun e s' => run.Fails n e ∧ s'.tables ⊆ s.tables ∧ s'.history = s.history) s := by
  have hraise : ∀ call s₁, (raise (run.call n call)).wp (fun _ s' => s' = s₁)
      (fun e s' => run.Fails n e ∧ s' = s₁) s₁ := fun call s₁ =>
    Prog.wp_mono (raise_wp _ s₁) (fun _ _ h => h.1) fun _ _ h => ⟨.inl ⟨call, h.2⟩, h.1⟩
  -- an error of the rollback takes the place of the one before it
  have hrollback : ∀ e s₁, run.Fails n e → s₁.tables ⊆ s.tables → s₁.history = s.history →
      (raise (run.call n .rollback) >>= fun _ => throw e : Prog DbState Exc Unit).wp
        (fun _ s' => s'.tables = [] ∧ s'.history = s.history)
        (fun e s' => run.Fails n e ∧ s'.tables ⊆ s.tables ∧ s'.history = s.history) s₁ := by
    intro e s₁ he hsub hhistory
    refine Prog.wp_bind.2 (Prog.wp_mono (hraise _ s₁) ?_ ?_)
    · rintro - s₂ rfl
      exact ⟨he, hsub, hhistory⟩
    · rintro e' s₂ ⟨he', rfl⟩
      exact ⟨he', hsub, hhistory⟩
  refine Prog.wp_bind.2 (Prog.wp_mono (hraise _ s) ?_ fun e s₁ h =>
    ⟨h.1, h.2 ▸ fun _ h => h, h.2 ▸ rfl⟩)
  rintro - s₁ rfl
  refine Prog.wp_tryCatch.2 (Prog.wp_bind.2 (Prog.wp_mono (hraise _ s₁) ?_ ?_))
  · rintro - s₂ rfl
    refine Prog.wp_bind.2 (Prog.wp_mono (hraise _ s₂) ?_ ?_)
    · rintro - s₃ rfl
      refine Prog.wp_bind.2 (Prog.wp_bind.2 (Prog.wp_mono (dropTables_wp n s₃.tables s₃) ?_ ?_))
      · rintro - s₄ ⟨htables, hhistory⟩
        have hempty : s₄.tables = [] := by
          rw [htables, List.filter_eq_nil_iff]
          intro table htable
          simpa using htable
        have hsub : s₄.tables ⊆ s₃.tables := hempty ▸ List.nil_subset _
        refine Prog.wp_bind.2 (Prog.wp_mono (hraise _ s₄) ?_ ?_)
        · rintro - s₅ rfl
          refine Prog.wp_mono (hraise _ s₅) ?_ ?_
          · rintro - s₆ rfl
            exact ⟨hempty, hhistory⟩
          · rintro e s₆ ⟨he, rfl⟩
            exact hrollback e _ he hsub hhistory
        · rintro e s₅ ⟨he, rfl⟩
          exact hrollback e _ he hsub hhistory
      · rintro e s₄ ⟨he, hsub, hhistory⟩
        exact hrollback e _ he hsub hhistory
    · rintro e s₃ ⟨he, rfl⟩
      exact hrollback e _ he (fun _ h => h) rfl
  · rintro e s₂ ⟨he, rfl⟩
    exact hrollback e _ he (fun _ h => h) rfl

/-- A reset that gets through empties the database. -/
lemma reset_getsThrough (h : run.GetsThrough) (s : DbState) :
    (resetPartiallyInitializedDatabase run).wp
      (fun _ s' => s'.tables = [] ∧ s'.history = s.history) (fun _ _ => False) s := by
  obtain ⟨n, hn, hclear, hretried⟩ := h
  have hretry : ∀ left m s₁, m ≤ n → n < m + left → s₁.history = s.history →
      (dbRetry (resetAttempt run) left m).wp
        (fun _ s' => s'.tables = [] ∧ s'.history = s.history) (fun _ _ => False) s₁ := by
    intro left
    induction left with
    | zero => omega
    | succ left ih =>
      intro m s₁ hm hlt hs₁
      refine Prog.wp_tryCatch.2 (Prog.wp_mono (resetAttempt_wp m s₁) ?_ ?_)
      · rintro - s₂ ⟨hempty, hhistory⟩
        exact ⟨hempty, hhistory.trans hs₁⟩
      · rintro e s₂ ⟨he, -, hhistory⟩
        have hne : m ≠ n := fun hmn => hclear e (hmn ▸ he)
        have hlt' : m < n := by omega
        refine Prog.wp_ite.2 ⟨fun _ => ?_, fun hno => absurd (hretried m hlt' e he) hno⟩
        exact ih (m + 1) s₂ hlt' (by omega) (hhistory.trans hs₁)
  exact hretry run.attempts 0 s (Nat.zero_le n) (by omega) rfl

/-- Tables are dropped only, and nothing is noted. -/
def Shrinks (s s' : DbState) : Prop := s'.tables ⊆ s.tables ∧ s'.history = s.history

instance : Std.Refl Shrinks := ⟨fun _ => ⟨fun _ h => h, rfl⟩⟩

instance : IsTrans DbState Shrinks :=
  ⟨fun _ _ _ h h' => ⟨fun _ hmem => h.1 (h'.1 hmem), h'.2.trans h.2⟩⟩

lemma shrinks_reset (run : ResetRun) :
    Prog.Within Shrinks (resetPartiallyInitializedDatabase run) := by
  have hattempt : ∀ n, Prog.Within Shrinks (resetAttempt run n) := fun n s =>
    Prog.wp_state (resetAttempt_wp n s) (fun _ _ h => ⟨h.1 ▸ List.nil_subset _, h.2⟩)
      fun _ _ h => h.2
  exact within_dbRetry hattempt _ _

/-! ### Attempts that clean up -/

/-- The attempts before the one after which `n` are left have failed with a return code. -/
def Reached (env : InstallEnv) (n : ℕ) : Prop :=
  ∀ m < Core.installMaxAttempts, n < m →
    ∃ returnCode ≠ 0, (env.installPreConfigured m).returnCode = .ok returnCode

/-- A failed attempt of the call leaves no table, or reports its failure, is not the last one and
is followed by a reset that gets through. -/
def Clean (env : InstallEnv) : Prop :=
  Attempted env →
  ∀ n < Core.installMaxAttempts, Reached env n → (env.installPreConfigured n).succeeded = false →
    (env.installPreConfigured n).leaves [] = [] ∨
      n ≠ 0 ∧ (∃ returnCode, (env.installPreConfigured n).returnCode = .ok returnCode) ∧
        (env.reset n).GetsThrough

/-- Until an attempt has succeeded, the database is empty between the attempts. -/
structure Restarting (s : DbState) : Prop where
  fromEmpty : FromEmpty s.history
  tables : ¬ Succeeded s.history → s.tables = []

/-- What happened is only added to. -/
def Grows (s s' : DbState) : Prop := ∃ later, s'.history = later ++ s.history

instance : Std.Refl Grows := ⟨fun _ => ⟨[], rfl⟩⟩

instance : IsTrans DbState Grows where
  trans _ _ _ h h' := by
    obtain ⟨later, hlater⟩ := h
    obtain ⟨later', hlater'⟩ := h'
    exact ⟨later' ++ later, by rw [hlater', hlater, List.append_assoc]⟩

lemma Restarting.of_succeeded (hs : FromEmpty s.history) (h : Succeeded s.history)
    (hgrows : Grows s s') : Restarting s' := by
  obtain ⟨later, hlater⟩ := hgrows
  refine ⟨?_, fun hno => absurd ?_ hno⟩
  · rw [hlater]
    exact hs.append h later
  · rw [hlater]
    exact h.append later

lemma grows_completeInstall : Prog.Within Grows (completeInstall env) := by
  have hraise : ∀ e, Prog.Within Grows (raise e) := fun e => (extends_raise e).mono fun _ _ h => h.1
  have hupdate : Prog.Within Grows (updateDatabaseSchema env.update) :=
    (extends_update _).mono fun _ _ h => h.1
  have hset : Prog.Within Grows (setDatabaseInitialized env) := fun s =>
    ⟨[], frame_setDatabaseInitialized s⟩
  exact .bind (hraise _) fun _ => .bind (hraise _) fun _ => .bind hupdate fun _ => hset

/-- Attempts that clean up start on an empty database each. -/
lemma cleanAttempts_wp (hclean : Clean env) (hattempted : Attempted env) {n : ℕ}
    (hn : n ≤ Core.installMaxAttempts)
    (hreached : ∀ m < Core.installMaxAttempts, n ≤ m →
      ∃ returnCode ≠ 0, (env.installPreConfigured m).returnCode = .ok returnCode)
    (hs : FromEmpty s.history) (hempty : s.tables = []) :
    (installAttempts env true n).wp (fun _ s' => FromEmpty s'.history ∧ Succeeded s'.history)
      (fun _ s' => Restarting s') s := by
  induction n generalizing s with
  | zero => exact ⟨hs, fun _ => hempty⟩
  | succ n ih =>
    have hclean := hclean hattempted n hn fun m hm hlt => hreached m hm hlt
    have hscript : (installPreConfigured (env.installPreConfigured n)).wp
        (fun returnCode s₁ => (env.installPreConfigured n).returnCode = .ok returnCode ∧
          s₁ = (installPreConfigured (env.installPreConfigured n) s).2)
        (fun e s₁ => (env.installPreConfigured n).returnCode = .error e ∧
          s₁ = (installPreConfigured (env.installPreConfigured n) s).2) s :=
      Prog.wp_iff.2 ⟨fun _ _ h => ⟨congrArg Prod.fst h, (congrArg Prod.snd h).symm⟩,
        fun _ _ h => ⟨congrArg Prod.fst h, (congrArg Prod.snd h).symm⟩⟩
    generalize hrun : env.installPreConfigured n = script at hclean hscript
    have hstarted : FromEmpty (.attempt s.tables script.succeeded :: s.history) :=
      ⟨fun _ => hempty, hs⟩
    show (installPreConfigured (env.installPreConfigured n) >>= _).wp _ _ s
    rw [hrun]
    refine Prog.wp_bind.2 (Prog.wp_mono hscript ?_ ?_)
    · rintro returnCode s₁ ⟨hcode, rfl⟩
      refine Prog.wp_ite.2 ⟨fun hzero => ?_, fun hnonzero => ?_⟩
      · have hsucceeded : script.succeeded = true := by
          rw [ScriptRun.succeeded, hcode, hzero]
          rfl
        exact ⟨hstarted, s.tables, hsucceeded ▸ List.mem_cons_self⟩
      · have hfailed : script.succeeded = false := by
          rw [ScriptRun.succeeded, hcode]
          simpa using hnonzero
        have hleaves : (installPreConfigured script s).2.tables = script.leaves [] := by
          rw [← hempty]
          rfl
        -- either the script has left nothing, or the reset gets through
        have hcleared : (if n = 0 then pure ()
              else if true then resetPartiallyInitializedDatabase (env.reset n)
              else retryUpdate (env.retryUpdate n) : Prog DbState Exc Unit).wp
            (fun _ s₂ => s₂.tables = [] ∧ s₂.history = (installPreConfigured script s).2.history)
            (fun _ s₂ => s₂.tables = [] ∧ s₂.history = (installPreConfigured script s).2.history)
            (installPreConfigured script s).2 := by
          rcases hclean hfailed with hnothing | ⟨hnotLast, -, hthrough⟩
          · rw [hnothing] at hleaves
            refine Prog.wp_ite.2 ⟨fun _ => ⟨hleaves, rfl⟩, fun _ => ?_⟩
            refine Prog.wp_mono ((shrinks_reset (env.reset n)).wp _) (fun _ s₂ h => ?_)
              fun _ s₂ h => ?_ <;>
              exact ⟨List.subset_nil.1 (hleaves ▸ h.1), h.2⟩
          · rw [if_neg hnotLast]
            exact Prog.wp_mono (reset_getsThrough hthrough _) (fun _ _ h => h) fun _ _ h => h.elim
        refine Prog.wp_bind.2 (Prog.wp_mono hcleared ?_ ?_)
        · rintro - s₂ ⟨hempty₂, hhistory₂⟩
          refine ih (by omega) (fun m hm hle => ?_) (hhistory₂ ▸ hstarted) hempty₂
          -- this attempt has failed, and the later ones were to be reached
          rcases Nat.eq_or_lt_of_le hle with rfl | hlt
          · exact ⟨returnCode, hnonzero, hrun ▸ hcode⟩
          · exact hreached m hm hlt
        · rintro - s₂ ⟨hempty₂, hhistory₂⟩
          exact ⟨hhistory₂ ▸ hstarted, fun _ => hempty₂⟩
    · rintro e s₁ ⟨hcode, rfl⟩
      refine ⟨hstarted, fun _ => ?_⟩
      have hfailed : script.succeeded = false := by
        rw [ScriptRun.succeeded, hcode]
      rcases hclean hfailed with hnothing | ⟨-, ⟨returnCode, hok⟩, -⟩
      · rw [← hempty] at hnothing
        exact hnothing.trans hempty
      · rw [hok] at hcode
        cases hcode

lemma restarting_reconcile (hclean : Succeeded s.history ∨ Clean env) (h : Restarting s) :
    Restarting (reconcileConfiguration env s).2 := by
  refine reconcile_wp h fun hattempted => ?_
  by_cases hsucceeded : Succeeded s.history
  · have hgrows : Prog.Within Grows
        (installAttempts env s.tables.isEmpty Core.installMaxAttempts) :=
      (extends_installAttempts _ _).mono fun _ _ h => h.1
    exact Prog.wp_mono (hgrows.wp s) (fun _ s₁ hs₁ => .of_succeeded h.fromEmpty hsucceeded
      (trans_of Grows hs₁ (grows_completeInstall s₁))) fun _ _ hs₁ =>
      .of_succeeded h.fromEmpty hsucceeded hs₁
  · have hempty := h.tables hsucceeded
    have hreached : ∀ m < Core.installMaxAttempts, Core.installMaxAttempts ≤ m →
        ∃ returnCode ≠ 0, (env.installPreConfigured m).returnCode = .ok returnCode := by
      intro m hlt hle
      omega
    rw [hempty, List.isEmpty_nil]
    refine Prog.wp_mono (cleanAttempts_wp (hclean.resolve_left hsucceeded) hattempted (le_refl _)
      hreached h.fromEmpty hempty) (fun _ s₁ hs₁ => ?_) fun _ _ h => h
    exact .of_succeeded hs₁.1 hs₁.2 (grows_completeInstall s₁)

/-- In a run of calls that clean up as long as no attempt has succeeded, no attempt before starts
on a table of another; in every run, the flag table tells that an attempt and the update after it
have succeeded. -/
theorem install_restarts_from_empty (s : DbState) :
    ((machine.restrict fun s env => Succeeded s.history ∨ Clean env).Reachable s →
      FromEmpty s.history) ∧
    (machine.Reachable s → installedFlagTable ∈ s.tables → Completed s.history) := by
  have hrestarting : (machine.restrict fun s env => Succeeded s.history ∨ Clean env).Invariant
      Restarting := by
    refine ⟨?_, ?_⟩
    · rintro s rfl
      exact ⟨trivial, fun _ => rfl⟩
    · rintro s env s' hs ⟨hclean, rfl⟩
      exact restarting_reconcile hclean hs
  have hflagged : machine.Invariant Flagged := by
    refine ⟨?_, ?_⟩
    · rintro s rfl
      exact nofun
    · rintro s env s' hs rfl
      exact flagged_reconcile hs
  exact ⟨fun h => (hrestarting.reachable h).fromEmpty, fun h => hflagged.reachable h⟩

/-- A call whose attempts fail and leave a table each. -/
def failing : InstallEnv where
  installPreConfigured _ := { returnCode := .ok 1, tables := ["page"] }

/-- A call whose first attempt fails and leaves a table. -/
def flaky : InstallEnv where
  installPreConfigured n :=
    if n = 2 then { returnCode := .ok 1, tables := ["page"] } else { tables := ["page", "user"] }

/-- A reset lets the second attempt start from empty. -/
theorem install_restarts_from_empty_flaky :
    FromEmpty (reconcileConfiguration flaky {}).2.history := by
  refine (install_restarts_from_empty _).1 (.step (.init rfl) ⟨.inr fun _ n hn _ hfailed => ?_, rfl⟩)
  have htwo : n = 2 := by
    by_contra hne
    have hrun : flaky.installPreConfigured n = { tables := ["page", "user"] } := if_neg hne
    rw [hrun] at hfailed
    cases hfailed
  subst htwo
  refine .inr ⟨by decide, ⟨1, rfl⟩, 0, by decide, ?_, nofun⟩
  rintro e (⟨call, h⟩ | ⟨table, h⟩) <;> cases h

/-- The second hook starts on the table that the last attempt of the first one has left. -/
theorem not_install_restarts_from_empty : ¬ ∀ s, machine.Reachable s → FromEmpty s.history := by
  intro h
  have hfirst : machine.Reachable (reconcileConfiguration failing {}).2 := .step (.init rfl) rfl
  have hsecond := h _ (.step hfirst (rfl : _ = (reconcileConfiguration {} _).2))
  have hhistory : (reconcileConfiguration {} (reconcileConfiguration failing {}).2).2.history =
      .update true :: .attempt ["page"] true :: List.replicate 3 (.attempt [] false) := by
    decide +kernel
  rw [hhistory] at hsecond
  refine List.cons_ne_nil _ _ (hsecond.1 ?_)
  rintro ⟨tables, hmem⟩
  cases List.eq_of_mem_replicate hmem

end Installation
end MediawikiCharm
