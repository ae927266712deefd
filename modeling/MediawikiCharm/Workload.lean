/-
The workload container and what the charm asks of its surroundings (`container.py`,
`mediawiki/_base.py`).

The container has files and Pebble services.  Everything the charm learns from outside the
container, and whether a call raises, is an answer of the environment `Env`: the answers
are functions of a clock that ticks with every question, so that one question can have a
new answer each time.  A step of the charm that leaves the modelled state alone is such a
question too.

Beside the state stand the histories of the composer commands, of the rebuilds of the
localisation cache, of the late settings and of what was published and acknowledged to the
peers.
-/
import MediawikiCharm.Exceptions
import MediawikiCharm.Lib.Program
import MediawikiCharm.Lib.PyText
import MediawikiCharm.Pebble
import Mathlib.Data.String.Basic

namespace MediawikiCharm

/-- The files the model follows. -/
inductive Path
  /-- `composer.user.json` -/
  | userComposer
  /-- `composer.lock` -/
  | composerLock
  /-- `LocalSettings.php` -/
  | localSettings
  /-- `UserSettings.php` -/
  | userSettings
  /-- `LateSettings.php` -/
  | lateSettings
  /-- `JobRunnerConfig.json` -/
  | jobRunnerConfig
  /-- `robots.txt` -/
  | robotsTxt
  /-- `RESTART_REQUIRED_MARKER` -/
  | restartRequired
  /-- `LOCALISATION_REBUILD_MARKER` -/
  | localisationRebuild
deriving DecidableEq

/-- What a file holds. -/
inductive Content
  | text (s : String)
  /-- bytes that are not UTF-8 -/
  | undecodable
deriving DecidableEq

/-- Steps of the charm that leave the modelled state alone and may raise. -/
inductive Step
  /-- a call on a file or a directory -/
  | file
  /-- `load_charm_config` -/
  | loadCharmConfig
  /-- `_replica_secrets` -/
  | replicaSecrets
  /-- `_ensure_static_assets_symlink` -/
  | staticAssetsSymlink
  /-- `_ssh_config_reconciliation` -/
  | sshConfigReconciliation
  /-- the search for `MW_VERSION` in `version` -/
  | version
  /-- `_reset_partially_initialized_database` -/
  | resetPartiallyInitializedDatabase
  /-- `update_database_schema` -/
  | updateDatabaseSchema
  /-- `_set_database_initialized` -/
  | setDatabaseInitialized
  /-- `_oauth.update_client_config` -/
  | updateClientConfig
deriving DecidableEq

/-- Questions with a yes or no, each of which may raise. -/
inductive Flag
  /-- `_container.can_connect()` -/
  | canConnect
  /-- `storage_is_ready(CACHE_STORAGE_NAME, …)` -/
  | storageIsReady
  /-- `_database.has_relation()` -/
  | hasRelation
  /-- `_database.is_relation_ready()` -/
  | isRelationReady
  /-- `_valkey.get_connection_info()` and `_certificate_transfer.reconcile(…)` -/
  | certificateTransferReconcile
  /-- `_tls_reconciliation()` -/
  | tlsReconciliation
  /-- `_is_database_initialized()` -/
  | isDatabaseInitialized
  /-- `_is_database_empty()` -/
  | isDatabaseEmpty
  /-- `_valkey.get_connection_info()` is not `None` -/
  | hasConnectionInfo
deriving DecidableEq

/-- The parts of `LateSettings.php` that are rendered from relation data. -/
inductive Fragment
  | proxySettings | databaseSettings | shellboxSettings | authSettings | smtpSettings | s3Settings
deriving DecidableEq

/-- The maintenance scripts. -/
inductive Script
  | rebuildLocalisationCache
  | installPreConfigured
deriving DecidableEq

/-- A Pebble call that raises. -/
structure PebbleFailure where
  error : Exc
  /-- What it has done nevertheless. -/
  effect : String → Effect := fun _ => .untouched

/-- How a composer command ends: with a return code or an exception of `_run_cli`, and with
the `composer.lock` that an update leaves. -/
structure ComposerResult where
  result : Except Exc ℤ
  lock : Option Content

/-- The cache settings rendered for a Valkey connection. -/
structure CacheSettings where
  php : String
  jobRunnerConfig : String

/-- The answers of the surroundings. -/
structure Env where
  /-- The exception of a step, if it raises. -/
  step : Step → ℕ → Option Exc := fun _ _ => none
  flag : Flag → ℕ → Except Exc Bool := fun _ _ => .ok true
  text : Fragment → ℕ → Except Exc String := fun _ _ => .ok ""
  script : Script → ℕ → Except Exc ℤ := fun _ _ => .ok 0
  composer : ℕ → ComposerResult
  /-- The settings for the Valkey connection; `none` without one. -/
  cacheSettings : ℕ → Except Exc (Option CacheSettings) := fun _ => .ok none
  pebble : PebbleCall → ℕ → Option PebbleFailure := fun _ _ => none
  /-- How often a non-leader looks for the installation before its deadline. -/
  polls : ℕ := 0

/-- Surroundings in which nothing raises and every composer command ends in one way. -/
def Env.quiet (composer : ComposerResult) : Env := { composer := fun _ => composer }

/-- File operations succeed. -/
def Env.FilesSucceed (env : Env) : Prop := ∀ n, env.step .file n = none

/-- A composer command that was run. -/
structure ComposerRun where
  /-- `update` rather than `install`. -/
  update : Bool
  /-- `composer.user.json` when it was started. -/
  userComposer : Option Content
  /-- `composer.lock` when it was started. -/
  lock : Option Content
  result : Except Exc ℤ
  /-- `composer.lock` when it ended. -/
  lockAfter : Option Content

/-- The command has succeeded. -/
def ComposerRun.Succeeded (r : ComposerRun) : Prop := r.result = .ok 0

instance (r : ComposerRun) : Decidable r.Succeeded :=
  match h : r.result with
  | .ok n => decidable_of_iff (n = 0) (by simp [ComposerRun.Succeeded, h])
  | .error _ => .isFalse (by simp [ComposerRun.Succeeded, h])

/-- A successful rebuild of the localisation cache. -/
structure Rebuild where
  /-- The version of the MediaWiki that ran it. -/
  version : String
  userSettings : Option Content
  lateSettings : Option Content
  localSettings : Option Content
  /-- How many composer commands had succeeded before it. -/
  composerSuccesses : ℕ

/-- What was published to the peers. -/
structure Publication where
  composerLock : String
  /-- The Composer configuration that was hashed, as `json.dumps` prints it. -/
  composer : String
  /-- The composer commands that were run before. -/
  composerRuns : List ComposerRun

/-- The container and the histories. -/
structure Workload where
  files : Path → Option Content := fun _ => none
  pebble : Pebble := {}
  clock : ℕ := 0
  composerRuns : List ComposerRun := []
  rebuilds : List Rebuild := []
  published : List Publication := []
  /-- What `_push_late_settings` has rendered. -/
  rendered : List String := []
  /-- The operation modes that were acknowledged. -/
  acknowledged : List OperationMode := []

namespace Workload

/-- How many composer commands have succeeded. -/
def composerSuccesses (w : Workload) : ℕ :=
  (w.composerRuns.filter fun r => decide r.Succeeded).length

/-- Replace the content of a file. -/
def setFile (path : Path) (content : Option Content) (w : Workload) : Workload :=
  { w with files := Function.update w.files path content }

/-- Replace the state of Pebble. -/
def setPebble (p : Pebble) (w : Workload) : Workload := { w with pebble := p }

/-- The states differ at most in the clock. -/
def Ticked (w w' : Workload) : Prop := ∃ n, w' = { w with clock := n }

lemma Ticked.refl (w : Workload) : Ticked w w := ⟨w.clock, rfl⟩

lemma Ticked.trans {w w' w'' : Workload} (h : Ticked w w') (h' : Ticked w' w'') :
    Ticked w w'' := by
  obtain ⟨n, rfl⟩ := h
  obtain ⟨m, rfl⟩ := h'
  exact ⟨m, rfl⟩

@[simp] lemma setFile_pebble (p : Path) (c : Option Content) (w : Workload) :
    (w.setFile p c).pebble = w.pebble := rfl

@[simp] lemma setFile_composerRuns (p : Path) (c : Option Content) (w : Workload) :
    (w.setFile p c).composerRuns = w.composerRuns := rfl

@[simp] lemma setFile_rebuilds (p : Path) (c : Option Content) (w : Workload) :
    (w.setFile p c).rebuilds = w.rebuilds := rfl

@[simp] lemma setFile_files_self (p : Path) (c : Option Content) (w : Workload) :
    (w.setFile p c).files p = c := Function.update_self ..

lemma setFile_files_of_ne {p q : Path} (h : q ≠ p) (c : Option Content) (w : Workload) :
    (w.setFile p c).files q = w.files q := Function.update_of_ne h ..

end Workload

open Workload

/-! ### Questions to the surroundings -/

/-- Ask for an answer; the clock ticks. -/
def ask {α : Type} (answer : ℕ → Except Exc α) : Prog Workload Exc α := fun w =>
  (answer w.clock, { w with clock := w.clock + 1 })

variable (env : Env)

/-- A step that leaves the modelled state alone. -/
def doStep (step : Step) : Prog Workload Exc Unit :=
  ask fun n => match env.step step n with
    | some e => .error e
    | none => .ok ()

/-- A question with a yes or no. -/
def askFlag (flag : Flag) : Prog Workload Exc Bool := ask (env.flag flag)

/-- A call to Pebble that only asks. -/
def pebbleQuery (call : PebbleCall) : Prog Workload Exc Unit :=
  ask fun n => match env.pebble call n with
    | some f => .error f.error
    | none => .ok ()

/-- A call to Pebble that changes its state by `change`, or raises and then has some of the
`intended` effects. -/
def pebbleCall (call : PebbleCall) (intended : Pebble → String → Effect)
    (change : Pebble → Pebble) : Prog Workload Exc Unit := fun w =>
  match env.pebble call w.clock with
  | some f =>
    (.error f.error, { w with
      clock := w.clock + 1
      pebble := w.pebble.touch (Pebble.partialEffect (intended w.pebble) f.effect) })
  | none => (.ok (), { w with clock := w.clock + 1, pebble := change w.pebble })

/-! ### Files -/

/-- `path.exists()` -/
def pathExists (path : Path) : Prog Workload Exc Bool := do
  doStep env .file
  let w ← Prog.get
  pure (w.files path).isSome

/-- What `read_text` makes of the text of a file. -/
def readAs (s : String) : String := String.ofList (PyText.universalNewlines s.toList)

/-- `path.read_text()` -/
def readText (path : Path) : Prog Workload Exc String := do
  doStep env .file
  let w ← Prog.get
  match w.files path with
  | some (.text s) => pure (readAs s)
  | some .undecodable => throw (.other "UnicodeDecodeError")
  | none => throw (.other "FileNotFoundError")

/-- `path.write_text(content, …)` -/
def writeText (path : Path) (content : String) : Prog Workload Exc Unit := do
  doStep env .file
  Prog.modify (setFile path (some (.text content)))

/-- `path.unlink(missing_ok=True)` -/
def unlink (path : Path) : Prog Workload Exc Unit := do
  doStep env .file
  Prog.modify (setFile path none)

/-- `path.mkdir(…)` -/
def mkdir : Prog Workload Exc Unit := doStep env .file

/-- `ensure_contents(path, content, …)` -/
def ensureContents (path : Path) (content : String) : Prog Workload Exc Bool := do
  doStep env .file
  let w ← Prog.get
  if w.files path = some (.text content) then pure false
  else
    Prog.modify (setFile path (some (.text content)))
    pure true

/-! ### What a program may change -/

/-- A part of the container or one of its histories. -/
inductive Part
  | file (path : Path)
  | composerRuns
  | rebuilds
  | published
  | rendered
  | acknowledged
deriving DecidableEq

/-- The part is the same in both states. -/
def Part.Same : Part → Workload → Workload → Prop
  | .file path, w, w' => w'.files path = w.files path
  | .composerRuns, w, w' => w'.composerRuns = w.composerRuns
  | .rebuilds, w, w' => w'.rebuilds = w.rebuilds
  | .published, w, w' => w'.published = w.published
  | .rendered, w, w' => w'.rendered = w.rendered
  | .acknowledged, w, w' => w'.acknowledged = w.acknowledged

/-- Only the given parts differ. -/
def Changes (parts : List Part) (w w' : Workload) : Prop := ∀ p ∉ parts, p.Same w w'

lemma Part.same_refl (p : Part) (w : Workload) : p.Same w w := by
  cases p <;> rfl

lemma Part.Same.trans {p : Part} {w w' w'' : Workload} (h : p.Same w w') (h' : p.Same w' w'') :
    p.Same w w'' := by
  cases p <;> exact Eq.trans h' h

lemma changes_refl (parts : List Part) (w : Workload) : Changes parts w w :=
  fun p _ => p.same_refl w

lemma Changes.trans {parts : List Part} {w w' w'' : Workload} (h : Changes parts w w')
    (h' : Changes parts w' w'') : Changes parts w w'' :=
  fun p hp => (h p hp).trans (h' p hp)

instance (parts : List Part) : Std.Refl (Changes parts) := ⟨changes_refl parts⟩

instance (parts : List Part) : IsTrans Workload (Changes parts) := ⟨fun _ _ _ => Changes.trans⟩

lemma Changes.mono {parts parts' : List Part} {w w' : Workload} (h : Changes parts w w')
    (hsub : parts ⊆ parts') : Changes parts' w w' := fun p hp => h p fun hp' => hp (hsub hp')

lemma changes_of_ticked {parts : List Part} {w w' : Workload} (h : Ticked w w') :
    Changes parts w w' := by
  obtain ⟨n, rfl⟩ := h
  intro p _
  cases p <;> rfl

lemma changes_setPebble {parts : List Part} (p : Pebble) (w : Workload) :
    Changes parts w (w.setPebble p) := by
  intro q _
  cases q <;> rfl

lemma changes_setFile {parts : List Part} {path : Path} (hp : .file path ∈ parts)
    (c : Option Content) (w : Workload) : Changes parts w (w.setFile path c) := by
  intro q hq
  cases q with
  | file path' =>
    refine setFile_files_of_ne (fun h => hq ?_) c w
    rw [h]
    exact hp
  | _ => rfl

section Within

variable {env : Env} {parts : List Part}

lemma within_ask {α : Type} (answer : ℕ → Except Exc α) :
    Prog.Within (Changes parts) (ask answer) := fun w => changes_of_ticked ⟨w.clock + 1, rfl⟩

lemma within_doStep (step : Step) : Prog.Within (Changes parts) (doStep env step) := within_ask _

lemma within_askFlag (flag : Flag) : Prog.Within (Changes parts) (askFlag env flag) :=
  within_ask _

lemma within_pebbleQuery (call : PebbleCall) :
    Prog.Within (Changes parts) (pebbleQuery env call) := within_ask _

lemma within_pebbleCall (call : PebbleCall) (intended : Pebble → String → Effect)
    (change : Pebble → Pebble) :
    Prog.Within (Changes parts) (pebbleCall env call intended change) := by
  intro w
  have hset : ∀ p, Changes parts w { w with clock := w.clock + 1, pebble := p } := fun p =>
    (changes_setPebble p w).trans (changes_of_ticked ⟨w.clock + 1, rfl⟩)
  unfold pebbleCall
  cases env.pebble call w.clock with
  | none => exact hset _
  | some f => exact hset _

lemma within_pathExists (path : Path) : Prog.Within (Changes parts) (pathExists env path) :=
  .bind (within_doStep _) fun _ => .bind .get fun _ => .pure _

lemma within_readText (path : Path) : Prog.Within (Changes parts) (readText env path) := by
  refine .bind (within_doStep _) fun _ => .bind .get fun w => ?_
  split
  · exact .pure _
  · exact .throw _
  · exact .throw _

lemma within_writeText {path : Path} (hp : .file path ∈ parts) (content : String) :
    Prog.Within (Changes parts) (writeText env path content) :=
  .bind (within_doStep _) fun _ => .modify (changes_setFile hp _)

lemma within_unlink {path : Path} (hp : .file path ∈ parts) :
    Prog.Within (Changes parts) (unlink env path) :=
  .bind (within_doStep _) fun _ => .modify (changes_setFile hp _)

lemma within_mkdir : Prog.Within (Changes parts) (mkdir env) := within_doStep _

lemma within_ensureContents {path : Path} (hp : .file path ∈ parts) (content : String) :
    Prog.Within (Changes parts) (ensureContents env path content) :=
  .bind (within_doStep _) fun _ => .bind .get fun _ =>
    .ite (.pure _) (.bind (.modify (changes_setFile hp _)) fun _ => .pure _)

end Within

/-! ### What the questions and the file operations do -/

variable {env} {w : Workload}

lemma wp_ask {α : Type} {answer : ℕ → Except Exc α} {Q : α → Workload → Prop}
    {E : Exc → Workload → Prop} (hQ : ∀ a w', Ticked w w' → answer w.clock = .ok a → Q a w')
    (hE : ∀ e w', Ticked w w' → answer w.clock = .error e → E e w') : (ask answer).wp Q E w := by
  unfold Prog.wp ask
  cases h : answer w.clock with
  | ok a => exact hQ a _ ⟨_, rfl⟩ h
  | error e => exact hE e _ ⟨_, rfl⟩ h

lemma wp_doStep {step : Step} {Q : Unit → Workload → Prop} {E : Exc → Workload → Prop}
    (hQ : ∀ w', Ticked w w' → Q () w')
    (hE : ∀ e w', Ticked w w' → env.step step w.clock = some e → E e w') :
    (doStep env step).wp Q E w := by
  refine wp_ask (fun _ w' ht _ => hQ w' ht) fun e w' ht h => ?_
  split at h
  · next e' he =>
    obtain rfl := Except.error.inj h
    exact hE e' w' ht he
  · cases h

lemma wp_askFlag {flag : Flag} {Q : Bool → Workload → Prop} {E : Exc → Workload → Prop}
    (hQ : ∀ b w', Ticked w w' → Q b w') (hE : ∀ e w', Ticked w w' → E e w') :
    (askFlag env flag).wp Q E w :=
  wp_ask (fun b w' ht _ => hQ b w' ht) fun e w' ht _ => hE e w' ht

lemma wp_pebbleQuery {call : PebbleCall} {Q : Unit → Workload → Prop} {E : Exc → Workload → Prop}
    (hQ : ∀ w', Ticked w w' → Q () w')
    (hE : ∀ e w', Ticked w w' → env.pebble call w.clock ≠ none → E e w') :
    (pebbleQuery env call).wp Q E w := by
  refine wp_ask (fun _ w' ht _ => hQ w' ht) fun e w' ht h => hE e w' ht fun hn => ?_
  rw [hn] at h
  cases h

lemma wp_pebbleCall {call : PebbleCall} {intended : Pebble → String → Effect}
    {change : Pebble → Pebble} {Q : Unit → Workload → Prop} {E : Exc → Workload → Prop}
    (hQ : ∀ w', Ticked (w.setPebble (change w.pebble)) w' → Q () w')
    (hE : ∀ e w' effect, env.pebble call w.clock ≠ none →
      Ticked (w.setPebble (w.pebble.touch (Pebble.partialEffect (intended w.pebble) effect))) w' →
      E e w') : (pebbleCall env call intended change).wp Q E w := by
  unfold Prog.wp pebbleCall
  cases h : env.pebble call w.clock with
  | none => exact hQ _ ⟨_, rfl⟩
  | some f => exact hE f.error _ f.effect (by simp [h]) ⟨_, rfl⟩

lemma wp_pathExists {path : Path} {Q : Bool → Workload → Prop} {E : Exc → Workload → Prop}
    (hQ : ∀ w', Ticked w w' → Q (w.files path).isSome w')
    (hE : ∀ e w', Ticked w w' → ¬ env.FilesSucceed → E e w') : (pathExists env path).wp Q E w := by
  refine Prog.wp_bind.2 (wp_doStep (fun w' ht => ?_) fun e w' ht he => hE e w' ht fun h => ?_)
  · have h := hQ w' ht
    obtain ⟨n, rfl⟩ := ht
    exact h
  · rw [h] at he
    cases he

lemma wp_readText {path : Path} {Q : String → Workload → Prop} {E : Exc → Workload → Prop}
    (hQ : ∀ s w', Ticked w w' → w.files path = some (.text s) → Q (readAs s) w')
    (hE : ∀ e w', Ticked w w' → ¬ env.FilesSucceed ∨ (∀ s, w.files path ≠ some (.text s)) → E e w') :
    (readText env path).wp Q E w := by
  refine Prog.wp_bind.2 (wp_doStep (fun w' ht => ?_) fun e w' ht he => hE e w' ht (.inl fun h => ?_))
  · obtain ⟨n, rfl⟩ := ht
    refine Prog.wp_bind.2 (Prog.wp_get.2 ?_)
    dsimp only
    split
    · next s hs => exact hQ s _ ⟨n, rfl⟩ hs
    · next hs => exact hE _ _ ⟨n, rfl⟩ (.inr fun s h => by rw [hs] at h; cases h)
    · next hs => exact hE _ _ ⟨n, rfl⟩ (.inr fun s h => by rw [hs] at h; cases h)
  · rw [h] at he
    cases he

lemma wp_writeText {path : Path} {content : String} {Q : Unit → Workload → Prop}
    {E : Exc → Workload → Prop}
    (hQ : ∀ w', Ticked (w.setFile path (some (.text content))) w' → Q () w')
    (hE : ∀ e w', Ticked w w' → ¬ env.FilesSucceed → E e w') :
    (writeText env path content).wp Q E w := by
  refine Prog.wp_bind.2 (wp_doStep (fun w' ht => ?_) fun e w' ht he => hE e w' ht fun h => ?_)
  · obtain ⟨n, rfl⟩ := ht
    exact hQ _ ⟨n, rfl⟩
  · rw [h] at he
    cases he

lemma wp_unlink {path : Path} {Q : Unit → Workload → Prop} {E : Exc → Workload → Prop}
    (hQ : ∀ w', Ticked (w.setFile path none) w' → Q () w')
    (hE : ∀ e w', Ticked w w' → ¬ env.FilesSucceed → E e w') : (unlink env path).wp Q E w := by
  refine Prog.wp_bind.2 (wp_doStep (fun w' ht => ?_) fun e w' ht he => hE e w' ht fun h => ?_)
  · obtain ⟨n, rfl⟩ := ht
    exact hQ _ ⟨n, rfl⟩
  · rw [h] at he
    cases he

lemma wp_ensureContents {path : Path} {content : String} {Q : Bool → Workload → Prop}
    {E : Exc → Workload → Prop}
    (hsame : ∀ w', Ticked w w' → w.files path = some (.text content) → Q false w')
    (hnew : ∀ w', Ticked (w.setFile path (some (.text content))) w' → Q true w')
    (hE : ∀ e w', Ticked w w' → ¬ env.FilesSucceed → E e w') :
    (ensureContents env path content).wp Q E w := by
  refine Prog.wp_bind.2 (wp_doStep (fun w' ht => ?_) fun e w' ht he => hE e w' ht fun h => ?_)
  · obtain ⟨n, rfl⟩ := ht
    refine Prog.wp_bind.2 (Prog.wp_get.2 (Prog.wp_ite.2 ⟨fun h => ?_, fun _ => ?_⟩))
    · exact hsame _ ⟨n, rfl⟩ h
    · exact hnew _ ⟨n, rfl⟩
  · rw [h] at he
    cases he

lemma toList_readAs (s : String) : (readAs s).toList = PyText.universalNewlines s.toList :=
  String.toList_ofList

/-- A text without carriage returns is read as it was written. -/
lemma readAs_eq_self_iff {s : String} : readAs s = s ↔ '\r' ∉ s.toList := by
  rw [← PyText.universalNewlines_eq_self_iff, ← toList_readAs, String.toList_inj]

end MediawikiCharm
