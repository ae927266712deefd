/-
A configuration leaves the services alone.

The functions that configure a unit reach Pebble only to look at its plan and its services.
Whatever they raise, the plan and the configurations the services run with stay as they are;
only what the services owe may change.  The reconciliation of the services changes the plan by
`add_layer` alone.
-/
import MediawikiCharm.Core

namespace MediawikiCharm
namespace Undisturbed

open Json Workload Services Settings Composer Peers MediawikiCharm.Core

/-- The plan, and the configurations the services run with. -/
def serviceState (w : Workload) :
    (String → Option ServiceConfig) × (String → Option ServiceConfig) :=
  (w.pebble.plan, w.pebble.running)

variable {F : Type} {env : Env} {charm : Charm F}

/-! ### Questions and files -/

/-- The program leaves the services alone. -/
abbrev Leaves {α : Type} (x : Prog Workload Exc α) : Prop := Prog.Frame serviceState x

lemma leaves_ask {α : Type} (answer : ℕ → Except Exc α) : Leaves (ask answer) := fun _ => rfl

lemma leaves_doStep (step : Step) : Leaves (doStep env step) := leaves_ask _

lemma leaves_askFlag (flag : Flag) : Leaves (askFlag env flag) := leaves_ask _

lemma leaves_pebbleQuery (call : PebbleCall) : Leaves (pebbleQuery env call) := leaves_ask _

lemma leaves_setFile (path : Path) (content : Option Content) :
    Leaves (Prog.modify (setFile path content) : Prog Workload Exc Unit) := .modify fun _ => rfl

lemma leaves_mkdir : Leaves (mkdir env) := leaves_doStep _

lemma leaves_pathExists (path : Path) : Leaves (pathExists env path) :=
  .bind (leaves_doStep _) fun _ => .bind .get fun _ => .pure _

lemma leaves_readText (path : Path) : Leaves (readText env path) := by
  refine .bind (leaves_doStep _) fun _ => .bind .get fun w => ?_
  split
  · exact .pure _
  · exact .throw _
  · exact .throw _

lemma leaves_writeText (path : Path) (content : String) : Leaves (writeText env path content) :=
  .bind (leaves_doStep _) fun _ => leaves_setFile _ _

lemma leaves_unlink (path : Path) : Leaves (unlink env path) :=
  .bind (leaves_doStep _) fun _ => leaves_setFile _ _

lemma leaves_ensureContents (path : Path) (content : String) :
    Leaves (ensureContents env path content) :=
  .bind (leaves_doStep _) fun _ => .bind .get fun _ =>
    .ite (.pure _) (.bind (leaves_setFile _ _) fun _ => .pure _)

/-! ### The markers and the settings -/

/-- A request for a restart changes what the services owe. -/
lemma leaves_requestServiceRestart (services : List String) :
    Leaves (requestServiceRestart env services) := by
  have hpending : Leaves (pendingServiceRestarts env) := .bind (leaves_pathExists _) fun _ =>
    .ite (.pure _) (.bind (leaves_readText _) fun _ => .pure _)
  exact .bind hpending fun _ => .bind (.ite (.pure _) (.bind leaves_mkdir fun _ =>
    leaves_writeText _ _)) fun _ => .modify fun _ => rfl

lemma leaves_requestLocalisationRebuild : Leaves (requestLocalisationRebuild env) :=
  .bind (leaves_pathExists _) fun _ =>
    .ite (.pure _) (.bind leaves_mkdir fun _ => leaves_writeText _ _)

lemma leaves_getCacheSettings : Leaves (getCacheSettings env) := by
  refine .bind (leaves_ask _) fun settings => ?_
  cases settings with
  | none => exact .bind (leaves_unlink _) fun _ => .pure _
  | some settings =>
    exact .bind (leaves_ensureContents _ _) fun _ =>
      .bind (.ite (leaves_requestServiceRestart _) (.pure _)) fun _ => .pure _

lemma leaves_deferring (fragment : Fragment) (deferred : Exc → Bool) (instead : String) :
    Leaves (deferring env fragment deferred instead) :=
  .tryCatch (.bind (leaves_ask _) fun _ => .pure _) fun _ => .ite (.pure _) (.throw _)

lemma leaves_renderFragments : Leaves (renderFragments env) :=
  .bind (leaves_ask _) fun _ => .bind (leaves_ask _) fun _ => .bind leaves_getCacheSettings fun _ =>
    .bind (leaves_ask _) fun _ => .bind (leaves_deferring _ _ _) fun _ =>
    .bind (leaves_deferring _ _ _) fun _ => .bind (leaves_deferring _ _ _) fun _ => .pure _

lemma leaves_pushLateSettings (secrets : MediaWikiSecrets) (mode : OperationMode)
    (message : Option String) : Leaves (pushLateSettings env charm secrets mode message) := by
  refine .bind leaves_mkdir fun _ => .bind leaves_renderFragments fun (_, deferredError) =>
    .bind (leaves_ensureContents _ _) fun _ => .bind (.modify fun _ => rfl) fun _ => ?_
  cases deferredError with
  | none => exact .pure _
  | some e =>
    exact .bind (.ite leaves_requestLocalisationRebuild (.pure _)) fun _ => .throw _

lemma leaves_settingsReconciliation (secrets : MediaWikiSecrets) (mode : OperationMode)
    (message : Option String) :
    Leaves (settingsReconciliation env charm secrets mode message) := by
  have hrecord : ∀ changed : Bool, Leaves (if changed then recordSettingsChange env else pure () :
      Prog Workload Exc Unit) := fun _ => .ite leaves_requestLocalisationRebuild (.pure _)
  exact .bind leaves_mkdir fun _ => .bind (leaves_ensureContents _ _) fun _ => .bind (hrecord _)
    fun _ => .bind (leaves_pushLateSettings _ _ _) fun _ => .bind (hrecord _) fun _ =>
    .bind (leaves_ensureContents _ _) fun _ => .bind (hrecord _) fun _ => .pure _

/-! ### Composer -/

lemma leaves_anyRunning : ∀ services, Leaves (anyRunning env services)
  | [] => .pure _
  | _ :: services => .bind .get fun _ => .ite (.bind (leaves_pebbleQuery _) fun _ =>
      .ite (.pure _) (leaves_anyRunning services)) (leaves_anyRunning services)

lemma leaves_canRecoverWithoutLeaderState (mode : OperationMode) :
    Leaves (canRecoverWithoutLeaderState env mode) :=
  .ite (.pure _) (.bind (leaves_pathExists _) fun _ => .ite (.pure _) (.bind (leaves_pathExists _)
    fun _ => .ite (.pure _) (.bind (leaves_pebbleQuery _) fun _ => .bind (leaves_anyRunning _)
    fun _ => .ite (.pure _) (leaves_askFlag _))))

lemma leaves_prepareConfiguration : Leaves (prepareConfiguration env) := by
  have hrequest : ∀ (changed : Bool) services, Leaves
      (if changed then requestServiceRestart env services else pure () : Prog Workload Exc Unit) :=
    fun _ _ => .ite (leaves_requestServiceRestart _) (.pure _)
  exact .bind (leaves_askFlag _) fun _ => .ite (.throw _) (.bind (leaves_doStep _) fun _ =>
    .bind (leaves_askFlag _) fun _ => .bind (hrequest _ _) fun _ => .bind (leaves_askFlag _) fun _ =>
    .bind (hrequest _ _) fun _ => .bind leaves_mkdir fun _ => .bind leaves_mkdir fun _ =>
    .bind (leaves_doStep _) fun _ => leaves_doStep _)

section

variable [FiniteFloat F]

lemma leaves_shouldSkipComposer (c : ComposerJson F) (update : Bool) (lock : Option String) :
    Leaves (shouldSkipComposer env c update lock) := by
  refine .bind (leaves_pathExists _) fun _ => .ite (.pure _) (.bind (leaves_readText _) fun _ => ?_)
  split
  · exact .pure _
  · exact .ite (.pure _) (.ite (.pure _) (.bind (leaves_pathExists _) fun _ =>
      .ite (.pure _) (.bind (leaves_readText _) fun _ => .pure _)))

lemma leaves_writeAndRun (c : ComposerJson F) (update : Bool) (lock : Option String) :
    Leaves (writeAndRun env c update lock) := by
  have hrun : Leaves (runComposer env update) := fun _ => rfl
  refine .bind (leaves_writeText _ _) fun _ => .bind ?_ fun _ => .bind hrun fun _ =>
    .ite (.bind (.ite (leaves_writeText _ _) (leaves_writeText _ _)) fun _ => .throw _) (.pure _)
  cases lock with
  | none => exact .pure _
  | some lock => exact leaves_writeText _ _

lemma leaves_composerReconciliation (c : ComposerJson F) (update : Bool) (lock : Option String)
    (force : Bool) : Leaves (composerReconciliation env c update lock force) :=
  .ite (.throw _) (.bind (.ite (.pure _) (leaves_shouldSkipComposer _ _ _)) fun _ =>
    .ite (.pure _) (leaves_writeAndRun _ _ _))

lemma leaves_reconcileComposer (peerState : PeerState) (force : Bool) :
    Leaves (reconcileComposer env charm peerState force) :=
  .bind leaves_prepareConfiguration fun _ =>
    .bind (.ite (leaves_canRecoverWithoutLeaderState _) (.pure _)) fun _ => .ite (.throw _)
    (.bind (leaves_composerReconciliation _ _ _ _) fun _ =>
    .bind (.ite leaves_requestLocalisationRebuild (.pure _)) fun _ =>
    .bind (leaves_writeText _ _) fun _ => .pure _)

end

/-! ### The configuration -/

/-- The program leaves the services of the container alone. -/
abbrev RestLeaves {α : Type} (x : Prog (PeerWorld Workload) Exc α) : Prop :=
  Prog.Frame (fun s => serviceState s.rest) x

lemma leaves_callback {α : Type} {x : Prog Workload Exc α} (h : Leaves x) :
    RestLeaves (callback x) := fun s => h s.rest

lemma leaves_relation : RestLeaves (relation (D := Workload)) := by
  refine .bind .get fun s => ?_
  split
  · exact .pure _
  · exact .throw _

/-- A change of the peer relation. -/
lemma leaves_update (g : Relation → Relation) : RestLeaves (do
    let r ← relation
    writeRelation (g r) : Prog (PeerWorld Workload) Exc Unit) :=
  .bind leaves_relation fun _ => .modify fun _ => rfl

lemma leaves_localisationCacheReconciliation (settingsChanged composerRan force : Bool) :
    RestLeaves (localisationCacheReconciliation env charm settingsChanged composerRan force) := by
  have hversion : RestLeaves (localisationCacheVersion (D := Workload) charm.unit) :=
    .bind leaves_relation fun _ => .pure _
  have hrebuild : Leaves (rebuildLocalisationCache env charm) := .bind (leaves_doStep _) fun _ =>
    .bind (leaves_ask _) fun _ => .ite (.throw _) (.modify fun _ => rfl)
  have hmark : RestLeaves (markLocalisationCacheRebuilt (D := Workload) charm.unit charm.version) :=
    leaves_update _
  exact .bind (leaves_callback (leaves_doStep _)) fun _ => .bind hversion fun _ =>
    .bind (.ite (leaves_callback leaves_requestLocalisationRebuild) (.pure _)) fun _ =>
    .bind (leaves_callback (leaves_pathExists _)) fun _ => .ite (.pure _)
    (.bind (leaves_callback hrebuild) fun _ => .bind hmark fun _ =>
    leaves_callback (leaves_unlink _))

lemma leaves_awaitInstallation : ∀ n, Leaves (awaitInstallation env n)
  | 0 => .throw _
  | n + 1 => .bind (leaves_askFlag _) fun _ => .ite (.pure _) (leaves_awaitInstallation n)

lemma leaves_installAttempts (empty : Bool) : ∀ n, Leaves (installAttempts env empty n)
  | 0 => .throw _
  | n + 1 => by
    have hretry : Leaves (retryUpdate env) := by
      refine .tryCatch (leaves_doStep _) fun e => ?_
      split
      · exact .pure _
      · exact .throw _
    exact .bind (leaves_ask _) fun _ => .ite (.pure _)
      (.bind (.ite (.pure _) (.ite (leaves_doStep _) hretry)) fun _ => leaves_installAttempts empty n)

lemma leaves_install : RestLeaves (install env charm) := by
  refine .ite (leaves_callback (leaves_awaitInstallation _))
    (.bind (leaves_callback (leaves_askFlag _)) fun _ =>
    .bind (leaves_callback (leaves_writeText _ _)) fun _ =>
    .bind (leaves_localisationCacheReconciliation _ _ _) fun _ => leaves_callback ?_)
  exact .bind (leaves_installAttempts _ _) fun _ => .bind (leaves_ensureContents _ _) fun _ =>
    .bind leaves_requestLocalisationRebuild fun _ => .bind (leaves_doStep _) fun _ => leaves_doStep _

lemma leaves_installAndConfigure (peerState : PeerState) :
    RestLeaves (installAndConfigure env charm peerState) := by
  have hsettings : ∀ secrets mode message, RestLeaves
      (callback (settingsReconciliation env charm secrets mode message)) := fun _ _ _ =>
    leaves_callback (leaves_settingsReconciliation _ _ _)
  exact .bind (leaves_callback (leaves_askFlag _)) fun _ => .bind (.ite (.pure _)
    (.bind (hsettings _ _ _) fun _ => .bind leaves_install fun _ => .pure _)) fun _ =>
    .bind (hsettings _ _ _) fun _ => .pure _

section

variable [FiniteFloat F]

lemma leaves_publishComposerLock : RestLeaves (publishComposerLock env charm) :=
  .ite (.pure _) (.bind (leaves_callback (leaves_pathExists _)) fun _ => .ite (.throw _)
    (.bind (leaves_callback (leaves_readText _)) fun _ => .bind (leaves_update _) fun _ =>
    leaves_callback (.modify fun _ => rfl)))

/-- No configuration disturbs the services, however it ends. -/
lemma leaves_reconcileConfiguration (peerState : PeerState) (force : Bool) :
    RestLeaves (reconcileConfiguration env charm peerState force) :=
  .bind (leaves_callback (leaves_reconcileComposer _ _)) fun _ =>
    .bind (leaves_installAndConfigure _) fun _ => .bind leaves_publishComposerLock fun _ =>
    leaves_localisationCacheReconciliation _ _ _

end

/-! ### The services -/

lemma leaves_withStatus {lookup : Prog Workload Exc Unit} (hlookup : Leaves lookup)
    (running : Bool) : ∀ services, Leaves (withStatus env lookup running services)
  | [] => .pure _
  | _ :: services => .bind hlookup fun _ => .bind .get fun _ =>
      .ite (.bind (leaves_pebbleQuery _) fun _ => .bind (leaves_withStatus hlookup running services)
        fun _ => .pure _) (leaves_withStatus hlookup running services)

/-- The checks are no services. -/
lemma leaves_reconcileChecks (active : Bool) : Leaves (reconcileChecks env active) := by
  have hset : ∀ call check active, Leaves (setCheck env call check active) := fun _ _ _ =>
    .bind (leaves_pebbleQuery _) fun _ => .modify fun _ => rfl
  refine .bind (leaves_pebbleQuery _) fun _ => .forM (fun check => .bind .get fun w => ?_) _
  split
  · exact .pure _
  · exact .bind (leaves_pebbleQuery _) fun _ => .ite (hset _ _ _) (.ite (hset _ _ _) (.pure _))

lemma leaves_surveyServices (active workers : Bool) :
    Leaves (surveyServices env active workers) :=
  .bind (leaves_withStatus (leaves_pebbleQuery _) _ _) fun _ =>
    .bind (.ite (.pure _) (leaves_reconcileChecks _)) fun _ => .bind (leaves_pebbleQuery _) fun _ =>
    .bind (leaves_withStatus (.pure _) _ _) fun _ => .bind (leaves_withStatus (.pure _) _ _)
    fun _ => .pure _

/-- The plan stays as it is. -/
abbrev KeepsPlan {α : Type} (x : Prog Workload Exc α) : Prop :=
  Prog.Frame (fun w => w.pebble.plan) x

lemma keepsPlan_of_leaves {α : Type} {x : Prog Workload Exc α} (h : Leaves x) : KeepsPlan x :=
  fun w => congrArg Prod.fst (h w)

lemma keepsPlan_pebbleCall {call : PebbleCall} {intended : Pebble → String → Effect}
    {change : Pebble → Pebble} (h : ∀ p, (change p).plan = p.plan) :
    KeepsPlan (pebbleCall env call intended change) := by
  intro w
  unfold pebbleCall
  cases env.pebble call w.clock with
  | none => exact h _
  | some f => rfl

/-- Only `add_layer` changes the plan. -/
lemma keepsPlan_issued {call : PebbleCall} {intended : Pebble → String → Effect}
    {change : Pebble → Pebble} (issued : Issued) (h : ∀ p, (change p).plan = p.plan) :
    KeepsPlan (do
      Prog.modify fun w => w.setPebble (w.pebble.issue issued)
      pebbleCall env call intended change : Prog Workload Exc Unit) :=
  .bind (.modify fun _ => rfl) fun _ => keepsPlan_pebbleCall h

lemma keepsPlan_applyServices (active workers : Bool) (survey : Survey) :
    KeepsPlan (applyServices env active workers survey) := by
  have hpending : KeepsPlan (pendingServiceRestarts env) := keepsPlan_of_leaves
    (.bind (leaves_pathExists _) fun _ => .ite (.pure _) (.bind (leaves_readText _) fun _ => .pure _))
  refine .bind (.ite (keepsPlan_issued _ fun _ => rfl) (.pure _)) fun _ =>
    .bind (.ite (keepsPlan_issued _ fun _ => rfl) (.pure _)) fun _ => .ite
    (.bind hpending fun _ => .bind (.ite (keepsPlan_issued _ fun _ => rfl) (.pure _)) fun _ => ?_)
    (.pure _)
  exact .bind (keepsPlan_of_leaves (leaves_unlink _)) fun _ =>
    keepsPlan_of_leaves (leaves_reconcileChecks _)

end Undisturbed
end MediawikiCharm
