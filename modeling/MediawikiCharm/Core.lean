/-
The reconciliation of a unit (`mediawiki/_core.py`, `mediawiki/_cache.py`).

`reconciliation` reads what the peers ask for, reconciles the files of the workload and then
its services, and acknowledges the operation mode.  The functions that reach the peers run
over the peer relation with the container beside it.
-/
import MediawikiCharm.Composer
import MediawikiCharm.Peers
import MediawikiCharm.Settings

namespace MediawikiCharm
namespace Core

open Json Workload Services Settings Composer Peers

variable {F : Type} [FiniteFloat F] (env : Env) (charm : Charm F)

/-- `reconciliation_state` -/
def reconciliationState : Prog (PeerWorld Workload) Exc PeerState := do
  let r ← relation
  callback (doStep env .replicaSecrets)
  let mode ← Prog.ofExcept (operationMode r.app)
  pure { secrets := charm.secrets
         operationMode := mode
         maintenanceMessage := r.app.maintenanceMessage
         composerLock := r.app.composerLock
         leaderStateHash := r.app.leaderStateHash }

/-! ### The localisation cache -/

/-- Run `rebuildLocalisationCache`; a success is noted with what it has read. -/
def rebuildLocalisationCache : Prog Workload Exc Unit := do
  doStep env .loadCharmConfig
  let returnCode ← ask (env.script .rebuildLocalisationCache)
  if returnCode ≠ 0 then
    throw (.blocked "Localisation cache rebuild failed; see logs for details.")
  else
    Prog.modify fun w => { w with rebuilds :=
      { version := charm.version
        userSettings := w.files .userSettings
        lateSettings := w.files .lateSettings
        localSettings := w.files .localSettings
        composerSuccesses := w.composerSuccesses } :: w.rebuilds }

/-- `_localisation_cache_reconciliation` -/
def localisationCacheReconciliation (settingsChanged composerRan force : Bool) :
    Prog (PeerWorld Workload) Exc Unit := do
  callback (doStep env .version)
  let storedVersion ← localisationCacheVersion charm.unit
  (if settingsChanged || composerRan || force || storedVersion ≠ some charm.version then
      callback (requestLocalisationRebuild env)
    else pure () : Prog (PeerWorld Workload) Exc Unit)
  if !(← callback (localisationRebuildPending env)) then pure ()
  else
    callback (rebuildLocalisationCache env charm)
    markLocalisationCacheRebuilt charm.unit charm.version
    callback (clearLocalisationRebuild env)

/-! ### Installation -/

/-- The wait of a non-leader for the installation. -/
def awaitInstallation : ℕ → Prog Workload Exc Unit
  | 0 => throw (.blocked "Timed out waiting for leader to perform installation")
  | n + 1 => do
    if ← askFlag env .isDatabaseInitialized then pure () else awaitInstallation n

/-- The schema update before another attempt; its failure is ignored. -/
def retryUpdate : Prog Workload Exc Unit :=
  tryCatch (doStep env .updateDatabaseSchema) fun
    | .installError _ => pure ()
    | e => throw e

/-- The attempts at `installPreConfigured` that are left. -/
def installAttempts (databaseEmptyAtInstallStart : Bool) : ℕ → Prog Workload Exc Unit
  | 0 => throw (.installError "MediaWiki installation failed; see logs for details.")
  | n + 1 => do
    let returnCode ← ask (env.script .installPreConfigured)
    if returnCode = 0 then pure ()
    else
      (if n = 0 then pure ()
        else if databaseEmptyAtInstallStart then doStep env .resetPartiallyInitializedDatabase
        else retryUpdate env : Prog Workload Exc Unit)
      installAttempts databaseEmptyAtInstallStart n

/-- `INSTALL_MAX_ATTEMPTS` -/
def installMaxAttempts : ℕ := 3

/-- `_install` from the blanked user settings on. -/
def installBlanked (databaseEmptyAtInstallStart : Bool) : Prog (PeerWorld Workload) Exc Unit := do
  callback (writeText env .userSettings "")
  localisationCacheReconciliation env charm false false false
  callback (do
    installAttempts env databaseEmptyAtInstallStart installMaxAttempts
    let _ ← pushUserSettings env charm
    recordSettingsChange env
    doStep env .updateDatabaseSchema
    doStep env .setDatabaseInitialized)

/-- `_install` -/
def install : Prog (PeerWorld Workload) Exc Unit := do
  if !charm.isLeader then callback (awaitInstallation env env.polls)
  else
    let databaseEmptyAtInstallStart ← callback (askFlag env .isDatabaseEmpty)
    installBlanked env charm databaseEmptyAtInstallStart

/-! ### Configuration -/

/-- Whether one of the services is in the plan and running. -/
def anyRunning : List String → Prog Workload Exc Bool
  | [] => pure false
  | service :: services => do
    let w ← Prog.get
    if (w.pebble.plan service).isSome then
      pebbleQuery env .getService
      if w.pebble.isRunning service then pure true else anyRunning services
    else anyRunning services

/-- `_can_recover_without_leader_state` -/
def canRecoverWithoutLeaderState (mode : OperationMode) : Prog Workload Exc Bool := do
  if mode ≠ .normal then pure false
  else if ← pathExists env .localSettings then pure false
  else if ← pathExists env .userComposer then pure false
  else
    pebbleQuery env .getPlan
    if ← anyRunning env [serviceName, phpFpmServiceName] then pure false
    else askFlag env .isDatabaseInitialized

/-- `_reconcile_configuration` before it looks at the state of the leader. -/
def prepareConfiguration : Prog Workload Exc Unit := do
  if !(← askFlag env .isRelationReady) then throw (.blocked "Database relation is not ready")
  else
    doStep env .loadCharmConfig
    let certificateTransferChanged ← askFlag env .certificateTransferReconcile
    (if certificateTransferChanged then requestServiceRestart env jobServices else pure () :
      Prog Workload Exc Unit)
    let tlsChanged ← askFlag env .tlsReconciliation
    (if tlsChanged then requestServiceRestart env [serviceName] else pure () :
      Prog Workload Exc Unit)
    mkdir env
    mkdir env
    doStep env .staticAssetsSymlink
    doStep env .sshConfigReconciliation

/-- `leader_state_stale` of `_reconcile_configuration` -/
def leaderStateStale (peerState : PeerState) : Bool :=
  decide (peerState.leaderStateHash ≠ some (charm.config.stateHash charm.hash))

/-- The part of `_reconcile_configuration` up to `robots.txt`. -/
def reconcileComposer (peerState : PeerState) (force : Bool) : Prog Workload Exc Bool := do
  prepareConfiguration env
  let mayBootstrap := !charm.isLeader && leaderStateStale charm peerState
  let bootstrap ← (if mayBootstrap then canRecoverWithoutLeaderState env peerState.operationMode
    else pure false : Prog Workload Exc Bool)
  if mayBootstrap && !bootstrap then
    throw (.waiting "Waiting for leader to reconcile Composer and local settings")
  else
    let composerRan ← composerReconciliation env charm.config.composer
      (charm.isLeader || bootstrap) peerState.composerLock force
    (if composerRan then requestLocalisationRebuild env else pure () : Prog Workload Exc Unit)
    writeText env .robotsTxt charm.config.robotsTxt
    pure composerRan

/-- The part of `_reconcile_configuration` from the check of the database to the settings. -/
def installAndConfigure (peerState : PeerState) : Prog (PeerWorld Workload) Exc Bool := do
  let initialized ← callback (askFlag env .isDatabaseInitialized)
  let settingsChanged ← (if initialized then pure false else do
    let settingsChanged ← callback
      (settingsReconciliation env charm peerState.secrets .databaseUpdate none)
    install env charm
    pure settingsChanged : Prog (PeerWorld Workload) Exc Bool)
  let settingsChangedAgain ← callback (settingsReconciliation env charm peerState.secrets
    peerState.operationMode peerState.maintenanceMessage)
  pure (settingsChanged || settingsChangedAgain)

/-- The leader publishes its `composer.lock`. -/
def publishComposerLock : Prog (PeerWorld Workload) Exc Unit := do
  if !charm.isLeader then pure ()
  else if !(← callback (pathExists env .composerLock)) then
    throw (.blocked "Unable to fetch Composer lock file.")
  else
    let lock ← callback (readText env .composerLock)
    publishState lock (charm.config.stateHash charm.hash)
    callback (Prog.modify fun w => { w with published :=
      ⟨lock, dumpsText charm.config.composer.json, w.composerRuns⟩ :: w.published })

/-- `_reconcile_configuration` -/
def reconcileConfiguration (peerState : PeerState) (force : Bool) :
    Prog (PeerWorld Workload) Exc Unit := do
  let force := force || decide (peerState.operationMode = .forceReconciliation)
  let composerRan ← callback (reconcileComposer env charm peerState force)
  let settingsChanged ← installAndConfigure env charm peerState
  publishComposerLock env charm
  localisationCacheReconciliation env charm settingsChanged composerRan force

/-! ### Reconciliation -/

/-- `runner_queue_service_is_ready` -/
def runnerQueueServiceIsReady : Prog Workload Exc Bool := do
  if !(← askFlag env .hasConnectionInfo) then pure false else pathExists env .jobRunnerConfig

/-- The part of `reconciliation` that reads the state of the peers. -/
def readPeerState : Prog (PeerWorld Workload) Exc PeerState := do
  if !(← callback (askFlag env .canConnect)) then throw (.waiting "Waiting for pebble")
  else if !(← callback (askFlag env .storageIsReady)) then
    throw (.waiting "Waiting for cache storage to be attached")
  else
    tryCatch (do
      if !(← callback (askFlag env .hasRelation)) then
        throw (.blocked "Waiting for relation database.")
      else reconciliationState env charm) fun
      | .unknownOperationMode message => throw (.unknownOperationMode message)
      | e => if e.isStatus then do
          callback (reconcileServices env charm.layer false false)
          throw e
        else throw e

/-- The part of `reconciliation` that applies the operation mode of the peers. -/
def applyPeerState (peerState : PeerState) (force : Bool) :
    Prog (PeerWorld Workload) Exc OperationMode := do
  let mode := peerState.operationMode
  tryCatch (reconcileConfiguration env charm peerState force) fun e => do
    (if mode = .maintenance then callback (stopJobWorkers env) else pure () :
      Prog (PeerWorld Workload) Exc Unit)
    throw e
  let runJobWorkers ← (if mode.allowsJobWorkers then callback (runnerQueueServiceIsReady env)
    else pure false : Prog (PeerWorld Workload) Exc Bool)
  callback (reconcileServices env charm.layer true runJobWorkers)
  acknowledgeOperationMode charm.unit mode
  callback (Prog.modify fun w => { w with acknowledged := mode :: w.acknowledged })
  reconcileOperationMode charm.isLeader mode (doStep env .updateDatabaseSchema)
  callback (doStep env .updateClientConfig)
  pure mode

/-- `reconciliation` -/
def reconciliation (force : Bool) : Prog (PeerWorld Workload) Exc OperationMode := do
  let peerState ← readPeerState env charm
  applyPeerState env charm peerState force

end Core
end MediawikiCharm
