/-
The PHP settings files (`mediawiki/_settings.py`) and the marker of a pending rebuild of the
localisation cache (`mediawiki/_base.py`).

A settings file that was changed is followed by the marker before anything else is done, also
where the error of a relation is raised only after the late settings were written.  The parts
of the late settings that are rendered from relation data are answers of the surroundings,
and the templates of the charm are a parameter.
-/
import MediawikiCharm.Records
import MediawikiCharm.Services
import MediawikiCharm.State

namespace MediawikiCharm

/-- The templates of the charm. -/
structure Templates where
  lateSettings : String := ""
  /-- `LocalSettings.php.template` before and after `%wg_server`. -/
  localSettings : String × String := ("", "")

/-- The charm of a unit: what its functions are given beside the surroundings. -/
structure Charm (F : Type) where
  unit : String := "mediawiki/0"
  appName : String := "mediawiki"
  isLeader : Bool := false
  config : CharmConfig F := {}
  /-- The secrets that the units share. -/
  secrets : MediaWikiSecrets := {}
  /-- `MW_VERSION` of the workload. -/
  version : String := "1.46.0"
  templates : Templates := {}
  layer : Services.LayerInputs := {}
  /-- The hash function of `state_hash`. -/
  hash : String → String := id

namespace Settings

open Workload Services

variable {F : Type} (env : Env) (charm : Charm F)

/-! ### The marker of a pending rebuild -/

/-- `request_localisation_rebuild` -/
def requestLocalisationRebuild : Prog Workload Exc Unit := do
  if ← pathExists env .localisationRebuild then pure ()
  else
    mkdir env
    writeText env .localisationRebuild ""

/-- `localisation_rebuild_pending` -/
def localisationRebuildPending : Prog Workload Exc Bool := pathExists env .localisationRebuild

/-- `clear_localisation_rebuild` -/
def clearLocalisationRebuild : Prog Workload Exc Unit := unlink env .localisationRebuild

/-- `_record_settings_change` -/
def recordSettingsChange : Prog Workload Exc Unit := requestLocalisationRebuild env

/-! ### The files -/

/-- `escape_php_string` of a text that is a `String`. -/
def escapePhpString (s : String) : String :=
  String.ofList (s.toList.flatMap fun c =>
    if c = '\\' then ['\\', '\\'] else if c = '\'' then ['\\', '\''] else [c])

/-- `_push_user_settings` -/
def pushUserSettings : Prog Workload Exc Bool :=
  ensureContents env .userSettings charm.config.localSettings

/-- `_get_logging_settings` -/
def getLoggingSettings (config : CharmConfig F) : String :=
  let destination := "/var/log/mediawiki/logs.log"
  let groups := String.intercalate ",\n" (config.mediawikiDebugLogGroups.map fun group =>
    "    '" ++ escapePhpString group ++ "' => '" ++ destination ++ "'")
  let groupsPhp := if groups = "" then "[]" else "[\n" ++ groups ++ "\n]"
  let debugFile := if config.mediawikiDebugLog then destination else ""
  "$wgDebugLogGroups = " ++ groupsPhp ++ ";\n$wgDebugLogFile = '" ++ debugFile ++ "';\n"

/-- `_get_cache_settings` -/
def getCacheSettings : Prog Workload Exc String := do
  match ← ask env.cacheSettings with
  | none =>
    unlink env .jobRunnerConfig
    pure "\n$wgMainCacheType = CACHE_NONE;\n$wgSessionCacheType = CACHE_DB;\n\n"
  | some settings =>
    let changed ← ensureContents env .jobRunnerConfig settings.jobRunnerConfig
    (if changed then requestServiceRestart env jobServices else pure () : Prog Workload Exc Unit)
    pure settings.php

/-- A fragment whose error is deferred, with the text that stands in for it. -/
def deferring (fragment : Fragment) (deferred : Exc → Bool) (instead : String) :
    Prog Workload Exc (String × Option Exc) :=
  tryCatch (do
    let text ← ask (env.text fragment)
    pure (text, none)) fun e => if deferred e then pure (instead, some e) else throw e

/-- The lines of `_push_late_settings` for the operation mode. -/
def modeSettings (mode : OperationMode) (maintenanceMessage : Option String) : String :=
  match mode with
  | .maintenance =>
    (match maintenanceMessage with
      | none | some "" => "$wgReadOnly = true;\n"
      | some message => "$wgReadOnly = '" ++ escapePhpString message ++ "';\n") ++
      "$wgAllowSchemaUpdates = false;\n"
  | .databaseUpdate =>
    "$adminTask = ( PHP_SAPI === 'cli' || defined( 'MEDIAWIKI_INSTALL' ) );\n" ++
      "$wgReadOnly = $adminTask ? false : 'Ongoing database update';\n"
  | .normal | .forceReconciliation => "$wgAllowSchemaUpdates = false;\n"

/-- The lines of `_push_late_settings` for the secrets. -/
def secretSettings (secrets : MediaWikiSecrets) : String :=
  String.join (secrets.toLocalSettings.map fun (key, value) =>
    key ++ " = '" ++ escapePhpString value ++ "';\n")

/-- The content of `LateSettings.php`, with the rendered fragments. -/
def lateSettings (secrets : MediaWikiSecrets) (mode : OperationMode)
    (maintenanceMessage : Option String) (fragments : String) : String :=
  charm.templates.lateSettings ++ getLoggingSettings charm.config ++ fragments ++
    modeSettings mode maintenanceMessage ++ secretSettings secrets ++ "?>\n"

/-- The fragments of `LateSettings.php` and the error that is raised once it is written. -/
def renderFragments : Prog Workload Exc (String × Option Exc) := do
  let proxy ← ask (env.text .proxySettings)
  let database ← ask (env.text .databaseSettings)
  let cache ← getCacheSettings env
  let shellbox ← ask (env.text .shellboxSettings)
  let (auth, authError) ← deferring env .authSettings Exc.isBlocked ""
  let (smtp, smtpError) ← deferring env .smtpSettings Exc.isStatus "$wgEnableEmail = false;\n"
  let (s3, s3Error) ← deferring env .s3Settings Exc.isBlocked "$wgEnableUploads = false;\n"
  pure (proxy ++ database ++ cache ++ shellbox ++ auth ++ smtp ++ s3,
    (authError.or smtpError).or s3Error)

/-- `_push_late_settings` -/
def pushLateSettings (secrets : MediaWikiSecrets) (mode : OperationMode)
    (maintenanceMessage : Option String) : Prog Workload Exc Bool := do
  mkdir env
  let (fragments, deferredError) ← renderFragments env
  let content := lateSettings charm secrets mode maintenanceMessage fragments
  let changed ← ensureContents env .lateSettings content
  Prog.modify fun w => { w with rendered := content :: w.rendered }
  match deferredError with
  | none => pure changed
  | some e =>
    (if changed then recordSettingsChange env else pure () : Prog Workload Exc Unit)
    throw e

/-- `_push_local_settings` -/
def pushLocalSettings : Prog Workload Exc Bool :=
  let serverName := if charm.config.urlOrigin = "" then "//" ++ charm.appName
    else charm.config.urlOrigin
  ensureContents env .localSettings
    (charm.templates.localSettings.1 ++ "\"" ++ escapePhpString serverName ++ "\"" ++
      charm.templates.localSettings.2 ++
      "\nrequire_once \"/etc/mediawiki/UserSettings.php\";\n" ++
      "require_once \"/etc/mediawiki/LateSettings.php\";\n?>\n")

/-- `_settings_reconciliation` -/
def settingsReconciliation (secrets : MediaWikiSecrets) (mode : OperationMode)
    (maintenanceMessage : Option String) : Prog Workload Exc Bool := do
  mkdir env
  let userSettingsChanged ← pushUserSettings env charm
  (if userSettingsChanged then recordSettingsChange env else pure () : Prog Workload Exc Unit)
  let lateSettingsChanged ← pushLateSettings env charm secrets mode maintenanceMessage
  (if lateSettingsChanged then recordSettingsChange env else pure () : Prog Workload Exc Unit)
  let localSettingsChanged ← pushLocalSettings env charm
  (if localSettingsChanged then recordSettingsChange env else pure () : Prog Workload Exc Unit)
  pure (userSettingsChanged || lateSettingsChanged || localSettingsChanged)

/-! ### What the functions may change -/

variable {env charm} {parts : List Part}

lemma within_requestLocalisationRebuild (hp : .file .localisationRebuild ∈ parts) :
    Prog.Within (Changes parts) (requestLocalisationRebuild env) :=
  .bind (within_pathExists _) fun _ => .ite (.pure _) (.bind within_mkdir fun _ =>
    within_writeText hp _)

lemma within_requestServiceRestart (hp : .file .restartRequired ∈ parts) (services : List String) :
    Prog.Within (Changes parts) (requestServiceRestart env services) := by
  refine .bind (.bind (within_pathExists _) fun _ => .ite (.pure _)
    (.bind (within_readText _) fun _ => .pure _)) fun _ => .bind (.ite (.pure _) ?_) fun _ => ?_
  · exact .bind within_mkdir fun _ => within_writeText hp _
  · exact .modify fun w => changes_setPebble _ w

lemma within_getCacheSettings (hj : .file .jobRunnerConfig ∈ parts)
    (hr : .file .restartRequired ∈ parts) :
    Prog.Within (Changes parts) (getCacheSettings env) := by
  refine .bind (within_ask _) fun settings => ?_
  cases settings with
  | none => exact .bind (within_unlink hj) fun _ => .pure _
  | some settings =>
    refine .bind (within_ensureContents hj _) fun _ => .bind (.ite ?_ (.pure _)) fun _ => .pure _
    exact within_requestServiceRestart hr _

lemma within_deferring (fragment : Fragment) (deferred : Exc → Bool) (instead : String) :
    Prog.Within (Changes parts) (deferring env fragment deferred instead) :=
  .tryCatch (.bind (within_ask _) fun _ => .pure _) fun _ => .ite (.pure _) (.throw _)

/-- The files the fragments are rendered to. -/
def fragmentParts : List Part := [.file .jobRunnerConfig, .file .restartRequired]

lemma within_renderFragments : Prog.Within (Changes fragmentParts) (renderFragments env) :=
  .bind (within_ask _) fun _ => .bind (within_ask _) fun _ =>
    .bind (within_getCacheSettings (by decide) (by decide)) fun _ => .bind (within_ask _) fun _ =>
    .bind (within_deferring _ _ _) fun _ => .bind (within_deferring _ _ _) fun _ =>
    .bind (within_deferring _ _ _) fun _ => .pure _

/-- What a reconciliation of the settings may change. -/
def settingsParts : List Part :=
  [.file .userSettings, .file .lateSettings, .file .localSettings, .file .jobRunnerConfig,
    .file .restartRequired, .file .localisationRebuild, .rendered]

lemma within_recordSettingsChange (changed : Bool) :
    Prog.Within (Changes settingsParts)
      (if changed then recordSettingsChange env else pure () : Prog Workload Exc Unit) :=
  .ite (within_requestLocalisationRebuild (by decide)) (.pure _)

lemma changes_rendered (content : String) (w : Workload) :
    Changes [.rendered] w { w with rendered := content :: w.rendered } := by
  intro p hp
  cases p with
  | rendered => exact absurd hp (by decide)
  | _ => rfl

lemma within_pushLateSettings (secrets : MediaWikiSecrets) (mode : OperationMode)
    (message : Option String) :
    Prog.Within (Changes settingsParts) (pushLateSettings env charm secrets mode message) := by
  refine .bind within_mkdir fun _ => .bind ?_ fun (_, deferredError) => .bind ?_ fun _ =>
    .bind ?_ fun _ => ?_
  · exact within_renderFragments.mono fun _ _ h => h.mono (by decide)
  · exact within_ensureContents (by decide) _
  · exact .modify fun w => (changes_rendered _ w).mono (by decide)
  · cases deferredError with
    | none => exact .pure _
    | some e => exact .bind (within_recordSettingsChange _) fun _ => .throw _

lemma within_settingsReconciliation (secrets : MediaWikiSecrets) (mode : OperationMode)
    (message : Option String) :
    Prog.Within (Changes settingsParts)
      (settingsReconciliation env charm secrets mode message) :=
  .bind within_mkdir fun _ => .bind (within_ensureContents (by decide) _) fun _ =>
    .bind (within_recordSettingsChange _) fun _ =>
    .bind (within_pushLateSettings secrets mode message) fun _ =>
    .bind (within_recordSettingsChange _) fun _ =>
    .bind (within_ensureContents (by decide) _) fun _ =>
    .bind (within_recordSettingsChange _) fun _ => .pure _

end Settings
end MediawikiCharm
