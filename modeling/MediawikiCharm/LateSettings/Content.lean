/-
The content of `LateSettings.php` (`_push_late_settings` of `mediawiki/_settings.py`).

The settings of all relations stand one behind the other, with those of the configuration, of the
operation mode and of the secrets around them.  Each part is code that is complete by itself, so the
content is read part by part.
-/
import MediawikiCharm.LateSettings.Values
import MediawikiCharm.LateSettings.Cache
import MediawikiCharm.LateSettings.Own

namespace MediawikiCharm
namespace LateSettings

set_option maxRecDepth 2000

open PyText Lines Textwrap Php PhpLayout PhpStrings Smtp

/-! ### The settings -/

/-- What the settings are rendered from.  Where the error of a relation is deferred, its data are
`none`; `smtp` and `s3` are `some none` without the relation. -/
structure LateInputs (F : Type) where
  config : CharmConfig F := {}
  proxyConfig : Option Egress.ProxyConfig := none
  dbData : DatabaseConfig
  connection : Option ValkeyConnectionInfo := none
  shellboxKey : PyStr
  auth : Option AuthInputs := some {}
  /-- The data, and whether the relay is reached through the tunnel. -/
  smtp : Option (Option (Bool × SmtpRelationData)) := some none
  s3 : Option (Option S3ConnectionInfo) := some none
  mode : OperationMode := .normal
  maintenanceMessage : Option String := none
  secrets : MediaWikiSecrets := {}

namespace LateInputs

variable {F : Type} (i : LateInputs F)

def cacheText : PyStr := i.connection.elim noCacheSettings ValkeyConnectionInfo.getCacheSettings

def authText : PyStr := i.auth.elim [] AuthInputs.getAuthSettings

def smtpText : PyStr :=
  match i.smtp with
  | some (some (smtpUsesTunnel, smtpData)) => lit (Smtp.smtpText smtpUsesTunnel smtpData)
  | some none => []
  | none => lit "$wgEnableEmail = false;\n"

def s3Text : PyStr :=
  match i.s3 with
  | some (some s3Data) => s3Data.getS3Settings
  | some none | none => lit "$wgEnableUploads = false;\n"

/-- The settings between those of the configuration and of the operation mode. -/
def fragments : PyStr :=
  getProxySettings i.proxyConfig ++ i.dbData.getDatabaseSettings ++ i.cacheText ++
    getShellboxSettings i.shellboxKey ++ i.authText ++ i.smtpText ++ i.s3Text

/-- What is put behind the template. -/
def content : PyStr :=
  lit (Settings.getLoggingSettings i.config) ++ i.fragments ++
    lit (Settings.modeSettings i.mode i.maintenanceMessage) ++
    lit (Settings.secretSettings i.secrets) ++ lit "?>\n"

/-- The content that is written, should the fragments be this text. -/
lemma lit_lateSettings (charm : Charm F) (hconfig : charm.config = i.config) {fragments : String}
    (h : lit fragments = i.fragments) :
    lit (Settings.lateSettings charm i.secrets i.mode i.maintenanceMessage fragments) =
      lit charm.templates.lateSettings ++ i.content := by
  simp only [Settings.lateSettings, lit_append, content, h, hconfig, List.append_assoc]

end LateInputs

/-! ### The tokens of the settings -/

lemma scan_emailDisabled : scan .code (lit "$wgEnableEmail = false;\n") =
    (.code, codeTokens (lit "$wgEnableEmail=false;")) := by decide

lemma scan_uploadsDisabled : scan .code (lit "$wgEnableUploads = false;\n") =
    (.code, codeTokens (lit "$wgEnableUploads=false;")) := by decide

lemma DatabaseConfig.keepsCode (dbData : DatabaseConfig) :
    KeepsCode dbData.getDatabaseSettings dbData.settingTokens := by
  refine dbData.isText_getDatabaseSettings.keepsCode ?_
  simp only [scanned, List.map_cons, List.map_nil]

lemma keepsCode_connection (connection : ValkeyConnectionInfo) :
    KeepsCode connection.getCacheSettings connection.settingTokens := by
  refine connection.isText_getCacheSettings.keepsCode ?_
  rw [List.map_map]
  rfl

lemma S3ConnectionInfo.keepsCode (s3Data : S3ConnectionInfo) :
    KeepsCode s3Data.getS3Settings s3Data.settingTokens := by
  refine s3Data.isText_getS3Settings.keepsCode ?_
  simp only [scanned, List.map_cons, List.map_nil]

lemma AuthInputs.keepsCode (i : AuthInputs) : KeepsCode i.getAuthSettings i.settingTokens := by
  cases h : i.oauthEntry with
  | none => exact keepsCode_of_scan (tokens_eq_some_iff.1 (i.tokens_getAuthSettings_of_none h))
  | some entry =>
    rw [entry.settingTokens_eq h]
    refine (entry.isText_getAuthSettings h).keepsCode ?_
    simp [OAuthEntry.shownParts]

lemma keepsCode_smtpText (smtpUsesTunnel : Bool) (smtpData : SmtpRelationData) :
    KeepsCode (lit (Smtp.smtpText smtpUsesTunnel smtpData))
      (settingTokens smtpUsesTunnel smtpData) := by
  rw [keepsCode_iff_of_scan scan_smtpText, settingTokens]
  simp only [skeleton_append, skeleton_entryTokens]

/-! ### The whole content -/

namespace LateInputs

variable {F : Type} (i : LateInputs F)

def cacheTokens : List Token :=
  i.connection.elim (scan .code noCacheCode).2 ValkeyConnectionInfo.settingTokens

def authTokens : List Token := i.auth.elim [] AuthInputs.settingTokens

def smtpTokens : List Token :=
  i.smtp.elim (codeTokens (lit "$wgEnableEmail=false;")) fun relation =>
    relation.elim [] fun smtp => settingTokens smtp.1 smtp.2

def s3Tokens : List Token :=
  (i.s3.bind id).elim (codeTokens (lit "$wgEnableUploads=false;")) S3ConnectionInfo.settingTokens

/-- The parts of the content, with the tokens they are meant to have. -/
def parts : List (PyStr × List Token) := [
  (lit (Settings.getLoggingSettings i.config), loggingTokens i.config),
  (getProxySettings i.proxyConfig, proxyTokens i.proxyConfig),
  (i.dbData.getDatabaseSettings, i.dbData.settingTokens),
  (i.cacheText, i.cacheTokens),
  (getShellboxSettings i.shellboxKey, shellboxTokens i.shellboxKey),
  (i.authText, i.authTokens),
  (i.smtpText, i.smtpTokens),
  (i.s3Text, i.s3Tokens),
  (lit (Settings.modeSettings i.mode i.maintenanceMessage), modeTokens i.mode i.maintenanceMessage),
  (lit (Settings.secretSettings i.secrets), secretTokens i.secrets),
  (lit "?>\n", codeTokens (lit "?>"))]

/-- The tokens of the content with all values. -/
def tokens : List Token := i.parts.flatMap Prod.snd

lemma content_eq : i.content = i.parts.flatMap Prod.fst := by
  simp only [content, fragments, parts, List.flatMap_cons, List.flatMap_nil, List.append_nil,
    List.append_assoc]

lemma keepsCode_cacheText : KeepsCode i.cacheText i.cacheTokens := by
  rw [cacheText, cacheTokens]
  cases i.connection with
  | none => exact keepsCode_of_scan scan_noCacheSettings
  | some connection => exact keepsCode_connection connection

lemma keepsCode_authText : KeepsCode i.authText i.authTokens := by
  rw [authText, authTokens]
  cases i.auth with
  | none => exact keepsCode_nil
  | some auth => exact auth.keepsCode

lemma keepsCode_smtpText : KeepsCode i.smtpText i.smtpTokens := by
  rw [smtpText, smtpTokens]
  rcases i.smtp with _ | _ | ⟨smtpUsesTunnel, smtpData⟩
  · exact keepsCode_of_scan scan_emailDisabled
  · exact keepsCode_nil
  · exact LateSettings.keepsCode_smtpText smtpUsesTunnel smtpData

lemma keepsCode_s3Text : KeepsCode i.s3Text i.s3Tokens := by
  rw [s3Text, s3Tokens]
  rcases i.s3 with _ | _ | s3Data
  · exact keepsCode_of_scan scan_uploadsDisabled
  · exact keepsCode_of_scan scan_uploadsDisabled
  · exact s3Data.keepsCode

lemma keepsCode_parts : ∀ part ∈ i.parts, KeepsCode part.1 part.2 := by
  simp only [parts, List.forall_mem_cons, List.not_mem_nil, false_implies, implies_true, and_true]
  exact ⟨keepsCode_of_scan (scan_loggingSettings _), keepsCode_of_scan (scan_proxySettings _),
    i.dbData.keepsCode, i.keepsCode_cacheText, keepsCode_of_scan (scan_shellboxSettings _),
    i.keepsCode_authText, i.keepsCode_smtpText, i.keepsCode_s3Text,
    keepsCode_of_scan (scan_modeSettings _ _), keepsCode_of_scan (scan_secretSettings _),
    keepsCode_of_scan (by decide)⟩

lemma tokens_cacheText_iff : Php.tokens i.cacheText = some i.cacheTokens ↔
    ∀ connection, i.connection = some connection → Aligned 0 connection.settingsValues := by
  rw [cacheText, cacheTokens]
  cases i.connection with
  | none =>
    exact iff_of_true (tokens_eq_some_iff.2 scan_noCacheSettings) fun _ h => absurd h (by simp)
  | some connection =>
    simp only [Option.elim_some, connection.tokens_getCacheSettings_iff, Option.some.injEq,
      forall_eq']

lemma tokens_authText_iff : Php.tokens i.authText = some i.authTokens ↔
    ∀ auth, i.auth = some auth → ∀ entry, auth.oauthEntry = some entry →
      Aligned 8 entry.values := by
  rw [authText, authTokens]
  cases i.auth with
  | none => exact iff_of_true rfl fun _ h => absurd h (by simp)
  | some auth =>
    simp only [Option.elim_some, auth.tokens_getAuthSettings_iff, Option.some.injEq, forall_eq']

lemma tokens_smtpText_iff : Php.tokens i.smtpText = some i.smtpTokens ↔
    ∀ smtpUsesTunnel smtpData, i.smtp = some (some (smtpUsesTunnel, smtpData)) →
      ((smtpUsesTunnel = true → smtpData.transportSecurity ≠ .none) →
        Free isLineBreak (lit smtpData.host)) ∧
      (∀ user ∈ smtpData.user, Free isLineBreak (lit user)) ∧
      ∀ password ∈ smtpData.password, Free isLineBreak (lit password) := by
  rw [smtpText, smtpTokens]
  rcases i.smtp with _ | _ | ⟨smtpUsesTunnel, smtpData⟩
  · exact iff_of_true (tokens_eq_some_iff.2 scan_emailDisabled) fun _ _ h => absurd h (by simp)
  · exact iff_of_true rfl fun _ _ h => absurd h (by simp)
  · simp only [Option.elim_some]
    rw [Smtp.tokens_smtpText_iff]
    constructor
    · intro h b data heq
      cases heq
      exact h
    · intro h
      exact h _ _ rfl

lemma tokens_s3Text_iff : Php.tokens i.s3Text = some i.s3Tokens ↔
    ∀ s3Data, i.s3 = some (some s3Data) → Aligned 0 s3Data.settingsValues := by
  have hdisabled : Php.tokens (lit "$wgEnableUploads = false;\n") =
      some (codeTokens (lit "$wgEnableUploads=false;")) := tokens_eq_some_iff.2 scan_uploadsDisabled
  rw [s3Text, s3Tokens]
  rcases i.s3 with _ | _ | s3Data
  · exact iff_of_true hdisabled fun _ h => absurd h (by simp)
  · exact iff_of_true hdisabled fun _ h => absurd h (by simp)
  · simp only [Option.bind_some, id_eq, Option.elim_some]
    rw [s3Data.tokens_getS3Settings_iff]
    constructor
    · intro h data heq
      cases heq
      exact h
    · intro h
      exact h _ rfl

/-- The values of all settings are read exactly if these conditions hold.  Those of the
configuration, of the operation mode, of the secrets and of Shellbox are always read. -/
theorem tokens_content_iff : Php.tokens i.content = some i.tokens ↔
    (Free isNewline i.dbData.database ∧
      Aligned 4 [i.dbData.host, i.dbData.username, i.dbData.password]) ∧
    (∀ connection, i.connection = some connection → Aligned 0 connection.settingsValues) ∧
    (∀ auth, i.auth = some auth → ∀ entry, auth.oauthEntry = some entry →
      Aligned 8 entry.values) ∧
    (∀ smtpUsesTunnel smtpData, i.smtp = some (some (smtpUsesTunnel, smtpData)) →
      ((smtpUsesTunnel = true → smtpData.transportSecurity ≠ .none) →
        Free isLineBreak (lit smtpData.host)) ∧
      (∀ user ∈ smtpData.user, Free isLineBreak (lit user)) ∧
      ∀ password ∈ smtpData.password, Free isLineBreak (lit password)) ∧
    ∀ s3Data, i.s3 = some (some s3Data) → Aligned 0 s3Data.settingsValues := by
  have hscan : ∀ {text : PyStr} {ts : List Token}, scan .code text = (.code, ts) →
      Php.tokens text = some ts := fun h => tokens_eq_some_iff.2 h
  rw [content_eq, tokens, tokens_flatMap_iff i.keepsCode_parts]
  simp only [parts, List.forall_mem_cons, List.not_mem_nil, false_implies, implies_true, and_true,
    i.dbData.tokens_getDatabaseSettings_iff, i.tokens_cacheText_iff, i.tokens_authText_iff,
    i.tokens_smtpText_iff, i.tokens_s3Text_iff, hscan (scan_loggingSettings _),
    hscan (scan_proxySettings _), hscan (scan_shellboxSettings _), hscan (scan_modeSettings _ _),
    hscan (scan_secretSettings _), true_and]
  have hend : Php.tokens (lit "?>\n") = some (codeTokens (lit "?>")) := hscan (by decide)
  simp only [hend, and_true]

end LateInputs

end LateSettings
end MediawikiCharm
