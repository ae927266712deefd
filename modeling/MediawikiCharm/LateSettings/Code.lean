/-
The code of `LateSettings.php` (`_push_late_settings` of `mediawiki/_settings.py`).

The values of the relations, of the configuration and of the secrets stand in literals.  Two
contents with the same settings are the same code, with other values in the literals.
-/
import MediawikiCharm.LateSettings.Content

namespace MediawikiCharm
namespace LateSettings

open PyText Lines Textwrap Php PhpLayout PhpStrings Smtp

namespace LateInputs

variable {F : Type} (i : LateInputs F)

/-! ### Shapes -/

/-- The parts of `$wgSMTP` that are no literals, and whether the others are there. -/
structure SmtpShape where
  port : ℕ
  plain : Bool
  user : Bool
  password : Bool
  skipSslVerify : Bool
  peerName : Bool
  sender : Bool
deriving DecidableEq

/-- What the code of the content depends on: which settings there are, the number of debug log
groups and the port of the mail relay, which is no literal. -/
structure Shape where
  groups : ℕ
  httpProxy : Bool
  cache : Bool
  /-- Whether there is an entry for OAuth, with scopes and with a proxy, and one for SAML. -/
  auth : Option (Bool × Bool) × Bool
  smtp : Option (Option SmtpShape)
  /-- Whether the path style is used. -/
  s3 : Option Bool
  mode : OperationMode
  message : Bool
deriving DecidableEq

/-- What the code of `$wgSMTP` depends on. -/
def smtpShape (smtpUsesTunnel : Bool) (smtpData : SmtpRelationData) : SmtpShape where
  port := wgSmtpPort smtpUsesTunnel smtpData
  plain := decide (smtpData.authType = .plain)
  user := smtpData.user.isSome
  password := smtpData.password.isSome
  skipSslVerify := smtpData.skipSslVerify
  peerName := showsPeerName smtpUsesTunnel smtpData
  sender := smtpData.smtpSender.isSome

def authShape (auth : AuthInputs) : Option (Bool × Bool) × Bool :=
  (auth.oauthEntry.map fun entry => (entry.scope.isSome, entry.proxy.isSome), auth.saml)

def shape : Shape where
  groups := i.config.mediawikiDebugLogGroups.length
  httpProxy := (i.proxyConfig.bind Egress.ProxyConfig.httpProxy).isSome
  cache := i.connection.isSome
  auth := i.auth.elim (none, false) authShape
  smtp := i.smtp.map fun relation => relation.map fun smtp => smtpShape smtp.1 smtp.2
  s3 := i.s3.bind fun relation => relation.map S3ConnectionInfo.isPathStyle
  mode := i.mode
  message := decide (i.mode = .maintenance) && i.maintenanceMessage.any fun message => message ≠ ""

lemma skeleton_loggingTokens (config : CharmConfig F) : skeleton (loggingTokens config) =
    skeleton (codeTokens (lit "$wgDebugLogGroups=[")) ++
      ((skeleton (codeTokens (lit ","))).intercalate
        (List.replicate config.mediawikiDebugLogGroups.length
          (none :: skeleton (codeTokens (lit "=>")) ++ [none])) ++
        (skeleton (codeTokens (lit "];$wgDebugLogFile=")) ++
          none :: skeleton (codeTokens (lit ";")))) := by
  have hgroups : (config.mediawikiDebugLogGroups.map fun group => skeleton
      (.str (lit group) :: codeTokens (lit "=>") ++ [.str (lit "/var/log/mediawiki/logs.log")])) =
      List.replicate config.mediawikiDebugLogGroups.length
        (none :: skeleton (codeTokens (lit "=>")) ++ [none]) := by
    simp only [List.cons_append, skeleton_str, skeleton_append, skeleton_nil, List.map_const']
  rw [loggingTokens]
  simp only [skeleton_append, skeleton_str, List.append_assoc]
  rw [Split.hom_intercalate skeleton skeleton_append, List.map_map, ← hgroups]
  rfl

/-- The pieces without their values. -/
def blank (entries : List (List Piece)) : List (List Piece) :=
  entries.map fun entry => entry.map (Piece.map fun _ => [])

lemma blank_option (code : PyStr) {value value' : Option String}
    (h : value.isSome = value'.isSome) :
    blank (value.elim [] fun v => [[.code code, .value (lit v)]]) =
      blank (value'.elim [] fun v => [[.code code, .value (lit v)]]) := by
  cases value with
  | none =>
    cases value' with
    | none => rfl
    | some _ => cases h
  | some _ =>
    cases value' with
    | none => cases h
    | some _ => rfl

lemma blank_optionsEntry {b b' : Bool} {d d' : SmtpRelationData}
    (hskip : d.skipSslVerify = d'.skipSslVerify) (hpeer : showsPeerName b d = showsPeerName b' d') :
    blank (optionsEntry (optionPieces b d)) = blank (optionsEntry (optionPieces b' d')) := by
  rw [optionPieces, optionPieces, ← hskip, ← hpeer]
  cases d.skipSslVerify with
  | true =>
    cases showsPeerName b d with
    | true => rfl
    | false => rfl
  | false =>
    cases showsPeerName b d with
    | true => rfl
    | false => rfl

lemma skeleton_settingTokens {b b' : Bool} {d d' : SmtpRelationData}
    (h : smtpShape b d = smtpShape b' d') :
    skeleton (settingTokens b d) = skeleton (settingTokens b' d') := by
  simp only [smtpShape, SmtpShape.mk.injEq] at h
  obtain ⟨hport, hplain, huser, hpassword, hskip, hpeer, hsender⟩ := h
  have hauth : (if d.authType = .plain then "true" else "false") =
      if d'.authType = .plain then "true" else "false" :=
    if_congr (decide_eq_decide.1 hplain) rfl rfl
  have hentries : blank (entryPieces b d) = blank (entryPieces b' d') := by
    have huser := blank_option (lit "'username' => ") huser
    have hpassword := blank_option (lit "'password' => ") hpassword
    have hoptions := blank_optionsEntry hskip hpeer
    simp only [blank, entryPieces, List.map_append, hport, hauth] at huser hpassword hoptions ⊢
    rw [huser, hpassword, hoptions]
    rfl
  have hlines : ∀ (b : Bool) (d : SmtpRelationData),
      skeleton (entryTokens (smtpLines b d).flatten) = skeleton (entryTokens
        ((blank (entryPieces b d)).map fun entry => entry ++ [.code (lit ",")]).flatten) := by
    intro b d
    rw [← skeleton_entryTokens _ fun _ => [], smtpLines, blank, List.map_flatten, List.map_map,
      List.map_map]
    congr 3
    refine List.map_congr_left fun entry _ => ?_
    simp [Piece.map]
  have hsenders : ∀ {sender sender' : Option String}, sender.isSome = sender'.isSome →
      skeleton (senderTokens sender) = skeleton (senderTokens sender') := by
    intro sender sender' h
    cases sender with
    | none =>
      cases sender' with
      | none => rfl
      | some _ => cases h
    | some _ =>
      cases sender' with
      | none => cases h
      | some _ => simp [senderTokens]
  rw [settingTokens, settingTokens]
  simp only [skeleton_append, hlines, hentries, hsenders hsender]

lemma skeleton_authTokens {auth auth' : AuthInputs} (h : authShape auth = authShape auth') :
    skeleton auth.settingTokens = skeleton auth'.settingTokens := by
  simp only [authShape, Prod.mk.injEq] at h
  obtain ⟨hentry, hsaml⟩ := h
  rw [AuthInputs.settingTokens, AuthInputs.settingTokens, ← hsaml]
  cases hoauth : auth.oauthEntry with
  | none =>
    rw [hoauth, Option.map_none] at hentry
    rw [Option.map_eq_none_iff.1 hentry.symm]
  | some entry =>
    rw [hoauth, Option.map_some] at hentry
    obtain ⟨entry', hoauth', heq⟩ := Option.map_eq_some_iff.1 hentry.symm
    rw [hoauth']
    dsimp only
    have hmore : ∀ entry : OAuthEntry, (scanned entry.moreParts).map Prod.fst =
        (if entry.scope.isSome then [(scan .code (lit ",\n'scope' => ")).2] else []) ++
          if entry.proxy.isSome then [(scan .code (lit ",\n'proxy' => ")).2] else [] := by
      intro entry
      rw [scanned, OAuthEntry.moreParts, List.map_append, List.map_append]
      congr 1
      · cases entry.scope with
        | none => rfl
        | some _ => rfl
      · cases entry.proxy with
        | none => rfl
        | some _ => rfl
    have hparts : (scanned entry.moreParts).map Prod.fst =
        (scanned entry'.moreParts).map Prod.fst := by
      rw [hmore, hmore, ← (Prod.mk.inj heq).1, ← (Prod.mk.inj heq).2]
    rw [skeleton_fill, skeleton_fill]
    simp only [scanned, List.map_cons] at hparts ⊢
    rw [hparts]

/-- Where the error of a relation is deferred there are the settings of no provider. -/
lemma settingTokens_of_authShape {auth : AuthInputs} (h : authShape auth = (none, false)) :
    auth.settingTokens = [] := by
  obtain ⟨hentry, hsaml⟩ := Prod.mk.inj h
  rw [auth.settingTokens_of_none (Option.map_eq_none_iff.1 hentry), hsaml,
    if_neg Bool.false_ne_true]

lemma skeleton_s3Tokens {s3Data s3Data' : S3ConnectionInfo}
    (h : s3Data.isPathStyle = s3Data'.isPathStyle) :
    skeleton s3Data.settingTokens = skeleton s3Data'.settingTokens := by
  rw [S3ConnectionInfo.settingTokens, S3ConnectionInfo.settingTokens, skeleton_fill, skeleton_fill,
    h]
  simp only [scanned, List.map_cons, List.map_nil]

lemma skeleton_dbTokens (dbData dbData' : DatabaseConfig) :
    skeleton dbData.settingTokens = skeleton dbData'.settingTokens := by
  rw [DatabaseConfig.settingTokens, DatabaseConfig.settingTokens, skeleton_fill, skeleton_fill]
  simp only [scanned, List.map_cons, List.map_nil]

lemma skeleton_connectionTokens (connection connection' : ValkeyConnectionInfo) :
    skeleton connection.settingTokens = skeleton connection'.settingTokens := by
  rw [ValkeyConnectionInfo.settingTokens, ValkeyConnectionInfo.settingTokens, skeleton_fill,
    skeleton_fill]
  simp only [scanned, ValkeyConnectionInfo.codeParts, List.map_cons, List.map_nil]

lemma skeleton_modeTokens {mode : OperationMode} {message message' : Option String}
    (h : (decide (mode = .maintenance) && message.any fun text => text ≠ "") =
      (decide (mode = .maintenance) && message'.any fun text => text ≠ "")) :
    skeleton (modeTokens mode message) = skeleton (modeTokens mode message') := by
  cases mode with
  | normal => rfl
  | databaseUpdate => rfl
  | forceReconciliation => rfl
  | maintenance =>
    have hmessage : ∀ message : Option String, skeleton (modeTokens .maintenance message) =
        skeleton (if message.any fun text => text ≠ "" then
          codeTokens (lit "$wgReadOnly=") ++ .str [] :: codeTokens (lit ";") ++
            codeTokens (lit "$wgAllowSchemaUpdates=false;")
        else codeTokens (lit "$wgReadOnly=true;") ++
          codeTokens (lit "$wgAllowSchemaUpdates=false;")) := by
      intro message
      cases message with
      | none => rfl
      | some message =>
        by_cases hempty : message = ""
        · subst hempty
          rfl
        · rw [if_pos (by simpa using hempty)]
          simp only [modeTokens, skeleton_append, skeleton_str]
    rw [hmessage, hmessage]
    simp only [decide_true, Bool.true_and] at h
    rw [h]

lemma skeleton_secretTokens (secrets secrets' : MediaWikiSecrets) :
    skeleton (secretTokens secrets) = skeleton (secretTokens secrets') := by
  simp only [secretTokens, MediaWikiSecrets.toLocalSettings, List.flatMap_cons, List.flatMap_nil,
    skeleton_append, skeleton_str]

lemma skeleton_proxyTokens {proxy proxy' : Option Egress.ProxyConfig}
    (h : (proxy.bind Egress.ProxyConfig.httpProxy).isSome =
      (proxy'.bind Egress.ProxyConfig.httpProxy).isSome) :
    skeleton (proxyTokens proxy) = skeleton (proxyTokens proxy') := by
  rw [proxyTokens, proxyTokens]
  cases hurl : proxy.bind Egress.ProxyConfig.httpProxy with
  | none =>
    rw [hurl, Option.isSome_none] at h
    have hurl' : proxy'.bind Egress.ProxyConfig.httpProxy = none :=
      Option.not_isSome_iff_eq_none.1 (by rw [← h]; exact Bool.false_ne_true)
    rw [hurl']
  | some url =>
    rw [hurl] at h
    obtain ⟨url', hurl'⟩ := Option.isSome_iff_exists.1 h.symm
    rw [hurl']
    simp only [skeleton_append, skeleton_str]

lemma skeleton_tokens {G : Type} {j : LateInputs G} (h : i.shape = j.shape) :
    skeleton i.tokens = skeleton j.tokens := by
  simp only [shape, Shape.mk.injEq] at h
  obtain ⟨hgroups, hproxy, hcache, hauth, hsmtp, hs3, hmode, hmessage⟩ := h
  have hcache : skeleton i.cacheTokens = skeleton j.cacheTokens := by
    rw [cacheTokens, cacheTokens]
    cases hi : i.connection with
    | none =>
      cases hj : j.connection with
      | none => rfl
      | some _ => simp [hi, hj] at hcache
    | some connection =>
      cases hj : j.connection with
      | none => simp [hi, hj] at hcache
      | some connection' => exact skeleton_connectionTokens connection connection'
  have hauth : skeleton i.authTokens = skeleton j.authTokens := by
    rw [authTokens, authTokens]
    cases hi : i.auth with
    | none =>
      cases hj : j.auth with
      | none => rfl
      | some auth' =>
        rw [hi, hj] at hauth
        rw [Option.elim_none, Option.elim_some, settingTokens_of_authShape hauth.symm]
    | some auth =>
      cases hj : j.auth with
      | none =>
        rw [hi, hj] at hauth
        rw [Option.elim_none, Option.elim_some, settingTokens_of_authShape hauth]
      | some auth' =>
        rw [hi, hj] at hauth
        exact skeleton_authTokens hauth
  have hsmtp : skeleton i.smtpTokens = skeleton j.smtpTokens := by
    rw [smtpTokens, smtpTokens]
    rcases hi : i.smtp with _ | _ | ⟨b, d⟩ <;> rcases hj : j.smtp with _ | _ | ⟨b', d'⟩ <;>
      simp only [hi, hj, Option.map_none, Option.map_some, Option.some.injEq, reduceCtorEq] at hsmtp
    · rfl
    · rfl
    · exact skeleton_settingTokens hsmtp
  have hs3 : skeleton i.s3Tokens = skeleton j.s3Tokens := by
    rw [s3Tokens, s3Tokens]
    rcases hi : i.s3 with _ | _ | s3Data <;> rcases hj : j.s3 with _ | _ | s3Data' <;>
      simp only [hi, hj, Option.bind_none, Option.bind_some, Option.map_none, Option.map_some,
        Option.some.injEq, reduceCtorEq] at hs3
    · rfl
    · rfl
    · rfl
    · rfl
    · exact skeleton_s3Tokens hs3
  rw [hmode] at hmessage
  simp only [tokens, parts, List.flatMap_cons, List.flatMap_nil, skeleton_append,
    skeleton_loggingTokens, hgroups, skeleton_proxyTokens hproxy,
    skeleton_dbTokens i.dbData j.dbData, hcache, hauth, hsmtp, hs3, hmode,
    skeleton_modeTokens hmessage, skeleton_secretTokens i.secrets j.secrets, shellboxTokens,
    skeleton_str]

/-- The content is the same code for all inputs of one shape: no value of the configuration, of
the relations or of the secrets has an effect on the code. -/
theorem skeleton_content {G : Type} {j : LateInputs G} (h : i.shape = j.shape) :
    ∃ ts us, Php.tokens i.content = some ts ∧ Php.tokens j.content = some us ∧
      skeleton ts = skeleton us := by
  obtain ⟨ts, hi, hts⟩ := keepsCode_flatMap i.keepsCode_parts
  obtain ⟨us, hj, hus⟩ := keepsCode_flatMap j.keepsCode_parts
  refine ⟨ts, us, ?_, ?_, ?_⟩
  · rw [content_eq]
    exact tokens_eq_some_iff.2 hi
  · rw [content_eq]
    exact tokens_eq_some_iff.2 hj
  · exact hts.trans ((skeleton_tokens i h).trans hus.symm)

end LateInputs

/-- A database with any password. -/
def withPassword (password : PyStr) (h : password ≠ []) : DatabaseConfig where
  endpoints := [⟨lit "mysql", 3306⟩]
  database := lit "mediawiki"
  username := lit "wiki"
  password := password
  ready := ⟨by decide, by decide, h, List.cons_ne_nil _ _⟩

/-- Quotes, backslashes and line breaks of a password and of a key are no code. -/
theorem skeleton_content_withPassword : ∃ ts us,
    Php.tokens (LateInputs.content (F := Unit) {
      dbData := withPassword (lit "'; exit; //") (by decide), shellboxKey := lit "0f" }) =
        some ts ∧
    Php.tokens (LateInputs.content (F := Unit) {
      dbData := withPassword (lit "secret") (by decide), shellboxKey := lit "\\'\n?>" }) =
        some us ∧ skeleton ts = skeleton us :=
  LateInputs.skeleton_content _ rfl

end LateSettings
end MediawikiCharm
