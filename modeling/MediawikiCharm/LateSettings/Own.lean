/-
The settings of the configuration, of the operation mode, of the secrets, of the proxy and of
Shellbox (`_push_late_settings` and others of `mediawiki/_settings.py`).

The values are escaped and put between quotes, and nothing is laid out afterwards.  So each value is
read as it is, whatever text it is.
-/
import MediawikiCharm.LateSettings.Smtp

namespace MediawikiCharm
namespace LateSettings

set_option maxRecDepth 2000

open PyText Lines Textwrap Php PhpLayout PhpStrings Smtp

/-- `_get_proxy_settings` -/
def getProxySettings (proxyConfig : Option Egress.ProxyConfig) : PyStr :=
  match proxyConfig.bind Egress.ProxyConfig.httpProxy with
  | some url => lit "$wgHttpProxy = " ++ quoted (lit url.toString) ++ lit ";\n"
  | none => []

/-- `SHELLBOX_URL` -/
def shellboxUrl : PyStr := lit "http://127.0.0.1:8080/shellbox"

/-- `_get_shellbox_settings` -/
def getShellboxSettings (authenticationKey : PyStr) : PyStr :=
  lit "$wgShellboxUrls['syntaxhighlight'] = " ++ quoted shellboxUrl ++
    (lit ";\n$wgShellboxSecretKey = " ++ quoted authenticationKey ++
      lit ";\n$wgPygmentizePath = '/usr/bin/pygmentize';\n")

/-! ### Configuration, operation mode and secrets -/

section Own

variable {F : Type}

/-- The tokens of `$wgDebugLogGroups` and `$wgDebugLogFile`. -/
def loggingTokens (config : CharmConfig F) : List Token :=
  codeTokens (lit "$wgDebugLogGroups=[") ++
    (codeTokens (lit ",")).intercalate (config.mediawikiDebugLogGroups.map fun group =>
      .str (lit group) :: codeTokens (lit "=>") ++ [.str (lit "/var/log/mediawiki/logs.log")]) ++
    codeTokens (lit "];$wgDebugLogFile=") ++
    (.str (lit (if config.mediawikiDebugLog then "/var/log/mediawiki/logs.log" else "")) ::
      codeTokens (lit ";"))

/-- A literal between code. -/
lemma scan_literal (a v y : PyStr) {ts us : List Token} (ha : scan .code a = (.code, ts))
    (hy : scan .code y = (.code, us)) :
    scan .code (a ++ (quoted v ++ y)) = (.code, ts ++ .str v :: us) := by
  rw [scan_append, ha, scan_quoted, hy]

/-- The entry of a group. -/
lemma lit_groupEntry (group : String) :
    lit ("    '" ++ Settings.escapePhpString group ++ "' => '" ++ "/var/log/mediawiki/logs.log" ++
      "'") = lit "    " ++ (quoted (lit group) ++ lit " => '/var/log/mediawiki/logs.log'") := by
  have hhead : lit "    '" = lit "    " ++ [ofChar '\''] := by
    repeat rw [lit_ofList]
    decide
  have hrest : lit "' => '" ++ (lit "/var/log/mediawiki/logs.log" ++ lit "'") =
      ofChar '\'' :: lit " => '/var/log/mediawiki/logs.log'" := by
    repeat rw [lit_ofList]
    decide
  simp only [lit_append, lit_escapePhpString, List.append_assoc, hhead, hrest, quoted,
    List.cons_append, List.nil_append]

lemma scan_groupEntry (group : String) :
    scan .code (lit "    " ++ (quoted (lit group) ++ lit " => '/var/log/mediawiki/logs.log'")) =
      (.code, .str (lit group) :: codeTokens (lit "=>") ++
        [.str (lit "/var/log/mediawiki/logs.log")]) := by
  have hspaces : scan .code (lit "    ") = (.code, []) := by decide
  have hrest : scan .code (lit " => '/var/log/mediawiki/logs.log'") =
      (.code, codeTokens (lit "=>") ++ [.str (lit "/var/log/mediawiki/logs.log")]) := by
    repeat rw [lit_ofList]
    decide
  exact scan_literal _ _ _ hspaces hrest

/-- The groups between brackets. -/
lemma scan_groups (groups : List String) :
    scan .code (lit "[\n" ++ ((lit ",\n").intercalate (groups.map fun group =>
        lit "    " ++ (quoted (lit group) ++ lit " => '/var/log/mediawiki/logs.log'")) ++
          lit "\n]")) =
      (.code, codeTokens (lit "[") ++ ((codeTokens (lit ",")).intercalate (groups.map fun group =>
        .str (lit group) :: codeTokens (lit "=>") ++ [.str (lit "/var/log/mediawiki/logs.log")]) ++
          codeTokens (lit "]"))) := by
  have hopen : scan .code (lit "[\n") = (.code, codeTokens (lit "[")) := by decide
  have hclose : scan .code (lit "\n]") = (.code, codeTokens (lit "]")) := by decide
  have hsep : scan .code (lit ",\n") = (.code, codeTokens (lit ",")) := by decide
  have hentries := scan_intercalate (congrArg Prod.fst hsep) (l := groups) fun group _ =>
    scan_groupEntry group
  rw [hsep] at hentries
  rw [scan_append, hopen, scan_append, hentries, hclose]

lemma scan_debugFile (debug : Bool) :
    scan .code (lit (";\n$wgDebugLogFile = '" ++
        (if debug then "/var/log/mediawiki/logs.log" else "") ++ "';\n")) =
      (.code, codeTokens (lit ";$wgDebugLogFile=") ++
        .str (lit (if debug then "/var/log/mediawiki/logs.log" else "")) ::
          codeTokens (lit ";")) := by
  cases debug with
  | true => decide
  | false => decide

/-- The text of the groups. -/
def groupsText (groups : List String) : PyStr :=
  if groups = [] then lit "[]"
  else lit "[\n" ++ ((lit ",\n").intercalate (groups.map fun group =>
    lit "    " ++ (quoted (lit group) ++ lit " => '/var/log/mediawiki/logs.log'")) ++ lit "\n]")

lemma lit_groups (groups : List String) :
    lit (String.intercalate ",\n" (groups.map fun group => "    '" ++
      Settings.escapePhpString group ++ "' => '" ++ "/var/log/mediawiki/logs.log" ++ "'")) =
    (lit ",\n").intercalate (groups.map fun group =>
      lit "    " ++ (quoted (lit group) ++ lit " => '/var/log/mediawiki/logs.log'")) := by
  have hentry : ∀ group ∈ groups, (lit ∘ fun group => "    '" ++
      Settings.escapePhpString group ++ "' => '" ++ "/var/log/mediawiki/logs.log" ++ "'") group =
        lit "    " ++ (quoted (lit group) ++ lit " => '/var/log/mediawiki/logs.log'") := by
    intro group _
    rw [Function.comp_apply, lit_groupEntry]
  rw [lit_intercalate, List.map_map, List.map_congr_left hentry]

lemma lit_loggingSettings (config : CharmConfig F) : lit (Settings.getLoggingSettings config) =
    lit "$wgDebugLogGroups = " ++ (groupsText config.mediawikiDebugLogGroups ++
      lit (";\n$wgDebugLogFile = '" ++
        (if config.mediawikiDebugLog then "/var/log/mediawiki/logs.log" else "") ++ "';\n")) := by
  have hgroups := lit_groups config.mediawikiDebugLogGroups
  unfold Settings.getLoggingSettings
  dsimp only
  generalize String.intercalate ",\n" (config.mediawikiDebugLogGroups.map fun group =>
    "    '" ++ Settings.escapePhpString group ++ "' => '" ++ "/var/log/mediawiki/logs.log" ++ "'") =
      text at hgroups ⊢
  have hempty : text = "" ↔ config.mediawikiDebugLogGroups = [] := by
    rw [← String.toList_eq_nil_iff, ← List.map_eq_nil_iff (f := ofChar), ← lit, hgroups]
    cases config.mediawikiDebugLogGroups with
    | nil => exact iff_of_true rfl rfl
    | cons group groups =>
      refine iff_of_false (fun h => ?_) (List.cons_ne_nil _ _)
      cases groups with
      | nil => simp [quoted] at h
      | cons group' groups => simp [List.intercalate_cons_cons, quoted] at h
  simp only [lit_append, groupsText, ← hempty, List.append_assoc]
  by_cases h : text = ""
  · rw [if_pos h, if_pos h]
  · rw [if_neg h, if_neg h, lit_append, lit_append, hgroups]
    simp only [List.append_assoc]

lemma scan_loggingSettings (config : CharmConfig F) :
    scan .code (lit (Settings.getLoggingSettings config)) = (.code, loggingTokens config) := by
  have hname : scan .code (lit "$wgDebugLogGroups = ") =
      (.code, codeTokens (lit "$wgDebugLogGroups=")) := by decide
  have hgroups : scan .code (groupsText config.mediawikiDebugLogGroups) =
      (.code, codeTokens (lit "[") ++ ((codeTokens (lit ",")).intercalate
        (config.mediawikiDebugLogGroups.map fun group => .str (lit group) ::
          codeTokens (lit "=>") ++ [.str (lit "/var/log/mediawiki/logs.log")]) ++
        codeTokens (lit "]"))) := by
    rw [groupsText]
    split_ifs with h
    · rw [h]
      decide
    · exact scan_groups _
  have hopen : codeTokens (lit "$wgDebugLogGroups=[") =
      codeTokens (lit "$wgDebugLogGroups=") ++ codeTokens (lit "[") := by
    repeat rw [lit_ofList]
    decide
  have hclose : codeTokens (lit "];$wgDebugLogFile=") =
      codeTokens (lit "]") ++ codeTokens (lit ";$wgDebugLogFile=") := by
    repeat rw [lit_ofList]
    decide
  rw [lit_loggingSettings, scan_append, hname, scan_append, hgroups, scan_debugFile, loggingTokens,
    hopen, hclose]
  simp only [List.append_assoc]

/-- A value that is assigned. -/
lemma scan_assignment {opening : String} (value : String) {code : PyStr} {ts : List Token}
    (h : lit opening = code ++ [ofChar '\'']) (hcode : scan .code code = (.code, ts)) :
    scan .code (lit (opening ++ Settings.escapePhpString value ++ "';\n")) =
      (.code, ts ++ .str (lit value) :: codeTokens (lit ";")) := by
  have htext : lit (opening ++ Settings.escapePhpString value ++ "';\n") =
      code ++ (quoted (lit value) ++ lit ";\n") := by
    have hend : lit "';\n" = ofChar '\'' :: lit ";\n" := by decide
    simp only [lit_append, lit_escapePhpString, h, hend, quoted, List.append_assoc,
      List.cons_append, List.nil_append]
  rw [htext]
  exact scan_literal _ _ _ hcode (by decide)

/-- The tokens of the settings of the operation mode. -/
def modeTokens (mode : OperationMode) (maintenanceMessage : Option String) : List Token :=
  match mode with
  | .maintenance =>
    (match maintenanceMessage with
      | none | some "" => codeTokens (lit "$wgReadOnly=true;")
      | some message =>
        codeTokens (lit "$wgReadOnly=") ++ .str (lit message) :: codeTokens (lit ";")) ++
      codeTokens (lit "$wgAllowSchemaUpdates=false;")
  | .databaseUpdate =>
    (scan .code (lit "$adminTask=(PHP_SAPI==='cli'||defined('MEDIAWIKI_INSTALL'));
      $wgReadOnly=$adminTask?false:'Ongoing database update';")).2
  | .normal | .forceReconciliation => codeTokens (lit "$wgAllowSchemaUpdates=false;")

lemma scan_modeSettings (mode : OperationMode) (maintenanceMessage : Option String) :
    scan .code (lit (Settings.modeSettings mode maintenanceMessage)) =
      (.code, modeTokens mode maintenanceMessage) := by
  have hupdates : scan .code (lit "$wgAllowSchemaUpdates = false;\n") =
      (.code, codeTokens (lit "$wgAllowSchemaUpdates=false;")) := by decide
  cases mode with
  | normal => exact hupdates
  | forceReconciliation => exact hupdates
  | databaseUpdate =>
    show scan .code (lit (_ ++ _)) = (.code, (scan .code _).2)
    rw [lit_append]
    repeat rw [lit_ofList]
    decide
  | maintenance =>
    have hopening : lit "$wgReadOnly = '" = lit "$wgReadOnly = " ++ [ofChar '\''] := by
      repeat rw [lit_ofList]
      decide
    have hcode : scan .code (lit "$wgReadOnly = ") = (.code, codeTokens (lit "$wgReadOnly=")) := by
      decide
    have htrue : scan .code (lit "$wgReadOnly = true;\n") =
        (.code, codeTokens (lit "$wgReadOnly=true;")) := by decide
    have hlines : ∀ {text : String} {ts : List Token}, scan .code (lit text) = (.code, ts) →
        scan .code (lit (text ++ "$wgAllowSchemaUpdates = false;\n")) =
          (.code, ts ++ codeTokens (lit "$wgAllowSchemaUpdates=false;")) := by
      intro text ts h
      rw [lit_append, scan_append, h, hupdates]
    cases maintenanceMessage with
    | none => exact hlines htrue
    | some message =>
      by_cases hempty : message = ""
      · subst hempty
        exact hlines htrue
      · have hvalue := hlines (scan_assignment message hopening hcode)
        have htext : Settings.modeSettings .maintenance (some message) = "$wgReadOnly = '" ++
            Settings.escapePhpString message ++ "';\n" ++ "$wgAllowSchemaUpdates = false;\n" := by
          unfold Settings.modeSettings
          dsimp only
          split
          · rename_i h
            cases h
          · rename_i h
            exact absurd (Option.some.inj h) hempty
          · rename_i h
            rw [Option.some.inj h]
        have htokens : modeTokens .maintenance (some message) =
            codeTokens (lit "$wgReadOnly=") ++ .str (lit message) :: codeTokens (lit ";") ++
              codeTokens (lit "$wgAllowSchemaUpdates=false;") := by
          simp only [modeTokens]
        rw [htext, htokens]
        exact hvalue

lemma lit_join (texts : List String) : lit (String.join texts) = texts.flatMap lit := by
  induction texts with
  | nil => rfl
  | cons text texts ih =>
    rw [String.join_cons, lit_append, ih, List.flatMap_cons]

/-- The tokens of the settings of the secrets. -/
def secretTokens (secrets : MediaWikiSecrets) : List Token :=
  secrets.toLocalSettings.flatMap fun (key, value) =>
    codeTokens (lit key) ++ codeTokens (lit "=") ++ .str (lit value) :: codeTokens (lit ";")

lemma scan_secretSettings (secrets : MediaWikiSecrets) :
    scan .code (lit (Settings.secretSettings secrets)) = (.code, secretTokens secrets) := by
  have hkey : ∀ key : String, lit (key ++ " = '") = lit key ++ lit " = " ++ [ofChar '\''] := by
    intro key
    have hassign : lit " = '" = lit " = " ++ [ofChar '\''] := by decide
    rw [lit_append, hassign, List.append_assoc]
  have hassign : scan .code (lit " = ") = (.code, codeTokens (lit "=")) := by decide
  have hline : ∀ (key value : String), scan .code (lit key) = (.code, codeTokens (lit key)) →
      scan .code (lit (key ++ " = '" ++ Settings.escapePhpString value ++ "';\n")) =
        (.code, codeTokens (lit key) ++ codeTokens (lit "=") ++
          .str (lit value) :: codeTokens (lit ";")) := by
    intro key value h
    exact scan_assignment value (hkey key) (by rw [scan_append, h, hassign])
  rw [Settings.secretSettings, lit_join, List.flatMap_map]
  refine scan_flatMap fun (key, value) hmem => hline key value ?_
  have hkeys : key ∈ ["$wgSecretKey", "$wgSessionSecret", "$wgAuthenticationTokenVersion"] :=
    List.mem_map_of_mem (f := Prod.fst) hmem
  simp only [List.mem_cons, List.not_mem_nil, or_false] at hkeys
  rcases hkeys with rfl | rfl | rfl
  · decide
  · decide
  · decide

end Own

/-! ### The proxy and Shellbox -/

/-- The tokens of `$wgHttpProxy`. -/
def proxyTokens (proxyConfig : Option Egress.ProxyConfig) : List Token :=
  match proxyConfig.bind Egress.ProxyConfig.httpProxy with
  | some url => codeTokens (lit "$wgHttpProxy=") ++ .str (lit url.toString) :: codeTokens (lit ";")
  | none => []

lemma scan_proxySettings (proxyConfig : Option Egress.ProxyConfig) :
    scan .code (getProxySettings proxyConfig) = (.code, proxyTokens proxyConfig) := by
  have hname : scan .code (lit "$wgHttpProxy = ") = (.code, codeTokens (lit "$wgHttpProxy=")) := by
    decide
  rw [getProxySettings, proxyTokens]
  cases proxyConfig.bind Egress.ProxyConfig.httpProxy with
  | none => rfl
  | some url =>
    dsimp only
    rw [List.append_assoc]
    exact scan_literal _ _ _ hname (by decide)

/-- The tokens of the settings of Shellbox. -/
def shellboxTokens (authenticationKey : PyStr) : List Token :=
  (scan .code (lit "$wgShellboxUrls['syntaxhighlight']=")).2 ++ .str shellboxUrl ::
    (codeTokens (lit ";$wgShellboxSecretKey=") ++ .str authenticationKey ::
      (scan .code (lit ";$wgPygmentizePath='/usr/bin/pygmentize';")).2)

lemma scan_shellboxSettings (authenticationKey : PyStr) :
    scan .code (getShellboxSettings authenticationKey) =
      (.code, shellboxTokens authenticationKey) := by
  have hurls : scan .code (lit "$wgShellboxUrls['syntaxhighlight'] = ") =
      (.code, (scan .code (lit "$wgShellboxUrls['syntaxhighlight']=")).2) := by
    repeat rw [lit_ofList]
    decide
  have hkey : scan .code (lit ";\n$wgShellboxSecretKey = ") =
      (.code, codeTokens (lit ";$wgShellboxSecretKey=")) := by
    repeat rw [lit_ofList]
    decide
  have hrest : scan .code (lit ";\n$wgPygmentizePath = '/usr/bin/pygmentize';\n") =
      (.code, (scan .code (lit ";$wgPygmentizePath='/usr/bin/pygmentize';")).2) := by
    repeat rw [lit_ofList]
    decide
  rw [getShellboxSettings, shellboxTokens, List.append_assoc]
  refine scan_literal _ _ _ hurls ?_
  rw [List.append_assoc]
  exact scan_literal _ _ _ hkey hrest

end LateSettings
end MediawikiCharm
