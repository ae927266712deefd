/-
The authentication settings (`_get_auth_settings` of `mediawiki/_settings.py`).

The values of the provider are laid out four times: their lines lose the margin of the data, are
put into the data, the data into the entry, and the entry into the settings.  The scopes and the
proxy are put into the data as they are, but have no lines.
-/
import MediawikiCharm.Egress.Hosts
import MediawikiCharm.PhpLayout.Margins

namespace MediawikiCharm
namespace LateSettings

open PyText Lines Textwrap Php PhpLayout

/-- `OauthProviderConfig`, as far as the settings show it. -/
structure OauthProviderConfig where
  issuerUrl : PyStr
  scope : PyStr := []
  clientId : Option PyStr := none
  clientSecret : Option PyStr := none

/-- `_base_scope` -/
def baseScope : List PyStr := [lit "openid", lit "profile", lit "email"]

/-- `OAuth.scopes()`, without repetitions -/
def scopes (oauthExtraScopes : PyStr) : List PyStr := (baseScope ++ splitWords oauthExtraScopes).dedup

/-- `' '.join(sorted(scopes))`, with the scopes that the provider has. -/
def scopeText (oauthExtraScopes scope : PyStr) : PyStr :=
  [ofChar ' '].intercalate
    (((scopes oauthExtraScopes).filter fun s => s ∈ splitWords scope).mergeSort fun s t => s ≤ t)

/-- What the settings show of the provider: its values, which may be any texts, the scopes and the
proxy, if there are any. -/
structure OAuthEntry where
  issuerUrl : PyStr
  clientId : PyStr
  clientSecret : PyStr
  scope : Option PyStr := none
  proxy : Option PyStr := none
  scope_free : ∀ s, scope = some s → Free isNewline s
  proxy_free : ∀ s, proxy = some s → Free isNewline s

namespace OAuthEntry

variable (entry : OAuthEntry)

/-- The data of the provider, before they are laid out. -/
def dataParts : List (PyStr × PyStr) := [
  (lit "            'providerURL' => ", entry.issuerUrl),
  (lit ",\n            'clientID' => ", entry.clientId),
  (lit ",\n            'clientSecret' => ", entry.clientSecret)]

/-- What is put behind the data. -/
def moreParts : List (PyStr × PyStr) :=
  entry.scope.toList.map (fun scope => (lit ",\n'scope' => ", scope)) ++
    entry.proxy.toList.map fun proxy => (lit ",\n'proxy' => ", proxy)

/-- `data_str` -/
def dataStr : PyStr :=
  indentNewlines 8 (Textwrap.dedent (render entry.dataParts []) ++ render entry.moreParts [])

/-- The code in front of the data, and behind them. -/
def entryHead : PyStr := lit "            'OpenIDConnect' => [
                'plugin' => 'OpenIDConnect',
                'data' => [
                    "

def entryRest : PyStr := lit "
                ]
            ]"

/-- `_get_oauth_pluggable_auth_entry` -/
def text : PyStr := Textwrap.dedent (entryHead ++ entry.dataStr ++ entryRest)

end OAuthEntry

/-- `_get_saml_pluggable_auth_entry` -/
def samlEntry : PyStr :=
  Textwrap.dedent (lit "            'SimpleSAMLphp' => [
                'plugin' => 'SimpleSAMLphp',
                'data' => [
                    'authSourceId' => 'default-sp',
                ]
            ]")

/-- `load_lines` -/
def loadLines (extensions : List PyStr) : PyStr :=
  (lit "\n                ").intercalate ((lit "PluggableAuth" :: extensions).map fun ext =>
    lit "wfLoadExtension( '" ++ ext ++ lit "' );")

/-- `entries_str` -/
def entriesStr (pluggableAuthEntries : List PyStr) : PyStr :=
  (lit ",\n                    ").intercalate (pluggableAuthEntries.map (indentNewlines 20))

/-- What the settings depend on: the OAuth relation with the configuration, and whether there is a
SAML relation with endpoints. -/
structure AuthInputs where
  providerInfo : Option OauthProviderConfig := none
  oauthExtraScopes : PyStr := []
  proxyConfig : Option Egress.ProxyConfig := none
  saml : Bool := false
  valid : ∀ proxy, proxyConfig = some proxy → ∀ url,
    proxy.httpsProxy = some url ∨ proxy.httpProxy = some url → url.IsValid := by nofun

namespace AuthInputs

variable (i : AuthInputs)

/-- The proxy that is shown: that for HTTPS, or that for HTTP. -/
def proxyUrl : Option Egress.HttpUrl :=
  i.proxyConfig.bind fun proxy => proxy.httpsProxy.or proxy.httpProxy

lemma isValid_of_proxyUrl {url : Egress.HttpUrl} (h : i.proxyUrl = some url) : url.IsValid := by
  obtain ⟨proxy, hproxy, hurl⟩ := Option.bind_eq_some_iff.1 h
  refine i.valid proxy hproxy url ?_
  rcases Option.or_eq_some_iff.1 hurl with hurl | ⟨-, hurl⟩
  · exact .inl hurl
  · exact .inr hurl

end AuthInputs

lemma free_lit {s : String} (h : ∀ c ∈ s.toList, 0x20 < c.toNat) : Free isNewline (lit s) := by
  intro c hc
  obtain ⟨d, hd, rfl⟩ := List.mem_map.1 hc
  have hval := h d hd
  by_contra hnewline
  have heq : (ofChar d).val = 10 := by
    rw [eq_of_beq (show (ofChar d == ofChar '\n') = true by simpa [isNewline] using hnewline)]
    rfl
  have hchar : (ofChar d).val = d.toNat := rfl
  omega

lemma free_intercalate {words : List PyStr} (h : ∀ w ∈ words, Free isNewline w) :
    Free isNewline ([ofChar ' '].intercalate words) := by
  induction words with
  | nil => exact Free.nil
  | cons w words ih =>
    obtain ⟨hw, hwords⟩ := List.forall_mem_cons.1 h
    cases words with
    | nil => simpa using hw
    | cons w' words =>
      rw [List.intercalate_cons_cons]
      exact free_append.2 ⟨free_append.2 ⟨hw, @free_spaces newlines 1⟩, ih hwords⟩

lemma free_scopeText (oauthExtraScopes scope : PyStr) :
    Free isNewline (scopeText oauthExtraScopes scope) := by
  refine free_intercalate fun w hw c hc => ?_
  rw [List.mem_mergeSort, List.mem_filter] at hw
  have hspace := isSpace_of_mem_splitWords (of_decide_eq_true hw.2) c hc
  by_contra hnewline
  have heq : c = ofChar '\n' := by simpa [isNewline] using hnewline
  rw [heq] at hspace
  exact absurd hspace (by decide)

namespace AuthInputs

variable (i : AuthInputs)

/-- The entry of the OAuth relation. -/
def oauthEntry : Option OAuthEntry :=
  match i.providerInfo with
  | none => none
  | some info =>
    match info.clientId, info.clientSecret with
    | some clientId, some clientSecret => some {
        issuerUrl := info.issuerUrl
        clientId := clientId
        clientSecret := clientSecret
        scope := if info.scope = [] then none else some (scopeText i.oauthExtraScopes info.scope)
        proxy := i.proxyUrl.map fun url => lit url.toString
        scope_free := fun s hs => by
          split_ifs at hs
          rw [← Option.some.inj hs]
          exact free_scopeText _ _
        proxy_free := fun s hs => by
          obtain ⟨url, hurl, rfl⟩ := Option.map_eq_some_iff.1 hs
          exact free_lit (Egress.HttpUrl.visible_toString (i.isValid_of_proxyUrl hurl)) }
    | _, _ => none

/-- The names of the extensions, and the entries. -/
def extensions : List PyStr :=
  (if i.oauthEntry.isSome then [lit "OpenIDConnect"] else []) ++
    if i.saml then [lit "SimpleSAMLphp"] else []

def pluggableAuthEntries : List PyStr :=
  i.oauthEntry.toList.map OAuthEntry.text ++ if i.saml then [samlEntry] else []

/-- The code in front of the extensions, between them and the entries, and behind the entries. -/
def settingsHead : PyStr := lit "
            $_skipAuth = PHP_SAPI === 'cli'
                && in_array( 'createAndPromote', $_SERVER['argv'] ?? [], true );

            if ( !$_skipAuth ) \x7b
                "

def settingsConfig : PyStr := lit "
            \x7d
            unset( $_skipAuth );

            $wgPluggableAuth_Config = array_replace_recursive(
                $wgPluggableAuth_Config ?? [],
                [
                    "

def settingsRest : PyStr := lit "
                ]
            );
            "

/-- The settings before they are laid out. -/
def settingsText : PyStr :=
  settingsHead ++ loadLines i.extensions ++ settingsConfig ++ entriesStr i.pluggableAuthEntries ++
    settingsRest

/-- `_get_auth_settings` -/
def getAuthSettings : PyStr :=
  if i.pluggableAuthEntries = [] then [] else Textwrap.dedent i.settingsText ++ lit "\n"

/-- The code of the settings in front of the entries. -/
def headCode (oauth saml : Bool) : PyStr :=
  lit "$_skipAuth = PHP_SAPI === 'cli' && in_array( 'createAndPromote', $_SERVER['argv'] ?? [], true );
    if ( !$_skipAuth ) \x7b wfLoadExtension( 'PluggableAuth' );" ++
    (if oauth then lit "wfLoadExtension( 'OpenIDConnect' );" else []) ++
    (if saml then lit "wfLoadExtension( 'SimpleSAMLphp' );" else []) ++
    lit "\x7d unset( $_skipAuth );
    $wgPluggableAuth_Config = array_replace_recursive( $wgPluggableAuth_Config ?? [], ["

/-- The code of the SAML entry. -/
def samlCode : PyStr := lit "'SimpleSAMLphp' => [ 'plugin' => 'SimpleSAMLphp',
  'data' => [ 'authSourceId' => 'default-sp', ] ]"

/-- The code of the OAuth entry in front of its first value. -/
def oauthCode : PyStr :=
  lit "'OpenIDConnect' => [ 'plugin' => 'OpenIDConnect', 'data' => [ 'providerURL' => "

/-- The code behind the values of the OAuth entry. -/
def restCode (saml : Bool) : PyStr :=
  lit "]]" ++ (if saml then lit "," ++ samlCode else []) ++ lit "] );"

/-- The tokens of the settings with the values of the relation. -/
def settingTokens : List Token :=
  match i.oauthEntry with
  | some entry => fill (scanned ((headCode true i.saml ++ oauthCode, entry.issuerUrl) ::
      (lit ", 'clientID' => ", entry.clientId) ::
      (lit ", 'clientSecret' => ", entry.clientSecret) :: entry.moreParts))
    (scan .code (restCode i.saml)).2
  | none => if i.saml then (scan .code (headCode false true ++ samlCode ++ lit "] );")).2 else []

end AuthInputs

end LateSettings
end MediawikiCharm
