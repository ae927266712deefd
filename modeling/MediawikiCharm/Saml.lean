/-
The configuration of SimpleSAMLphp (`_push_simplesamlphp_config` of `mediawiki/_settings.py`).

Three files are written for the SAML relation.  Two of them are dedented with the values in place.
The entries of the metadata are joined by line breaks and put behind the indentation of the first
of them, so that the further ones are indented by four spaces only.
-/
import MediawikiCharm.Exceptions
import MediawikiCharm.Lib.Program
import MediawikiCharm.Lib.PyUrlJoin
import MediawikiCharm.PhpLayout.Text
import MediawikiCharm.Records

namespace MediawikiCharm
namespace Saml

open PyText PyUrl PhpLayout

/-! ### The relation -/

/-- `SamlEndpoint` -/
structure SamlEndpoint where
  name : PyStr
  url : Option PyStr := none
  binding : PyStr
  responseUrl : Option PyStr := none
  name_ne : name ≠ []
  binding_ne : binding ≠ []

/-- `SamlRelationData`, as far as the files show it. -/
structure SamlRelationData where
  entityId : PyStr
  certificates : List PyStr
  endpoints : List SamlEndpoint
  entityId_ne : entityId ≠ []

/-- What the files depend on. -/
structure SamlInputs where
  unicode : UnicodeData
  samlData : SamlRelationData
  samlSecretSalt : PyStr
  urlOrigin : Option PyStr := none
  appName : PyStr
  connection : Option ValkeyConnectionInfo
  httpsProxyString : Option PyStr := none

/-- The files; `none` where there is none. -/
structure SamlFiles where
  authsources : Option PyStr := none
  charmConfig : Option PyStr := none
  idpRemote : Option PyStr := none

/-! ### The contents -/

/-- `authsources_content`; the values are escaped. -/
def authsourcesContent (urlOrigin entityId : PyStr) : PyStr :=
  Textwrap.dedent (render [
    (lit "            <?php
            $config = [
                'default-sp' => [
                    'saml:SP',
                    'entityID' => ", urlOrigin),
    (lit ",\n                    'idp' => ", entityId)]
    (lit ",
                ],
            ];
            "))

/-- `config_entries` -/
def configEntries (urlOrigin secretSalt : PyStr) (connection : ValkeyConnectionInfo)
    (httpsProxyString : Option PyStr) : List (PyStr × PyStr) :=
  [(lit "baseurlpath", lit "'" ++ escapePhpString urlOrigin ++ lit "/w/simplesaml/'"),
    (lit "secretsalt", quoted secretSalt),
    (lit "application", lit "[ 'baseURL' => " ++ quoted urlOrigin ++ lit " ]"),
    (lit "store.type", lit "'redis'"),
    (lit "store.redis.host", quoted connection.host),
    (lit "store.redis.port", lit (toString connection.port)),
    (lit "store.redis.prefix", lit "'SimpleSAMLphp'"),
    (lit "store.redis.username", quoted connection.username),
    (lit "store.redis.password", quoted connection.password)] ++
  (if connection.tls then [(lit "store.redis.tls", lit "true")] else []) ++
  match httpsProxyString with
  | none | some [] => []
  | some proxy => [(lit "proxy", quoted proxy)]

/-- `config_content` -/
def configContent (entries : List (PyStr × PyStr)) : PyStr :=
  lit "<?php\n" ++ (lit "\n").intercalate (entries.map fun entry =>
    lit "$config['" ++ entry.1 ++ lit "'] = " ++ entry.2 ++ lit ";") ++ lit "\n"

/-- `endpoints_by_name.setdefault(endpoint.name, []).append(endpoint)` -/
def addEndpoint (endpoint : SamlEndpoint) :
    List (PyStr × List SamlEndpoint) → List (PyStr × List SamlEndpoint)
  | [] => [(endpoint.name, [endpoint])]
  | (name, endpoints) :: groups =>
    if name = endpoint.name then (name, endpoints ++ [endpoint]) :: groups
    else (name, endpoints) :: addEndpoint endpoint groups

/-- `endpoints_by_name` -/
def endpointsByName (endpoints : List SamlEndpoint) : List (PyStr × List SamlEndpoint) :=
  endpoints.foldl (fun groups endpoint => addEndpoint endpoint groups) []

/-- The array of an endpoint. -/
def phpEndpoint (ep : SamlEndpoint) : PyStr :=
  lit "[" ++ (lit ", ").intercalate (
    (ep.url.elim [] fun url => [lit "'Location' => " ++ quoted url]) ++
    [lit "'Binding' => " ++ quoted ep.binding] ++
    (ep.responseUrl.elim [] fun url => [lit "'ResponseLocation' => " ++ quoted url])) ++ lit "]"

/-- The entry of the endpoints of a name; the name is not escaped. -/
def endpointsEntry (group : PyStr × List SamlEndpoint) : PyStr :=
  lit "    '" ++ group.1 ++ lit "' => [" ++ (lit ", ").intercalate (group.2.map phpEndpoint) ++
    lit "]"

/-- The array of a certificate. -/
def phpKey (certificate : PyStr) : PyStr :=
  lit "['type' => 'X509Certificate', 'signing' => true," ++ lit " 'encryption' => true," ++
    lit " 'X509Certificate' => " ++ quoted certificate ++ lit "]"

/-- `idp_entries` -/
def idpEntries (samlData : SamlRelationData) : List PyStr :=
  (endpointsByName samlData.endpoints).map endpointsEntry ++
    if samlData.certificates = [] then []
    else [lit "    'keys' => [" ++ (lit ", ").intercalate (samlData.certificates.map phpKey) ++
      lit "]"]

/-- The metadata before they are dedented. -/
def idpMetadataText (samlData : SamlRelationData) : PyStr :=
  render [(lit "            <?php\n            $metadata[", samlData.entityId)]
    (lit "] = [\n            ") ++ (lit ",\n").intercalate (idpEntries samlData) ++
    lit ",\n            ];\n            "

/-- `idp_metadata_content` -/
def idpMetadataContent (samlData : SamlRelationData) : PyStr :=
  Textwrap.dedent (idpMetadataText samlData)

/-! ### The files -/

/-- `urlparse`, which may raise `ValueError` -/
def parsed (r : Option ParseResult) : Except Exc ParseResult :=
  match r with
  | none => .error (.other "ValueError")
  | some r => .ok r

/-- `charm_config.url_origin or f"https://{self._charm.app.name}"` -/
def SamlInputs.configuredOrigin (i : SamlInputs) : PyStr :=
  match i.urlOrigin with
  | none | some [] => lit "https://" ++ i.appName
  | some urlOrigin => urlOrigin

/-- `_push_simplesamlphp_config` -/
def pushSimplesamlphpConfig (i : SamlInputs) : Prog SamlFiles Exc Unit := do
  let origin ← Prog.ofExcept (parsed (urlparseWith i.unicode (lit "https") i.configuredOrigin))
  let urlOrigin := origin.geturl
  let result ← Prog.ofExcept (parsed (urlparse i.unicode urlOrigin))
  if result.scheme ≠ lit "https" then
    Prog.modify fun files => { files with charmConfig := none }
    throw (.blocked "HTTPS is required for SAML")
  else
    Prog.modify fun files => { files with
      authsources := some (authsourcesContent urlOrigin i.samlData.entityId) }
    match i.connection with
    | none =>
      Prog.modify fun files => { files with charmConfig := none }
      throw (.blocked "SAML requires a Valkey relation for SimpleSAMLphp session storage")
    | some connection =>
      Prog.modify fun files => { files with
        charmConfig := some (configContent
          (configEntries urlOrigin i.samlSecretSalt connection i.httpsProxyString)) }
      Prog.modify fun files => { files with idpRemote := some (idpMetadataContent i.samlData) }

end Saml
end MediawikiCharm
