/-
The SMTP settings (`_get_smtp_settings` of `mediawiki/_settings.py`, `relations/smtp.py`).

The settings name the relay of the relation, or the local end of the tunnel that leads to it.
Rendering them registers the tunnel, which the layer of the same cycle shows later.  The host
and the port of the relay are those of the databag and stay the same during a cycle; the
password comes from a secret and may be another at the next look, which may also raise.
-/
import MediawikiCharm.Egress
import MediawikiCharm.Settings

namespace MediawikiCharm
namespace Smtp

open Egress Services Settings PyText

/-! ### `textwrap` -/

/-- `str.isspace()` -/
def isBlank (line : List Char) : Bool := !line.isEmpty && line.all fun c => isSpace (ofChar c)

/-- `textwrap.dedent` of a text with a line that is not indented. -/
def dedent (text : List Char) : List Char :=
  ['\n'].intercalate ((text.splitOn '\n').map fun line => if isBlank line then [] else line)

/-- `str.splitlines(keepends=True)`, with the characters of the line so far in reverse order. -/
def keptLines (line : List Char) : List Char → List (List Char)
  | [] => if line = [] then [] else [line.reverse]
  | '\r' :: '\n' :: s => ('\n' :: '\r' :: line).reverse :: keptLines [] s
  | c :: s =>
    if isLineBreak (ofChar c) then (c :: line).reverse :: keptLines [] s
    else keptLines (c :: line) s

/-- `textwrap.indent` by four spaces. -/
def indent (text : List Char) : List Char :=
  (keptLines [] text).flatMap fun line => if isBlank line then line else "    ".toList ++ line

/-! ### The relation -/

/-- `AuthType` -/
inductive AuthType
  | none | notProvided | plain
deriving DecidableEq

/-- `TransportSecurity` -/
inductive TransportSecurity
  | none | starttls | tls
deriving DecidableEq

/-- `SmtpRelationData`, as far as the settings show it. -/
structure SmtpRelationData where
  host : String
  port : ℕ
  user : Option String := none
  password : Option String := none
  authType : AuthType := .none
  transportSecurity : TransportSecurity := .none
  skipSslVerify : Bool := false
  smtpSender : Option String := none

/-- An SMTP relation during a cycle. -/
structure SmtpRelation where
  host : String
  port : ℕ
  /-- `get_relation_data` -/
  getRelationData : ℕ → Except Exc SmtpRelationData
  host_eq : ∀ n data, getRelationData n = .ok data → data.host = host
  port_eq : ∀ n data, getRelationData n = .ok data → data.port = port

/-! ### The settings -/

/-- `_SMTP_PROXY_SERVICE_NAME` -/
def smtpProxyServiceName : String := "smtp-proxy"

/-- `_SMTP_PROXY_PORT` -/
def smtpProxyPort : ℕ := 8125

/-- The `'host'` of `$wgSMTP`. -/
def wgSmtpHost (smtpUsesTunnel : Bool) (smtpData : SmtpRelationData) : String :=
  let smtpHost := if smtpUsesTunnel then "127.0.0.1" else smtpData.host
  if smtpData.transportSecurity = .tls then "ssl://" ++ smtpHost else smtpHost

/-- The `'port'` of `$wgSMTP`. -/
def wgSmtpPort (smtpUsesTunnel : Bool) (smtpData : SmtpRelationData) : ℕ :=
  if smtpUsesTunnel then smtpProxyPort else smtpData.port

/-- The TLS options of `$wgSMTP`. -/
def sslOptions (smtpUsesTunnel : Bool) (smtpData : SmtpRelationData) : List String :=
  (if smtpData.skipSslVerify then ["'verify_peer' => false", "'verify_peer_name' => false"]
    else []) ++
  (if smtpUsesTunnel && decide (smtpData.transportSecurity ≠ .none) then
    ["'peer_name' => '" ++ Settings.escapePhpString smtpData.host ++ "'"] else [])

/-- The entries of `$wgSMTP`. -/
def wgSmtpEntries (smtpUsesTunnel : Bool) (smtpData : SmtpRelationData) : List String :=
  ["'host' => '" ++ Settings.escapePhpString (wgSmtpHost smtpUsesTunnel smtpData) ++ "'",
    "'port' => " ++ toString (wgSmtpPort smtpUsesTunnel smtpData),
    "'auth' => " ++ if smtpData.authType = .plain then "true" else "false"] ++
  (match smtpData.user with
    | none => []
    | some user => ["'username' => '" ++ Settings.escapePhpString user ++ "'"]) ++
  (match smtpData.password with
    | none => []
    | some password => ["'password' => '" ++ Settings.escapePhpString password ++ "'"]) ++
  (match sslOptions smtpUsesTunnel smtpData with
    | [] => []
    | options =>
      ["'socket_options' => array('ssl' => array(" ++ String.intercalate ", " options ++ "))"])

/-- The text of the settings. -/
def smtpText (smtpUsesTunnel : Bool) (smtpData : SmtpRelationData) : String :=
  let entries := String.intercalate "\n"
    ((wgSmtpEntries smtpUsesTunnel smtpData).map fun entry => entry ++ ",")
  "$wgSMTP = [\n" ++ String.ofList (indent (dedent entries.toList)) ++ "\n];\n" ++
    (match smtpData.smtpSender with
      | none => ""
      | some sender => "$wgPasswordSender = '" ++ Settings.escapePhpString sender ++ "';\n") ++ "\n"

/-- `_get_smtp_settings`, with the relation at a time. -/
def getSmtpSettings (resolver : ProxyRouteResolver) (smtp : Option SmtpRelation) (n : ℕ) :
    Prog TunnelServiceRegistry Exc String := do
  match smtp with
  | none =>
    let _ ← TunnelServiceRegistry.register resolver smtpProxyServiceName smtpProxyPort none none
      false
    pure ""
  | some relation =>
    let smtpData ← Prog.ofExcept (relation.getRelationData n)
    let smtpUsesTunnel ← TunnelServiceRegistry.register resolver smtpProxyServiceName
      smtpProxyPort (some smtpData.host) (some smtpData.port) false
    pure (smtpText smtpUsesTunnel smtpData)

/-! ### What rendering registers -/

/-- The command that the settings of the relation register for the tunnel, where they can be
rendered. -/
def tunnelCommand (resolver : ProxyRouteResolver) : Option SmtpRelation → Except Exc (Option String)
  | none => .ok none
  | some relation => resolver.tunnelCommand smtpProxyPort relation.host relation.port false

/-- The registration after the settings were rendered. -/
def registered (resolver : ProxyRouteResolver) (smtp : Option SmtpRelation) :
    Option (Option String) := (tunnelCommand resolver smtp).toOption

variable {resolver : ProxyRouteResolver} {smtp : Option SmtpRelation} {n : ℕ}

/-- Settings that are rendered register the tunnel of the relation, whatever was registered
before, and name the local end exactly where there is a tunnel. -/
lemma getSmtpSettings_spec (registry : TunnelServiceRegistry) :
    (getSmtpSettings resolver smtp n).wp
      (fun text registry' => ∃ command, tunnelCommand resolver smtp = .ok command ∧
        registry' = Function.update registry smtpProxyServiceName
          (some ⟨smtpProxyServiceName, smtpProxyPort, command⟩) ∧
        ∀ relation, smtp = some relation → ∃ data, relation.getRelationData n = .ok data ∧
          text = smtpText command.isSome data)
      (fun e registry' => registry' = registry ∧ (tunnelCommand resolver smtp = .error e ∨
        ∃ relation, smtp = some relation ∧ relation.getRelationData n = .error e)) registry := by
  cases smtp with
  | none => exact ⟨none, rfl, rfl, nofun⟩
  | some relation =>
    refine Prog.wp_bind.2 (Prog.wp_ofExcept.2 ⟨fun data hdata => ?_, fun e he =>
      ⟨rfl, .inr ⟨relation, rfl, he⟩⟩⟩)
    have hcommand : resolver.tunnelCommand smtpProxyPort data.host data.port false =
        tunnelCommand resolver (some relation) := by
      rw [relation.host_eq n data hdata, relation.port_eq n data hdata]
      rfl
    refine Prog.wp_bind.2 (Prog.wp_mono (register_spec _ _ _) ?_ ?_)
    · rintro tunnelled registry' ⟨command, hregistered, rfl, rfl⟩
      refine Prog.wp_pure.2 ⟨command, hcommand.symm.trans hregistered, rfl, ?_⟩
      rintro relation' ⟨⟩
      exact ⟨data, hdata, rfl⟩
    · rintro e registry' ⟨he, rfl⟩
      exact ⟨rfl, .inl (hcommand.symm.trans he)⟩

/-- Settings of a relation that can be read are rendered. -/
lemma getSmtpSettings_ok {relation : SmtpRelation} {data : SmtpRelationData}
    {command : Option String} (hread : relation.getRelationData n = .ok data)
    (hcommand : tunnelCommand resolver (some relation) = .ok command)
    (registry : TunnelServiceRegistry) :
    (getSmtpSettings resolver (some relation) n registry).1 =
      .ok (smtpText command.isSome data) := by
  have hspec := @getSmtpSettings_spec resolver (some relation) n registry
  rcases hrun : getSmtpSettings resolver (some relation) n registry with ⟨e | text, registry'⟩
  · obtain ⟨-, he | ⟨_, ⟨⟩, he⟩⟩ := Prog.wp_of_error hspec hrun
    · rw [hcommand] at he
      cases he
    · rw [hread] at he
      cases he
  · obtain ⟨command', hcommand', -, htext⟩ := Prog.wp_of_ok hspec hrun
    obtain rfl := Except.ok.inj (hcommand.symm.trans hcommand')
    obtain ⟨data', hread', rfl⟩ := htext relation rfl
    obtain rfl := Except.ok.inj (hread.symm.trans hread')
    rfl

/-- The layer shows the tunnel that was registered. -/
lemma lookup_tunnelServices {command : Option String}
    (h : tunnelCommand resolver smtp = .ok command) (registry : TunnelServiceRegistry)
    (i : LayerInputs) (hi : i.smtpProxy = registered resolver smtp) :
    i.tunnelServices.lookup smtpProxyServiceName = TunnelServiceRegistry.pebbleServices
      (Function.update registry smtpProxyServiceName
        (some ⟨smtpProxyServiceName, smtpProxyPort, command⟩)) smtpProxyServiceName := by
  have hregistered : i.smtpProxy = some command := by
    rw [hi, registered, h]
    rfl
  have hupdate : TunnelServiceRegistry.pebbleServices
      (Function.update registry smtpProxyServiceName
        (some ⟨smtpProxyServiceName, smtpProxyPort, command⟩)) smtpProxyServiceName =
      some (TunnelServiceRegistry.pebbleService
        ⟨smtpProxyServiceName, smtpProxyPort, command⟩) := by
    rw [TunnelServiceRegistry.pebbleServices, Function.update_self]
    rfl
  rw [hupdate, LayerInputs.tunnelServices, hregistered]
  cases command with
  | none => rfl
  | some command => rfl

lemma lookup_pebbleLayer_smtpProxy (i : LayerInputs) :
    i.pebbleLayer.services.lookup smtpProxyServiceName =
      i.tunnelServices.lookup smtpProxyServiceName := by
  rw [LayerInputs.pebbleLayer, List.lookup_append]
  rfl

end Smtp
end MediawikiCharm
