/-
Outbound routes of the workload (`egress.py`, `state.py`).

A destination that lies behind the model proxy is reached through a local tunnel: a Pebble
service runs `socat`, which listens on a local port and asks the proxy for a connection to
the destination.  A registration says which command a tunnel runs, or that it is disabled,
and is all that the layer is told of it.

The URL functions of Python's library are defined here on characters.  The tables of the
Unicode database and the rules of `requests` for `no_proxy` are a parameter.
-/
import MediawikiCharm.Services
import Mathlib.Data.List.DropRight

namespace MediawikiCharm
namespace Egress

open Services

/-! ### Python's library -/

/-- What the routes rest on outside the charm. -/
structure Library where
  /-- `urlsplit` accepts the network location: its brackets hold an address, and it has no
  character that becomes one of `/?#@:` under NFKC. -/
  acceptsNetloc : List Char → Bool
  /-- `str.lower()` -/
  lower : List Char → List Char
  /-- `should_bypass_proxies`, for the network location of an `http` URL and `no_proxy` -/
  shouldBypassProxies : String → Option String → Except Exc Bool

/-- `ValueError` -/
def valueError : Exc := .other "ValueError"

/-- `s.partition(sep)[0]` -/
def before (sep : Char) (s : List Char) : List Char := s.takeWhile (· ≠ sep)

/-- `s.partition(sep)[2]` -/
def after (sep : Char) (s : List Char) : List Char := (s.dropWhile (· ≠ sep)).tail

/-- The parts of a parsed URL that are looked at. -/
structure SplitResult where
  scheme : List Char := []
  netloc : List Char := []

/-- `urlparse(url)`; an error is a `ValueError`. -/
def urlparse (library : Library) (url : String) : Except Exc SplitResult :=
  let url := (url.toList.dropWhile fun c => c.toNat ≤ 0x20).filter fun c =>
    c ≠ '\t' ∧ c ≠ '\r' ∧ c ≠ '\n'
  let name := before ':' url
  let isScheme := url.contains ':' && name.head?.any Char.isAlpha &&
    name.all fun c => c.isAlphanum || c ∈ ['+', '-', '.']
  let scheme := if isScheme then name.map Char.toLower else []
  match if isScheme then after ':' url else url with
  | '/' :: '/' :: rest =>
    let netloc := rest.takeWhile fun c => c ≠ '/' ∧ c ≠ '?' ∧ c ≠ '#'
    if library.acceptsNetloc netloc then .ok { scheme := scheme, netloc := netloc }
    else .error valueError
  | _ => .ok { scheme := scheme }

namespace SplitResult

variable (r : SplitResult)

/-- `_hostinfo` -/
def hostinfo : List Char × List Char :=
  let info := r.netloc.rtakeWhile (· ≠ '@')
  if '[' ∈ info then
    (before ']' (after '[' info), after ':' (after ']' (after '[' info)))
  else (before ':' info, after ':' info)

/-- `hostname` -/
def hostname (library : Library) : Option String :=
  let host := r.hostinfo.1
  if host = [] then none
  else some (String.ofList (library.lower (before '%' host) ++ host.dropWhile (· ≠ '%')))

/-- `port` -/
def port : Except Exc (Option ℕ) :=
  let text := r.hostinfo.2
  if text = [] then .ok none
  else if text.all Char.isDigit then
    let port := text.foldl (fun n c => 10 * n + (c.toNat - '0'.toNat)) 0
    if port ≤ 65535 then .ok (some port) else .error valueError
  else .error valueError

end SplitResult

/-- The characters that a shell takes as they are. -/
def isSafe (c : Char) : Bool :=
  c.isAlphanum || c ∈ ['%', '+', ',', '-', '.', '/', ':', '=', '@', '_']

/-- `shlex.quote` -/
def quote (s : String) : String :=
  if s = "" then "''"
  else if s.toList.all isSafe then s
  else String.ofList ('\'' :: s.toList.flatMap (fun c =>
    if c = '\'' then ['\'', '"', '\'', '"', '\''] else [c]) ++ ['\''])

/-! ### The routes -/

/-- `HttpUrl`, as far as it is shown. -/
structure HttpUrl where
  scheme : String
  host : String
  port : Option ℕ := none

/-- `_http_url_to_string` -/
def HttpUrl.toString (url : HttpUrl) : String :=
  url.scheme ++ "://" ++ url.host ++ match url.port with
    | none | some 0 => ""
    | some port => ":" ++ ToString.toString port

/-- `ProxyConfig` -/
structure ProxyConfig where
  httpProxy : Option HttpUrl := none
  httpsProxy : Option HttpUrl := none
  noProxy : Option String := none

/-- `ProxyRouteResolver` -/
structure ProxyRouteResolver where
  library : Library
  proxyConfig : Option ProxyConfig := none

namespace ProxyRouteResolver

variable (r : ProxyRouteResolver)

/-- `_proxy` -/
def proxy (preferHttpProxy : Bool) : Option String := do
  let config ← r.proxyConfig
  let httpProxy := config.httpProxy.map HttpUrl.toString
  let httpsProxy := config.httpsProxy.map HttpUrl.toString
  if preferHttpProxy then httpProxy.or httpsProxy else httpsProxy.or httpProxy

/-- `_proxy_endpoint` -/
def proxyEndpoint (preferHttpProxy : Bool) : Except Exc (String × ℕ) :=
  match r.proxy preferHttpProxy with
  | none => .error (.other "RuntimeError")
  | some proxy => do
    let parsedProxy ← urlparse r.library proxy
    let proxyPort ← parsedProxy.port
    let default := if parsedProxy.scheme = "https".toList then 443 else 80
    pure ((parsedProxy.hostname r.library).getD "", proxyPort.getD default)

/-- `_should_proxy` -/
def shouldProxy (host : String) (port : ℕ) (preferHttpProxy : Bool) : Except Exc Bool :=
  match r.proxyConfig with
  | none => .ok false
  | some config =>
    if r.proxy preferHttpProxy = none then .ok false
    else do
      let netloc := if ':' ∈ host.toList then "[" ++ host ++ "]:" ++ toString port
        else host ++ ":" ++ toString port
      let bypass ← r.library.shouldBypassProxies netloc config.noProxy
      pure !bypass

end ProxyRouteResolver

/-- The command of a tunnel from a local port through a proxy to a destination. -/
def socatCommand (localPort : ℕ) (host : String) (port : ℕ) (endpoint : String × ℕ) : String :=
  "/usr/bin/socat TCP-LISTEN:" ++ toString localPort ++
    ",bind=127.0.0.1,reuseaddr,fork,keepalive " ++
    quote ("PROXY:" ++ endpoint.1 ++ ":" ++ host ++ ":" ++ toString port ++ ",proxyport=" ++
      toString endpoint.2 ++ ",keepalive")

/-- The host of a destination that may be given as a URL: `urlparse(host).hostname or host`. -/
def destinationHost (library : Library) (host : String) : Except Exc String := do
  let parsed ← urlparse library host
  pure ((parsed.hostname library).getD host)

/-- `tunnel_command` -/
def ProxyRouteResolver.tunnelCommand (r : ProxyRouteResolver) (localPort : ℕ) (host : String)
    (port : ℕ) (preferHttpProxy : Bool) : Except Exc (Option String) := do
  let host ← destinationHost r.library host
  if !(← r.shouldProxy host port preferHttpProxy) then pure none
  else
    let endpoint ← r.proxyEndpoint preferHttpProxy
    pure (some (socatCommand localPort host port endpoint))

/-! ### The registry -/

/-- `_TunnelRegistration` -/
structure TunnelRegistration where
  serviceName : String
  localPort : ℕ
  tunnelCommand : Option String

/-- `_registrations` -/
abbrev TunnelServiceRegistry := String → Option TunnelRegistration

namespace TunnelServiceRegistry

/-- `register` -/
def register (r : ProxyRouteResolver) (serviceName : String) (localPort : ℕ)
    (host : Option String) (port : Option ℕ) (preferHttpProxy : Bool) :
    Prog TunnelServiceRegistry Exc Bool := do
  if host.isNone ≠ port.isNone then throw valueError
  else
    let tunnelCommand ← Prog.ofExcept (match host, port with
      | some host, some port => r.tunnelCommand localPort host port preferHttpProxy
      | _, _ => .ok none)
    Prog.modify fun registry : TunnelServiceRegistry =>
      Function.update registry serviceName (some ⟨serviceName, localPort, tunnelCommand⟩)
    pure tunnelCommand.isSome

/-- `_pebble_service` -/
def pebbleService (registration : TunnelRegistration) : ServiceConfig :=
  match registration.tunnelCommand with
  | some command =>
    { summary := "HTTP CONNECT proxy tunnel", command := command, startupEnabled := true }
  | none =>
    { summary := "Disabled HTTP CONNECT proxy tunnel", command := "sleep 60"
      onSuccess := some "ignore", onFailure := some "ignore" }

/-- `pebble_services` -/
def pebbleServices (registry : TunnelServiceRegistry) (service : String) : Option ServiceConfig :=
  (registry service).map pebbleService

end TunnelServiceRegistry

/-! ### What a tunnel leads to -/

variable {library : Library} {r : ProxyRouteResolver} {host : String} {port localPort : ℕ}

/-- The command is that of a tunnel from the local port to exactly this host and port. -/
def TunnelTo (library : Library) (localPort : ℕ) (host : String) (port : ℕ) (command : String) :
    Prop :=
  ∃ destination endpoint, destinationHost library host = .ok destination ∧
    command = socatCommand localPort destination port endpoint

/-- A command was built from the destination and the endpoint of the proxy. -/
lemma exists_of_tunnelCommand {preferHttpProxy : Bool} {command : String}
    (h : r.tunnelCommand localPort host port preferHttpProxy = .ok (some command)) :
    ∃ destination endpoint, destinationHost r.library host = .ok destination ∧
      r.proxyEndpoint preferHttpProxy = .ok endpoint ∧
      command = socatCommand localPort destination port endpoint := by
  unfold ProxyRouteResolver.tunnelCommand at h
  cases hhost : destinationHost r.library host with
  | error e =>
    rw [hhost] at h
    cases h
  | ok destination =>
    rw [hhost] at h
    cases hproxy : r.shouldProxy destination port preferHttpProxy with
    | error e =>
      have h : (r.shouldProxy destination port preferHttpProxy >>= _ : Except Exc _) = _ := h
      rw [hproxy] at h
      cases h
    | ok proxied =>
      have h : (r.shouldProxy destination port preferHttpProxy >>= _ : Except Exc _) = _ := h
      rw [hproxy] at h
      -- a destination that is reached directly has no command
      cases proxied with
      | false => cases h
      | true =>
        cases hendpoint : r.proxyEndpoint preferHttpProxy with
        | error e =>
          have h : (r.proxyEndpoint preferHttpProxy >>= _ : Except Exc _) = _ := h
          rw [hendpoint] at h
          cases h
        | ok endpoint =>
          have h : (r.proxyEndpoint preferHttpProxy >>= _ : Except Exc _) = _ := h
          rw [hendpoint] at h
          exact ⟨destination, endpoint, rfl, rfl, (Option.some.inj (Except.ok.inj h)).symm⟩

/-- A tunnel leads to the destination it was asked for. -/
lemma tunnelTo_of_tunnelCommand {preferHttpProxy : Bool} {command : String}
    (h : r.tunnelCommand localPort host port preferHttpProxy = .ok (some command)) :
    TunnelTo r.library localPort host port command := by
  obtain ⟨destination, endpoint, hhost, -, rfl⟩ := exists_of_tunnelCommand h
  exact ⟨destination, endpoint, hhost, rfl⟩

/-- What a registration of a destination leaves behind. -/
lemma register_spec (serviceName : String) (preferHttpProxy : Bool)
    (registry : TunnelServiceRegistry) :
    (TunnelServiceRegistry.register r serviceName localPort (some host) (some port)
      preferHttpProxy).wp
      (fun tunnelled registry' => ∃ command,
        r.tunnelCommand localPort host port preferHttpProxy = .ok command ∧
        tunnelled = command.isSome ∧
        registry' = Function.update registry serviceName (some ⟨serviceName, localPort, command⟩))
      (fun e registry' => r.tunnelCommand localPort host port preferHttpProxy = .error e ∧
        registry' = registry) registry := by
  refine Prog.wp_ite.2 ⟨fun h => absurd rfl h, fun _ => ?_⟩
  refine Prog.wp_bind.2 (Prog.wp_ofExcept.2 ⟨fun command hcommand => ?_, fun e he => ⟨he, rfl⟩⟩)
  exact Prog.wp_bind.2 (Prog.wp_modify.2 ⟨command, hcommand, rfl, rfl⟩)

end Egress
end MediawikiCharm
