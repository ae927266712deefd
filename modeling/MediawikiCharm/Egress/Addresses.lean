/-
Where a tunnel leads (`egress.py`).

The command of a tunnel has three words, whatever the destination is.  The last one is an address
of `socat`.  It is read as the proxy and the destination only if none of them is an address of
version 6, since that stands there without brackets.
-/
import MediawikiCharm.Egress.Hosts
import MediawikiCharm.Lib.ShellWords
import MediawikiCharm.Lib.Socat

namespace MediawikiCharm
namespace Egress

open Services Socat

/-! ### Reading a command -/

/-- Some registration of the destination returned `True`, and its service runs the command. -/
def Tunnels (r : ProxyRouteResolver) (localPort : ℕ) (host : String) (port : ℕ)
    (preferHttpProxy : Bool) (command : String) : Prop :=
  ∃ serviceName registry registry' service,
    TunnelServiceRegistry.register r serviceName localPort (some host) (some port) preferHttpProxy
      registry = (.ok true, registry') ∧
    TunnelServiceRegistry.pebbleServices registry' serviceName = some service ∧
    service.command = command

/-- The address on which a tunnel listens. -/
def listenAddress (localPort : ℕ) : List Char :=
  "TCP-LISTEN:".toList ++ (Nat.toDigits 10 localPort ++
    ",bind=127.0.0.1,reuseaddr,fork,keepalive".toList)

/-- The words of the command are the program and two addresses.  The second address is read as
exactly the proxy and the destination, and no other destination has the command. -/
structure Addresses (r : ProxyRouteResolver) (url : HttpUrl) (localPort : ℕ)
    (destination : List Char) (port : ℕ) (command : String) : Prop where
  decodes : ∃ target, ShellWords.split command.toList = some ["/usr/bin/socat".toList,
      listenAddress localPort, target] ∧
    readProxy target = some ⟨url.bareHost, destination, port, url.effectivePort⟩
  distinct : ∀ localPort' host' destination' port' preferHttpProxy', Names host' destination' →
    Tunnels r localPort' host' port' preferHttpProxy' command →
      destination' = destination ∧ port' = port

/-! ### The words -/

lemma isPlain_of_isSafe {c : Char} (h : isSafe c = true) :
    ShellWords.isPlain c = true ∧ c ≠ '#' := by
  have hne : ∀ d : Char, isSafe d = false → c ≠ d := by
    rintro d hd rfl
    exact absurd (h.symm.trans hd) nofun
  refine ⟨?_, hne '#' rfl⟩
  simp only [ShellWords.isPlain, ShellWords.isBlank, Bool.and_eq_true, Bool.not_eq_true',
    Bool.or_eq_false_iff, decide_eq_false_iff_not, decide_eq_true_eq]
  exact ⟨⟨⟨⟨⟨⟨hne ' ' rfl, hne '\t' rfl⟩, hne '\r' rfl⟩, hne '\n' rfl⟩, hne '\'' rfl⟩, hne '"' rfl⟩,
    hne '\\' rfl⟩

/-- A quoted text is one word, which is the text. -/
lemma read_quote (s : String) : ShellWords.read .gap [] (quote s).toList = some [s.toList] := by
  unfold quote
  split_ifs with hnil hsafe
  · rw [hnil]
    rfl
  · rw [List.all_eq_true] at hsafe
    cases hs : s.toList with
    | nil => exact absurd (String.toList_eq_nil_iff.1 hs) hnil
    | cons c a =>
      rw [hs] at hsafe
      have hread := ShellWords.read_gap_append (fun d hd => (isPlain_of_isSafe (hsafe d hd)).1)
        (isPlain_of_isSafe (hsafe c List.mem_cons_self)).2 []
      rw [List.append_nil] at hread
      rw [hread]
      rfl
  · rw [String.toList_ofList]
    have hread := ShellWords.read_single_append s.toList [] []
    rw [List.nil_append] at hread
    exact hread

/-- What is asked of a proxy. -/
def proxyAddress (host : String) (port : ℕ) (endpoint : String × ℕ) : ProxyAddress :=
  ⟨endpoint.1.toList, host.toList, port, endpoint.2⟩

lemma isPlain_of_mem_digits {a b : List Char} (h : (a ++ b).all ShellWords.isPlain = true) (n : ℕ) :
    ∀ c ∈ a ++ (Nat.toDigits 10 n ++ b), ShellWords.isPlain c = true := by
  intro c hc
  simp only [List.all_append, Bool.and_eq_true, List.all_eq_true] at h
  simp only [List.mem_append] at hc
  rcases hc with hc | hc | hc
  · exact h.1 c hc
  · have hdigit : c.isDigit = true := Nat.isDigit_of_mem_toDigits (by decide) (by decide) hc
    refine (isPlain_of_isSafe ?_).1
    simp [isSafe, Char.isAlphanum, hdigit]
  · exact h.2 c hc

lemma read_listenAddress (localPort : ℕ) (s : List Char) :
    ShellWords.read .gap [] (listenAddress localPort ++ s) =
      ShellWords.read .word (listenAddress localPort) s :=
  ShellWords.read_gap_append (c := 'T') (isPlain_of_mem_digits (a := "TCP-LISTEN:".toList)
    (b := ",bind=127.0.0.1,reuseaddr,fork,keepalive".toList) (by decide) localPort) (by decide) s

lemma read_socat (s : List Char) : ShellWords.read .gap [] ("/usr/bin/socat".toList ++ s) =
    ShellWords.read .word "/usr/bin/socat".toList s :=
  ShellWords.read_gap_append (c := '/') (a := "usr/bin/socat".toList)
    (List.all_eq_true.1 (by decide)) (by decide) s

lemma toList_words {before after : String} {program address options : List Char}
    (hbefore : before.toList = program ++ ' ' :: address) (hafter : after.toList = options ++ [' '])
    (n : ℕ) (target : String) : (before ++ toString n ++ after ++ target).toList =
      program ++ ' ' :: ((address ++ (Nat.toDigits 10 n ++ options)) ++ ' ' :: target.toList) := by
  simp [String.toList_append, hbefore, hafter, Nat.toString_eq_repr, Nat.toList_repr]

/-- The words of the command of a tunnel. -/
lemma split_socatCommand (localPort : ℕ) (host : String) (port : ℕ) (endpoint : String × ℕ) :
    ShellWords.split (socatCommand localPort host port endpoint).toList =
      some ["/usr/bin/socat".toList, listenAddress localPort,
        proxyText (proxyAddress host port endpoint) "keepalive".toList] := by
  have htarget : ("PROXY:" ++ endpoint.1 ++ ":" ++ host ++ ":" ++ toString port ++ ",proxyport=" ++
      toString endpoint.2 ++ ",keepalive").toList =
        proxyText (proxyAddress host port endpoint) "keepalive".toList := by
    simp [proxyText, proxyAddress, String.toList_append, Nat.toString_eq_repr, Nat.toList_repr]
  have hcommand : (socatCommand localPort host port endpoint).toList =
      "/usr/bin/socat".toList ++ ' ' :: (listenAddress localPort ++ ' ' ::
        (quote ("PROXY:" ++ endpoint.1 ++ ":" ++ host ++ ":" ++ toString port ++ ",proxyport=" ++
          toString endpoint.2 ++ ",keepalive")).toList) :=
    toList_words rfl rfl _ _
  rw [ShellWords.split, hcommand, read_socat, ShellWords.read_word_blank, read_listenAddress,
    ShellWords.read_word_blank, read_quote, htarget]
  rfl

/-! ### Where a tunnel leads -/

/-- The URL from which the proxy is taken. -/
def ProxyConfig.chosen (config : ProxyConfig) (preferHttpProxy : Bool) : Option HttpUrl :=
  if preferHttpProxy then config.httpProxy.or config.httpsProxy
  else config.httpsProxy.or config.httpProxy

variable {library : Library} {r : ProxyRouteResolver} {text : String} {destination : List Char}
  {config : ProxyConfig} {url : HttpUrl} {localPort port : ℕ} {preferHttpProxy : Bool}
  {command : String}

lemma proxy_eq (hconfig : r.proxyConfig = some config) :
    r.proxy preferHttpProxy = (config.chosen preferHttpProxy).map HttpUrl.toString := by
  unfold ProxyRouteResolver.proxy ProxyConfig.chosen
  rw [hconfig]
  simp only [Option.bind_eq_bind, Option.bind_some]
  split_ifs
  · rw [Option.map_or]
  · rw [Option.map_or]

/-- The command of a registration that returned `True` was built for its destination. -/
lemma tunnelCommand_of_tunnels {host : String}
    (h : Tunnels r localPort host port preferHttpProxy command) :
    r.tunnelCommand localPort host port preferHttpProxy = .ok (some command) := by
  obtain ⟨serviceName, registry, registry', service, hrun, hservice, rfl⟩ := h
  have hspec := @register_spec r host port localPort serviceName preferHttpProxy registry
  obtain ⟨option, htunnel, hsome, rfl⟩ := Prog.wp_of_ok hspec hrun
  obtain ⟨command, rfl⟩ := Option.isSome_iff_exists.1 hsome.symm
  rw [TunnelServiceRegistry.pebbleServices, Function.update_self] at hservice
  rw [htunnel, ← Option.some.inj hservice]
  rfl

/-- The words of the command of a tunnel. -/
lemma split_of_tunnels (hlower : r.library.LowersAscii) (hconfig : r.proxyConfig = some config)
    (hurl : config.chosen preferHttpProxy = some url) (hvalid : url.IsValid)
    (hnames : Names text destination)
    (h : Tunnels r localPort text port preferHttpProxy command) :
    ShellWords.split command.toList = some ["/usr/bin/socat".toList, listenAddress localPort,
      proxyText ⟨url.bareHost, destination, port, url.shownPort⟩ "keepalive".toList] := by
  obtain ⟨host, endpoint, hhost, hendpoint, rfl⟩ :=
    exists_of_tunnelCommand (tunnelCommand_of_tunnels h)
  have hproxy : r.proxy preferHttpProxy = some url.toString := by
    rw [proxy_eq hconfig, hurl]
    rfl
  obtain ⟨hbare, hshown⟩ := HttpUrl.proxyEndpoint_eq hlower hvalid hproxy hendpoint
  rw [split_socatCommand, proxyAddress, destinationHost_of_names hlower hnames hhost, hbare, hshown]

/-- Whatever the destination is, the third word of a command is an address that has the host and
the port in it. -/
lemma exists_split_of_tunnels (hlower : r.library.LowersAscii) (hnames : Names text destination)
    (h : Tunnels r localPort text port preferHttpProxy command) :
    ∃ proxy proxyPort, ShellWords.split command.toList = some ["/usr/bin/socat".toList,
      listenAddress localPort, proxyText ⟨proxy, destination, port, proxyPort⟩
        "keepalive".toList] := by
  obtain ⟨host, endpoint, hhost, -, rfl⟩ := exists_of_tunnelCommand (tunnelCommand_of_tunnels h)
  refine ⟨endpoint.1.toList, endpoint.2, ?_⟩
  rw [split_socatCommand, proxyAddress, destinationHost_of_names hlower hnames hhost]

/-- A tunnel leads to the destination exactly if neither that nor the proxy is an address of
version 6, no comma stands in the name of the proxy, and its port is not zero. -/
theorem addresses_iff (hlower : r.library.LowersAscii) (hconfig : r.proxyConfig = some config)
    (hurl : config.chosen preferHttpProxy = some url) (hvalid : url.IsValid)
    (hnames : Names text destination)
    (h : Tunnels r localPort text port preferHttpProxy command) :
    Addresses r url localPort destination port command ↔
      ':' ∉ destination ∧ ':' ∉ url.bareHost ∧ ',' ∉ url.bareHost ∧ url.port ≠ some 0 := by
  have hsplit := split_of_tunnels hlower hconfig hurl hvalid hnames h
  have hproxyOpen : '[' ∉ url.bareHost := HttpUrl.not_mem_bareHost hvalid _ (by simp)
  have hopen : '[' ∉ destination := not_mem_of_names hnames _ (by simp)
  have hcomma : ',' ∉ destination := not_mem_of_names hnames _ (by simp)
  have hread := readProxy_proxyText_iff (a := ⟨url.bareHost, destination, port, url.shownPort⟩)
    (b := ⟨url.bareHost, destination, port, url.effectivePort⟩) hproxyOpen hopen
    (by decide : '[' ∉ "keepalive".toList) rfl rfl
  simp only [ProxyAddress.mk.injEq, true_and, List.mem_cons, List.not_mem_nil, or_false,
    forall_eq_or_imp, forall_eq] at hread
  constructor
  · rintro ⟨⟨target, hwords, htarget⟩, -⟩
    have heq := Option.some.inj (hsplit.symm.trans hwords)
    simp only [List.cons.injEq, true_and, and_true] at heq
    rw [← heq] at htarget
    obtain ⟨hport, hcolon, hcommas⟩ := hread.1 htarget
    exact ⟨hcolon.2, hcolon.1, hcommas.1, (url.shownPort_eq_iff).1 hport.symm⟩
  · rintro ⟨hhost, hproxy, hproxyComma, hport⟩
    refine ⟨⟨_, hsplit, ?_⟩, ?_⟩
    · exact hread.2 ⟨((url.shownPort_eq_iff).2 hport).symm, ⟨hproxy, hhost⟩, hproxyComma, hcomma⟩
    · intro localPort' text' destination' port' preferHttpProxy' hnames' h'
      obtain ⟨proxy', proxyPort', hsplit'⟩ := exists_split_of_tunnels hlower hnames' h'
      have heq := Option.some.inj (hsplit'.symm.trans hsplit)
      simp only [List.cons.injEq, true_and, and_true] at heq
      exact eq_of_proxyText_eq (a := ⟨url.bareHost, destination, port, url.shownPort⟩)
        (b := ⟨proxy', destination', port', proxyPort'⟩) hproxy hhost
        (by decide : ':' ∉ "keepalive".toList) heq.2

/-- A library that knows ASCII only, without exceptions from the proxy. -/
def asciiLibrary : Library where
  acceptsNetloc _ := true
  lower s := s.map Char.toLower
  shouldBypassProxies _ _ := .ok false

/-- A proxy on port 3128. -/
def exampleUrl : HttpUrl := { scheme := "http", host := "proxy.example.com", port := some 3128 }

/-- The routes through that proxy. -/
def exampleRoutes : ProxyRouteResolver where
  library := asciiLibrary
  proxyConfig := some { httpProxy := some exampleUrl }

/-- The command that a registration leaves for a host. -/
def exampleCommand (host : String) (port : ℕ) : String :=
  socatCommand 8125 host port ("proxy.example.com", 3128)

lemma tunnels_example {host : String} {port : ℕ}
    (h : exampleRoutes.tunnelCommand 8125 host port false = .ok (some (exampleCommand host port))) :
    Tunnels exampleRoutes 8125 host port false (exampleCommand host port) := by
  let registration : TunnelRegistration := ⟨"smtp-proxy", 8125, some (exampleCommand host port)⟩
  refine ⟨"smtp-proxy", fun _ => none, Function.update (fun _ => none) "smtp-proxy"
    (some registration), TunnelServiceRegistry.pebbleService registration, ?_, ?_, rfl⟩
  · unfold TunnelServiceRegistry.register
    dsimp only
    rw [if_neg (by simp), h]
    rfl
  · rw [TunnelServiceRegistry.pebbleServices, Function.update_self]
    rfl

/-- A mail server is reached behind the proxy. -/
theorem addresses_mail : Addresses exampleRoutes exampleUrl 8125 "mail.example.com".toList 587
    (exampleCommand "mail.example.com" 587) := by
  have hhost : exampleUrl.host.toList.all (fun c => !isForbidden c) = true := by decide
  have hvalid : exampleUrl.IsValid :=
    ⟨by decide, .inl ⟨by decide, fun c hc => by simpa using List.all_eq_true.1 hhost c hc⟩⟩
  have hnames : Names "mail.example.com" "mail.example.com".toList :=
    .name ⟨by decide, List.all_eq_true.1 (by decide)⟩
  have htunnels : Tunnels exampleRoutes 8125 "mail.example.com" 587 false _ :=
    tunnels_example rfl
  exact (addresses_iff (fun _ _ => rfl) rfl rfl hvalid hnames htunnels).2
    ⟨by decide, by decide, by decide, by decide⟩

/-- The colons of an address of version 6 are taken for separators. -/
theorem not_addresses_ipv6 :
    Names "2001:db8::1" "2001:db8::1".toList ∧
      Tunnels exampleRoutes 8125 "2001:db8::1" 25 false (exampleCommand "2001:db8::1" 25) ∧
      ¬ Addresses exampleRoutes exampleUrl 8125 "2001:db8::1".toList 25
        (exampleCommand "2001:db8::1" 25) := by
  have hnames : Names (String.ofList ("2001:db8::1".toList ++ [])) ("2001:db8::1".toList ++ []) :=
    .address ⟨by decide, List.all_eq_true.1 (by decide)⟩ (.inl rfl)
  refine ⟨hnames, tunnels_example rfl, fun h => ?_⟩
  obtain ⟨target, hwords, htarget⟩ := h.decodes
  have hsplit := split_socatCommand 8125 "2001:db8::1" 25 ("proxy.example.com", 3128)
  have heq := Option.some.inj (hsplit.symm.trans hwords)
  simp only [List.cons.injEq, true_and, and_true] at heq
  rw [← heq] at htarget
  have hread : readProxy (proxyText (proxyAddress "2001:db8::1" 25 ("proxy.example.com", 3128))
      "keepalive".toList) = none := by decide
  rw [hread] at htarget
  exact absurd htarget nofun

end Egress
end MediawikiCharm