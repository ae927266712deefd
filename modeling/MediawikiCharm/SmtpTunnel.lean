/-
The SMTP tunnel and the settings that route to it.

The late settings are written in the middle of a cycle, and the tunnel they name comes into
the plan only when the cycle reconciles the services.  A cycle that raises in between, by an
error deferred until the settings were written or by a later one, leaves settings that route
to a tunnel the plan does not have; and a cycle that finds the state of the peers missing
disables the tunnel before it stops PHP.  In the runs whose cycles do neither while PHP runs,
the plan has the tunnel that the settings on disk name in every state.
-/
import MediawikiCharm.Exits
import MediawikiCharm.Lib.Machine
import MediawikiCharm.SmtpSettings

namespace MediawikiCharm
namespace SmtpTunnel

open Json Workload Services Settings Peers Egress Smtp MediawikiCharm.Core
open MaintenanceExits Rewriting Undisturbed Exits

variable {F : Type}

/-! ### Cycles -/

/-- What SMTP settings are rendered from. -/
structure Relay where
  resolver : ProxyRouteResolver
  host : String
  port : ℕ

/-- The command of the tunnel to the relay, where it needs one. -/
def Relay.tunnelCommand (relay : Relay) : Except Exc (Option String) :=
  relay.resolver.tunnelCommand smtpProxyPort relay.host relay.port false

/-- What a call of `reconciliation` meets. -/
structure TunnelCycle (F : Type) where
  env : Env
  charm : Charm F := {}
  peers : Option Relation := some ⟨[], {}, fun _ => {}⟩
  force : Bool := false
  resolver : ProxyRouteResolver
  smtp : Option SmtpRelation := none

namespace TunnelCycle

variable (c : TunnelCycle F)

/-- The surroundings, with the SMTP settings that are rendered from the relation. -/
def surroundings : Env :=
  { c.env with text := fun fragment n =>
      if fragment = .smtpSettings then (getSmtpSettings c.resolver c.smtp n fun _ => none).1
      else c.env.text fragment n }

/-- The charm, with the tunnel that rendering registers. -/
def registering : Charm F :=
  { c.charm with layer := { c.charm.layer with smtpProxy := registered c.resolver c.smtp } }

/-- The cycle can render SMTP settings from the relay. -/
def Renders (relay : Relay) : Prop :=
  ∃ relation n data, c.smtp = some relation ∧ relation.getRelationData n = .ok data ∧
    relay = ⟨c.resolver, data.host, data.port⟩

end TunnelCycle

/-- The container, and the relays that its late settings can have been rendered from last. -/
structure TunnelState where
  workload : Workload := {}
  source : Relay → Prop := fun _ => False

namespace TunnelCycle

variable [FiniteFloat F] (c : TunnelCycle F) (s : TunnelState)

/-- The state the cycle starts in. -/
def start : PeerWorld Workload := ⟨c.peers, s.workload⟩

/-- The container after the cycle. -/
def final : Workload := (reconciliation c.surroundings c.registering c.force (c.start s)).2.rest

/-- The state after the cycle, returned or raised. -/
def next : TunnelState where
  workload := c.final s
  source := if (c.final s).rendered = s.workload.rendered then s.source else c.Renders

end TunnelCycle

/-! ### What is promised -/

/-- The settings name the local end of the tunnel. -/
def NamesTunnel (smtpUsesTunnel : Bool) (data : SmtpRelationData) : Prop :=
  (wgSmtpHost smtpUsesTunnel data = "127.0.0.1" ∨
    wgSmtpHost smtpUsesTunnel data = "ssl://127.0.0.1") ∧
    wgSmtpPort smtpUsesTunnel data = smtpProxyPort

/-- `LateSettings.php` has SMTP settings of the relay, and they name the local end. -/
def Routes (relay : Relay) (w : Workload) : Prop :=
  ∃ command data before after,
    relay.tunnelCommand = .ok command ∧ data.host = relay.host ∧ data.port = relay.port ∧
    NamesTunnel command.isSome data ∧
    w.files .lateSettings = some (.text (before ++ smtpText command.isSome data ++ after))

/-- The plan has the tunnel enabled, with a command for exactly the relay. -/
def Tunnelled (relay : Relay) (p : Pebble) : Prop :=
  ∃ config, p.plan smtpProxyServiceName = some config ∧ config.startupEnabled = true ∧
    TunnelTo relay.resolver.library smtpProxyPort relay.host relay.port config.command

/-- PHP runs, and the settings on disk route to the local end of a tunnel to the relay. -/
def Live (s : TunnelState) (relay : Relay) : Prop :=
  s.workload.pebble.isRunning phpFpmServiceName = true ∧ s.source relay ∧
    Routes relay s.workload

/-- While PHP runs with settings that route to the tunnel, the plan has it. -/
def Agrees (s : TunnelState) : Prop := ∀ relay, Live s relay → Tunnelled relay s.workload.pebble

/-! ### Where it goes wrong -/

/-- The relay is not the local end of the tunnel itself, reached without a tunnel. -/
def NoLocalRelay (c : TunnelCycle F) : Prop :=
  ∀ relay, c.Renders relay → relay.tunnelCommand = .ok none → relay.port = smtpProxyPort →
    relay.host ≠ "127.0.0.1" ∧ relay.host ≠ "ssl://127.0.0.1"

/-- The cycle meets the condition in a state. -/
structure Sound [FiniteFloat F] (s : TunnelState) (c : TunnelCycle F) : Prop where
  direct : NoLocalRelay c
  /-- While PHP runs, a cycle for a relay behind a tunnel that the plan does not have is not
  interrupted. -/
  interrupted : s.workload.pebble.isRunning phpFpmServiceName = true → ∀ relay command,
    c.Renders relay → relay.tunnelCommand = .ok (some command) →
    (∃ s', Interrupted c.surroundings c.registering c.force (c.start s) s') →
    Tunnelled relay s.workload.pebble
  /-- While PHP runs with a route to the tunnel, an inactive cycle stops PHP. -/
  inactive : (∃ relay, Live s relay) → ∀ s',
    Inactive c.surroundings c.registering (c.start s) s' →
    ¬ LeavesRunning c.surroundings c.registering s'.rest

/-- What can be read of the relation once can be read all through the cycle. -/
def Steadfast (c : TunnelCycle F) : Prop :=
  ∀ relation, c.smtp = some relation → ∀ m data, relation.getRelationData m = .ok data →
    ∀ n, ∃ data', relation.getRelationData n = .ok data'

variable {w w' : Workload} [FiniteFloat F]

/-! ### One cycle -/

lemma Routes.congr {relay : Relay} (h : w'.files .lateSettings = w.files .lateSettings) :
    Routes relay w' ↔ Routes relay w := by
  unfold Routes
  rw [h]

lemma Tunnelled.congr {relay : Relay} {p p' : Pebble} (h : p'.plan = p.plan)
    (ht : Tunnelled relay p) : Tunnelled relay p' := by
  obtain ⟨config, hconfig, hrest⟩ := ht
  exact ⟨config, h ▸ hconfig, hrest⟩

/-- Settings that name the local end without a tunnel are those of a relay at the local end. -/
lemma local_of_namesTunnel {data : SmtpRelationData} (h : NamesTunnel false data) :
    (data.host = "127.0.0.1" ∨ data.host = "ssl://127.0.0.1") ∧ data.port = smtpProxyPort := by
  obtain ⟨hhost, hport⟩ := h
  refine ⟨?_, hport⟩
  have hdirect : wgSmtpHost false data =
      if data.transportSecurity = .tls then "ssl://" ++ data.host else data.host := rfl
  rw [hdirect] at hhost
  split at hhost
  · -- after the prefix of TLS only the second form is left
    have hprefix : ("ssl://" ++ data.host).toList = "ssl://".toList ++ data.host.toList :=
      String.toList_append
    rcases hhost with hhost | hhost
    · have hlist := hprefix.symm.trans (congrArg String.toList hhost)
      cases hlist
    · have hlist := hprefix.symm.trans (congrArg String.toList hhost)
      have hsplit : ("ssl://127.0.0.1" : String).toList = "ssl://".toList ++ "127.0.0.1".toList :=
        rfl
      rw [hsplit] at hlist
      exact .inl (String.toList_inj.1 (List.append_cancel_left hlist))
  · exact hhost

lemma namesTunnel_of_isSome (data : SmtpRelationData) : NamesTunnel true data := by
  refine ⟨?_, rfl⟩
  have hlocal : wgSmtpHost true data =
      if data.transportSecurity = .tls then "ssl://127.0.0.1" else "127.0.0.1" := rfl
  rw [hlocal]
  split
  · exact .inr rfl
  · exact .inl rfl

section Routes

variable {c : TunnelCycle F} {relay : Relay}

omit [FiniteFloat F]

lemma tunnelCommand_of_renders (h : c.Renders relay) :
    Smtp.tunnelCommand c.resolver c.smtp = relay.tunnelCommand := by
  obtain ⟨relation, n, data, hsmtp, hread, rfl⟩ := h
  rw [hsmtp, Smtp.tunnelCommand, Relay.tunnelCommand, relation.host_eq n data hread,
    relation.port_eq n data hread]

/-- Settings that route to the local end are those of a tunnel. -/
lemma command_of_routes (hrelay : c.Renders relay) (hroutes : Routes relay w)
    (hdirect : NoLocalRelay c) : ∃ command, relay.tunnelCommand = .ok (some command) := by
  obtain ⟨command, data, before, after, hcommand, hhost, hport, hnames, -⟩ := hroutes
  cases command with
  | some command => exact ⟨command, hcommand⟩
  | none =>
    obtain ⟨hlocal, hlocalPort⟩ := local_of_namesTunnel hnames
    obtain ⟨h₁, h₂⟩ := hdirect relay hrelay hcommand (hport.symm.trans hlocalPort)
    exact (hlocal.elim (fun h => h₁ (hhost.symm.trans h)) fun h => h₂ (hhost.symm.trans h)).elim

/-- Settings that show what was rendered route to the tunnel that the relay needs. -/
lemma routes_of_shown {command : String} (hrelay : c.Renders relay)
    (hcommand : relay.tunnelCommand = .ok (some command)) (hc : Steadfast c)
    (h : Shown c.surroundings w) : Routes relay w := by
  have hregistered := (tunnelCommand_of_renders hrelay).trans hcommand
  obtain ⟨relation, m, data₀, hsmtp, hread₀, rfl⟩ := hrelay
  obtain ⟨content, hcontent, n, before, text, after, rfl, htext⟩ := h
  obtain ⟨data, hread⟩ := hc relation hsmtp m data₀ hread₀ n
  rw [hsmtp] at hregistered
  -- the data was readable when the settings were rendered
  have hrendered : c.surroundings.text .smtpSettings n = .ok (smtpText true data) := by
    show (getSmtpSettings c.resolver c.smtp n fun _ => none).1 = _
    rw [hsmtp]
    exact getSmtpSettings_ok hread hregistered _
  rw [htext _ hrendered] at hcontent
  have hhost : data.host = data₀.host :=
    (relation.host_eq n data hread).trans (relation.host_eq m data₀ hread₀).symm
  have hport : data.port = data₀.port :=
    (relation.port_eq n data hread).trans (relation.port_eq m data₀ hread₀).symm
  exact ⟨some command, data, before, after, hcommand, hhost, hport, namesTunnel_of_isSome data,
    hcontent⟩

/-- Once the layer is in the plan it has the tunnel that the relay needs. -/
lemma tunnelled_of_planned {command : String} (hrelay : c.Renders relay)
    (hcommand : relay.tunnelCommand = .ok (some command))
    (hplan : ∀ service config,
      c.registering.layer.pebbleLayer.services.lookup service = some config →
      w.pebble.plan service = some config) : Tunnelled relay w.pebble := by
  have hregistered := (tunnelCommand_of_renders hrelay).trans hcommand
  have hlookup := lookup_tunnelServices hregistered (fun _ => none) c.registering.layer rfl
  rw [← lookup_pebbleLayer_smtpProxy] at hlookup
  exact ⟨_, hplan _ _ hlookup, rfl, tunnelTo_of_tunnelCommand hcommand⟩

end Routes

section Cycle

variable {s : TunnelState} {c : TunnelCycle F}

/-- PHP runs after a cycle that has rendered nothing with the settings it has run with. -/
lemma live_of_same {relay : Relay} (hlatest : Latest c.surroundings s.workload (c.final s))
    (hrendered : (c.final s).rendered = s.workload.rendered)
    (hrun : (c.final s).pebble.isRunning phpFpmServiceName =
      s.workload.pebble.isRunning phpFpmServiceName) :
    Live (c.next s) relay ↔ Live s relay := by
  have hsource : (c.next s).source = s.source := if_pos hrendered
  have hroutes : Routes relay (c.final s) ↔ Routes relay s.workload :=
    Routes.congr (hlatest.same hrendered)
  unfold Live
  rw [hsource, ← hroutes, ← hrun]
  rfl

/-- A cycle that has rendered nothing and leaves PHP as it is keeps the agreement. -/
lemma agrees_of_same (h : Agrees s) (hphp : phpState (c.final s) = phpState s.workload)
    (hlatest : Latest c.surroundings s.workload (c.final s))
    (hrendered : (c.final s).rendered = s.workload.rendered) : Agrees (c.next s) := by
  intro relay hlive
  have hplan : (c.final s).pebble.plan = s.workload.pebble.plan := congrArg Prod.fst hphp
  have hbefore := (live_of_same hlatest hrendered (congrArg Prod.snd hphp)).1 hlive
  exact (h relay hbefore).congr hplan

lemma phpState_of_ticked (h : Ticked w w') : phpState w' = phpState w := by
  obtain ⟨n, rfl⟩ := h
  rfl

lemma rendered_of_ticked (h : Ticked w w') : w'.rendered = w.rendered := by
  obtain ⟨n, rfl⟩ := h
  rfl

/-- What an inactive cycle ends in. -/
lemma final_of_inactive {s' : PeerWorld Workload}
    (h : Inactive c.surroundings c.registering (c.start s) s') :
    Ticked s.workload s'.rest ∧
      c.final s = (reconcileServices c.surroundings c.registering.layer false false s'.rest).2 ∧
      Latest c.surroundings s.workload (c.final s) ∧
      (c.final s).rendered = s.workload.rendered := by
  obtain ⟨ht, e, s'', hread, hrest⟩ := readPeerState_inactive h
  have hfinal : c.final s =
      (reconcileServices c.surroundings c.registering.layer false false s'.rest).2 := by
    rw [TunnelCycle.final, reconciliation, Prog.bind_run_error hread]
    exact hrest
  have hservices : Prog.Within (Changes [.file .restartRequired])
      (reconcileServices c.surroundings c.registering.layer false false) :=
    within_reconcileServices (by decide) _ _ _
  have hchanges : Changes [.file .restartRequired] s'.rest (c.final s) := hfinal ▸ hservices s'.rest
  have ht : Ticked s.workload s'.rest := ht
  have hparts : ∀ p ∈ lateParts, p ∉ [Part.file .restartRequired] := by decide
  have hsame : (c.final s).rendered = s'.rest.rendered := hchanges .rendered (by decide)
  exact ⟨ht, hfinal, (latest_of_ticked ht).trans (latest_of_changes hparts hchanges),
    hsame.trans (rendered_of_ticked ht)⟩

/-- What a cycle ends in that raises before it looks at the services. -/
lemma final_of_read_error {s₁ : PeerWorld Workload} {e : Exc}
    (hread : readPeerState c.surroundings c.registering (c.start s) = (.error e, s₁)) :
    c.final s = s₁.rest := by
  rw [TunnelCycle.final, reconciliation, Prog.bind_run_error hread]

/-- What a cycle ends in whose layer does not come into the plan. -/
lemma final_of_configure_error {peerState : PeerState} {s₁ s' : PeerWorld Workload} {e : Exc}
    (hread : readPeerState c.surroundings c.registering (c.start s) = (.ok peerState, s₁))
    (hconf : configureAndPlan c.surroundings c.registering peerState c.force s₁ = (.error e, s')) :
    c.final s = s'.rest ∧ phpState (c.final s) = phpState s.workload ∧
      Latest c.surroundings s.workload (c.final s) := by
  have hread₁ := Prog.wp_of_ok (readPeerState_cases (c.start s)) hread
  have ht : Ticked s.workload s₁.rest := hread₁
  have hsteady := Prog.wp_of_error (configureAndPlan_spec peerState c.force s₁) hconf
  have hfinal : c.final s = s'.rest := by
    rw [TunnelCycle.final, reconciliation, Prog.bind_run_ok hread, applyPeerState_eq,
      Prog.bind_run_error hconf]
  rw [hfinal]
  exact ⟨rfl, hsteady.php.trans (phpState_of_ticked ht),
    (latest_of_ticked ht).trans hsteady.latest⟩

/-- What a cycle ends in whose layer comes into the plan. -/
lemma final_of_planned {peerState : PeerState} {s₁ s' : PeerWorld Workload} {runJobWorkers : Bool}
    (hread : readPeerState c.surroundings c.registering (c.start s) = (.ok peerState, s₁))
    (hconf : configureAndPlan c.surroundings c.registering peerState c.force s₁ =
      (.ok runJobWorkers, s')) :
    Rewritten c.surroundings s.workload (c.final s) ∧
      ∀ service config, c.registering.layer.pebbleLayer.services.lookup service = some config →
        (c.final s).pebble.plan service = some config := by
  have hread₁ := Prog.wp_of_ok (readPeerState_cases (c.start s)) hread
  have ht : Ticked s.workload s₁.rest := hread₁
  obtain ⟨hplan, hrewritten⟩ := Prog.wp_of_ok (configureAndPlan_spec peerState c.force s₁) hconf
  have hkept := @kept_afterLayer F c.surroundings c.registering peerState.operationMode
    runJobWorkers s'
  have hfinal : c.final s = (afterLayer c.surroundings c.registering peerState.operationMode
      runJobWorkers s').2.rest := by
    rw [TunnelCycle.final, reconciliation, Prog.bind_run_ok hread, applyPeerState_eq,
      Prog.bind_run_ok hconf]
  rw [hfinal, hkept.plan]
  exact ⟨((latest_of_ticked ht).rewritten hrewritten).trans hkept.latest, hplan⟩

/-- The late settings after a cycle show what it has rendered, if it has rendered anything. -/
lemma latest_final (c : TunnelCycle F) (s : TunnelState) :
    Latest c.surroundings s.workload (c.final s) := by
  rcases hread : readPeerState c.surroundings c.registering (c.start s) with ⟨e | peerState, s₁⟩
  · rcases Prog.wp_of_error (readPeerState_cases (c.start s)) hread with ht | ⟨s₂, hinactive, -, -⟩
    · rw [final_of_read_error hread]
      exact latest_of_ticked ht
    · exact (final_of_inactive hinactive).2.2.1
  · rcases hconf : configureAndPlan c.surroundings c.registering peerState c.force s₁ with
      ⟨e | runJobWorkers, s₂⟩
    · exact (final_of_configure_error hread hconf).2.2
    · exact (final_of_planned hread hconf).1.latest

/-- A cycle that meets the condition keeps the agreement. -/
lemma agrees_next (h : Agrees s) (hc : Sound s c) : Agrees (c.next s) := by
  have hlatest := latest_final c s
  rcases hread : readPeerState c.surroundings c.registering (c.start s) with ⟨e | peerState, s₁⟩
  · rcases Prog.wp_of_error (readPeerState_cases (c.start s)) hread with ht | ⟨s₂, hinactive, -, -⟩
    · have ht : Ticked s.workload (c.final s) := final_of_read_error hread ▸ ht
      exact agrees_of_same h (phpState_of_ticked ht) hlatest (rendered_of_ticked ht)
    · obtain ⟨ht, hfinal, -, hrendered⟩ := final_of_inactive hinactive
      have hstopped := @reconcileServices_inactive F c.surroundings c.registering s₂.rest
      rw [← hfinal] at hstopped
      have hphp₂ : phpState s₂.rest = phpState s.workload := phpState_of_ticked ht
      rcases hstopped with hsame | hleft
      · exact agrees_of_same h ((phpState_of_leaves hsame).trans hphp₂) hlatest hrendered
      · -- PHP runs only where it was left running, which the condition excludes
        intro relay hlive
        obtain ⟨hbefore, hleaves⟩ := hleft hlive.1
        have hrunning : (c.final s).pebble.isRunning phpFpmServiceName =
            s.workload.pebble.isRunning phpFpmServiceName :=
          hlive.1.trans (hbefore.symm.trans (congrArg Prod.snd hphp₂))
        have hlive₀ := (live_of_same hlatest hrendered hrunning).1 hlive
        exact absurd hleaves (hc.inactive ⟨relay, hlive₀⟩ s₂ hinactive)
  · rcases hconf : configureAndPlan c.surroundings c.registering peerState c.force s₁ with
      ⟨e | runJobWorkers, s₂⟩
    · obtain ⟨hfinal, hphp, -⟩ := final_of_configure_error hread hconf
      by_cases hrendered : (c.final s).rendered = s.workload.rendered
      · exact agrees_of_same h hphp hlatest hrendered
      · -- the settings are new and the plan is old
        rintro relay ⟨hrun, hrelay, hroutes⟩
        have hsource : (c.next s).source = c.Renders := if_neg hrendered
        have hrelay : c.Renders relay := hsource ▸ hrelay
        have hrunning : (c.final s).pebble.isRunning phpFpmServiceName =
          s.workload.pebble.isRunning phpFpmServiceName := congrArg Prod.snd hphp
        have hinterrupted : Interrupted c.surroundings c.registering c.force (c.start s) s₂ :=
          ⟨peerState, s₁, e, hread, hconf, hfinal ▸ hrendered⟩
        obtain ⟨command, hcommand⟩ := command_of_routes hrelay hroutes hc.direct
        have htunnel : Tunnelled relay s.workload.pebble := hc.interrupted
          (hrunning.symm.trans hrun) relay command hrelay hcommand ⟨s₂, hinterrupted⟩
        exact htunnel.congr (congrArg Prod.fst hphp)
    · -- the layer of the same cycle has the tunnel of the new settings
      obtain ⟨hrewritten, hplan⟩ := final_of_planned hread hconf
      rintro relay ⟨-, hrelay, hroutes⟩
      have hsource : (c.next s).source = c.Renders := if_neg hrewritten.ne
      have hrelay : c.Renders relay := hsource ▸ hrelay
      obtain ⟨command, hcommand⟩ := command_of_routes hrelay hroutes hc.direct
      exact tunnelled_of_planned hrelay hcommand hplan

/-- A cycle that does not meet the condition breaks the agreement. -/
lemma sound_of_agrees (hdirect : NoLocalRelay c) (hc : Steadfast c) (hnext : Agrees (c.next s)) :
    Sound s c := by
  refine ⟨hdirect, ?_, ?_⟩
  · rintro hrun relay command hrelay hcommand ⟨s', peerState, s₁, e, hread, hconf, hne⟩
    obtain ⟨hfinal, hphp, -⟩ := final_of_configure_error hread hconf
    have hne : (c.final s).rendered ≠ s.workload.rendered := hfinal ▸ hne
    have hsource : (c.next s).source = c.Renders := if_neg hne
    have hrunning : (c.final s).pebble.isRunning phpFpmServiceName = true :=
      (congrArg Prod.snd hphp).trans hrun
    have hroutes : Routes relay (c.final s) :=
      routes_of_shown hrelay hcommand hc ((latest_final c s).shown hne)
    have htunnel : Tunnelled relay (c.final s).pebble :=
      hnext relay ⟨hrunning, hsource ▸ hrelay, hroutes⟩
    exact htunnel.congr (congrArg Prod.fst hphp).symm
  · rintro ⟨relay, hlive⟩ s' hinactive hleaves
    obtain ⟨ht, hfinal, hlatest, hrendered⟩ := final_of_inactive hinactive
    have hrun : s'.rest.pebble.isRunning phpFpmServiceName = true :=
      (congrArg Prod.snd (phpState_of_ticked ht)).trans hlive.1
    obtain ⟨hrunning, hplan⟩ := leavesRunning_spec hrun hleaves
    rw [← hfinal] at hrunning hplan
    have hnextLive := (live_of_same hlatest hrendered (hrunning.trans hlive.1.symm)).2 hlive
    -- the layer of an inactive cycle has the tunnel disabled
    obtain ⟨config, hconfig, henabled, -⟩ := hnext relay hnextLive
    have hlookup : c.registering.layer.withoutTunnel.pebbleLayer.services.lookup
        smtpProxyServiceName = some
          { summary := "Disabled HTTP CONNECT proxy tunnel", command := "sleep 60"
            onSuccess := some "ignore", onFailure := some "ignore" } :=
      lookup_pebbleLayer_smtpProxy _
    have hdisabled := hplan _ _ hlookup
    have hconfig : (c.final s).pebble.plan smtpProxyServiceName = some config := hconfig
    rw [hdisabled] at hconfig
    obtain rfl := Option.some.inj hconfig
    cases henabled

/-- Settings that were rendered anew for a tunnel, while the plan has it disabled and PHP runs,
break the agreement. -/
lemma not_agrees_next {relay : Relay} {command : String} (hrelay : c.Renders relay)
    (hcommand : relay.tunnelCommand = .ok (some command)) (hc : Steadfast c)
    (hrun : (c.final s).pebble.isRunning phpFpmServiceName = true)
    (hlength : s.workload.rendered.length < (c.final s).rendered.length)
    (hdisabled : ((c.final s).pebble.plan smtpProxyServiceName).map (fun config =>
      config.startupEnabled) = some false) : ¬ Agrees (c.next s) := by
  intro h
  have hne : (c.final s).rendered ≠ s.workload.rendered := by
    intro he
    rw [he] at hlength
    omega
  have hsource : (c.next s).source = c.Renders := if_neg hne
  have hroutes : Routes relay (c.final s) :=
    routes_of_shown hrelay hcommand hc ((latest_final c s).shown hne)
  -- the agreement would have the tunnel enabled
  obtain ⟨config, hconfig, henabled, -⟩ := h relay ⟨hrun, hsource ▸ hrelay, hroutes⟩
  have hconfig : (c.final s).pebble.plan smtpProxyServiceName = some config := hconfig
  rw [hconfig] at hdisabled
  have hoff : config.startupEnabled = false := Option.some.inj hdisabled
  exact absurd (henabled.symm.trans hoff) (by decide)

end Cycle

/-! ### Runs -/

variable (F) in
/-- The cycles of a unit, from a container in which PHP does not run. -/
def unit : Machine TunnelState (TunnelCycle F) where
  init s := s.workload.pebble.isRunning phpFpmServiceName = false
  step s c s' := s' = c.next s

/-- In the runs whose cycles meet the condition the plan has the tunnel that the settings on
disk name, in every state; and but for a relay at the local end, a cycle from there whose
relation stays readable keeps it so exactly if it meets the condition. -/
theorem agrees_of_sound_run {s : TunnelState} (h : ((unit F).restrict Sound).Reachable s) :
    Agrees s ∧ ∀ c : TunnelCycle F, NoLocalRelay c → Steadfast c →
      (Agrees (c.next s) ↔ Sound s c) := by
  have hagrees : Agrees s := by
    refine Machine.Invariant.reachable ⟨fun s hs relay hlive => ?_, fun s c s' hinv hstep => ?_⟩ h
    · have hrun := hlive.1
      rw [show s.workload.pebble.isRunning phpFpmServiceName = false from hs] at hrun
      cases hrun
    · obtain ⟨hc, rfl⟩ := hstep
      exact agrees_next hinv hc
  exact ⟨hagrees, fun c hdirect hc => ⟨sound_of_agrees hdirect hc, agrees_next hagrees⟩⟩

/-! ### A deferred error -/

/-- A container in which nothing runs. -/
def fresh : TunnelState where
  workload := { files := fun p => if p = .composerLock then some (.text "") else none }

/-- Every host lies behind the proxy. -/
def proxied : ProxyRouteResolver where
  library :=
    { acceptsNetloc := fun _ => true
      lower := fun s => s.map Char.toLower
      shouldBypassProxies := fun _ _ => .ok false }
  proxyConfig := some { httpsProxy := some { scheme := "http", host := "proxy.example.com" } }

/-- The relation of a relay without TLS and without a user. -/
def mailRelation : SmtpRelation where
  host := "mail.example.com"
  port := 587
  getRelationData _ := .ok { host := "mail.example.com", port := 587 }
  host_eq := by
    rintro n data ⟨⟩
    rfl
  port_eq := by
    rintro n data ⟨⟩
    rfl

/-- What its settings are rendered from. -/
def mailRelay : Relay := ⟨proxied, "mail.example.com", 587⟩

/-- A cycle of the leader in which all is well but perhaps the S3 settings. -/
def mailCycle (smtp : Option SmtpRelation) (s3Settings : Except Exc String) :
    TunnelCycle Empty where
  env :=
    { flag := fun flag _ =>
        .ok (decide (flag ≠ .certificateTransferReconcile ∧ flag ≠ .tlsReconciliation))
      text := fun fragment _ => if fragment = .s3Settings then s3Settings else .ok ""
      composer := fun _ => ⟨.ok 0, none⟩ }
  charm := { isLeader := true }
  resolver := proxied
  smtp := smtp

lemma sound_fresh (s3Settings : Except Exc String) (smtp : Option SmtpRelation)
    (h : NoLocalRelay (mailCycle smtp s3Settings)) : Sound fresh (mailCycle smtp s3Settings) :=
  ⟨h, nofun, fun ⟨_, hlive⟩ => absurd hlive.1 (by decide)⟩

lemma noLocalRelay_mail (s3Settings : Except Exc String) :
    NoLocalRelay (mailCycle (some mailRelation) s3Settings) := by
  rintro relay ⟨relation, n, data, ⟨⟩, ⟨⟩, rfl⟩ - hport
  cases hport

/-- After a cycle in which nothing raises PHP runs, and the plan has the tunnel. -/
theorem agrees_of_sound_run_mail :
    ((mailCycle (some mailRelation) (.ok "")).next fresh).workload.pebble.isRunning
      phpFpmServiceName = true ∧ Agrees ((mailCycle (some mailRelation) (.ok "")).next fresh) := by
  have hinit : ((unit Empty).restrict Sound).init fresh :=
    (rfl : fresh.workload.pebble.isRunning phpFpmServiceName = false)
  refine ⟨by decide +kernel, ?_⟩
  exact (agrees_of_sound_run (.step (.init hinit) ⟨sound_fresh _ _ (noLocalRelay_mail _), rfl⟩)).1

/-- The unit once it runs without a relay. -/
def withoutMail : TunnelState := (mailCycle none (.ok "")).next fresh

/-- The cycle of the relay, whose S3 data is incomplete. -/
def incomplete : TunnelCycle Empty :=
  mailCycle (some mailRelation) (.error (.blocked "S3 relation data is incomplete."))

lemma reachable_incomplete : (unit Empty).Reachable (incomplete.next withoutMail) := by
  have hinit : (unit Empty).init fresh :=
    (rfl : fresh.workload.pebble.isRunning phpFpmServiceName = false)
  have hfirst : (unit Empty).step fresh (mailCycle none (.ok "")) withoutMail := rfl
  have hsecond : (unit Empty).step withoutMail incomplete (incomplete.next withoutMail) := rfl
  exact .step (.step (.init hinit) hfirst) hsecond

lemma steadfast_incomplete : Steadfast incomplete := by
  rintro relation ⟨⟩ m data - n
  exact ⟨_, rfl⟩

lemma mailRelay_needsTunnel : ∃ command, mailRelay.tunnelCommand = .ok (some command) :=
  ⟨_, rfl⟩

/-- The S3 error is raised once the settings are written: PHP runs with settings that route to
a tunnel which the plan has disabled. -/
theorem not_agrees : ¬ ∀ s, (unit Empty).Reachable s → Agrees s := by
  intro h
  obtain ⟨command, hcommand⟩ := mailRelay_needsTunnel
  have hrenders : incomplete.Renders mailRelay := ⟨mailRelation, 0, _, rfl, rfl, rfl⟩
  have hrun : (incomplete.final withoutMail).pebble.isRunning phpFpmServiceName = true := by
    decide +kernel
  have hlength : withoutMail.workload.rendered.length <
      (incomplete.final withoutMail).rendered.length := by decide +kernel
  have hdisabled : ((incomplete.final withoutMail).pebble.plan smtpProxyServiceName).map
      (fun config => config.startupEnabled) = some false := by decide +kernel
  exact not_agrees_next hrenders hcommand steadfast_incomplete hrun hlength hdisabled
    (h _ reachable_incomplete)

end SmtpTunnel
end MediawikiCharm
