/-
The git-sync sidecar (`git_sync.py`, `ssh_reconcile_config` of `utils.py`).

A cycle writes the SSH configuration, checks the remote against the known hosts, and then
brings the git-sync service into the plan.  When the SSH step raises, the service is brought
into the plan with its startup disabled and the container is replanned.  A replan stops
nothing: a service that runs is restarted with the new command, so after the gate has failed
git-sync runs for the configured repository exactly if it ran before.
-/
import MediawikiCharm.Remotes

namespace MediawikiCharm
namespace GitSync

open PyText Egress Remotes

/-! ### The container -/

/-- The files of the container. -/
inductive GitSyncFile
  /-- `_ssh_key_file` -/
  | sshKey
  /-- `_ssh_config_file` -/
  | sshConfig
  /-- `_known_hosts_file` -/
  | knownHosts
  /-- `_sparse_checkout_file` -/
  | sparseCheckout
deriving DecidableEq

/-- `as_posix()` -/
def GitSyncFile.path : GitSyncFile → String
  | .sshKey => "/run/git-sync-ssh-key.priv"
  | .sshConfig => "/etc/ssh/ssh_config.d/git-sync.conf"
  | .knownHosts => "/run/ssh_known_hosts"
  | .sparseCheckout => "/run/git-sync-sparse-checkout"

/-- The container of git-sync. -/
structure GitSyncState where
  files : GitSyncFile → Option String := fun _ => none
  pebble : Pebble := {}
  /-- The repository link of the storage exists. -/
  linked : Bool := false
  clock : ℕ := 0

/-- The operations on the container. -/
inductive Operation
  | mkdir (file : GitSyncFile)
  | write (file : GitSyncFile)
  | exists (file : GitSyncFile)
  | unlink (file : GitSyncFile)
  | addLayer
  | replan
  | removeLink
deriving DecidableEq

/-- An operation that raises. -/
structure Failure where
  error : Exc
  /-- It has had its effect nevertheless. -/
  done : Bool := false
  /-- What a replan has done nevertheless. -/
  effect : Effect := .untouched

/-- The part of `CharmConfig` that git-sync reads. -/
structure GitSyncConfig where
  staticAssetsGitRepo : String := ""
  staticAssetsGitRef : String := ""
  staticAssetsGitSparseCheckout : String := ""
  sshKnownHosts : String := ""

/-- The answers of the surroundings. -/
structure GitSyncEnv where
  isReady : Except Exc Bool := .ok true
  config : Except Exc GitSyncConfig
  failure : Operation → ℕ → Option Failure := fun _ _ => none

/-- What a charm gives to git-sync beside the configuration. -/
structure GitSyncCharm where
  library : TextLibrary
  proxyConfig : Option ProxyConfig := none
  /-- `get_proxy_env({})` -/
  proxyEnv : List (String × String) := []

variable (charm : GitSyncCharm) (env : GitSyncEnv)

/-- An operation with its effect. -/
def perform (operation : Operation) (effect : GitSyncState → GitSyncState) :
    Prog GitSyncState Exc Unit := fun s =>
  match env.failure operation s.clock with
  | none => (.ok (), { effect s with clock := s.clock + 1 })
  | some failure => (.error failure.error,
      { (if failure.done then effect s else s) with clock := s.clock + 1 })

/-- Replace the content of a file. -/
def GitSyncState.setFile (file : GitSyncFile) (content : Option String) (s : GitSyncState) :
    GitSyncState :=
  { s with files := Function.update s.files file content }

/-- `file.exists()` -/
def fileExists (file : GitSyncFile) : Prog GitSyncState Exc Bool := do
  perform env (.exists file) id
  let s ← Prog.get
  pure (s.files file).isSome

/-- `file.write_text(content)` -/
def writeText (file : GitSyncFile) (content : String) : Prog GitSyncState Exc Unit :=
  perform env (.write file) (GitSyncState.setFile file (some content))

/-! ### The SSH configuration -/

/-- `_connect_command` -/
def connectCommand (r : ProxyRouteResolver) (host port : String) : Except Exc String := do
  let endpoint ← r.proxyEndpoint false
  pure ("/usr/bin/socat - PROXY:" ++ quote endpoint.1 ++ ":" ++ quote host ++ ":" ++ port ++
    ",proxyport=" ++ toString endpoint.2)

/-- `ssh_proxy_command` -/
def sshProxyCommand (r : ProxyRouteResolver) : Except Exc (Option String) :=
  if r.proxy false = none then .ok none
  else do
    let command ← connectCommand r "%h" "%p"
    pure (some command)

/-- `s.strip()` -/
def stripText (s : String) : String :=
  String.ofList ((s.toList.dropWhile fun c => isSpace (ofChar c)).rdropWhile
    fun c => isSpace (ofChar c))

/-- The part of `ssh_reconcile_config` that writes or removes the key. -/
def reconcileSshKey (sshKey : Option String) : Prog GitSyncState Exc Unit := do
  if sshKey.getD "" ≠ "" then
    perform env (.mkdir .sshKey) id
    writeText env .sshKey (stripText (sshKey.getD "") ++ "\n")
  else if ← fileExists env .sshKey then
    perform env (.unlink .sshKey) (.setFile .sshKey none)

/-- `ssh_reconcile_config` -/
def sshReconcileConfig (sshKey : Option String) (knownHostsContent : String) :
    Prog GitSyncState Exc Unit := do
  reconcileSshKey env sshKey
  perform env (.mkdir .knownHosts) id
  writeText env .knownHosts knownHostsContent
  let proxyCommand ← Prog.ofExcept (sshProxyCommand ⟨charm.library.toLibrary, charm.proxyConfig⟩)
  let sshConfigLines := ["Host *", "    StrictHostKeyChecking yes",
      "    UserKnownHostsFile " ++ GitSyncFile.knownHosts.path] ++
    (if sshKey.getD "" = "" then [] else ["    IdentityFile " ++ GitSyncFile.sshKey.path]) ++
    (proxyCommand.map fun command => "    ProxyCommand " ++ command).toList
  perform env (.mkdir .sshConfig) id
  writeText env .sshConfig ("\n".intercalate sshConfigLines ++ "\n")

/-- `_ssh_config_reconciliation` -/
def sshConfigReconciliation (config : GitSyncConfig) (sshKey : Option String) :
    Prog GitSyncState Exc Unit := do
  sshReconcileConfig charm env sshKey config.sshKnownHosts
  Prog.ofExcept (checkRemote charm.library config.staticAssetsGitRepo (lit config.sshKnownHosts))

/-! ### The service -/

/-- `_service_name` -/
def serviceName : String := "git-sync"

/-- The part of the command that does not depend on files. -/
def baseCommand (config : GitSyncConfig) : List String :=
  ["/git-sync", "--repo", config.staticAssetsGitRepo, "--root", "/mnt/static-assets",
    "--period", "10s", "--max-failures", "3", "--http-bind", ":8081", "--http-metrics",
    "--ssh-known-hosts-file", GitSyncFile.knownHosts.path, "--link", "repo"] ++
  (if config.staticAssetsGitRef = "" then [] else ["--ref", config.staticAssetsGitRef])

/-- `_git_sync_command` -/
def gitSyncCommand (config : GitSyncConfig) : Prog GitSyncState Exc (List String) :=
  if config.staticAssetsGitRepo = "" then pure []
  else do
    let sshKey ← fileExists env .sshKey
    let sparseCheckout ← fileExists env .sparseCheckout
    pure (baseCommand config ++
      (if sshKey then ["--ssh-key-file", GitSyncFile.sshKey.path] else []) ++
      (if sparseCheckout then ["--sparse-checkout-file", GitSyncFile.sparseCheckout.path] else []))

/-- The service in the layer; `on-check-failure` is the same in every layer and left out. -/
def gitSyncService (command : List String) (forceDisable : Bool) : ServiceConfig where
  summary := "git-sync service"
  command := " ".intercalate (if command = [] then ["sleep", "inf"] else command)
  startupEnabled := command ≠ [] && !forceDisable
  environment := charm.proxyEnv

/-- `_pebble_layer` -/
def pebbleLayer (config : GitSyncConfig) (forceDisable : Bool) : Prog GitSyncState Exc Layer := do
  let command ← gitSyncCommand env config
  pure { services := [(serviceName, gitSyncService charm command forceDisable)]
         checks := [("git-sync-alive", command ≠ [] && !forceDisable)] }

/-- `add_layer(_service_name, layer, combine=True)` -/
def addLayer (layer : Layer) : Prog GitSyncState Exc Unit :=
  perform env .addLayer fun s => { s with pebble := s.pebble.addLayer layer }

/-- `replan()` -/
def replan : Prog GitSyncState Exc Unit := fun s =>
  match env.failure .replan s.clock with
  | none => (.ok (), { s with clock := s.clock + 1, pebble := s.pebble.touch s.pebble.replanEffect })
  | some failure => (.error failure.error, { s with
      clock := s.clock + 1
      pebble := s.pebble.touch (Pebble.partialEffect s.pebble.replanEffect fun _ => failure.effect) })

/-- `_reconcile_services` -/
def reconcileServices (config : GitSyncConfig) (forceDisable : Bool) :
    Prog GitSyncState Exc Unit := do
  let layer ← pebbleLayer charm env config forceDisable
  addLayer env layer
  replan env

/-! ### Reconciliation -/

/-- `_sparse_checkout_reconciliation` -/
def sparseCheckoutReconciliation (config : GitSyncConfig) : Prog GitSyncState Exc Unit := do
  if config.staticAssetsGitSparseCheckout ≠ "" then
    writeText env .sparseCheckout config.staticAssetsGitSparseCheckout
  else if ← fileExists env .sparseCheckout then
    perform env (.unlink .sparseCheckout) (.setFile .sparseCheckout none)

/-- `_clear_repo_contents`; any error of Pebble becomes a blocked status. -/
def clearRepoContents : Prog GitSyncState Exc Unit :=
  tryCatch (perform env .removeLink fun s => { s with linked := false }) fun e =>
    match e with
    | .pebble message => throw (.blocked ("Failed to clear git-sync repo contents: " ++ message))
    | e => throw e

/-- `reconciliation` -/
def reconciliation (sshKey : Option String) : Prog GitSyncState Exc Unit := do
  if !(← Prog.ofExcept env.isReady) then pure ()
  else
    let config ← Prog.ofExcept env.config
    tryCatch (sshConfigReconciliation charm env config sshKey) fun e => do
      reconcileServices charm env config true
      throw e
    sparseCheckoutReconciliation env config
    reconcileServices charm env config false
    let command ← gitSyncCommand env config
    if command = [] then clearRepoContents env

/-! ### The gate -/

/-- git-sync runs for the configured repository. -/
def SyncingFor (config : GitSyncConfig) (s : GitSyncState) : Prop :=
  config.staticAssetsGitRepo ≠ "" ∧ ∃ service rest, s.pebble.running serviceName = some service ∧
    service.command = " ".intercalate ("/git-sync" :: "--repo" :: config.staticAssetsGitRepo :: rest)

/-- When the reconciliation raises because the SSH step did, git-sync does not run for the
configured repository in the end, whatever the surroundings answer. -/
def GateStops (charm : GitSyncCharm) (config : GitSyncConfig) (sshKey : Option String)
    (s : GitSyncState) : Prop :=
  ∀ env : GitSyncEnv, env.isReady = .ok true → env.config = .ok config →
    ∀ e s', sshConfigReconciliation charm env config sshKey s = (.error e, s') →
      ¬ SyncingFor config (reconciliation charm env sshKey s).2

variable {charm : GitSyncCharm} {env : GitSyncEnv} {s : GitSyncState}

/-- What is not about Pebble leaves Pebble alone. -/
lemma frame_perform {operation : Operation} {effect : GitSyncState → GitSyncState}
    (h : ∀ s, (effect s).pebble = s.pebble) :
    Prog.Frame GitSyncState.pebble (perform env operation effect) := by
  intro s
  unfold perform
  cases env.failure operation s.clock with
  | none => exact h s
  | some failure =>
    show (if failure.done then effect s else s).pebble = s.pebble
    split_ifs
    · exact h s
    · rfl

lemma frame_fileExists (file : GitSyncFile) :
    Prog.Frame GitSyncState.pebble (fileExists env file) :=
  .bind (frame_perform fun _ => rfl) fun _ => .bind .get fun _ => .pure _

lemma frame_writeText (file : GitSyncFile) (content : String) :
    Prog.Frame GitSyncState.pebble (writeText env file content) :=
  frame_perform fun _ => rfl

lemma frame_sshConfigReconciliation (config : GitSyncConfig) (sshKey : Option String) :
    Prog.Frame GitSyncState.pebble (sshConfigReconciliation charm env config sshKey) := by
  refine .bind (.bind ?_ fun _ => .bind (frame_perform fun _ => rfl) fun _ => ?_)
    fun _ => .ofExcept _
  · refine .ite (.bind (frame_perform fun _ => rfl) fun _ => frame_writeText _ _) ?_
    exact .bind (frame_fileExists _) fun _ => .ite (frame_perform fun _ => rfl) (.pure _)
  · exact .bind (frame_writeText _ _) fun _ => .bind (.ofExcept _) fun _ =>
      .bind (frame_perform fun _ => rfl) fun _ => frame_writeText _ _

/-- The command of git-sync begins with the repository. -/
lemma gitSyncCommand_spec (config : GitSyncConfig) (s : GitSyncState) :
    (gitSyncCommand env config).wp (fun command s' => s'.pebble = s.pebble ∧
      (config.staticAssetsGitRepo = "" → command = []) ∧
      (config.staticAssetsGitRepo ≠ "" → ∃ rest,
        command = "/git-sync" :: "--repo" :: config.staticAssetsGitRepo :: rest))
      (fun _ s' => s'.pebble = s.pebble) s := by
  refine Prog.wp_ite.2 ⟨fun hempty => ?_, fun hrepo => ?_⟩
  · exact Prog.wp_pure.2 ⟨rfl, fun _ => rfl, fun h => absurd hempty h⟩
  · refine Prog.wp_bind.2 (Prog.wp_mono ((frame_fileExists .sshKey).wp s) ?_ fun _ _ h => h)
    intro sshKey s₁ h₁
    refine Prog.wp_bind.2 (Prog.wp_mono ((frame_fileExists .sparseCheckout).wp s₁) ?_
      fun _ _ h => h.trans h₁)
    intro sparseCheckout s₂ h₂
    exact Prog.wp_pure.2 ⟨h₂.trans h₁, fun h => absurd h hrepo, fun _ => ⟨_, rfl⟩⟩

/-- A replan of a disabled service does not change whether it runs, and it runs with the
configuration of the plan then. -/
lemma running_replan {p : Pebble} {service : String} {c : ServiceConfig}
    (hplan : p.plan service = some c) (hstartup : c.startupEnabled = false) :
    (p.touch p.replanEffect).running service = if p.isRunning service then some c else none := by
  cases hrun : p.running service with
  | none =>
    have heffect : p.replanEffect service = .untouched := by
      simp [Pebble.replanEffect, hrun, hplan, hstartup]
    simp [Pebble.touch, heffect, hrun, Pebble.isRunning]
  | some c' =>
    by_cases hc : c = c'
    · have heffect : p.replanEffect service = .untouched := by
        simp [Pebble.replanEffect, hrun, hplan, hc]
      simp [Pebble.touch, heffect, hrun, Pebble.isRunning, hc]
    · have heffect : p.replanEffect service = .started := by
        simp [Pebble.replanEffect, hrun, hplan, hc]
      simp [Pebble.touch, heffect, hplan, Pebble.isRunning, hrun]

/-- A replan that raises does not start a disabled service that is stopped. -/
lemma running_partialReplan {p : Pebble} {service : String} {c : ServiceConfig} {effect : Effect}
    (hplan : p.plan service = some c) (hstartup : c.startupEnabled = false)
    (hrun : p.isRunning service = false) :
    (p.touch (Pebble.partialEffect p.replanEffect fun _ => effect)).running service = none := by
  have hnone : p.running service = none := by simpa [Pebble.isRunning] using hrun
  have heffect : Pebble.partialEffect p.replanEffect (fun _ => effect) service = .untouched :=
    Pebble.partialEffect_of_untouched (Pebble.replanEffect_of_stopped hplan hstartup hrun)
  simp [Pebble.touch, heffect, hnone]

/-- With the service disabled, the plan is brought up to date: a service that ran runs with
the new command, and one that did not run does not. -/
lemma reconcileServices_spec (config : GitSyncConfig) (s : GitSyncState) :
    (reconcileServices charm env config true).wp
      (fun _ s' => SyncingFor config s' ↔
        s.pebble.isRunning serviceName = true ∧ config.staticAssetsGitRepo ≠ "")
      (fun _ s' => s.pebble.isRunning serviceName = false →
        s'.pebble.running serviceName = none) s := by
  have hstopped {s' : GitSyncState} (h : s'.pebble.running = s.pebble.running)
      (hrun : s.pebble.isRunning serviceName = false) :
      s'.pebble.running serviceName = none := by
    rw [h]
    simpa [Pebble.isRunning] using hrun
  refine Prog.wp_bind.2 (Prog.wp_bind.2 (Prog.wp_mono (gitSyncCommand_spec config s) ?_ ?_))
  · rintro command s₁ ⟨hpebble, hempty, hrepo⟩
    have hadd : (addLayer env ⟨[(serviceName, gitSyncService charm command true)],
        [("git-sync-alive", command ≠ [] && !true)]⟩).wp
        (fun _ s₂ => s₂.pebble.plan serviceName = some (gitSyncService charm command true) ∧
          s₂.pebble.running = s.pebble.running)
        (fun _ s₂ => s₂.pebble.running = s.pebble.running) s₁ := by
      unfold Prog.wp addLayer perform
      have hrunning : s₁.pebble.running = s.pebble.running := congrArg Pebble.running hpebble
      cases env.failure .addLayer s₁.clock with
      | none => exact ⟨Pebble.addLayer_plan rfl, hrunning⟩
      | some failure =>
        cases hdone : failure.done <;> simp [hdone, Pebble.addLayer, hrunning]
    refine Prog.wp_pure.2 (Prog.wp_bind.2 (Prog.wp_mono hadd ?_ fun _ s₂ h => hstopped h))
    rintro _ s₂ ⟨hplan, hrunning⟩
    have hdisabled : (gitSyncService charm command true).startupEnabled = false := by
      simp [gitSyncService]
    have hisRunning : s₂.pebble.isRunning serviceName = s.pebble.isRunning serviceName := by
      rw [Pebble.isRunning, hrunning]
      rfl
    unfold Prog.wp replan
    cases env.failure .replan s₂.clock with
    | some failure =>
      intro hrun
      exact running_partialReplan hplan hdisabled (hisRunning.trans hrun)
    | none =>
      show SyncingFor config _ ↔ _
      have hafter := running_replan hplan hdisabled
      rw [hisRunning] at hafter
      constructor
      · rintro ⟨hne, service, rest, hservice, -⟩
        refine ⟨?_, hne⟩
        by_contra hrun
        rw [hafter, if_neg hrun] at hservice
        cases hservice
      · rintro ⟨hrun, hne⟩
        obtain ⟨rest, hcommand⟩ := hrepo hne
        refine ⟨hne, gitSyncService charm command true, rest, ?_, ?_⟩
        · rw [hafter, if_pos hrun]
        · rw [gitSyncService, hcommand]
          simp
  · intro e s₁ h
    exact hstopped (congrArg Pebble.running h)

/-- When the SSH step raises, the last thing that is done is to disable the service. -/
lemma reconciliation_of_error {config : GitSyncConfig} {sshKey : Option String} {e : Exc}
    {s₁ : GitSyncState} (hready : env.isReady = .ok true) (hconfig : env.config = .ok config)
    (hssh : sshConfigReconciliation charm env config sshKey s = (.error e, s₁)) :
    (reconciliation charm env sshKey s).2 = (reconcileServices charm env config true s₁).2 := by
  unfold reconciliation
  rw [hready, hconfig, Prog.bind_run, Prog.ofExcept_run]
  show ((_ : Prog GitSyncState Exc Unit) s).2 = _
  rw [if_neg (by decide), Prog.bind_run, Prog.ofExcept_run]
  dsimp only
  rw [Prog.bind_run, Prog.tryCatch_run, hssh]
  dsimp only
  rw [Prog.bind_run]
  rcases reconcileServices charm env config true s₁ with ⟨_ | _, s₂⟩
  · rfl
  · rfl

/-! ### Surroundings that raise once -/

/-- From this time on no operation raises. -/
def QuietFrom (env : GitSyncEnv) (n : ℕ) : Prop :=
  ∀ operation m, n ≤ m → env.failure operation m = none

lemma perform_quiet {operation : Operation} {effect : GitSyncState → GitSyncState}
    (h : QuietFrom env s.clock) : (perform env operation effect).wp
      (fun _ s' => QuietFrom env s'.clock) (fun _ _ => False) s := by
  unfold Prog.wp perform
  rw [h operation s.clock le_rfl]
  exact fun operation m hm => h operation m (Nat.le_of_succ_le hm)

lemma fileExists_quiet {file : GitSyncFile} (h : QuietFrom env s.clock) :
    (fileExists env file).wp (fun _ s' => QuietFrom env s'.clock) (fun _ _ => False) s :=
  Prog.wp_bind.2 (Prog.wp_mono (perform_quiet h) (fun _ _ h => h) fun _ _ h => h)

/-- Where nothing raises, the services are reconciled. -/
lemma reconcileServices_quiet (config : GitSyncConfig) (h : QuietFrom env s.clock) :
    (reconcileServices charm env config true).wp (fun _ _ => True) (fun _ _ => False) s := by
  have hcommand : (gitSyncCommand env config).wp (fun _ s' => QuietFrom env s'.clock)
      (fun _ _ => False) s := by
    refine Prog.wp_ite.2 ⟨fun _ => h, fun _ => Prog.wp_bind.2 ?_⟩
    refine Prog.wp_mono (fileExists_quiet h) (fun _ s₁ h₁ => Prog.wp_bind.2 ?_) fun _ _ h => h
    exact Prog.wp_mono (fileExists_quiet h₁) (fun _ _ h => h) fun _ _ h => h
  refine Prog.wp_bind.2 (Prog.wp_bind.2 (Prog.wp_mono hcommand ?_ fun _ _ h => h))
  intro command s₁ h₁
  refine Prog.wp_pure.2 (Prog.wp_bind.2 (Prog.wp_mono (perform_quiet h₁) ?_ fun _ _ h => h))
  intro _ s₂ h₂
  unfold Prog.wp replan
  rw [h₂ .replan s₂.clock le_rfl]
  trivial

/-- Surroundings in which the first operation raises and no other. -/
def raisesFirst (config : GitSyncConfig) (s : GitSyncState) : GitSyncEnv where
  config := .ok config
  failure _ n := if n = s.clock then some { error := .pebble "" } else none

lemma sshConfigReconciliation_raisesFirst (config : GitSyncConfig) (sshKey : Option String)
    (s : GitSyncState) :
    sshConfigReconciliation charm (raisesFirst config s) config sshKey s =
      (.error (.pebble ""), { s with clock := s.clock + 1 }) := by
  have hperform (operation : Operation) (effect : GitSyncState → GitSyncState) :
      perform (raisesFirst config s) operation effect s =
        (.error (.pebble ""), { s with clock := s.clock + 1 }) := by
    simp [perform, raisesFirst]
  have hkey : reconcileSshKey (raisesFirst config s) sshKey s =
      (.error (.pebble ""), { s with clock := s.clock + 1 }) := by
    unfold reconcileSshKey
    split_ifs
    · exact Prog.bind_run_error (hperform _ _)
    · exact Prog.bind_run_error (Prog.bind_run_error (hperform _ _))
  exact Prog.bind_run_error (Prog.bind_run_error hkey)

/-- The gate stops git-sync exactly when git-sync was not running, or no repository is
configured. -/
theorem gateStops_iff (charm : GitSyncCharm) (config : GitSyncConfig) (sshKey : Option String)
    (s : GitSyncState) : GateStops charm config sshKey s ↔
      s.pebble.isRunning serviceName = false ∨ config.staticAssetsGitRepo = "" := by
  constructor
  · intro h
    by_contra hnot
    rw [not_or, Bool.not_eq_false] at hnot
    have hssh := @sshConfigReconciliation_raisesFirst charm config sshKey s
    have hafter := h (raisesFirst config s) rfl rfl _ _ hssh
    rw [reconciliation_of_error rfl rfl hssh] at hafter
    have hquiet : QuietFrom (raisesFirst config s) (s.clock + 1) := by
      intro operation m hm
      have hne : m ≠ s.clock := by omega
      simp [raisesFirst, hne]
    rcases hrun : reconcileServices charm (raisesFirst config s) config true
      { s with clock := s.clock + 1 } with ⟨e | _, s₂⟩
    · exact Prog.wp_of_error (reconcileServices_quiet config hquiet) hrun
    · rw [hrun] at hafter
      exact hafter ((Prog.wp_of_ok (reconcileServices_spec config _) hrun).2 hnot)
  · rintro h env hready hconfig e s₁ hssh ⟨hrepo, service, rest, hservice, hcommand⟩
    have hrun : s.pebble.isRunning serviceName = false := h.resolve_right hrepo
    have hpebble : s₁.pebble = s.pebble := by
      have hframe := @frame_sshConfigReconciliation charm env config sshKey s
      rwa [hssh] at hframe
    rw [reconciliation_of_error hready hconfig hssh] at hservice
    rw [← hpebble] at hrun
    have hspec := @reconcileServices_spec charm env config s₁
    rcases hrun' : reconcileServices charm env config true s₁ with ⟨e | _, s₂⟩
    · rw [hrun'] at hservice
      have hnone := Prog.wp_of_error hspec hrun' hrun
      rw [hnone] at hservice
      cases hservice
    · rw [hrun'] at hservice
      have hsyncing := (Prog.wp_of_ok hspec hrun').1 ⟨hrepo, service, rest, hservice, hcommand⟩
      rw [hrun] at hsyncing
      cases hsyncing.1

/-- A charm without a proxy. -/
def directCharm : GitSyncCharm := { library := asciiLibrary }

/-- A repository on a host that is not known. -/
def unknownRemote : GitSyncConfig := { staticAssetsGitRepo := "git@unknown.example:o/r" }

/-- git-sync runs for another repository. -/
def syncingOther : GitSyncState where
  pebble :=
    { plan := fun _ => some { summary := "git-sync service", command := "/git-sync --repo other" }
      running := fun _ =>
        some { summary := "git-sync service", command := "/git-sync --repo other" } }

/-- The gate rejects the remote, and the replan starts git-sync for it. -/
theorem not_gateStops_running : ¬ GateStops directCharm unknownRemote none syncingOther := by
  intro h
  exact h { config := .ok unknownRemote } rfl rfl _ _ rfl ⟨by decide, _, _, rfl, rfl⟩

end GitSync
end MediawikiCharm
