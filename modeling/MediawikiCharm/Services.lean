/-
Services of the workload: the marker of pending restarts (`mediawiki/_base.py`) and the
reconciliation of the Pebble services (`mediawiki/_core.py`).

The marker lists the services that still run with an old state.  It is written as soon as
a change is made and removed at the end of a cycle that has restarted them.

A set of service names stands here as a list in the order that `sorted` gives it.
-/
import MediawikiCharm.Workload
import Mathlib.Data.List.Dedup
import Mathlib.Data.List.Sort

namespace MediawikiCharm
namespace Services

open Workload PyText

/-! ### The marker of pending restarts -/

/-- `str.split()`, with the characters of the word so far in reverse order. -/
def splitFrom (word : List Char) : List Char → List (List Char)
  | [] => if word = [] then [] else [word.reverse]
  | c :: s =>
    if isSpace (ofChar c) then
      if word = [] then splitFrom [] s else word.reverse :: splitFrom [] s
    else splitFrom (c :: word) s

/-- `text.split()` -/
def split (text : String) : List String := (splitFrom [] text.toList).map String.ofList

/-- `"".join(f"{service}\n" for service in services)` -/
def markerText (services : List String) : String :=
  String.ofList (services.flatMap fun service => service.toList ++ ['\n'])

variable (env : Env)

/-- `pending_service_restarts` -/
def pendingServiceRestarts : Prog Workload Exc (List String) := do
  if !(← pathExists env .restartRequired) then pure []
  else
    let text ← readText env .restartRequired
    pure (split text)

/-- `request_service_restart`; the request is noted when the function returns. -/
def requestServiceRestart (services : List String) : Prog Workload Exc Unit := do
  let pending ← pendingServiceRestarts env
  (if services.all pending.contains then pure () else do
    mkdir env
    writeText env .restartRequired
      (markerText ((pending ++ services).dedup.insertionSort (· ≤ ·))) :
    Prog Workload Exc Unit)
  Prog.modify fun w => w.setPebble (w.pebble.owe services)

/-- `clear_service_restart` -/
def clearServiceRestart : Prog Workload Exc Unit := unlink env .restartRequired

/-! ### The layer -/

/-- `_SERVICE_NAME` -/
def serviceName : String := "mediawiki"

/-- `_PHP_FPM_SERVICE_NAME` -/
def phpFpmServiceName : String := "php-fpm"

/-- `JOB_SERVICES` -/
def jobServices : List String := ["redisJobRunnerService", "redisJobChronService"]

/-- `all_conditional_services` of `_reconcile_services` -/
def allConditionalServices : List String :=
  ["mediawiki", "php-fpm", "redisJobChronService", "redisJobRunnerService"]

/-- `_MEDIAWIKI_CHECKS` -/
def mediawikiChecks : List String := ["mediawiki-api-ready", "php-fpm-ready"]

/-- What the layer is built from beside constants. -/
structure LayerInputs where
  /-- `get_proxy_env({})` -/
  proxyEnv : List (String × String) := []
  phpFpmMaxChildren : ℕ := 16
  phpFpmMaxRequests : ℕ := 500
  /-- The registration of the SMTP tunnel, with its command where it is enabled. -/
  smtpProxy : Option (Option String) := none

namespace LayerInputs

variable (i : LayerInputs)

/-- `_tunnel_services.register(_SMTP_PROXY_SERVICE_NAME, _SMTP_PROXY_PORT)` -/
def withoutTunnel : LayerInputs := { i with smtpProxy := some none }

/-- `_tunnel_services.pebble_services()` -/
def tunnelServices : List (String × ServiceConfig) :=
  match i.smtpProxy with
  | none => []
  | some (some command) => [("smtp-proxy",
      { summary := "HTTP CONNECT proxy tunnel", command := command, startupEnabled := true })]
  | some none => [("smtp-proxy",
      { summary := "Disabled HTTP CONNECT proxy tunnel", command := "sleep 60",
        onSuccess := some "ignore", onFailure := some "ignore" })]

/-- `_php_fpm_environment` -/
def phpFpmEnvironment : List (String × String) :=
  i.proxyEnv ++ [("PHP_FPM_MAX_CHILDREN", toString i.phpFpmMaxChildren),
    ("PHP_FPM_MIN_SPARE_SERVERS", toString (max 1 (i.phpFpmMaxChildren / 4))),
    ("PHP_FPM_MAX_SPARE_SERVERS", toString (max 1 (i.phpFpmMaxChildren / 2))),
    ("PHP_FPM_MAX_REQUESTS", toString i.phpFpmMaxRequests)]

/-- The entry of a job service. -/
def jobService (service : String) : String × ServiceConfig :=
  (service,
    { summary := "MediaWiki " ++ service
      command := "/usr/bin/php /opt/redis-job-runner-service/" ++ service ++
        " --config-file=/etc/mediawiki/JobRunnerConfig.json"
      user := some "_daemon_", group := some "_daemon_", environment := i.proxyEnv })

/-- `_pebble_layer`.  The tunnel stands last, where an entry of the same name that follows
it in the source hides it. -/
def pebbleLayer : Layer where
  services :=
    [("php-fpm",
      { summary := "MediaWiki PHP-FPM workers", command := "/usr/local/bin/mediawiki-php-fpm"
        user := some "root", group := some "root", environment := i.phpFpmEnvironment }),
     ("mediawiki",
      { summary := "MediaWiki service (apache)", command := "/usr/sbin/apache2ctl -D FOREGROUND"
        requires := ["mediawikiLogs", "php-fpm"], after := ["mediawikiLogs", "php-fpm"]
        environment := i.proxyEnv }),
     i.jobService "redisJobRunnerService", i.jobService "redisJobChronService",
     ("mediawikiLogs",
      { summary := "MediaWiki logs"
        command := "bash -c 'exec env LC_ALL=C tail -n0 -F /var/log/mediawiki/logs.log " ++
          "2> >(grep --line-buffered -v \": No such file or directory$\" >&2)'"
        startupEnabled := true, user := some "_daemon_", group := some "_daemon_" }),
     ("logrotate",
      { summary := "Logrotate service"
        command := "bash -c \"while :; do sleep 3600; logrotate " ++
          "/etc/logrotate.d/mediawiki/logrotate.conf; done\""
        startupEnabled := true }),
     ("apache-exporter",
      { summary := "Apache exporter for Prometheus"
        command := "/usr/bin/apache_exporter --scrape_uri=" ++
          "http://127.0.0.1:8090/server-status?auto"
        startupEnabled := true, user := some "_daemon_", group := some "_daemon_" }),
     ("freshclam",
      { summary := "FreshClam service", command := "/usr/bin/freshclam --daemon --foreground"
        startupEnabled := true, environment := i.proxyEnv }),
     ("clamd",
      { summary := "ClamAV Daemon service", command := "/usr/sbin/clamd --foreground"
        startupEnabled := true, after := ["freshclam"] })] ++ i.tunnelServices
  checks := [("mediawiki-api-ready", false), ("php-fpm-ready", false), ("apache-exporter-up", true)]

end LayerInputs

/-! ### Calls to Pebble -/

/-- `add_layer(_SERVICE_NAME, layer, combine=True)` -/
def addLayer (layer : Layer) : Prog Workload Exc Unit :=
  pebbleCall env .addLayer (fun _ _ => .untouched) (Pebble.addLayer layer)

/-- `replan()` -/
def replan : Prog Workload Exc Unit := do
  Prog.modify fun w => w.setPebble (w.pebble.issue .replan)
  pebbleCall env .replan Pebble.replanEffect fun p => p.touch p.replanEffect

/-- `stop(*services)` -/
def stop (services : List String) : Prog Workload Exc Unit := do
  Prog.modify fun w => w.setPebble (w.pebble.issue (.stop services))
  pebbleCall env .stop (fun _ => Pebble.stopEffect services)
    fun p => p.touch (Pebble.stopEffect services)

/-- `start(*services)` -/
def start (services : List String) : Prog Workload Exc Unit := do
  Prog.modify fun w => w.setPebble (w.pebble.issue (.start services))
  pebbleCall env .start (fun p => p.startEffect services) fun p => p.touch (p.startEffect services)

/-- `restart(*services)` -/
def restart (services : List String) : Prog Workload Exc Unit := do
  Prog.modify fun w => w.setPebble (w.pebble.issue (.restart services))
  pebbleCall env .restart (fun _ => Pebble.restartEffect services)
    fun p => p.touch (Pebble.restartEffect services)

/-- The services of a list that are in the plan and running, or in the plan and stopped.
`lookup` is the call that gets the plan for each of them, if there is one. -/
def withStatus (lookup : Prog Workload Exc Unit) (running : Bool) :
    List String → Prog Workload Exc (List String)
  | [] => pure []
  | service :: services => do
    lookup
    let w ← Prog.get
    if (w.pebble.plan service).isSome then
      pebbleQuery env .getService
      let rest ← withStatus lookup running services
      pure (if w.pebble.isRunning service = running then service :: rest else rest)
    else withStatus lookup running services

/-- Start or stop a check. -/
def setCheck (call : PebbleCall) (check : String) (active : Bool) : Prog Workload Exc Unit := do
  pebbleQuery env call
  Prog.modify fun w => w.setPebble (w.pebble.setCheck check active)

/-- `_reconcile_checks` for one check of the plan. -/
def reconcileCheck (active : Bool) (check : String) : Prog Workload Exc Unit := do
  let w ← Prog.get
  match w.pebble.checks check with
  | none => pure ()
  | some running =>
    pebbleQuery env .getCheck
    if active && !running then setCheck env .startChecks check true
    else if !active && running then setCheck env .stopChecks check false

/-- `_reconcile_checks` -/
def reconcileChecks (active : Bool) : Prog Workload Exc Unit := do
  pebbleQuery env .getPlan
  mediawikiChecks.forM (reconcileCheck env active)

/-! ### Reconciliation -/

/-- `services_to_run` of `_reconcile_services` -/
def servicesToRun (workloadActive runJobWorkers : Bool) : List String :=
  if !workloadActive then []
  else if runJobWorkers then allConditionalServices
  else [serviceName, phpFpmServiceName]

/-- `_finish_active_service_reconciliation` -/
def finishActiveServiceReconciliation (previouslyRunning : List String) :
    Prog Workload Exc Unit := do
  let pending ← pendingServiceRestarts env
  let pending := previouslyRunning.filter pending.contains
  (if pending ≠ [] then restart env pending else pure () : Prog Workload Exc Unit)
  clearServiceRestart env
  reconcileChecks env true

/-- What `_reconcile_services` has found when it makes its first call to stop or start
services by name. -/
structure Survey where
  previouslyRunning : List String
  runningToStop : List String
  stoppedToStart : List String

/-- The part of `_reconcile_services` that brings the layer into the plan. -/
def planServices (inputs : LayerInputs) (workloadActive : Bool) : Prog Workload Exc Unit := do
  if !(← askFlag env .canConnect) then throw (.waiting "Waiting for pebble")
  else
    doStep env .loadCharmConfig
    let inputs := if workloadActive then inputs else inputs.withoutTunnel
    addLayer env inputs.pebbleLayer
    replan env

/-- The part of `_reconcile_services` that looks at the services. -/
def surveyServices (workloadActive runJobWorkers : Bool) : Prog Workload Exc Survey := do
  let previouslyRunning ←
    withStatus env (pebbleQuery env .getPlan) true allConditionalServices
  (if workloadActive then pure () else reconcileChecks env false : Prog Workload Exc Unit)
  let toRun := servicesToRun workloadActive runJobWorkers
  let toStop := allConditionalServices.filter fun s => !toRun.contains s
  pebbleQuery env .getPlan
  let runningToStop ← withStatus env (pure ()) true toStop
  let stoppedToStart ← withStatus env (pure ()) false toRun
  pure ⟨previouslyRunning, runningToStop, stoppedToStart⟩

/-- The part of `_reconcile_services` that stops and starts services by name. -/
def applyServices (workloadActive runJobWorkers : Bool) (survey : Survey) :
    Prog Workload Exc Unit := do
  (if survey.runningToStop ≠ [] then stop env survey.runningToStop else pure () :
    Prog Workload Exc Unit)
  (if survey.stoppedToStart ≠ [] then start env survey.stoppedToStart else pure () :
    Prog Workload Exc Unit)
  if workloadActive then
    finishActiveServiceReconciliation env
      ((servicesToRun workloadActive runJobWorkers).filter survey.previouslyRunning.contains)

/-- `_reconcile_services` -/
def reconcileServices (inputs : LayerInputs) (workloadActive runJobWorkers : Bool) :
    Prog Workload Exc Unit := do
  planServices env inputs workloadActive
  let survey ← surveyServices env workloadActive runJobWorkers
  applyServices env workloadActive runJobWorkers survey

/-- `_stop_job_workers` -/
def stopJobWorkers : Prog Workload Exc Unit := do
  pebbleQuery env .getPlan
  jobServices.forM fun service => do
    let w ← Prog.get
    if (w.pebble.plan service).isSome then
      pebbleQuery env .getService
      if w.pebble.isRunning service then stop env [service]

/-! ### The text of the marker -/

lemma splitFrom_universalNewlines (word s : List Char) :
    splitFrom word (universalNewlines s) = splitFrom word s := by
  have hcr : isSpace (ofChar '\r') = true := by decide
  have hlf : isSpace (ofChar '\n') = true := by decide
  fun_induction universalNewlines s generalizing word with
  | case1 s ih =>
    -- the second character of a line ending ends no word
    simp only [splitFrom, hcr, hlf, if_true, ih]
  | case2 s hne ih => simp only [splitFrom, hcr, hlf, if_true, ih]
  | case3 c s h₁ h₂ ih => simp only [splitFrom, ih]
  | case4 => rfl

/-- The line endings do not matter for the words of a text. -/
lemma split_readAs (text : String) : split (readAs text) = split text := by
  rw [split, toList_readAs, splitFrom_universalNewlines, split]

lemma splitFrom_append_cons {c : Char} (hc : isSpace (ofChar c) = true) (word a b : List Char) :
    splitFrom word (a ++ c :: b) = splitFrom word (a ++ [c]) ++ splitFrom [] b := by
  induction a generalizing word with
  | nil =>
    by_cases hw : word = []
    · simp [splitFrom, hc, hw]
    · simp [splitFrom, hc, hw]
  | cons d a ih =>
    simp only [List.cons_append, splitFrom, ih]
    split
    · split <;> rfl
    · rfl

/-- A name that `split` keeps whole. -/
def Word (service : String) : Prop :=
  service.toList ≠ [] ∧ ∀ c ∈ service.toList, isSpace (ofChar c) = false

lemma splitFrom_word (word s : List Char) (hs : ∀ c ∈ s, isSpace (ofChar c) = false)
    (hne : word ≠ [] ∨ s ≠ []) : splitFrom word (s ++ ['\n']) = [word.reverse ++ s] := by
  induction s generalizing word with
  | nil =>
    have hw : word ≠ [] := hne.resolve_right fun h => h rfl
    simp [splitFrom, hw, show isSpace (ofChar '\n') = true by decide]
  | cons c s ih =>
    have hc : isSpace (ofChar c) = false := hs c List.mem_cons_self
    have hcs := ih (c :: word) (fun d hd => hs d (List.mem_cons_of_mem _ hd)) (.inl (by simp))
    simpa [splitFrom, hc] using hcs

/-- Every name without a space is read back from the marker. -/
lemma mem_split_markerText {service : String} {services : List String} (hw : Word service)
    (h : service ∈ services) : service ∈ split (markerText services) := by
  have hlf : isSpace (ofChar '\n') = true := by decide
  have hmem : service.toList ∈
      splitFrom [] (services.flatMap fun service => service.toList ++ ['\n']) := by
    induction services with
    | nil => cases h
    | cons s services ih =>
      rw [List.flatMap_cons, List.append_assoc, List.singleton_append, splitFrom_append_cons hlf,
        List.mem_append]
      rcases List.mem_cons.1 h with rfl | h
      · refine .inl ?_
        rw [splitFrom_word [] _ hw.2 (.inr hw.1)]
        simp
      · exact .inr (ih h)
  rw [split, markerText, String.toList_ofList]
  exact List.mem_map.2 ⟨_, hmem, String.ofList_toList⟩

/-- The services that the marker names. -/
def pendingIn (w : Workload) : List String :=
  match w.files .restartRequired with
  | some (.text t) => split t
  | _ => []

lemma pendingIn_congr {w w' : Workload} (h : w'.files = w.files) : pendingIn w' = pendingIn w := by
  rw [pendingIn, h, pendingIn]

variable {env} {w : Workload}

lemma pendingServiceRestarts_spec :
    (pendingServiceRestarts env).wp (fun l w' => Ticked w w' ∧ l = pendingIn w)
      (fun _ w' => Ticked w w') w := by
  refine Prog.wp_bind.2 (wp_pathExists (fun w₁ ht₁ => ?_) fun _ _ ht _ => ht)
  refine Prog.wp_ite.2 ⟨fun hnone => ?_, fun hsome => ?_⟩
  · have hfile : w.files .restartRequired = none := by simpa using hnone
    exact Prog.wp_pure.2 ⟨ht₁, by rw [pendingIn, hfile]⟩
  · obtain ⟨n, rfl⟩ := ht₁
    refine Prog.wp_bind.2 (wp_readText (fun t w₂ ht₂ hfile => ?_) fun _ _ ht _ =>
      Ticked.trans ⟨n, rfl⟩ ht)
    have hfile : w.files .restartRequired = some (.text t) := hfile
    refine Prog.wp_pure.2 ⟨Ticked.trans ⟨n, rfl⟩ ht₂, ?_⟩
    rw [split_readAs, pendingIn, hfile]

/-- A request keeps what the marker names, and adds its services before it is noted. -/
lemma requestServiceRestart_spec (services : List String) :
    (requestServiceRestart env services).wp
      (fun _ w' => w'.pebble = w.pebble.owe services ∧ ∀ s, Word s →
        s ∈ pendingIn w ∨ s ∈ services → s ∈ pendingIn w')
      (fun _ w' => w'.files = w.files ∧ w'.pebble = w.pebble) w := by
  refine Prog.wp_bind.2 (Prog.wp_mono pendingServiceRestarts_spec ?_ ?_)
  · rintro pending w₁ ⟨⟨n₁, rfl⟩, rfl⟩
    refine Prog.wp_bind.2 (Prog.wp_ite.2 ⟨fun hall => ?_, fun _ => ?_⟩)
    · refine Prog.wp_pure.2 (Prog.wp_modify.2 ⟨rfl, fun s _ hs => ?_⟩)
      have hmem : ∀ s ∈ services, s ∈ pendingIn w := by simpa using hall
      exact hs.elim id (hmem s)
    · refine Prog.wp_bind.2 (wp_doStep (fun w₂ ht₂ => ?_) fun _ w' ht _ => ?_)
      · obtain ⟨n₂, rfl⟩ := ht₂
        refine wp_writeText (fun w₃ ht₃ => ?_) fun _ w' ht _ => ?_
        · obtain ⟨n₃, rfl⟩ := ht₃
          refine Prog.wp_modify.2 ⟨rfl, fun s hw hs => ?_⟩
          have hfile : pendingIn (w.setFile .restartRequired (some (.text (markerText
              ((pendingIn w ++ services).dedup.insertionSort (· ≤ ·)))))) =
                split (markerText
                  ((pendingIn w ++ services).dedup.insertionSort (· ≤ ·))) := by
            rw [pendingIn, setFile_files_self]
          refine hfile.symm ▸ mem_split_markerText hw ?_
          simpa using hs
        · obtain ⟨n₃, rfl⟩ := ht
          exact ⟨rfl, rfl⟩
      · obtain ⟨n₂, rfl⟩ := ht
        exact ⟨rfl, rfl⟩
  · rintro _ w' ⟨n, rfl⟩
    exact ⟨rfl, rfl⟩

/-! ### What the calls do -/

/-- The files are the same, no service owes a restart while it runs that did not do so
before, and only services that are `starting` were started. -/
structure NoWorse (starting : String → Prop) (w w' : Workload) : Prop where
  files : w'.files = w.files
  calmer : Pebble.Calmer w.pebble w'.pebble
  stopped : ∀ s, ¬ starting s → w.pebble.isRunning s = false → w'.pebble.isRunning s = false

lemma NoWorse.trans {starting : String → Prop} {w w' w'' : Workload} (h : NoWorse starting w w')
    (h' : NoWorse starting w' w'') : NoWorse starting w w'' where
  files := h'.files.trans h.files
  calmer := h.calmer.trans h'.calmer
  stopped s hs hrun := h'.stopped s hs (h.stopped s hs hrun)

lemma NoWorse.of_ticked {starting : String → Prop} {w w' : Workload} (h : Ticked w w') :
    NoWorse starting w w' := by
  obtain ⟨n, rfl⟩ := h
  exact ⟨rfl, Pebble.Calmer.refl _, fun _ _ hrun => hrun⟩

/-- A call that raises starts only services it was to start. -/
lemma NoWorse.of_touch {starting : String → Prop} {w w' : Workload} {p : Pebble}
    {effect : String → Effect} (ht : Ticked (w.setPebble (p.touch effect)) w')
    (hcalm : Pebble.Calmer w.pebble p)
    (hstop : ∀ s, ¬ starting s → w.pebble.isRunning s = false →
      p.isRunning s = false ∧ effect s ≠ .started) : NoWorse starting w w' := by
  obtain ⟨n, rfl⟩ := ht
  refine ⟨rfl, hcalm.trans (Pebble.calmer_touch effect p), fun s hs hrun => ?_⟩
  obtain ⟨hrun', heffect⟩ := hstop s hs hrun
  cases he : effect s with
  | untouched => exact (Pebble.isRunning_touch_of_untouched he).trans hrun'
  | stopped => exact Pebble.isRunning_touch_of_stopped he
  | started => exact absurd he heffect

/-- What a call makes of the services: the plan and the files stay, and which services run
and which owe a restart is given. -/
structure Becomes (running owed : String → Bool) (w w' : Workload) : Prop where
  files : w'.files = w.files
  plan : w'.pebble.plan = w.pebble.plan
  running : ∀ s, w'.pebble.isRunning s = running s
  owed : ∀ s, w'.pebble.owed s = owed s

lemma partialEffect_ne_started {intended effect : String → Effect} {s : String}
    (h : intended s = .untouched) : Pebble.partialEffect intended effect s ≠ .started := by
  rw [Pebble.partialEffect_of_untouched h]
  decide

/-- `stop(*services)` unless there is nothing to stop. -/
lemma stop_spec (services : List String) :
    (if services ≠ [] then stop env services else pure () : Prog Workload Exc Unit).wp
      (fun _ w' => Becomes (fun s => w.pebble.isRunning s && !services.contains s)
        w.pebble.owed w w')
      (fun _ w' => (∃ n, env.pebble .stop n ≠ none) ∧ NoWorse (fun s => s ∈ services) w w') w := by
  refine Prog.wp_ite.2 ⟨fun _ => ?_, fun hnil => ?_⟩
  · refine Prog.wp_bind.2 (Prog.wp_modify.2 (wp_pebbleCall (fun w' ht => ?_)
      fun e w' effect hfail ht => ⟨⟨_, hfail⟩, ?_⟩))
    · obtain ⟨n, rfl⟩ := ht
      exact ⟨rfl, rfl, fun s => Pebble.isRunning_stop, fun s => Pebble.owed_stop⟩
    · refine NoWorse.of_touch ht (Pebble.Calmer.refl _) fun s hs hrun => ⟨hrun, ?_⟩
      exact partialEffect_ne_started (by simp [Pebble.stopEffect, hs])
  · obtain rfl : services = [] := not_not.1 hnil
    exact Prog.wp_pure.2 ⟨rfl, rfl, fun s => by simp, fun s => rfl⟩

/-- `start(*services)` unless there is nothing to start. -/
lemma start_spec (services : List String)
    (hplan : ∀ s ∈ services, (w.pebble.plan s).isSome = true) :
    (if services ≠ [] then start env services else pure () : Prog Workload Exc Unit).wp
      (fun _ w' => Becomes (fun s => w.pebble.isRunning s || services.contains s)
        (fun s => w.pebble.owed s && !(services.contains s && !w.pebble.isRunning s)) w w')
      (fun _ w' => NoWorse (fun s => s ∈ services) w w') w := by
  refine Prog.wp_ite.2 ⟨fun _ => ?_, fun hnil => ?_⟩
  · refine Prog.wp_bind.2 (Prog.wp_modify.2 (wp_pebbleCall (fun w' ht => ?_)
      fun e w' effect _ ht => ?_))
    · obtain ⟨n, rfl⟩ := ht
      exact ⟨rfl, rfl, fun s => Pebble.isRunning_start (hplan s), fun s => Pebble.owed_start⟩
    · refine NoWorse.of_touch ht (Pebble.Calmer.refl _) fun s hs hrun => ⟨hrun, ?_⟩
      exact partialEffect_ne_started (by simp [Pebble.startEffect, hs])
  · obtain rfl : services = [] := not_not.1 hnil
    exact Prog.wp_pure.2 ⟨rfl, rfl, fun s => by simp, fun s => by simp⟩

/-- `restart(*services)` unless there is nothing to restart. -/
lemma restart_spec (services : List String)
    (hplan : ∀ s ∈ services, (w.pebble.plan s).isSome = true) :
    (if services ≠ [] then restart env services else pure () : Prog Workload Exc Unit).wp
      (fun _ w' => Becomes (fun s => w.pebble.isRunning s || services.contains s)
        (fun s => w.pebble.owed s && !services.contains s) w w')
      (fun _ w' => NoWorse (fun s => s ∈ services) w w') w := by
  refine Prog.wp_ite.2 ⟨fun _ => ?_, fun hnil => ?_⟩
  · refine Prog.wp_bind.2 (Prog.wp_modify.2 (wp_pebbleCall (fun w' ht => ?_)
      fun e w' effect _ ht => ?_))
    · obtain ⟨n, rfl⟩ := ht
      exact ⟨rfl, rfl, fun s => Pebble.isRunning_restart (hplan s), fun s => Pebble.owed_restart⟩
    · refine NoWorse.of_touch ht (Pebble.Calmer.refl _) fun s hs hrun => ⟨hrun, ?_⟩
      exact partialEffect_ne_started (by simp [Pebble.restartEffect, hs])
  · obtain rfl : services = [] := not_not.1 hnil
    exact Prog.wp_pure.2 ⟨rfl, rfl, fun s => by simp, fun s => by simp⟩

/-- The services of the list in the plan with the given status. -/
lemma withStatus_spec {lookup : Prog Workload Exc Unit}
    (hlookup : ∀ w, lookup.wp (fun _ w' => Ticked w w') (fun _ w' => Ticked w w') w)
    (running : Bool) (services : List String) (w : Workload) :
    (withStatus env lookup running services).wp
      (fun l w' => Ticked w w' ∧ l = services.filter fun s =>
        (w.pebble.plan s).isSome && w.pebble.isRunning s == running)
      (fun _ w' => Ticked w w') w := by
  induction services generalizing w with
  | nil => exact ⟨Ticked.refl w, rfl⟩
  | cons s services ih =>
    refine Prog.wp_bind.2 (Prog.wp_mono (hlookup w) ?_ fun _ _ h => h)
    rintro _ w₁ ⟨n₁, rfl⟩
    refine Prog.wp_bind.2 (Prog.wp_get.2 (Prog.wp_ite.2 ⟨fun hplan => ?_, fun hplan => ?_⟩))
    · refine Prog.wp_bind.2 (wp_pebbleQuery (fun w₂ ht₂ => ?_) fun _ w' ht _ =>
        Ticked.trans ⟨n₁, rfl⟩ ht)
      obtain ⟨n₂, rfl⟩ := ht₂
      refine Prog.wp_bind.2 (Prog.wp_mono (ih _) ?_ fun _ _ h => Ticked.trans ⟨n₂, rfl⟩ h)
      rintro rest w₃ ⟨ht₃, rfl⟩
      refine Prog.wp_pure.2 ⟨Ticked.trans ⟨n₂, rfl⟩ ht₃, ?_⟩
      have hplan : (w.pebble.plan s).isSome = true := hplan
      simp [hplan, List.filter_cons]
    · refine Prog.wp_mono (ih _) ?_ fun _ _ h => Ticked.trans ⟨n₁, rfl⟩ h
      rintro rest w₃ ⟨ht₃, rfl⟩
      refine ⟨Ticked.trans ⟨n₁, rfl⟩ ht₃, ?_⟩
      have hplan : ¬ (w.pebble.plan s).isSome = true := hplan
      simp [hplan]

/-- The states differ at most in the clock and in the checks. -/
def Checked (w w' : Workload) : Prop :=
  ∃ n checks, w' = { w with clock := n, pebble := { w.pebble with checks := checks } }

lemma Checked.refl (w : Workload) : Checked w w := ⟨w.clock, w.pebble.checks, rfl⟩

lemma Checked.trans {w w' w'' : Workload} (h : Checked w w') (h' : Checked w' w'') :
    Checked w w'' := by
  obtain ⟨n, c, rfl⟩ := h
  obtain ⟨n', c', rfl⟩ := h'
  exact ⟨n', c', rfl⟩

lemma Checked.of_ticked {w w' : Workload} (h : Ticked w w') : Checked w w' := by
  obtain ⟨n, rfl⟩ := h
  exact ⟨n, w.pebble.checks, rfl⟩

lemma Checked.noWorse {w w' : Workload} (h : Checked w w') (starting : String → Prop) :
    NoWorse starting w w' := by
  obtain ⟨n, c, rfl⟩ := h
  exact ⟨rfl, fun _ ho hr => ⟨ho, hr⟩, fun _ _ hrun => hrun⟩

lemma setCheck_spec (call : PebbleCall) (check : String) (active : Bool) :
    (setCheck env call check active).wp (fun _ w' => Checked w w') (fun _ w' => Checked w w') w := by
  refine Prog.wp_bind.2 (wp_pebbleQuery (fun w' ht => ?_) fun _ _ ht _ => .of_ticked ht)
  obtain ⟨n, rfl⟩ := ht
  exact Prog.wp_modify.2 ⟨n, _, rfl⟩

lemma reconcileCheck_spec (active : Bool) (check : String) :
    (reconcileCheck env active check).wp (fun _ w' => Checked w w') (fun _ w' => Checked w w') w := by
  refine Prog.wp_bind.2 (Prog.wp_get.2 ?_)
  split
  · exact Prog.wp_pure.2 (.refl w)
  · refine Prog.wp_bind.2 (wp_pebbleQuery (fun w₁ ht => ?_) fun _ _ ht _ => .of_ticked ht)
    have hset : ∀ call active, (setCheck env call check active).wp (fun _ w' => Checked w w')
        (fun _ w' => Checked w w') w₁ := fun call active =>
      Prog.wp_mono (setCheck_spec call check active) (fun _ _ h => Checked.trans (.of_ticked ht) h)
        fun _ _ h => Checked.trans (.of_ticked ht) h
    refine Prog.wp_ite.2 ⟨fun _ => hset _ _, fun _ => Prog.wp_ite.2 ⟨fun _ => hset _ _, fun _ => ?_⟩⟩
    exact Prog.wp_pure.2 (.of_ticked ht)

/-- The checks are reconciled without an effect on the services. -/
lemma reconcileChecks_spec (active : Bool) :
    (reconcileChecks env active).wp (fun _ w' => Checked w w') (fun _ w' => Checked w w') w := by
  have hall : ∀ (checks : List String) (w : Workload), (checks.forM (reconcileCheck env active)).wp
      (fun _ w' => Checked w w') (fun _ w' => Checked w w') w := by
    intro checks
    induction checks with
    | nil => exact fun w => Checked.refl w
    | cons check checks ih =>
      intro w
      refine Prog.wp_bind.2 (Prog.wp_mono (reconcileCheck_spec active check) ?_ fun _ _ h => h)
      exact fun _ w₁ h₁ => Prog.wp_mono (ih w₁) (fun _ _ h => h₁.trans h) fun _ _ h => h₁.trans h
  refine Prog.wp_bind.2 (wp_pebbleQuery (fun w₁ ht => ?_) fun _ _ ht _ => .of_ticked ht)
  exact Prog.wp_mono (hall _ w₁) (fun _ _ h => Checked.trans (.of_ticked ht) h)
    fun _ _ h => Checked.trans (.of_ticked ht) h

/-! ### What the calls may change -/

section Within

variable {parts : List Part}

lemma within_stop (services : List String) : Prog.Within (Changes parts) (stop env services) :=
  .bind (.modify fun w => changes_setPebble _ w) fun _ => within_pebbleCall _ _ _

lemma within_stopJobWorkers : Prog.Within (Changes parts) (stopJobWorkers env) := by
  refine .bind (within_pebbleQuery _) fun _ => .forM (fun service => .bind .get fun w => ?_) _
  exact .ite (.bind (within_pebbleQuery _) fun _ => .ite (within_stop _) (.pure _)) (.pure _)

lemma within_planServices (inputs : LayerInputs) (active : Bool) :
    Prog.Within (Changes parts) (planServices env inputs active) :=
  .bind (within_askFlag _) fun _ => .ite (.throw _) (.bind (within_doStep _) fun _ =>
    .bind (within_pebbleCall _ _ _) fun _ =>
    .bind (.modify fun w => changes_setPebble _ w) fun _ => within_pebbleCall _ _ _)

lemma within_withStatus {lookup : Prog Workload Exc Unit}
    (hlookup : Prog.Within (Changes parts) lookup) (running : Bool) :
    ∀ services, Prog.Within (Changes parts) (withStatus env lookup running services)
  | [] => .pure _
  | _ :: services => .bind hlookup fun _ => .bind .get fun _ =>
      .ite (.bind (within_pebbleQuery _) fun _ =>
        .bind (within_withStatus hlookup running services) fun _ => .pure _)
        (within_withStatus hlookup running services)

lemma within_reconcileChecks (active : Bool) :
    Prog.Within (Changes parts) (reconcileChecks env active) := by
  have hset : ∀ call check active, Prog.Within (Changes parts) (setCheck env call check active) :=
    fun _ _ _ => .bind (within_pebbleQuery _) fun _ => .modify fun w => changes_setPebble _ w
  refine .bind (within_pebbleQuery _) fun _ => .forM (fun check => .bind .get fun w => ?_) _
  split
  · exact .pure _
  · exact .bind (within_pebbleQuery _) fun _ => .ite (hset _ _ _) (.ite (hset _ _ _) (.pure _))

lemma within_surveyServices (active workers : Bool) :
    Prog.Within (Changes parts) (surveyServices env active workers) :=
  .bind (within_withStatus (within_pebbleQuery _) _ _) fun _ =>
    .bind (.ite (.pure _) (within_reconcileChecks _)) fun _ => .bind (within_pebbleQuery _) fun _ =>
    .bind (within_withStatus (.pure _) _ _) fun _ => .bind (within_withStatus (.pure _) _ _) fun _ =>
    .pure _

lemma within_applyServices (hp : .file .restartRequired ∈ parts) (active workers : Bool)
    (survey : Survey) : Prog.Within (Changes parts) (applyServices env active workers survey) := by
  have hcall : ∀ (issued : Issued) call intended change, Prog.Within (Changes parts) (do
      Prog.modify fun w => w.setPebble (w.pebble.issue issued)
      pebbleCall env call intended change : Prog Workload Exc Unit) := fun _ _ _ _ =>
    .bind (.modify fun w => changes_setPebble _ w) fun _ => within_pebbleCall _ _ _
  have hpending : Prog.Within (Changes parts) (pendingServiceRestarts env) :=
    .bind (within_pathExists _) fun _ => .ite (.pure _) (.bind (within_readText _) fun _ => .pure _)
  refine .bind (.ite (hcall _ _ _ _) (.pure _)) fun _ => .bind (.ite (hcall _ _ _ _) (.pure _))
    fun _ => .ite (.bind hpending fun _ => .bind (.ite (hcall _ _ _ _) (.pure _)) fun _ => ?_)
      (.pure _)
  exact .bind (within_unlink hp) fun _ => within_reconcileChecks _

lemma within_reconcileServices (hp : .file .restartRequired ∈ parts) (inputs : LayerInputs)
    (active workers : Bool) :
    Prog.Within (Changes parts) (reconcileServices env inputs active workers) :=
  .bind (within_planServices _ _) fun _ => .bind (within_surveyServices _ _) fun _ =>
    within_applyServices hp _ _ _

end Within

end Services
end MediawikiCharm
