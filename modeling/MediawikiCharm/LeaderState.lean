/-
What a unit that is not the leader does with the state of the leader.

The leader publishes a fingerprint of its Composer configuration and its local settings.
A unit compares the fingerprint with its own.  Where they differ it waits, unless its
container is empty, the mode is normal and the wiki is installed: then it resolves the
dependencies on its own, once, and never again after `composer.user.json` or
`LocalSettings.php` was written.
-/
import MediawikiCharm.Cycles

namespace MediawikiCharm
namespace LeaderState

open Json Workload Services Settings Composer Peers MediawikiCharm.Core

variable {F : Type} [FiniteFloat F] {env : Env} {charm : Charm F} {parts : List Part}
  {w w' : Workload}

/-! ### The fingerprint -/

/-- With a hash function without collisions the fingerprints of two configurations are equal
exactly when the inputs are, up to the order of keys, and a unit that reads the fingerprint of
the leader finds it stale exactly when its inputs are others. -/
theorem stateHash_agrees {hash : String → String} (hinj : Function.Injective hash) :
    (∀ c c' : CharmConfig F, c.stateHash hash = c'.stateHash hash ↔ CharmConfig.SameInputs c c') ∧
    ∀ (leader replica : Charm F) (peerState : PeerState), leader.hash = hash →
      replica.hash = hash → peerState.leaderStateHash = some (leader.config.stateHash leader.hash) →
      (leaderStateStale replica peerState = false ↔
        CharmConfig.SameInputs leader.config replica.config) := by
  refine ⟨fun c c' => CharmConfig.stateHash_eq_iff hinj, ?_⟩
  intro leader replica peerState hleader hreplica hread
  rw [leaderStateStale, hread, hleader, hreplica, decide_eq_false_iff_not, not_not,
    Option.some.injEq, CharmConfig.stateHash_eq_iff hinj]

/-- `{"require": 1, "extra": 2}` -/
def composerOne : ComposerJson Empty :=
  ⟨[(PyText.lit "require", .int 1), (PyText.lit "extra", .int 2)], by decide⟩

/-- `{"extra": 2, "require": 1}` -/
def composerTwo : ComposerJson Empty :=
  ⟨[(PyText.lit "extra", .int 2), (PyText.lit "require", .int 1)], by decide⟩

/-- The order of the keys does not matter. -/
theorem stateHash_agrees_reordered :
    ({ composer := composerOne } : CharmConfig Empty).stateHash id =
      ({ composer := composerTwo } : CharmConfig Empty).stateHash id := by
  refine ((stateHash_agrees Function.injective_id).1 _ _).2 ⟨?_, rfl⟩
  simp [ComposerJson.json, composerOne, composerTwo, SameUpToOrder, SameMembers]

/-! ### The gate -/

/-- A reason why the unit may not recover without the state of the leader: the mode, a file,
a running service, or a wiki that is not installed. -/
def CannotRecover (env : Env) (mode : OperationMode) (w : Workload) : Prop :=
  mode ≠ .normal ∨ w.files .localSettings ≠ none ∨ w.files .userComposer ≠ none ∨
    w.pebble.isRunning serviceName = true ∨ w.pebble.isRunning phpFpmServiceName = true ∨
    ∀ n, env.flag .isDatabaseInitialized n ≠ .ok true

/-- The services that run, with the configuration they were started with. -/
def running (w : Workload) : String → Option ServiceConfig := w.pebble.running

lemma frame_ask {α : Type} (answer : ℕ → Except Exc α) : Prog.Frame running (ask answer) :=
  fun _ => rfl

lemma frame_readText (path : Path) : Prog.Frame running (readText env path) := by
  refine .bind (frame_ask _) fun _ => .bind .get fun w => ?_
  split
  · exact .pure _
  · exact .throw _
  · exact .throw _

lemma frame_requestServiceRestart (services : List String) :
    Prog.Frame running (requestServiceRestart env services) := by
  have hexists : Prog.Frame running (pathExists env .restartRequired) :=
    .bind (frame_ask _) fun _ => .bind .get fun _ => .pure _
  refine .bind (.bind hexists fun _ => .ite (.pure _) (.bind (frame_readText _) fun _ => .pure _))
    fun _ => .bind (.ite (.pure _) ?_) fun _ => .modify fun _ => rfl
  exact .bind (frame_ask _) fun _ => .bind (frame_ask _) fun _ => .modify fun _ => rfl

lemma frame_prepareConfiguration : Prog.Frame running (prepareConfiguration env) := by
  have hrequest : ∀ (changed : Bool) services, Prog.Frame running
      (if changed then requestServiceRestart env services else pure () : Prog Workload Exc Unit) :=
    fun changed services => .ite (frame_requestServiceRestart _) (.pure _)
  exact .bind (frame_ask _) fun _ => .ite (.throw _) (.bind (frame_ask _) fun _ =>
    .bind (frame_ask _) fun _ => .bind (hrequest _ _) fun _ => .bind (frame_ask _) fun _ =>
    .bind (hrequest _ _) fun _ => .bind (frame_ask _) fun _ => .bind (frame_ask _) fun _ =>
    .bind (frame_ask _) fun _ => frame_ask _)

lemma CannotRecover.changes {mode : OperationMode} (h : CannotRecover env mode w)
    (hw : Changes [.file .restartRequired] w w') (hrun : running w' = running w) :
    CannotRecover env mode w' := by
  have hlocal : w'.files .localSettings = w.files .localSettings :=
    hw (.file .localSettings) (by decide)
  have huser : w'.files .userComposer = w.files .userComposer :=
    hw (.file .userComposer) (by decide)
  have hservice : ∀ s, w'.pebble.isRunning s = w.pebble.isRunning s := fun s =>
    congrArg Option.isSome (congrFun hrun s)
  rw [CannotRecover, hlocal, huser, hservice, hservice]
  exact h

/-- Where none of the services is found running, none runs. -/
lemma anyRunning_spec : ∀ (services : List String) (w : Workload), (anyRunning env services).wp
    (fun b w' => Ticked w w' ∧ ∀ s ∈ services, w.pebble.isRunning s = true → b = true)
    (fun _ _ => True) w
  | [], w => Prog.wp_pure.2 ⟨Ticked.refl w, fun _ h => nomatch h⟩
  | service :: services, w => by
    refine Prog.wp_bind.2 (Prog.wp_get.2 (Prog.wp_ite.2 ⟨fun _ => ?_, fun hplan => ?_⟩))
    · refine Prog.wp_bind.2 (wp_pebbleQuery (fun w₁ ht => ?_) fun _ _ _ _ => trivial)
      refine Prog.wp_ite.2 ⟨fun _ => Prog.wp_pure.2 ⟨ht, fun _ _ _ => rfl⟩, fun hno => ?_⟩
      obtain ⟨n, rfl⟩ := ht
      refine Prog.wp_mono (anyRunning_spec services _) ?_ fun _ _ h => h
      rintro b w₂ ⟨ht, h⟩
      exact ⟨Ticked.trans ⟨n, rfl⟩ ht, List.forall_mem_cons.2 ⟨fun hrun => absurd hrun hno, h⟩⟩
    · refine Prog.wp_mono (anyRunning_spec services _) ?_ fun _ _ h => h
      rintro b w₂ ⟨ht, h⟩
      refine ⟨ht, List.forall_mem_cons.2 ⟨fun hrun => ?_, h⟩⟩
      exact absurd (w.pebble.planned service hrun) hplan

/-- A unit with a reason against it does not recover. -/
lemma canRecoverWithoutLeaderState_spec {mode : OperationMode} (h : CannotRecover env mode w) :
    (canRecoverWithoutLeaderState env mode).wp (fun b _ => b = false) (fun _ _ => True) w := by
  refine Prog.wp_ite.2 ⟨fun _ => rfl, fun hmode => ?_⟩
  refine Prog.wp_bind.2 (wp_pathExists (fun w₁ ht₁ => ?_) fun _ _ _ _ => trivial)
  refine Prog.wp_ite.2 ⟨fun _ => rfl, fun hlocal => ?_⟩
  obtain ⟨n₁, rfl⟩ := ht₁
  refine Prog.wp_bind.2 (wp_pathExists (fun w₂ ht₂ => ?_) fun _ _ _ _ => trivial)
  refine Prog.wp_ite.2 ⟨fun _ => rfl, fun huser => ?_⟩
  obtain ⟨n₂, rfl⟩ := ht₂
  refine Prog.wp_bind.2 (wp_pebbleQuery (fun w₃ ht₃ => ?_) fun _ _ _ _ => trivial)
  obtain ⟨n₃, rfl⟩ := ht₃
  refine Prog.wp_bind.2 (Prog.wp_mono (anyRunning_spec _ _) ?_ fun _ _ _ => trivial)
  rintro running w₄ ⟨-, hrunning⟩
  refine Prog.wp_ite.2 ⟨fun _ => rfl, fun hnot => ?_⟩
  -- what is left is the database, after the paths and the services
  have hinit : ∀ n, env.flag .isDatabaseInitialized n ≠ .ok true := by
    rcases h with h | h | h | h | h | h
    · exact absurd h hmode
    · exact absurd (Option.isSome_iff_ne_none.2 h) hlocal
    · exact absurd (Option.isSome_iff_ne_none.2 h) huser
    · exact absurd (hrunning serviceName (by decide) h) hnot
    · exact absurd (hrunning phpFpmServiceName (by decide) h) hnot
    · exact h
  refine wp_ask (fun b _ _ hb => ?_) fun _ _ _ _ => trivial
  cases b with
  | false => rfl
  | true => exact absurd hb (hinit _)

/-! ### A call that is refused -/

/-- The message of the gate. -/
def waitingForLeader : Exc := .waiting "Waiting for leader to reconcile Composer and local settings"

/-- `_reconcile_configuration` of a unit that waits for the leader. -/
def awaitLeader (env : Env) (mode : OperationMode) : Prog Workload Exc Unit := do
  prepareConfiguration env
  let _ ← canRecoverWithoutLeaderState env mode
  throw waitingForLeader

/-- A unit that may not recover raises what `awaitLeader` raises, in the same state. -/
lemma reconcileComposer_awaits {peerState : PeerState} (force : Bool)
    (hleader : charm.isLeader = false) (hstale : leaderStateStale charm peerState = true)
    (h : CannotRecover env peerState.operationMode w) :
    ∃ e w', awaitLeader env peerState.operationMode w = (.error e, w') ∧
      reconcileComposer env charm peerState force w = (.error e, w') := by
  have hbootstrap : (!charm.isLeader && leaderStateStale charm peerState) = true := by
    rw [hleader, hstale]
    rfl
  rcases hprepare : prepareConfiguration env w with ⟨e | _, w₁⟩
  · exact ⟨e, w₁, Prog.bind_run_error hprepare, Prog.bind_run_error hprepare⟩
  · have hkept := Prog.wp_of_ok (within_prepareConfiguration.wp w) hprepare
    have hrun := Prog.wp_of_ok (frame_prepareConfiguration.wp w) hprepare
    have hspec := canRecoverWithoutLeaderState_spec (h.changes hkept hrun)
    rw [awaitLeader, reconcileComposer, Prog.bind_run_ok hprepare, Prog.bind_run_ok hprepare,
      hbootstrap, if_pos rfl]
    rcases hrecover : canRecoverWithoutLeaderState env peerState.operationMode w₁ with ⟨e | b, w₂⟩
    · exact ⟨e, w₂, Prog.bind_run_error hrecover, Prog.bind_run_error hrecover⟩
    · obtain rfl := Prog.wp_of_ok hspec hrecover
      exact ⟨waitingForLeader, w₂, Prog.bind_run_ok hrecover, Prog.bind_run_ok hrecover⟩

/-- The surroundings with other answers of the scripts: of the maintenance scripts, of the
composer commands and of the schema update. -/
def withScripts (env : Env) (script : Script → ℕ → Except Exc ℤ) (composer : ℕ → ComposerResult)
    (update : ℕ → Option Exc) : Env :=
  { env with
    script := script
    composer := composer
    step := fun step => if step = .updateDatabaseSchema then update else env.step step }

/-- The call raises, has run no script, and has left the files, the histories and the peer
relation as they were, but for the marker of services to restart. -/
structure Refused (env : Env) (charm : Charm F) (peerState : PeerState) (force : Bool)
    (s : PeerWorld Workload) : Prop where
  raises : ∃ e, (reconcileConfiguration env charm peerState force s).1 = .error e
  /-- What a script would answer makes no difference. -/
  scripts : ∀ script composer update,
    reconcileConfiguration (withScripts env script composer update) charm peerState force s =
      reconcileConfiguration env charm peerState force s
  changes : Changes [.file .restartRequired] s.rest
    (reconcileConfiguration env charm peerState force s).2.rest
  relation : (reconcileConfiguration env charm peerState force s).2.relation = s.relation

/-- A refused call is the one of `awaitLeader`. -/
lemma reconcileConfiguration_awaits {peerState : PeerState} (force : Bool) {s : PeerWorld Workload}
    (hleader : charm.isLeader = false) (hstale : leaderStateStale charm peerState = true)
    (h : CannotRecover env peerState.operationMode s.rest) :
    ∃ e w', awaitLeader env peerState.operationMode s.rest = (.error e, w') ∧
      reconcileConfiguration env charm peerState force s = (.error e, { s with rest := w' }) := by
  obtain ⟨e, w', hawait, hcomposer⟩ := reconcileComposer_awaits
    (force || decide (peerState.operationMode = .forceReconciliation)) hleader hstale h
  refine ⟨e, w', hawait, Prog.bind_run_error ?_⟩
  rw [callback, Prog.zoom, hcomposer]

lemma within_awaitLeader (mode : OperationMode) :
    Prog.Within (Changes [.file .restartRequired]) (awaitLeader env mode) :=
  .bind within_prepareConfiguration fun _ => .bind (within_canRecoverWithoutLeaderState _) fun _ =>
    .throw _

/-- No script is run while a unit waits for the leader. -/
lemma awaitLeader_withScripts (script : Script → ℕ → Except Exc ℤ) (composer : ℕ → ComposerResult)
    (update : ℕ → Option Exc) (mode : OperationMode) :
    awaitLeader (withScripts env script composer update) mode = awaitLeader env mode := rfl

lemma refused_of_stale {peerState : PeerState} (force : Bool) {s : PeerWorld Workload}
    (hleader : charm.isLeader = false) (hstale : leaderStateStale charm peerState = true)
    (h : CannotRecover env peerState.operationMode s.rest) :
    Refused env charm peerState force s := by
  obtain ⟨e, w', hawait, hrun⟩ := reconcileConfiguration_awaits force hleader hstale h
  have hkept : Changes [.file .restartRequired] s.rest
      (awaitLeader env peerState.operationMode s.rest).2 := within_awaitLeader _ _
  rw [hawait] at hkept
  refine ⟨⟨e, congrArg Prod.fst hrun⟩, fun script composer update => ?_, ?_, ?_⟩
  · have h' : CannotRecover (withScripts env script composer update) peerState.operationMode
        s.rest := h
    obtain ⟨e', w₁, hawait', hrun'⟩ := reconcileConfiguration_awaits force hleader
      hstale h'
    rw [awaitLeader_withScripts, hawait] at hawait'
    cases hawait'
    rw [hrun', hrun]
  · rw [hrun]
    exact hkept
  · rw [hrun]

/-! ### Cycles of a unit that is not the leader -/

/-- What one call of `reconciliation` meets on a unit that is not the leader. -/
structure ReplicaCycle (F : Type) where
  env : Env
  charm : Charm F := {}
  peers : Option Relation := some ⟨[], {}, fun _ => {}⟩
  force : Bool := false
  notLeader : charm.isLeader = false := by rfl

/-- The container after the cycle. -/
def ReplicaCycle.next (c : ReplicaCycle F) (w : Workload) : Workload :=
  (reconciliation c.env c.charm c.force ⟨c.peers, w⟩).2.rest

variable (F) in
/-- A container over the cycles of its unit while that is not the leader. -/
def replica : Machine Workload (ReplicaCycle F) where
  init _ := True
  step w c w' := w' = c.next w

/-- `composer.user.json` or `LocalSettings.php` exists. -/
def Configured (w : Workload) : Prop :=
  w.files .userComposer ≠ none ∨ w.files .localSettings ≠ none

/-- No dependencies were resolved between the two states. -/
def NotResolved (w w' : Workload) : Prop :=
  ∃ runs : List ComposerRun, w'.composerRuns = runs ++ w.composerRuns ∧ ∀ r ∈ runs, r.update = false

/-- A configured container stays so, and its dependencies are not resolved again. -/
def Settled (w w' : Workload) : Prop := Configured w → Configured w' ∧ NotResolved w w'

lemma notResolved_of_eq (h : w'.composerRuns = w.composerRuns) : NotResolved w w' :=
  ⟨[], h, List.forall_mem_nil _⟩

instance : Std.Refl Settled := ⟨fun _ h => ⟨h, notResolved_of_eq rfl⟩⟩

instance : IsTrans Workload Settled where
  trans w w' w'' h h' hw := by
    obtain ⟨hw', runs, hruns, hall⟩ := h hw
    obtain ⟨hw'', runs', hruns', hall'⟩ := h' hw'
    refine ⟨hw'', runs' ++ runs, by rw [hruns', hruns, List.append_assoc], ?_⟩
    exact List.forall_mem_append.2 ⟨hall', hall⟩

/-- What only such files may differ in is settled. -/
lemma settled_of_changes (huser : .file .userComposer ∉ parts) (hlocal : .file .localSettings ∉ parts)
    (hruns : .composerRuns ∉ parts) (h : Changes parts w w') : Settled w w' := by
  have hfile : w'.files .userComposer = w.files .userComposer := h _ huser
  have hfile' : w'.files .localSettings = w.files .localSettings := h _ hlocal
  intro hw
  rw [Configured, hfile, hfile']
  exact ⟨hw, notResolved_of_eq (h _ hruns)⟩

lemma settled_setFile (path : Path) (content : Content) (w : Workload) :
    Settled w (w.setFile path (some content)) := by
  have hkept : ∀ q, w.files q ≠ none → (w.setFile path (some content)).files q ≠ none := by
    intro q hq
    by_cases h : q = path
    · rw [h, setFile_files_self]
      exact Option.some_ne_none _
    · rwa [setFile_files_of_ne h]
  exact fun hw => ⟨hw.imp (hkept _) (hkept _), notResolved_of_eq rfl⟩

lemma settled_ask {α : Type} (answer : ℕ → Except Exc α) : Prog.Within Settled (ask answer) :=
  fun _ hw => ⟨hw, notResolved_of_eq rfl⟩

lemma settled_writeText (path : Path) (content : String) :
    Prog.Within Settled (writeText env path content) :=
  .bind (settled_ask _) fun _ => .modify (settled_setFile path _)

lemma settled_ensureContents (path : Path) (content : String) :
    Prog.Within Settled (ensureContents env path content) :=
  .bind (settled_ask _) fun _ => .bind .get fun _ => .ite (.pure _)
    (.bind (.modify (settled_setFile path _)) fun _ => .pure _)

/-- The parts that decide whether a change is settled. -/
def settling : List Part := [.file .userComposer, .file .localSettings, .composerRuns]

lemma settled_within {α : Type} {x : Prog Workload Exc α} (h : Prog.Within (Changes parts) x)
    (hparts : ∀ p ∈ settling, p ∉ parts) : Prog.Within Settled x :=
  h.mono fun _ _ => settled_of_changes (hparts _ (by decide)) (hparts _ (by decide))
    (hparts _ (by decide))

lemma settled_runInstall : Prog.Within Settled (runComposer env false) := by
  intro w hw
  have hfile : ∀ p ≠ Path.composerLock, (runComposer env false w).2.files p = w.files p :=
    fun p hp => setFile_files_of_ne hp _ _
  refine ⟨?_, [_], rfl, List.forall_mem_singleton.2 rfl⟩
  rw [Configured, hfile _ (by decide), hfile _ (by decide)]
  exact hw

lemma settled_composerReconciliation (c : ComposerJson F) (lock : Option String) (force : Bool) :
    Prog.Within Settled (composerReconciliation env c false lock force) := by
  have hnone : Prog.Within (Changes []) (shouldSkipComposer env c false lock) :=
    within_shouldSkipComposer _ _ _
  have hskip : Prog.Within Settled (shouldSkipComposer env c false lock) :=
    settled_within hnone (by decide)
  refine .ite (.throw _) (.bind (.ite (.pure _) hskip) fun _ => .ite (.pure _) ?_)
  refine .bind (settled_writeText _ _) fun _ => .bind ?_ fun _ => .bind settled_runInstall
    fun _ => .ite (.bind (settled_writeText _ _) fun _ => .throw _) (.pure _)
  cases lock with
  | none => exact .pure _
  | some lock => exact settled_writeText _ _

/-- The part up to `robots.txt`: a configured container does not bootstrap. -/
lemma settled_reconcileComposer {peerState : PeerState} (force : Bool)
    (hleader : charm.isLeader = false) :
    Prog.Within Settled (reconcileComposer env charm peerState force) := by
  intro w hw
  have hfinal : ∀ w', Settled w w' → Configured w' ∧ NotResolved w w' := fun w' h => h hw
  have hmarker : ∀ changed : Bool, Prog.Within Settled
      (if changed then requestLocalisationRebuild env else pure () : Prog Workload Exc Unit) :=
    fun _ => .ite (settled_within (within_requestLocalisationRebuild
      (List.mem_singleton_self (Part.file .localisationRebuild))) (by decide)) (.pure _)
  suffices hwp : (reconcileComposer env charm peerState force).wp
      (fun _ w' => Settled w w') (fun _ w' => Settled w w') w from
    Prog.wp_state hwp (fun _ => hfinal) fun _ => hfinal
  refine Prog.wp_bind.2 (Prog.wp_mono (within_prepareConfiguration.wp w) ?_
    fun _ _ => settled_of_changes (by decide) (by decide) (by decide))
  intro _ w₁ h₁
  have hset₁ : Settled w w₁ := settled_of_changes (by decide) (by decide) (by decide) h₁
  have hcannot : CannotRecover env peerState.operationMode w₁ :=
    (hset₁ hw).1.elim (fun h => .inr (.inr (.inl h))) fun h => .inr (.inl h)
  -- a configured container does not bootstrap, so nothing is resolved here
  have hbootstrap : (if (!charm.isLeader && leaderStateStale charm peerState) = true then
      canRecoverWithoutLeaderState env peerState.operationMode
    else pure false : Prog Workload Exc Bool).wp (fun b w' => b = false ∧ Settled w w')
      (fun _ w' => Settled w w') w₁ := by
    have hwithin : Prog.Within (Changes [])
        (canRecoverWithoutLeaderState env peerState.operationMode) :=
      within_canRecoverWithoutLeaderState _
    have hsettled := settled_within hwithin (by decide)
    refine Prog.wp_ite.2 ⟨fun _ => Prog.wp_iff.2 ⟨fun b w' hrun => ?_, fun e w' hrun => ?_⟩,
      fun _ => ⟨rfl, hset₁⟩⟩
    · have hset₂ := Prog.wp_of_ok (hsettled.wp w₁) hrun
      have hb := Prog.wp_of_ok (canRecoverWithoutLeaderState_spec hcannot) hrun
      exact ⟨hb, trans_of Settled hset₁ hset₂⟩
    · have hset₂ := Prog.wp_of_error (hsettled.wp w₁) hrun
      exact trans_of Settled hset₁ hset₂
  refine Prog.wp_bind.2 (Prog.wp_mono hbootstrap ?_ fun _ _ h => h)
  rintro bootstrap w₂ ⟨rfl, hset₂⟩
  rw [hleader]
  refine Prog.wp_ite.2 ⟨fun _ => hset₂, fun _ => ?_⟩
  have hrest : Prog.Within Settled (do
      let composerRan ← composerReconciliation env charm.config.composer false
        peerState.composerLock force
      (if composerRan then requestLocalisationRebuild env else pure () : Prog Workload Exc Unit)
      writeText env .robotsTxt charm.config.robotsTxt
      pure composerRan : Prog Workload Exc Bool) :=
    .bind (settled_composerReconciliation _ _ _) fun _ => .bind (hmarker _) fun _ =>
      .bind (settled_writeText _ _) fun _ => .pure _
  exact Prog.wp_mono (hrest.wp w₂) (fun _ _ => trans_of Settled hset₂) fun _ _ =>
    trans_of Settled hset₂

lemma settled_recordSettingsChange (changed : Bool) : Prog.Within Settled
    (if changed then recordSettingsChange env else pure () : Prog Workload Exc Unit) :=
  .ite (settled_within (within_requestLocalisationRebuild
    (List.mem_singleton_self (Part.file .localisationRebuild))) (by decide)) (.pure _)

omit [FiniteFloat F] in
lemma settled_pushLateSettings (secrets : MediaWikiSecrets) (mode : OperationMode)
    (message : Option String) :
    Prog.Within Settled (pushLateSettings env charm secrets mode message) := by
  refine .bind (settled_ask _) fun _ =>
    .bind (settled_within within_renderFragments (by decide)) fun (_, deferredError) =>
    .bind (settled_ensureContents _ _) fun _ => .bind (.modify fun w => ?_) fun _ => ?_
  · exact settled_of_changes (by decide) (by decide) (by decide) (changes_rendered _ w)
  · cases deferredError with
    | none => exact .pure _
    | some e => exact .bind (settled_recordSettingsChange _) fun _ => .throw _

omit [FiniteFloat F] in
lemma settled_settingsReconciliation (secrets : MediaWikiSecrets) (mode : OperationMode)
    (message : Option String) :
    Prog.Within Settled (settingsReconciliation env charm secrets mode message) :=
  .bind (settled_ask _) fun _ => .bind (settled_ensureContents _ _) fun _ =>
    .bind (settled_recordSettingsChange _) fun _ =>
    .bind (settled_pushLateSettings secrets mode message) fun _ =>
    .bind (settled_recordSettingsChange _) fun _ => .bind (settled_ensureContents _ _) fun _ =>
    .bind (settled_recordSettingsChange _) fun _ => .pure _

/-! ### The whole cycle -/

/-- The containers of two states of the unit. -/
def RestSettled (s s' : PeerWorld Workload) : Prop := Settled s.rest s'.rest

instance : Std.Refl RestSettled := ⟨fun s => refl_of Settled s.rest⟩

instance : IsTrans (PeerWorld Workload) RestSettled := ⟨fun _ _ _ => trans_of Settled⟩

lemma settled_callback {α : Type} {x : Prog Workload Exc α} (h : Prog.Within Settled x) :
    Prog.Within RestSettled (callback x) := h.zoom fun _ _ ht => ht

lemma restSettled_within {α : Type} {x : Prog (PeerWorld Workload) Exc α}
    (h : Prog.Within (RestChanges parts) x) (hparts : ∀ p ∈ settling, p ∉ parts) :
    Prog.Within RestSettled x :=
  h.mono fun _ _ => settled_of_changes (hparts _ (by decide)) (hparts _ (by decide))
    (hparts _ (by decide))

lemma settled_reconcileConfiguration (peerState : PeerState) (force : Bool)
    (hleader : charm.isLeader = false) :
    Prog.Within RestSettled (reconcileConfiguration env charm peerState force) := by
  have hsettings : ∀ secrets mode message, Prog.Within RestSettled
      (callback (settingsReconciliation env charm secrets mode message)) := fun _ _ _ =>
    settled_callback (settled_settingsReconciliation _ _ _)
  have hinstall : Prog.Within RestSettled (install env charm) :=
    restSettled_within within_install (by decide)
  have hflag : ∀ flag, Prog.Within RestSettled (callback (askFlag env flag)) := fun _ =>
    settled_callback (settled_ask _)
  have hpublish : Prog.Within (RestChanges [.published]) (publishComposerLock env charm) :=
    within_publishComposerLock (by decide)
  have hconfigure : Prog.Within RestSettled (installAndConfigure env charm peerState) :=
    .bind (hflag _) fun _ => .bind (.ite (.pure _) (.bind (hsettings _ _ _) fun _ =>
      .bind hinstall fun _ => .pure _)) fun _ => .bind (hsettings _ _ _) fun _ => .pure _
  exact .bind (settled_callback (settled_reconcileComposer _ hleader)) fun _ =>
    .bind hconfigure fun _ => .bind (restSettled_within hpublish (by decide)) fun _ =>
    restSettled_within (within_localisationCacheReconciliation _ _ _) (by decide)

omit [FiniteFloat F] in
lemma settled_reconcileServices (active workers : Bool) :
    Prog.Within RestSettled (callback (reconcileServices env charm.layer active workers)) := by
  have hservices : Prog.Within (Changes [.file .restartRequired])
      (reconcileServices env charm.layer active workers) := within_reconcileServices (by decide) _ _ _
  exact settled_callback (settled_within hservices (by decide))

lemma settled_relation : Prog.Within RestSettled (relation (D := Workload)) := by
  have hwithin : Prog.Within (RestChanges []) (relation (D := Workload)) := within_relation
  exact restSettled_within hwithin (by decide)

omit [FiniteFloat F] in
lemma settled_readPeerState : Prog.Within RestSettled (readPeerState env charm) := by
  have hflag : ∀ flag, Prog.Within RestSettled (callback (askFlag env flag)) := fun _ =>
    settled_callback (settled_ask _)
  refine .bind (hflag _) fun _ => .ite (.throw _) (.bind (hflag _) fun _ => .ite (.throw _)
    (.tryCatch ?_ fun e => ?_))
  · exact .bind (hflag _) fun _ => .ite (.throw _) (.bind settled_relation fun _ =>
      .bind (settled_callback (settled_ask _)) fun _ => .bind (.ofExcept _) fun _ => .pure _)
  · split
    · exact .throw _
    · exact .ite (.bind (settled_reconcileServices _ _) fun _ => .throw _) (.throw _)

lemma settled_stopJobWorkers : Prog.Within Settled (stopJobWorkers env) := by
  have hwithin : Prog.Within (Changes []) (stopJobWorkers env) := within_stopJobWorkers
  exact settled_within hwithin (by decide)

lemma settled_applyPeerState (peerState : PeerState) (force : Bool)
    (hleader : charm.isLeader = false) :
    Prog.Within RestSettled (applyPeerState env charm peerState force) := by
  have hflag : ∀ flag, Prog.Within Settled (askFlag env flag) := fun _ => settled_ask _
  have hexists : ∀ path, Prog.Within Settled (pathExists env path) := fun _ =>
    .bind (settled_ask _) fun _ => .bind .get fun _ => .pure _
  have hready : Prog.Within Settled (runnerQueueServiceIsReady env) :=
    .bind (hflag _) fun _ => .ite (.pure _) (hexists _)
  have hwrite : ∀ r, Prog.Within RestSettled (writeRelation (D := Workload) r) := fun r =>
    .modify fun s => refl_of Settled s.rest
  have hnote : Prog.Within Settled (Prog.modify fun w : Workload =>
      { w with acknowledged := peerState.operationMode :: w.acknowledged } :
      Prog Workload Exc Unit) := .modify fun w hw => ⟨hw, notResolved_of_eq rfl⟩
  have hstop : Prog.Within RestSettled (if peerState.operationMode = .maintenance then
      callback (stopJobWorkers env) else pure () : Prog (PeerWorld Workload) Exc Unit) :=
    .ite (settled_callback settled_stopJobWorkers) (.pure _)
  refine .bind (.tryCatch (settled_reconcileConfiguration _ _ hleader) fun e =>
    .bind hstop fun _ => .throw _) fun _ => .bind (.ite (settled_callback hready) (.pure _))
    fun _ => .bind (settled_reconcileServices _ _) fun _ =>
    .bind (.bind settled_relation fun _ => hwrite _) fun _ => .bind (settled_callback hnote)
    fun _ => .bind ?_ fun _ => .bind (settled_callback (settled_ask _)) fun _ => .pure _
  -- whichever branch is taken, only the relation is written
  unfold reconcileOperationMode
  refine .ite (.pure _) (.bind settled_relation fun _ => .bind (.ofExcept _) fun _ => ?_)
  split
  · exact .bind (settled_callback (settled_ask _)) fun _ => hwrite _
  · exact hwrite _

/-- One cycle of a unit that is not the leader. -/
lemma settled_next (c : ReplicaCycle F) (w : Workload) : Settled w (c.next w) := by
  have hcycle : Prog.Within RestSettled (reconciliation c.env c.charm c.force) :=
    .bind settled_readPeerState fun _ => settled_applyPeerState _ _ c.notLeader
  exact hcycle ⟨c.peers, w⟩

/-- Any number of cycles. -/
lemma settled_run {cycles : List (ReplicaCycle F)} (h : (replica F).Run w cycles w') :
    Settled w w' := by
  induction h with
  | nil w => exact refl_of Settled w
  | cons hstep _ ih =>
    obtain rfl := hstep
    exact trans_of Settled (settled_next _ _) ih

/-- A unit that finds the state of the leader stale and may not recover on its own is refused;
and once `composer.user.json` or `LocalSettings.php` exists, no cycle of a unit that is not the
leader resolves the dependencies. -/
theorem stale_state_gate :
    (∀ (env : Env) (charm : Charm F) (peerState : PeerState) (force : Bool)
      (s : PeerWorld Workload), charm.isLeader = false →
      peerState.leaderStateHash ≠ some (charm.config.stateHash charm.hash) →
      CannotRecover env peerState.operationMode s.rest → Refused env charm peerState force s) ∧
    ∀ (w w' : Workload) (cycles : List (ReplicaCycle F)), Configured w →
      (replica F).Run w cycles w' → Configured w' ∧ NotResolved w w' := by
  constructor
  · intro env charm peerState force s hleader hstale h
    have hstale' : leaderStateStale charm peerState = true := decide_eq_true hstale
    exact refused_of_stale force hleader hstale' h
  · intro w w' cycles hw hrun
    exact settled_run hrun hw

/-- A container with a `LocalSettings.php`. -/
def configured : Workload where
  files p := if p = .localSettings then some (.text "<?php") else none

/-- A cycle of a unit without the state of the leader. -/
def waitingCycle : ReplicaCycle Empty where
  env := Env.quiet ⟨.ok 0, none⟩

/-- The cycle of a configured unit is refused and runs no update. -/
theorem stale_state_gate_configured :
    Refused waitingCycle.env waitingCycle.charm {} false ⟨waitingCycle.peers, configured⟩ ∧
      NotResolved configured (waitingCycle.next configured) :=
  ⟨stale_state_gate.1 waitingCycle.env waitingCycle.charm {} false _ rfl nofun
      (.inr (.inl (Option.some_ne_none _))),
    (stale_state_gate.2 configured _ [waitingCycle] (.inr (Option.some_ne_none _))
      (.cons rfl (.nil _))).2⟩

end LeaderState
end MediawikiCharm
