/-
Sequences of configuration cycles of one unit, and what the parts of a cycle may change.

A cycle meets its own surroundings, configuration, leadership and peer data.  What the unit
carries from one cycle to the next is its container and the version it has recorded in its
databag after a rebuild of the localisation cache, which no other unit writes.
-/
import MediawikiCharm.Core
import MediawikiCharm.Lib.Machine

namespace MediawikiCharm

open Json Workload Services Settings Composer Peers MediawikiCharm.Core

variable {F : Type}

/-- What one call of `_reconcile_configuration` meets. -/
structure Cycle (F : Type) where
  env : Env
  charm : Charm F := {}
  /-- The peer relation; the entry of the unit itself is what the unit has recorded. -/
  peers : Option Relation := some ⟨[], {}, fun _ => {}⟩
  peerState : PeerState := {}
  force : Bool := false

/-- What a unit carries from cycle to cycle. -/
structure UnitState where
  workload : Workload := {}
  l10nCacheVersion : Option String := none

namespace Cycle

variable (c : Cycle F) (u : UnitState)

/-- Composer is run whatever the files hold. -/
def forced : Bool := c.force || decide (c.peerState.operationMode = .forceReconciliation)

/-- The state the cycle starts in. -/
def start : PeerWorld Workload where
  relation := c.peers.map fun r =>
    r.setData c.charm.unit { r.data c.charm.unit with l10nCacheVersion := u.l10nCacheVersion }
  rest := u.workload

variable [FiniteFloat F]

/-- The cycle. -/
def run : Except Exc Unit × PeerWorld Workload :=
  reconcileConfiguration c.env c.charm c.peerState c.force (c.start u)

/-- What the unit carries on. -/
def next : UnitState where
  workload := (c.run u).2.rest
  l10nCacheVersion := match (c.run u).2.relation with
    | some r => (r.data c.charm.unit).l10nCacheVersion
    | none => u.l10nCacheVersion

end Cycle

/-! ### What the parts of a cycle may change -/

/-- Only the given parts of the container differ. -/
def RestChanges (parts : List Part) (s s' : PeerWorld Workload) : Prop :=
  Changes parts s.rest s'.rest

instance (parts : List Part) : Std.Refl (RestChanges parts) := ⟨fun s => changes_refl parts s.rest⟩

instance (parts : List Part) : IsTrans (PeerWorld Workload) (RestChanges parts) :=
  ⟨fun _ _ _ => Changes.trans⟩

variable {env : Env} {charm : Charm F} {parts : List Part}

lemma within_callback {α : Type} {x : Prog Workload Exc α} (h : Prog.Within (Changes parts) x) :
    Prog.Within (RestChanges parts) (callback x) :=
  h.zoom fun _ _ ht => ht

lemma within_relation : Prog.Within (RestChanges parts) relation := by
  refine .bind .get fun s => ?_
  split
  · exact .pure _
  · exact .throw _

lemma within_writeRelation (r : Relation) : Prog.Within (RestChanges parts) (writeRelation r) :=
  .modify fun s => changes_refl parts s.rest

lemma within_localisationCacheVersion (unit : String) :
    Prog.Within (RestChanges parts) (localisationCacheVersion unit) :=
  .bind within_relation fun _ => .pure _

lemma within_markLocalisationCacheRebuilt (unit version : String) :
    Prog.Within (RestChanges parts) (markLocalisationCacheRebuilt unit version) :=
  .bind within_relation fun _ => within_writeRelation _

lemma within_publishState (lock stateHash : String) :
    Prog.Within (RestChanges parts) (publishState lock stateHash) :=
  .bind within_relation fun _ => within_writeRelation _

lemma within_rebuildLocalisationCache (hp : .rebuilds ∈ parts) :
    Prog.Within (Changes parts) (rebuildLocalisationCache env charm) := by
  refine .bind (within_doStep _) fun _ => .bind (within_ask _) fun _ => .ite (.throw _) ?_
  refine .modify fun w p hp' => ?_
  cases p with
  | rebuilds => exact absurd hp hp'
  | _ => rfl

/-- What a reconciliation of the localisation cache may change. -/
def cacheParts : List Part := [.file .localisationRebuild, .rebuilds]

lemma within_localisationCacheReconciliation (settingsChanged composerRan force : Bool) :
    Prog.Within (RestChanges cacheParts)
      (localisationCacheReconciliation env charm settingsChanged composerRan force) := by
  refine .bind (within_callback (within_doStep _)) fun _ =>
    .bind (within_localisationCacheVersion _) fun _ => .bind (.ite ?_ (.pure _)) fun _ =>
    .bind (within_callback (within_pathExists _)) fun _ => .ite (.pure _) ?_
  · exact within_callback (within_requestLocalisationRebuild (by decide))
  · exact .bind (within_callback (within_rebuildLocalisationCache (by decide))) fun _ =>
      .bind (within_markLocalisationCacheRebuilt _ _) fun _ =>
      within_callback (within_unlink (by decide))

lemma within_awaitInstallation : ∀ n, Prog.Within (Changes parts) (awaitInstallation env n)
  | 0 => .throw _
  | n + 1 => .bind (within_askFlag _) fun _ => .ite (.pure _) (within_awaitInstallation n)

lemma within_retryUpdate : Prog.Within (Changes parts) (retryUpdate env) := by
  refine .tryCatch (within_doStep _) fun e => ?_
  split
  · exact .pure _
  · exact .throw _

lemma within_installAttempts (empty : Bool) :
    ∀ n, Prog.Within (Changes parts) (installAttempts env empty n)
  | 0 => .throw _
  | n + 1 => .bind (within_ask _) fun _ => .ite (.pure _) (.bind
      (.ite (.pure _) (.ite (within_doStep _) within_retryUpdate)) fun _ =>
      within_installAttempts empty n)

/-- What an installation may change. -/
def installParts : List Part := .file .userSettings :: cacheParts

lemma within_installBlanked (empty : Bool) :
    Prog.Within (RestChanges installParts) (installBlanked env charm empty) := by
  refine .bind (within_callback (within_writeText (by decide) _)) fun _ => .bind ?_ fun _ => ?_
  · exact (within_localisationCacheReconciliation _ _ _).mono fun _ _ h => h.mono (by decide)
  · exact within_callback (.bind (within_installAttempts _ _) fun _ =>
      .bind (within_ensureContents (by decide) _) fun _ =>
      .bind (within_requestLocalisationRebuild (by decide)) fun _ =>
      .bind (within_doStep _) fun _ => within_doStep _)

lemma within_install : Prog.Within (RestChanges installParts) (install env charm) :=
  .ite (within_callback (within_awaitInstallation _)) (.bind (within_callback (within_askFlag _))
    fun _ => within_installBlanked _)

/-- What the installation and the settings may change. -/
def configureParts : List Part := .rebuilds :: settingsParts

lemma within_installAndConfigure (peerState : PeerState) :
    Prog.Within (RestChanges configureParts) (installAndConfigure env charm peerState) := by
  have hsettings : ∀ secrets mode message, Prog.Within (RestChanges configureParts)
      (callback (settingsReconciliation env charm secrets mode message)) :=
    fun secrets mode message =>
    within_callback ((within_settingsReconciliation secrets mode message).mono fun _ _ h =>
      h.mono (by decide))
  have hinstall : Prog.Within (RestChanges configureParts) (install env charm) :=
    within_install.mono fun _ _ h => h.mono (by decide)
  exact .bind (within_callback (within_askFlag _)) fun _ => .bind (.ite (.pure _)
    (.bind (hsettings _ _ _) fun _ => .bind hinstall fun _ => .pure _)) fun _ =>
    .bind (hsettings _ _ _) fun _ => .pure _

lemma within_prepareConfiguration :
    Prog.Within (Changes [.file .restartRequired]) (prepareConfiguration env) := by
  have hrequest : ∀ (changed : Bool) services, Prog.Within (Changes [.file .restartRequired])
      (if changed then requestServiceRestart env services else pure () : Prog Workload Exc Unit) :=
    fun changed services => .ite (within_requestServiceRestart (by decide) _) (.pure _)
  exact .bind (within_askFlag _) fun _ => .ite (.throw _) (.bind (within_doStep _) fun _ =>
    .bind (within_askFlag _) fun _ => .bind (hrequest _ _) fun _ => .bind (within_askFlag _) fun _ =>
    .bind (hrequest _ _) fun _ => .bind within_mkdir fun _ => .bind within_mkdir fun _ =>
    .bind (within_doStep _) fun _ => within_doStep _)

lemma within_anyRunning : ∀ services, Prog.Within (Changes parts) (anyRunning env services)
  | [] => .pure _
  | _ :: services => .bind .get fun _ => .ite (.bind (within_pebbleQuery _) fun _ =>
      .ite (.pure _) (within_anyRunning services)) (within_anyRunning services)

lemma within_canRecoverWithoutLeaderState (mode : OperationMode) :
    Prog.Within (Changes parts) (canRecoverWithoutLeaderState env mode) :=
  .ite (.pure _) (.bind (within_pathExists _) fun _ => .ite (.pure _) (.bind (within_pathExists _)
    fun _ => .ite (.pure _) (.bind (within_pebbleQuery _) fun _ => .bind (within_anyRunning _)
    fun _ => .ite (.pure _) (within_askFlag _))))

/-- The publication is noted. -/
lemma within_publishComposerLock [FiniteFloat F] (hp : .published ∈ parts) :
    Prog.Within (RestChanges parts) (publishComposerLock env charm) := by
  have hnote : ∀ lock, Prog.Within (Changes parts) (Prog.modify fun w : Workload =>
      { w with published := ⟨lock, dumpsText charm.config.composer.json, w.composerRuns⟩ ::
        w.published } : Prog Workload Exc Unit) := by
    refine fun lock => .modify fun w p hp' => ?_
    cases p with
    | published => exact absurd hp hp'
    | _ => rfl
  exact .ite (.pure _) (.bind (within_callback (within_pathExists _)) fun _ => .ite (.throw _)
    (.bind (within_callback (within_readText _)) fun lock =>
    .bind (within_publishState _ _) fun _ => within_callback (hnote lock)))

/-- What a composer command changes. -/
def composerParts : List Part := [.file .userComposer, .file .composerLock, .composerRuns]

lemma within_runComposer (update : Bool) :
    Prog.Within (Changes composerParts) (runComposer env update) := by
  have hlock : Part.file .composerLock ∈ composerParts := by decide
  intro w p hp
  cases p with
  | composerRuns => exact absurd hp (by decide)
  | file path => exact changes_setFile hlock _ w (.file path) hp
  | _ => rfl

lemma within_writeAndRun [FiniteFloat F] (c : ComposerJson F) (update : Bool) (lock : Option String) :
    Prog.Within (Changes composerParts) (writeAndRun env c update lock) := by
  have huser : Part.file .userComposer ∈ composerParts := by decide
  have hlock : Part.file .composerLock ∈ composerParts := by decide
  refine .bind (within_writeText huser _) fun _ => .bind ?_ fun _ =>
    .bind (within_runComposer update) fun _ => .ite (.bind ?_ fun _ => .throw _) (.pure _)
  · cases lock with
    | none => exact .pure _
    | some lock => exact within_writeText hlock _
  · exact .ite (within_writeText huser _) (within_writeText hlock _)

lemma within_shouldSkipComposer [FiniteFloat F] (c : ComposerJson F) (update : Bool)
    (lock : Option String) : Prog.Within (Changes parts) (shouldSkipComposer env c update lock) := by
  refine .bind (within_pathExists _) fun _ => .ite (.pure _) (.bind (within_readText _) fun _ => ?_)
  split
  · exact .pure _
  · exact .ite (.pure _) (.ite (.pure _) (.bind (within_pathExists _) fun _ =>
      .ite (.pure _) (.bind (within_readText _) fun _ => .pure _)))

lemma within_composerReconciliation [FiniteFloat F] (c : ComposerJson F) (update : Bool)
    (lock : Option String) (force : Bool) :
    Prog.Within (Changes composerParts) (composerReconciliation env c update lock force) :=
  .ite (.throw _) (.bind (.ite (.pure _) (within_shouldSkipComposer _ _ _)) fun _ =>
    .ite (.pure _) (within_writeAndRun _ _ _))

/-- The part of a cycle before the Composer files. -/
lemma reconcileComposer_spec [FiniteFloat F] (peerState : PeerState) (force : Bool) {w : Workload}
    {Q : Bool → Workload → Prop} {E : Exc → Workload → Prop}
    (hE : ∀ e w', Changes [.file .restartRequired] w w' → E e w')
    (hQ : ∀ update w', Changes [.file .restartRequired] w w' →
      (charm.isLeader = true → update = true) →
      (do
        let composerRan ← composerReconciliation env charm.config.composer update
          peerState.composerLock force
        (if composerRan then requestLocalisationRebuild env else pure () : Prog Workload Exc Unit)
        writeText env .robotsTxt charm.config.robotsTxt
        pure composerRan : Prog Workload Exc Bool).wp Q E w') :
    (reconcileComposer env charm peerState force).wp Q E w := by
  refine Prog.wp_bind.2 (Prog.wp_mono (within_prepareConfiguration.wp w) ?_ hE)
  intro _ w₁ h₁
  have hbootstrap : Prog.Within (Changes [.file .restartRequired])
      (if (!charm.isLeader && leaderStateStale charm peerState) = true then
          canRecoverWithoutLeaderState env peerState.operationMode
        else pure false : Prog Workload Exc Bool) :=
    .ite (within_canRecoverWithoutLeaderState _) (.pure _)
  refine Prog.wp_bind.2 (Prog.wp_mono (hbootstrap.wp w₁) ?_ fun e w' h => hE e w' (h₁.trans h))
  intro bootstrap w₂ h₂
  refine Prog.wp_ite.2 ⟨fun _ => hE _ _ (h₁.trans h₂), fun _ => ?_⟩
  exact hQ (charm.isLeader || bootstrap) w₂ (h₁.trans h₂) fun h => by rw [h, Bool.true_or]

/-- What the part of a cycle up to `robots.txt` may change. -/
def reconcileParts : List Part :=
  [.file .restartRequired, .file .localisationRebuild, .file .robotsTxt] ++ composerParts

lemma within_reconcileComposer [FiniteFloat F] (peerState : PeerState) (force : Bool) :
    Prog.Within (Changes reconcileParts) (reconcileComposer env charm peerState force) := by
  have hprepare : Prog.Within (Changes reconcileParts) (prepareConfiguration env) :=
    within_prepareConfiguration.mono fun _ _ h => h.mono (by decide)
  have hcomposer : ∀ update, Prog.Within (Changes reconcileParts) (composerReconciliation env
      charm.config.composer update peerState.composerLock force) := fun update =>
    (within_composerReconciliation _ _ _ _).mono fun _ _ h => h.mono (by decide)
  have hrobots : Part.file .robotsTxt ∈ reconcileParts := by decide
  have hmarker : Part.file .localisationRebuild ∈ reconcileParts := by decide
  exact .bind hprepare fun _ => .bind (.ite (within_canRecoverWithoutLeaderState _) (.pure _))
    fun _ => .ite (.throw _) (.bind (hcomposer _) fun _ =>
    .bind (.ite (within_requestLocalisationRebuild hmarker) (.pure _)) fun _ =>
    .bind (within_writeText hrobots _) fun _ => .pure _)

end MediawikiCharm
