/-
Rebuilds of the localisation cache.

A change of the settings files or of the installed packages is recorded in a marker that
only a rebuild removes, and the version of the last rebuild is recorded in the databag of
the unit.  One change is not recorded: an installation blanks the user settings, and where
it fails before it has restored them while no rebuild is pending, the next cycle sees no
change if the configured user settings are empty.  Every other cycle that returns leaves a
cache that was built from the present files under the present version.
-/
import MediawikiCharm.Cycles

namespace MediawikiCharm
namespace LocalisationCache

open Json Workload Services Settings Composer Peers MediawikiCharm.Core

variable {F : Type} {env : Env} {charm : Charm F} {w w' : Workload} {stored : Option String}
  {P : Prop}

/-! ### What is promised -/

/-- The rebuild has seen the present files and packages, the user settings apart. -/
structure Covers (r : Rebuild) (w : Workload) : Prop where
  lateSettings : r.lateSettings = w.files .lateSettings
  localSettings : r.localSettings = w.files .localSettings
  composerSuccesses : r.composerSuccesses = w.composerSuccesses

/-- The last rebuild ran under the version, with the present files and after the last
successful composer command. -/
def UpToDate (version : String) (w : Workload) : Prop :=
  ∃ r rest, w.rebuilds = r :: rest ∧ r.version = version ∧ Covers r w ∧
    r.userSettings = w.files .userSettings

/-! ### What is recorded -/

/-- What the cache lacks is recorded: a rebuild is pending or was never made, or the last
one under the recorded version has seen everything. -/
def Recorded (stored : Option String) (w : Workload) : Prop :=
  w.files .localisationRebuild ≠ none ∨ stored = none ∨ ∃ r rest, w.rebuilds = r :: rest ∧
    stored = some r.version ∧ Covers r w ∧ r.userSettings = w.files .userSettings

/-- The user settings are blank, and otherwise the last rebuild has seen everything. -/
def Blanked (stored : Option String) (w : Workload) : Prop :=
  w.files .userSettings = some (.text "") ∧ ∃ r rest, w.rebuilds = r :: rest ∧
    stored = some r.version ∧ Covers r w

/-- What the cache lacks is recorded, or it may be blanked user settings where `P` holds. -/
def Tracked (P : Prop) (stored : Option String) (w : Workload) : Prop :=
  Recorded stored w ∨ (P ∧ Blanked stored w)

lemma Tracked.mono {P' : Prop} (h : Tracked P stored w) (hP : P → P') : Tracked P' stored w :=
  h.imp_right fun ⟨hp, hb⟩ => ⟨hP hp, hb⟩

lemma Tracked.weaken (h : Tracked P stored w) : Tracked True stored w := h.mono fun _ => trivial

lemma recorded_of_marker (h : w.files .localisationRebuild ≠ none) : Recorded stored w := .inl h

/-- The parts that a rebuild of the cache depends on. -/
def trackedParts : List Part :=
  [.file .userSettings, .file .lateSettings, .file .localSettings, .file .localisationRebuild,
    .rebuilds]

/-- The two states do not differ in what a rebuild depends on. -/
structure SameInputs (w w' : Workload) : Prop where
  parts : ∀ p ∈ trackedParts, p.Same w w'
  composerSuccesses : w'.composerSuccesses = w.composerSuccesses

lemma SameInputs.covers (h : SameInputs w w') {r : Rebuild} (hr : Covers r w) : Covers r w' where
  lateSettings := hr.lateSettings.trans (h.parts (.file .lateSettings) (by decide)).symm
  localSettings := hr.localSettings.trans (h.parts (.file .localSettings) (by decide)).symm
  composerSuccesses := hr.composerSuccesses.trans h.composerSuccesses.symm

lemma Tracked.sameInputs (h : Tracked P stored w) (hw : SameInputs w w') : Tracked P stored w' := by
  have huser : w'.files .userSettings = w.files .userSettings :=
    hw.parts (.file .userSettings) (by decide)
  have hmarker : w'.files .localisationRebuild = w.files .localisationRebuild :=
    hw.parts (.file .localisationRebuild) (by decide)
  have hrebuilds : w'.rebuilds = w.rebuilds := hw.parts .rebuilds (by decide)
  rcases h with (h | h | ⟨r, rest, hr, hv, hc, hu⟩) | ⟨hP, hu, r, rest, hr, hv, hc⟩
  · exact .inl (.inl (hmarker ▸ h))
  · exact .inl (.inr (.inl h))
  · exact .inl (.inr (.inr ⟨r, rest, hrebuilds.trans hr, hv, hw.covers hc, hu.trans huser.symm⟩))
  · exact .inr ⟨hP, huser.trans hu, r, rest, hrebuilds.trans hr, hv, hw.covers hc⟩

lemma sameInputs_of_changes {parts : List Part} (h : Changes parts w w')
    (hparts : ∀ p ∈ .composerRuns :: trackedParts, p ∉ parts) : SameInputs w w' where
  parts p hp := h p (hparts p (List.mem_cons_of_mem _ hp))
  composerSuccesses := by
    have hruns : w'.composerRuns = w.composerRuns := h .composerRuns (hparts _ (by decide))
    rw [composerSuccesses, hruns, composerSuccesses]

lemma Tracked.changes {parts : List Part} (h : Tracked P stored w) (hw : Changes parts w w')
    (hparts : ∀ p ∈ .composerRuns :: trackedParts, p ∉ parts) : Tracked P stored w' :=
  h.sameInputs (sameInputs_of_changes hw hparts)

lemma Tracked.ticked (h : Tracked P stored w) (hw : Ticked w w') : Tracked P stored w' :=
  h.sameInputs (sameInputs_of_changes (@changes_of_ticked [] _ _ hw) (by decide))

/-! ### Recording a change -/

/-- While file operations succeed a request leaves the marker. -/
lemma requestLocalisationRebuild_spec (henv : env.FilesSucceed) :
    (requestLocalisationRebuild env).wp (fun _ w' => w'.files .localisationRebuild ≠ none)
      (fun _ _ => False) w := by
  refine Prog.wp_bind.2 (wp_pathExists (fun w₁ ht₁ => ?_) fun _ _ _ h => h henv)
  obtain ⟨n₁, rfl⟩ := ht₁
  refine Prog.wp_ite.2 ⟨fun h => Prog.wp_pure.2 (Option.isSome_iff_ne_none.1 h), fun _ => ?_⟩
  refine Prog.wp_bind.2 (wp_doStep (fun w₂ ht₂ => ?_) fun e _ _ h => ?_)
  · refine wp_writeText (fun w₃ ht₃ => ?_) fun _ _ _ h => h henv
    obtain ⟨n₃, rfl⟩ := ht₃
    show (w₂.setFile .localisationRebuild (some (.text ""))).files .localisationRebuild ≠ none
    rw [setFile_files_self]
    exact nofun
  · rw [henv] at h
    cases h

/-- A change is recorded as soon as it is made. -/
lemma recordChange_spec (henv : env.FilesSucceed) {changed : Bool}
    (h : changed = false → Tracked P stored w) :
    (if changed then recordSettingsChange env else pure () : Prog Workload Exc Unit).wp
      (fun _ w' => Tracked P stored w' ∧ (changed = false → w' = w)) (fun _ _ => False) w := by
  refine Prog.wp_ite.2 ⟨fun hc => ?_, fun hc => ?_⟩
  · refine Prog.wp_mono (requestLocalisationRebuild_spec henv) (fun _ w' hw => ?_) fun _ _ h => h
    exact ⟨.inl (recorded_of_marker hw), fun h => absurd (hc.symm.trans h) (by decide)⟩
  · have hc : changed = false := by simpa using hc
    exact Prog.wp_pure.2 ⟨h hc, fun _ => rfl⟩

/-- What a push of a settings file returns. -/
lemma ensureContents_tracked (henv : env.FilesSucceed) (path : Path) (content : String)
    (h : Tracked P stored w) :
    (ensureContents env path content).wp
      (fun changed w' => changed = false → Tracked P stored w' ∧ Ticked w w')
      (fun _ _ => False) w := by
  refine wp_ensureContents (fun w' ht _ _ => ⟨h.ticked ht, ht⟩) (fun w' _ => nofun) fun _ _ _ h =>
    h henv

/-! ### The settings -/

lemma pushLateSettings_tracked (henv : env.FilesSucceed) (secrets : MediaWikiSecrets)
    (mode : OperationMode) (message : Option String) (h : Tracked P stored w) :
    (pushLateSettings env charm secrets mode message).wp
      (fun changed w' => changed = false → Tracked P stored w')
      (fun _ w' => Tracked P stored w') w := by
  refine Prog.wp_bind.2 (wp_doStep (fun w₁ ht₁ => ?_) fun _ w' ht _ => h.ticked ht)
  have h₁ := h.ticked ht₁
  have hparts : ∀ p ∈ .composerRuns :: trackedParts, p ∉ fragmentParts := by decide
  refine Prog.wp_bind.2 (Prog.wp_mono (within_renderFragments.wp w₁) ?_ fun _ _ hw =>
    h₁.changes hw hparts)
  rintro ⟨fragments, deferredError⟩ w₂ hw₂
  have h₂ := h₁.changes hw₂ hparts
  refine Prog.wp_bind.2 (Prog.wp_mono (ensureContents_tracked henv _ _ h₂) ?_ fun _ _ h => h.elim)
  intro changed w₃ h₃
  refine Prog.wp_bind.2 (Prog.wp_modify.2 ?_)
  have hrendered : ∀ hc : changed = false, Tracked P stored _ := fun hc =>
    (h₃ hc).1.changes (changes_rendered (lateSettings charm secrets mode message fragments) w₃)
      (by decide)
  cases deferredError with
  | none => exact Prog.wp_pure.2 hrendered
  | some e =>
    -- the change is recorded before the error is raised
    refine Prog.wp_bind.2 (Prog.wp_mono (recordChange_spec henv hrendered) ?_ fun _ _ h => h.elim)
    exact fun _ w₄ h₄ => Prog.wp_throw.2 h₄.1

/-- A reconciliation of the settings records what it changes; blanked user settings are
changed back unless the configured ones are empty. -/
lemma settingsReconciliation_tracked (henv : env.FilesSucceed) (secrets : MediaWikiSecrets)
    (mode : OperationMode) (message : Option String)
    (h : Recorded stored w ∨ ((charm.config.localSettings = "" → P) ∧ Blanked stored w)) :
    (settingsReconciliation env charm secrets mode message).wp
      (fun _ w' => Tracked P stored w') (fun _ w' => Tracked True stored w') w := by
  have hstart : Tracked True stored w := h.imp_right fun ⟨_, hb⟩ => ⟨trivial, hb⟩
  refine Prog.wp_bind.2 (wp_doStep (fun w₁ ht₁ => ?_) fun _ w' ht _ => hstart.ticked ht)
  have huser : (pushUserSettings env charm).wp
      (fun changed w₂ => changed = false → Tracked P stored w₂) (fun _ _ => False) w₁ := by
    refine wp_ensureContents (fun w₂ ht₂ hsame _ => ?_) (fun _ _ => nofun) fun _ _ _ h => h henv
    have hP : Tracked P stored w := by
      refine h.imp_right fun ⟨hP, hb⟩ => ⟨hP ?_, hb⟩
      obtain ⟨n, rfl⟩ := ht₁
      have hblank : some (Content.text "") = some (.text charm.config.localSettings) :=
        hb.1.symm.trans hsame
      exact (Content.text.inj (Option.some.inj hblank)).symm
    exact hP.ticked (ht₁.trans ht₂)
  refine Prog.wp_bind.2 (Prog.wp_mono huser ?_ fun _ _ h => h.elim)
  intro userSettingsChanged w₂ h₂
  refine Prog.wp_bind.2 (Prog.wp_mono (recordChange_spec henv h₂) ?_ fun _ _ h => h.elim)
  rintro _ w₃ ⟨h₃, -⟩
  refine Prog.wp_bind.2 (Prog.wp_mono (pushLateSettings_tracked henv secrets mode message h₃) ?_
    fun _ _ h => h.weaken)
  intro lateSettingsChanged w₄ h₄
  refine Prog.wp_bind.2 (Prog.wp_mono (recordChange_spec henv h₄) ?_ fun _ _ h => h.elim)
  rintro _ w₅ ⟨h₅, -⟩
  refine Prog.wp_bind.2 (Prog.wp_mono (ensureContents_tracked henv _ _ h₅) ?_ fun _ _ h => h.elim)
  intro localSettingsChanged w₆ h₆
  refine Prog.wp_bind.2 (Prog.wp_mono (recordChange_spec henv fun hc => (h₆ hc).1) ?_ fun _ _ h =>
    h.elim)
  exact fun _ w₇ h₇ => Prog.wp_pure.2 h₇.1

/-! ### The localisation cache -/

/-- The version the unit has recorded; without a relation it is out of reach. -/
def recordedVersion (unit : String) (unreachable : Option String) (s : PeerWorld Workload) :
    Option String :=
  match s.relation with
  | some r => (r.data unit).l10nCacheVersion
  | none => unreachable

/-- A rebuild that succeeds has seen the files as they are. -/
lemma rebuildLocalisationCache_spec :
    (rebuildLocalisationCache env charm).wp
      (fun _ w' => UpToDate charm.version w' ∧ w'.files = w.files)
      (fun _ w' => w'.files = w.files) w := by
  refine Prog.wp_bind.2 (wp_doStep (fun w₁ ht₁ => ?_) fun _ w' ht _ => ?_)
  · refine Prog.wp_bind.2 (wp_ask (fun returnCode w₂ ht₂ _ => ?_) fun _ w' ht _ => ?_)
    · obtain ⟨n, rfl⟩ := ht₁.trans ht₂
      refine Prog.wp_ite.2 ⟨fun _ => rfl, fun _ => Prog.wp_modify.2 ⟨?_, rfl⟩⟩
      exact ⟨_, w.rebuilds, rfl, rfl, ⟨rfl, rfl, rfl⟩, rfl⟩
    · obtain ⟨n, rfl⟩ := ht₁.trans ht
      rfl
  · obtain ⟨n, rfl⟩ := ht
    rfl

lemma UpToDate.ticked {version : String} (h : UpToDate version w) (hw : Ticked w w') :
    UpToDate version w' := by
  obtain ⟨n, rfl⟩ := hw
  obtain ⟨r, rest, hr, hv, hc, hu⟩ := h
  exact ⟨r, rest, hr, hv, ⟨hc.lateSettings, hc.localSettings, hc.composerSuccesses⟩, hu⟩

lemma UpToDate.recorded {version : String} (h : UpToDate version w) :
    Recorded (databagValue version) w := by
  obtain ⟨r, rest, hr, rfl, hc, hu⟩ := h
  unfold databagValue
  split
  · exact .inr (.inl rfl)
  · exact .inr (.inr ⟨r, rest, hr, rfl, hc, hu⟩)

/-- A rebuild that is pending is made, and afterwards its version is recorded before the
marker is removed. -/
lemma rebuildPending_tracked (henv : env.FilesSucceed) (unreachable : Option String)
    {s : PeerWorld Workload} (h : s.rest.files .localisationRebuild ≠ none) :
    (do
      callback (rebuildLocalisationCache env charm)
      markLocalisationCacheRebuilt charm.unit charm.version
      callback (clearLocalisationRebuild env) : Prog (PeerWorld Workload) Exc Unit).wp
      (fun _ s' => Recorded (recordedVersion charm.unit unreachable s') s'.rest ∧
        UpToDate charm.version s'.rest)
      (fun _ s' => s'.rest.files .localisationRebuild ≠ none) s := by
  refine Prog.wp_bind.2 (wp_callback.2 (Prog.wp_mono rebuildLocalisationCache_spec ?_ ?_))
  · rintro _ w₁ ⟨hup, hfiles⟩
    refine Prog.wp_bind.2 (Prog.wp_bind.2 (Prog.wp_bind.2 (Prog.wp_get.2 ?_)))
    split
    · next r hr =>
      refine Prog.wp_pure.2 (Prog.wp_modify.2 (wp_callback.2 (wp_unlink (fun w₂ ht₂ => ?_)
        fun _ _ _ h => absurd henv h)))
      have hup₁ : UpToDate charm.version (w₁.setFile .localisationRebuild none) := by
        obtain ⟨r, rest, hr, hv, hc, hu⟩ := hup
        exact ⟨r, rest, hr, hv, ⟨hc.lateSettings, hc.localSettings, hc.composerSuccesses⟩, hu⟩
      have hup₂ : UpToDate charm.version w₂ := hup₁.ticked ht₂
      have hversion : recordedVersion charm.unit unreachable
          { relation := some (r.setData charm.unit { r.data charm.unit with
              l10nCacheVersion := databagValue charm.version }), rest := w₂ } =
            databagValue charm.version := by
        simp [recordedVersion]
      have hrecorded := hup₂.recorded
      rw [← hversion] at hrecorded
      exact ⟨hrecorded, hup₂⟩
    · show w₁.files .localisationRebuild ≠ none
      rw [hfiles]
      exact h
  · intro _ w₁ hfiles
    show w₁.files .localisationRebuild ≠ none
    rw [hfiles]
    exact h

/-- Without a trigger the last rebuild, under the present version, has seen everything. -/
lemma upToDate_of_recorded {version : String} (h : Recorded (some version) w)
    (hmarker : w.files .localisationRebuild = none) : UpToDate version w := by
  rcases h with h | h | ⟨r, rest, hr, hv, hc, hu⟩
  · exact absurd hmarker h
  · cases h
  · exact ⟨r, rest, hr, (Option.some.inj hv).symm, hc, hu⟩

/-- A reconciliation of the localisation cache returns with an up-to-date cache if it is
triggered or what the cache lacks was recorded. -/
lemma localisationCacheReconciliation_tracked (henv : env.FilesSucceed)
    (settingsChanged composerRan force : Bool) {unreachable : Option String}
    {s : PeerWorld Workload}
    (h : Tracked P (recordedVersion charm.unit unreachable s) s.rest) :
    (localisationCacheReconciliation env charm settingsChanged composerRan force).wp
      (fun _ s' => Tracked True (recordedVersion charm.unit unreachable s') s'.rest ∧
        ((P → force = true ∨ recordedVersion charm.unit unreachable s ≠ some charm.version) →
          UpToDate charm.version s'.rest))
      (fun _ s' => Tracked True (recordedVersion charm.unit unreachable s') s'.rest) s := by
  refine Prog.wp_bind.2 (wp_callback.2 (wp_doStep (fun w₁ ht₁ => ?_) fun _ w' ht _ =>
    h.weaken.ticked ht))
  have h₁ := h.ticked ht₁
  refine Prog.wp_bind.2 (Prog.wp_bind.2 (Prog.wp_bind.2 (Prog.wp_get.2 ?_)))
  split
  · next r hr =>
    have hr : s.relation = some r := hr
    have hstored : recordedVersion charm.unit unreachable s =
        (r.data charm.unit).l10nCacheVersion := by
      rw [recordedVersion, hr]
    refine Prog.wp_pure.2 (Prog.wp_pure.2 ?_)
    -- the trigger leaves the marker
    have htrigger : Prog.wp (if (settingsChanged || composerRan || force ||
          decide ((r.data charm.unit).l10nCacheVersion ≠ some charm.version)) = true then
            callback (requestLocalisationRebuild env)
          else pure () : Prog (PeerWorld Workload) Exc Unit)
        (fun _ s₂ => s₂.relation = s.relation ∧ (s₂.rest.files .localisationRebuild ≠ none ∨
          (force = false ∧ (r.data charm.unit).l10nCacheVersion = some charm.version ∧
            s₂.rest = w₁))) (fun _ _ => False) { s with rest := w₁ } := by
      refine Prog.wp_ite.2 ⟨fun _ => wp_callback.2 ?_, fun hno => ?_⟩
      · refine Prog.wp_mono (requestLocalisationRebuild_spec henv) ?_ fun _ _ h => h
        exact fun _ w₂ hw₂ => ⟨rfl, .inl hw₂⟩
      · have hno : ((settingsChanged = false ∧ composerRan = false) ∧ force = false) ∧
            (r.data charm.unit).l10nCacheVersion = some charm.version := by simpa using hno
        exact Prog.wp_pure.2 ⟨rfl, .inr ⟨hno.1.2, hno.2, rfl⟩⟩
    refine Prog.wp_bind.2 (Prog.wp_mono htrigger ?_ fun _ _ h => h.elim)
    rintro _ s₂ ⟨hrelation, hcases⟩
    have hstored₂ : recordedVersion charm.unit unreachable s₂ =
        (r.data charm.unit).l10nCacheVersion := by
      rw [recordedVersion, hrelation, hr]
    have h₂ : Tracked P (recordedVersion charm.unit unreachable s₂) s₂.rest := by
      rcases hcases with hmarker | ⟨-, -, hrest⟩
      · exact .inl (recorded_of_marker hmarker)
      · rw [hstored₂, ← hstored, hrest]
        exact h₁
    refine Prog.wp_bind.2 (wp_callback.2 (wp_pathExists (fun w₃ ht₃ => ?_) fun _ _ _ h =>
      absurd henv h))
    have h₃ : Tracked P (recordedVersion charm.unit unreachable { s₂ with rest := w₃ }) w₃ :=
      h₂.ticked ht₃
    refine Prog.wp_ite.2 ⟨fun hidle => Prog.wp_pure.2 ⟨h₃.weaken, fun hP => ?_⟩, fun hpending => ?_⟩
    · have hmarker : s₂.rest.files .localisationRebuild = none := by simpa using hidle
      obtain ⟨hforce, hversion, -⟩ := hcases.resolve_left (not_not.2 hmarker)
      have hrecorded : Recorded (some charm.version) w₃ := by
        have h₃' : Tracked P (some charm.version) w₃ := by
          rw [← hversion, ← hstored₂]
          exact h₃
        refine h₃'.resolve_right fun ⟨hp, _⟩ => ?_
        rcases hP hp with hf | hv
        · rw [hforce] at hf
          cases hf
        · exact hv (hstored.trans hversion)
      refine upToDate_of_recorded hrecorded ?_
      obtain ⟨n, rfl⟩ := ht₃
      exact hmarker
    · have hmarker : w₃.files .localisationRebuild ≠ none := by
        obtain ⟨n, rfl⟩ := ht₃
        simpa using hpending
      refine Prog.wp_mono (rebuildPending_tracked henv unreachable hmarker) ?_ ?_
      · rintro _ s₄ ⟨hrecorded, hup⟩
        exact ⟨.inl hrecorded, fun _ => hup⟩
      · exact fun _ s₄ h₄ => .inl (recorded_of_marker h₄)
  · exact Prog.wp_throw.2 h₁.weaken

/-! ### The installation -/

/-- Blanking the user settings is the one change that is not recorded. -/
lemma Tracked.blank (h : Tracked P stored w) :
    Tracked True stored (w.setFile .userSettings (some (.text ""))) := by
  have hcovers : ∀ {r : Rebuild}, Covers r w →
      Covers r (w.setFile .userSettings (some (.text ""))) := fun hr =>
    ⟨hr.lateSettings, hr.localSettings, hr.composerSuccesses⟩
  have huser := @setFile_files_self .userSettings (some (.text "")) w
  rcases h with (h | h | ⟨r, rest, hr, hv, hc, -⟩) | ⟨-, -, r, rest, hr, hv, hc⟩
  · exact .inl (.inl h)
  · exact .inl (.inr (.inl h))
  · exact .inr ⟨trivial, huser, r, rest, hr, hv, hcovers hc⟩
  · exact .inr ⟨trivial, huser, r, rest, hr, hv, hcovers hc⟩

variable {unreachable : Option String} {s : PeerWorld Workload}

lemma installBlanked_tracked (henv : env.FilesSucceed) (empty : Bool)
    (h : Tracked P (recordedVersion charm.unit unreachable s) s.rest) :
    (installBlanked env charm empty).wp
      (fun _ s' => Recorded (recordedVersion charm.unit unreachable s') s'.rest)
      (fun _ s' => Tracked True (recordedVersion charm.unit unreachable s') s'.rest) s := by
  refine Prog.wp_bind.2 (wp_callback.2 (wp_writeText (fun w₁ ht₁ => ?_) fun _ _ _ h =>
    absurd henv h))
  have h₁ : Tracked True (recordedVersion charm.unit unreachable { s with rest := w₁ }) w₁ :=
    h.blank.ticked ht₁
  refine Prog.wp_bind.2 (Prog.wp_mono
    (localisationCacheReconciliation_tracked henv false false false h₁) ?_ fun _ _ h => h)
  rintro _ s₂ ⟨h₂, -⟩
  have hattempts : Prog.Within (Changes []) (installAttempts env empty installMaxAttempts) :=
    within_installAttempts _ _
  refine wp_callback.2 (Prog.wp_bind.2 (Prog.wp_mono (hattempts.wp _) ?_ ?_))
  · intro _ w₃ _
    -- the user settings are back and recorded before anything else may raise
    have hpush : (pushUserSettings env charm).wp (fun _ _ => True) (fun _ _ => False) w₃ :=
      wp_ensureContents (fun _ _ _ => trivial) (fun _ _ => trivial) fun _ _ _ h => h henv
    refine Prog.wp_bind.2 (Prog.wp_mono hpush ?_ fun _ _ h => h.elim)
    intro _ w₄ _
    refine Prog.wp_bind.2 (Prog.wp_mono (requestLocalisationRebuild_spec henv) ?_ fun _ _ h => h.elim)
    intro _ w₅ hmarker
    have hrecorded : ∀ {w₆ : Workload}, Ticked w₅ w₆ → ∀ stored, Recorded stored w₆ := by
      rintro w₆ ⟨n, rfl⟩ stored
      exact recorded_of_marker hmarker
    refine Prog.wp_bind.2 (wp_doStep (fun w₆ ht₆ => ?_) fun _ _ ht _ => .inl (hrecorded ht _))
    exact wp_doStep (fun w₇ ht₇ => hrecorded (ht₆.trans ht₇) _) fun _ _ ht _ =>
      .inl (hrecorded (ht₆.trans ht) _)
  · exact fun _ _ hw₃ => h₂.changes hw₃ (by decide)

lemma install_tracked (henv : env.FilesSucceed)
    (h : Tracked P (recordedVersion charm.unit unreachable s) s.rest) :
    (install env charm).wp
      (fun _ s' => Tracked (P ∧ recordedVersion charm.unit unreachable s' =
        recordedVersion charm.unit unreachable s) (recordedVersion charm.unit unreachable s') s'.rest)
      (fun _ s' => Tracked True (recordedVersion charm.unit unreachable s') s'.rest) s := by
  refine Prog.wp_ite.2 ⟨fun _ => wp_callback.2 ?_, fun _ => ?_⟩
  · have hawait : Prog.Within (Changes []) (awaitInstallation env env.polls) :=
      within_awaitInstallation _
    refine Prog.wp_mono (hawait.wp _) ?_ ?_
    · exact fun _ _ hw₁ => (h.changes hw₁ (by decide)).mono fun hp => ⟨hp, rfl⟩
    · exact fun _ _ hw₁ => h.weaken.changes hw₁ (by decide)
  · refine Prog.wp_bind.2 (wp_callback.2 (wp_askFlag (fun empty w₁ ht₁ => ?_) fun _ _ ht =>
      h.weaken.ticked ht))
    have h₁ : Tracked P (recordedVersion charm.unit unreachable { s with rest := w₁ }) w₁ :=
      h.ticked ht₁
    exact Prog.wp_mono (installBlanked_tracked henv empty h₁) (fun _ _ h => .inl h) fun _ _ h => h

/-- The configuration leaves blanked user settings that are not recorded only where it has
found them and no rebuild was made. -/
lemma installAndConfigure_tracked (henv : env.FilesSucceed) (peerState : PeerState)
    (h : Recorded (recordedVersion charm.unit unreachable s) s.rest ∨
      ((charm.config.localSettings = "" → P) ∧
        Blanked (recordedVersion charm.unit unreachable s) s.rest)) :
    (installAndConfigure env charm peerState).wp
      (fun _ s' => Tracked (P ∧ recordedVersion charm.unit unreachable s' =
        recordedVersion charm.unit unreachable s) (recordedVersion charm.unit unreachable s') s'.rest)
      (fun _ s' => Tracked True (recordedVersion charm.unit unreachable s') s'.rest) s := by
  have hticked : ∀ {w₁ : Workload}, Ticked s.rest w₁ →
      Recorded (recordedVersion charm.unit unreachable s) w₁ ∨
        ((charm.config.localSettings = "" → P) ∧
          Blanked (recordedVersion charm.unit unreachable s) w₁) := fun ht =>
    Tracked.ticked h ht
  refine Prog.wp_bind.2 (wp_callback.2 (wp_askFlag (fun initialized w₁ ht₁ => ?_) fun _ _ ht =>
    Tracked.weaken (hticked ht)))
  have h₁ := hticked ht₁
  have hinstall : Prog.wp (if initialized then pure false else do
      let settingsChanged ← callback
        (settingsReconciliation env charm peerState.secrets .databaseUpdate none)
      install env charm
      pure settingsChanged : Prog (PeerWorld Workload) Exc Bool)
      (fun _ s₂ => Recorded (recordedVersion charm.unit unreachable s₂) s₂.rest ∨
        ((charm.config.localSettings = "" → P ∧ recordedVersion charm.unit unreachable s₂ =
            recordedVersion charm.unit unreachable s) ∧
          Blanked (recordedVersion charm.unit unreachable s₂) s₂.rest))
      (fun _ s₂ => Tracked True (recordedVersion charm.unit unreachable s₂) s₂.rest)
      { s with rest := w₁ } := by
    refine Prog.wp_ite.2 ⟨fun _ => Prog.wp_pure.2 ?_, fun _ => ?_⟩
    · exact h₁.imp_right fun ⟨hP, hb⟩ => ⟨fun hl => ⟨hP hl, rfl⟩, hb⟩
    refine Prog.wp_bind.2 (wp_callback.2 (Prog.wp_mono
      (settingsReconciliation_tracked henv peerState.secrets .databaseUpdate none h₁) ?_
      fun _ _ h => h))
    intro settingsChanged w₂ h₂
    refine Prog.wp_bind.2 (Prog.wp_mono (install_tracked henv h₂) ?_ fun _ _ h => h)
    exact fun _ s₃ h₃ => Prog.wp_pure.2 (Tracked.mono h₃ fun hp _ => hp)
  refine Prog.wp_bind.2 (Prog.wp_mono hinstall ?_ fun _ _ h => h)
  intro settingsChanged s₂ h₂
  refine Prog.wp_bind.2 (wp_callback.2 (Prog.wp_mono (settingsReconciliation_tracked henv
    peerState.secrets peerState.operationMode peerState.maintenanceMessage h₂) ?_ fun _ _ h => h))
  exact fun _ w₃ h₃ => Prog.wp_pure.2 h₃

/-! ### A cycle -/

/-- The publication changes nothing that the cache depends on. -/
lemma publishComposerLock_tracked [FiniteFloat F]
    (h : Tracked P (recordedVersion charm.unit unreachable s) s.rest) :
    (publishComposerLock env charm).wp
      (fun _ s' => recordedVersion charm.unit unreachable s' =
          recordedVersion charm.unit unreachable s ∧
        Tracked P (recordedVersion charm.unit unreachable s') s'.rest)
      (fun _ s' => Tracked P (recordedVersion charm.unit unreachable s') s'.rest) s := by
  refine Prog.wp_ite.2 ⟨fun _ => Prog.wp_pure.2 ⟨rfl, h⟩, fun _ => ?_⟩
  refine Prog.wp_bind.2 (wp_callback.2 (wp_pathExists (fun w₁ ht₁ => ?_) fun _ _ ht _ =>
    h.ticked ht))
  refine Prog.wp_ite.2 ⟨fun _ => Prog.wp_throw.2 (h.ticked ht₁), fun _ => ?_⟩
  refine Prog.wp_bind.2 (wp_callback.2 (wp_readText (fun lock w₂ ht₂ _ => ?_) fun _ _ ht _ =>
    h.ticked (ht₁.trans ht)))
  have h₂ : Tracked P (recordedVersion charm.unit unreachable s) w₂ := h.ticked (ht₁.trans ht₂)
  refine Prog.wp_bind.2 (Prog.wp_bind.2 (Prog.wp_bind.2 (Prog.wp_get.2 ?_)))
  split
  · next r hr =>
    have hr : s.relation = some r := hr
    have hpublished : ∀ published, Changes [.published] w₂ { w₂ with published := published } := by
      intro published p hp
      cases p with
      | published => exact absurd hp (by decide)
      | _ => rfl
    refine Prog.wp_pure.2 (Prog.wp_modify.2 (wp_callback.2 (Prog.wp_modify.2 ?_)))
    have hversion : ∀ app w, recordedVersion charm.unit unreachable ⟨some (r.setApp app), w⟩ =
        recordedVersion charm.unit unreachable s := by
      intro app w
      simp [recordedVersion, hr]
    refine ⟨hversion _ _, ?_⟩
    rw [hversion]
    exact h₂.changes (hpublished _) (by decide)
  · exact Prog.wp_throw.2 h₂

/-- What a failing command changes is no input of a rebuild. -/
lemma sameInputs_afterFailure [FiniteFloat F] (c : ComposerJson F) {r : ComposerRun}
    (hr : ¬ r.Succeeded) (w : Workload) : SameInputs w (afterFailure c r w) where
  parts p hp := by
    have hno : ∀ q ∈ trackedParts, q ∉ composerParts := by decide
    have huser : Part.file .userComposer ∈ composerParts := by decide
    have hlock : Part.file .composerLock ∈ composerParts := by decide
    suffices h : Changes composerParts w (afterFailure c r w) from h p (hno p hp)
    have hrun : Changes composerParts w (afterRun c r w) := by
      have hwritten : Changes composerParts w ((w.setFile .userComposer
          (some (.text (dumpsText c.json)))).setFile .composerLock r.lockAfter) :=
        (changes_setFile huser _ w).trans (changes_setFile hlock _ _)
      intro q hq
      cases q with
      | composerRuns => exact absurd hq (by decide)
      | file path => exact hwritten (.file path) hq
      | _ => rfl
    unfold afterFailure
    split
    · exact hrun
    · split
      · exact hrun.trans (changes_setFile huser _ _)
      · exact hrun.trans (changes_setFile hlock _ _)
  composerSuccesses := by
    rw [composerSuccesses, afterFailure_composerRuns, List.filter_cons_of_neg (by simpa using hr),
      composerSuccesses]

/-- A successful composer command is recorded before anything else may raise. -/
lemma reconcileComposer_tracked [FiniteFloat F] (henv : env.FilesSucceed) (peerState : PeerState)
    (force : Bool) (h : Tracked P stored w) :
    (reconcileComposer env charm peerState force).wp (fun _ w' => Tracked P stored w')
      (fun _ w' => Tracked P stored w') w := by
  have hrestart : ∀ p ∈ .composerRuns :: trackedParts, p ∉ [Part.file .restartRequired] := by
    decide
  refine reconcileComposer_spec peerState force (fun _ w' hw => h.changes hw hrestart)
    fun update w₁ hw₁ _ => ?_
  have h₁ := h.changes hw₁ hrestart
  refine Prog.wp_bind.2 (Prog.wp_mono (composerReconciliation_spec charm.config.composer update
    peerState.composerLock force) ?_ ?_)
  · intro composerRan w₂ hcases
    have h₂ : composerRan = false → Tracked P stored w₂ := by
      rintro rfl
      rcases hcases with ⟨-, -, -, ht⟩ | ⟨hran, -⟩
      · exact h₁.ticked ht
      · cases hran
    refine Prog.wp_bind.2 (Prog.wp_mono (recordChange_spec henv h₂) ?_ fun _ _ h => h.elim)
    rintro _ w₃ ⟨h₃, -⟩
    have hrobots : Prog.Within (Changes [.file .robotsTxt])
        (writeText env .robotsTxt charm.config.robotsTxt) := within_writeText (by decide) _
    refine Prog.wp_bind.2 (Prog.wp_mono (hrobots.wp w₃) ?_ fun _ _ hw => h₃.changes hw (by decide))
    exact fun _ w₄ hw₄ => Prog.wp_pure.2 (h₃.changes hw₄ (by decide))
  · intro e w₂ hfail
    rcases hfail henv with ⟨ht, -⟩ | ⟨-, r, -, hr, ht⟩
    · exact h₁.ticked ht
    · exact (h₁.sameInputs (sameInputs_afterFailure _ hr w₁)).ticked ht

lemma recordedVersion_start (c : Cycle F) (u : UnitState) :
    recordedVersion c.charm.unit u.l10nCacheVersion (c.start u) = u.l10nCacheVersion := by
  unfold recordedVersion Cycle.start
  cases c.peers with
  | none => rfl
  | some r => simp

variable [FiniteFloat F]

/-- An installation that failed has left the user settings blank, and nothing records that
the last rebuild has seen others. -/
def Forgotten (u : UnitState) : Prop :=
  Blanked u.l10nCacheVersion u.workload ∧ ¬ Recorded u.l10nCacheVersion u.workload

/-- The cycle does not meet forgotten blank settings while it wants them blank and neither
the version nor the caller asks for a rebuild. -/
def Sound (u : UnitState) (c : Cycle F) : Prop :=
  ¬ (Forgotten u ∧ c.charm.config.localSettings = "" ∧ c.forced = false ∧
    u.l10nCacheVersion = some c.charm.version)

/-- What a cycle leaves behind is tracked wherever it ends, and a sound cycle that returns
leaves an up-to-date cache. -/
lemma cycle_tracked {c : Cycle F} {u : UnitState} (henv : c.env.FilesSucceed)
    (h : Tracked True u.l10nCacheVersion u.workload) :
    (reconcileConfiguration c.env c.charm c.peerState c.force).wp
      (fun _ s' => Tracked True (recordedVersion c.charm.unit u.l10nCacheVersion s') s'.rest ∧
        (Sound u c → UpToDate c.charm.version s'.rest))
      (fun _ s' => Tracked True (recordedVersion c.charm.unit u.l10nCacheVersion s') s'.rest)
      (c.start u) := by
  -- blanked settings are lost track of only where they are wanted and were forgotten before
  have hstart : Tracked (c.charm.config.localSettings = "" →
      c.charm.config.localSettings = "" ∧ Forgotten u)
      (recordedVersion c.charm.unit u.l10nCacheVersion (c.start u)) u.workload := by
    rw [recordedVersion_start]
    by_cases hrecorded : Recorded u.l10nCacheVersion u.workload
    · exact .inl hrecorded
    · have hblanked := (h.resolve_left hrecorded).2
      exact .inr ⟨fun hl => ⟨hl, hblanked, hrecorded⟩, hblanked⟩
  refine Prog.wp_bind.2 (wp_callback.2 (Prog.wp_mono
    (reconcileComposer_tracked henv c.peerState c.forced hstart) ?_ fun _ _ h => h.weaken))
  intro composerRan w₁ h₁
  refine Prog.wp_bind.2 (Prog.wp_mono (installAndConfigure_tracked henv c.peerState h₁) ?_
    fun _ _ h => h)
  intro settingsChanged s₂ h₂
  refine Prog.wp_bind.2 (Prog.wp_mono (publishComposerLock_tracked h₂) ?_ fun _ _ h => h.weaken)
  rintro _ s₃ ⟨hversion, h₃⟩
  refine Prog.wp_mono (localisationCacheReconciliation_tracked henv settingsChanged composerRan
    c.forced h₃) ?_ fun _ _ h => h
  rintro _ s₄ ⟨h₄, hup⟩
  refine ⟨h₄, fun hsound => hup fun ⟨⟨hl, hforgotten⟩, hsame⟩ => ?_⟩
  have hstored : recordedVersion c.charm.unit u.l10nCacheVersion s₃ = u.l10nCacheVersion :=
    (hversion.trans hsame).trans (recordedVersion_start c u)
  rw [hstored]
  by_contra hno
  obtain ⟨hforce, hv⟩ := not_or.1 hno
  exact hsound ⟨hforgotten, hl, by simpa using hforce, not_not.1 hv⟩

/-! ### Runs -/

variable (F) in
/-- The cycles of a unit that has made no rebuild yet, in which file operations succeed. -/
def machine : Machine UnitState (Cycle F) where
  init u := u.l10nCacheVersion = none ∧ u.workload.rebuilds = []
  step u c u' := c.env.FilesSucceed ∧ u' = c.next u

/-- In every run, a sound cycle that returns leaves a cache that was rebuilt from the present
settings files, after the last successful composer command and under the present version. -/
theorem upToDate_of_sound {u : UnitState} (hu : (machine F).Reachable u) {c : Cycle F}
    (henv : c.env.FilesSucceed) (hsound : Sound u c) {s : PeerWorld Workload}
    (hrun : c.run u = (.ok (), s)) : UpToDate c.charm.version s.rest := by
  have hinv : (machine F).Invariant fun u => Tracked True u.l10nCacheVersion u.workload := by
    refine ⟨?_, ?_⟩
    · rintro u ⟨hversion, -⟩
      exact .inl (.inr (.inl hversion))
    · rintro u c u' hu ⟨henv, rfl⟩
      exact Prog.wp_state (cycle_tracked henv hu) (fun _ _ h => h.1) fun _ _ h => h
  exact (Prog.wp_of_ok (cycle_tracked henv (hinv.reachable hu)) hrun).2 hsound

/-- A unit whose container has only the lock of the image. -/
def freshUnit : UnitState where
  workload := { files := fun p => if p = .composerLock then some (.text "") else none }

/-- Surroundings in which nothing has changed, with the answers on the installation. -/
def answering (databaseInitialized : Bool) (installPreConfigured : ℤ) : Env where
  flag flag _ := .ok (match flag with
    | .certificateTransferReconcile | .tlsReconciliation => false
    | .isDatabaseInitialized => databaseInitialized
    | _ => true)
  script script _ := .ok (match script with
    | .installPreConfigured => installPreConfigured
    | .rebuildLocalisationCache => 0)
  composer _ := ⟨.ok 0, none⟩

/-- A cycle of the leader in `DATABASE_UPDATE` with the given `local_settings`. -/
def updating (env : Env) (localSettings : String) : Cycle Empty where
  env := env
  charm := { isLeader := true, config := { localSettings := localSettings } }
  peerState := { operationMode := .databaseUpdate }

lemma run_eq_of_isOk {c : Cycle F} {u : UnitState} (h : (c.run u).1.isOk = true) :
    c.run u = (.ok (), (c.run u).2) := by
  have hok : ∀ r : Except Exc Unit, r.isOk = true → r = .ok () := by
    rintro (e | ⟨⟩) hr
    · cases hr
    · rfl
  exact Prod.ext (hok _ h) rfl

/-- The first cycle of a unit rebuilds the cache. -/
theorem upToDate_of_sound_fresh :
    UpToDate "1.46.0" ((updating (answering true 0) "x").next freshUnit).workload := by
  have hfresh : Sound freshUnit (updating (answering true 0) "x") := by
    rintro ⟨⟨⟨-, r, rest, -, hstored, -⟩, -⟩, -⟩
    cases hstored
  have hrun : ((updating (answering true 0) "x").run freshUnit).1.isOk = true := by decide +kernel
  exact upToDate_of_sound (.init ⟨rfl, rfl⟩) (fun _ => rfl) hfresh (run_eq_of_isOk hrun)

/-! ### Blank user settings that were forgotten -/

/-- The user settings are `x`, the database is lost and its installation fails, and then the
user settings are wanted empty. -/
def forgottenUnit : UnitState :=
  (updating (answering false 1) "x").next ((updating (answering true 0) "x").next freshUnit)

/-- The last cycle finds the settings it wants and keeps a cache that was built from others. -/
theorem not_upToDate_forgotten : ¬ ∀ u, (machine Empty).Reachable u → ∀ c : Cycle Empty,
    c.env.FilesSucceed → ∀ s, c.run u = (.ok (), s) → UpToDate c.charm.version s.rest := by
  intro h
  have hreach : (machine Empty).Reachable forgottenUnit :=
    .step (.step (.init ⟨rfl, rfl⟩) ⟨fun _ => rfl, rfl⟩) ⟨fun _ => rfl, rfl⟩
  have hrun : ((updating (answering true 0) "").run forgottenUnit).1.isOk = true := by
    decide +kernel
  obtain ⟨r, rest, hr, -, -, huser⟩ := h _ hreach _ (fun _ => rfl) _ (run_eq_of_isOk hrun)
  have hrebuilds : ((updating (answering true 0) "").run forgottenUnit).2.rest.rebuilds.map
      (·.userSettings) = [some (.text "x")] := by decide +kernel
  have hblank : ((updating (answering true 0) "").run forgottenUnit).2.rest.files .userSettings =
      some (.text "") := by decide +kernel
  rw [hr, List.map_cons, huser, hblank] at hrebuilds
  simp at hrebuilds

end LocalisationCache
end MediawikiCharm
