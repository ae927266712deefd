/-
The `composer.lock` that is published across changes of the leader.

A command that fails leaves its marker where its own path looks for it: an update in
`composer.user.json`, an install in `composer.lock`.  A leader looks at `composer.user.json`
only.  A unit whose install failed and that becomes the leader finds the configuration it
wants, skips Composer and publishes the emptied lock.  Where every such skip follows a
command that succeeded for that `composer.user.json`, every lock that is published is the
one of the last successful command for its configuration.
-/
import MediawikiCharm.Cycles

namespace MediawikiCharm
namespace Failover

open Json PyText Workload Services Settings Composer Peers MediawikiCharm.Core

variable {F : Type} [FiniteFloat F] {env : Env} {image : Option Content} {w w' : Workload}

/-! ### What is promised -/

variable (F) in
/-- The command was started for a configuration equal to `composer`. -/
def StartedWith (composer : String) (r : ComposerRun) : Prop :=
  ∃ s, ∃ v d : Json F, r.userComposer = some (.text s) ∧ loadsText (readAs s) = some v ∧
    loadsText composer = some d ∧ pyEq v d = true

variable (F) in
/-- The last command that succeeded for a configuration equal to `composer`. -/
def LastSuccess (composer : String) (runs : List ComposerRun) (r : ComposerRun) : Prop :=
  ∃ later earlier, runs = later ++ r :: earlier ∧ r.Succeeded ∧ StartedWith F composer r ∧
    ∀ r' ∈ later, ¬ (r'.Succeeded ∧ StartedWith F composer r')

/-- What `read_text` returns for the content of a file. -/
def ReadsAs (content : Option Content) (text : String) : Prop :=
  ∃ t, content = some (.text t) ∧ readAs t = text

variable (F) in
/-- The lock is that of the last successful command for the configuration, or that of the
image where no command was run. -/
def Valid (image : Option Content) (p : Publication) : Prop :=
  (p.composerRuns = [] ∧ ReadsAs image p.composerLock) ∨
    ∃ r, LastSuccess F p.composer p.composerRuns r ∧ ReadsAs r.lockAfter p.composerLock

/-! ### The lock on disk -/

/-- While no command was run the lock is that of the image, and after a command that
succeeded it is the one that the command left. -/
structure LockInv (image : Option Content) (w : Workload) : Prop where
  image : w.composerRuns = [] → w.files .composerLock = image
  succeeded : ∀ r rest, w.composerRuns = r :: rest → r.Succeeded →
    w.files .composerLock = r.lockAfter
  written : w.composerRuns ≠ [] → w.files .userComposer ≠ none

/-- The parts that Composer and the publication are about. -/
def lockParts : List Part :=
  [.file .userComposer, .file .composerLock, .composerRuns, .published]

lemma LockInv.changes {parts : List Part} (h : LockInv image w) (hw : Changes parts w w')
    (hparts : ∀ p ∈ lockParts, p ∉ parts) : LockInv image w' := by
  have huser : w'.files .userComposer = w.files .userComposer :=
    hw (.file .userComposer) (hparts _ (by decide))
  have hlock : w'.files .composerLock = w.files .composerLock :=
    hw (.file .composerLock) (hparts _ (by decide))
  have hruns : w'.composerRuns = w.composerRuns := hw .composerRuns (hparts _ (by decide))
  refine ⟨fun he => ?_, fun r rest he hs => ?_, fun he => ?_⟩
  · rw [hlock]
    exact h.image (hruns.symm.trans he)
  · rw [hlock]
    exact h.succeeded r rest (hruns.symm.trans he) hs
  · rw [huser]
    exact h.written (hruns ▸ he)

lemma LockInv.setUserComposer (h : LockInv image w) (content : Content) :
    LockInv image (w.setFile .userComposer (some content)) := by
  have hlock : (w.setFile .userComposer (some content)).files .composerLock =
      w.files .composerLock := setFile_files_of_ne (by decide) _ _
  refine ⟨fun he => ?_, fun r rest he hs => ?_, fun _ => ?_⟩
  · rw [hlock]
    exact h.image he
  · rw [hlock]
    exact h.succeeded r rest he hs
  · rw [setFile_files_self]
    exact nofun

/-- After a command that failed the lock may be anything. -/
lemma lockInv_of_failed {r : ComposerRun} {rest : List ComposerRun}
    (hruns : w.composerRuns = r :: rest) (hfail : ¬ r.Succeeded)
    (huser : w.files .userComposer ≠ none) : LockInv image w := by
  refine ⟨fun he => ?_, fun r' rest' he hs => ?_, fun _ => huser⟩
  · rw [hruns] at he
    cases he
  · rw [hruns] at he
    obtain rfl : r = r' := (List.cons.inj he).1
    exact absurd hs hfail

/-- The state in which a command was just started for `c`. -/
structure Ran (c : ComposerJson F) (w w' : Workload) (r : ComposerRun) : Prop where
  runs : w'.composerRuns = r :: w.composerRuns
  userComposer : r.userComposer = some (.text (dumpsText c.json))
  user : w'.files .userComposer = r.userComposer
  lock : w'.files .composerLock = r.lockAfter
  published : w'.published = w.published

/-- Composer keeps the invariant, however it ends. -/
lemma writeAndRun_lockInv (c : ComposerJson F) (update : Bool) (lock : Option String)
    (h : LockInv image w) :
    (writeAndRun env c update lock).wp (fun b w' => b = true ∧ LockInv image w' ∧
        ∃ r, r.Succeeded ∧ Ran c w w' r)
      (fun _ w' => LockInv image w' ∧ w'.published = w.published) w := by
  have hne : Path.userComposer ≠ .composerLock := by decide
  refine Prog.wp_bind.2 (wp_writeText (fun w₁ ht₁ => ?_) fun _ w' ht _ => ?_)
  · -- the lock is the one the command is started with
    refine Prog.wp_bind.2 (Prog.wp_mono (?_ : Prog.wp _
        (fun _ w₂ => w₂.composerRuns = w.composerRuns ∧ w₂.published = w.published ∧
          w₂.files .userComposer = some (.text (dumpsText c.json)))
        (fun _ w₂ => LockInv image w₂ ∧ w₂.published = w.published) w₁) ?_ fun _ _ h => h)
    · obtain ⟨n₁, rfl⟩ := ht₁
      have huser := @setFile_files_self .userComposer (some (.text (dumpsText c.json))) w
      cases lock with
      | none => exact ⟨rfl, rfl, huser⟩
      | some l =>
        refine wp_writeText (fun w₂ ht₂ => ?_) fun _ w₂ ht₂ _ => ?_
        · obtain ⟨n₂, rfl⟩ := ht₂
          exact ⟨rfl, rfl, (setFile_files_of_ne hne (some (.text l)) _).trans huser⟩
        · obtain ⟨n₂, rfl⟩ := ht₂
          obtain ⟨himage, hsucceeded, hwritten⟩ := h.setUserComposer (.text (dumpsText c.json))
          exact ⟨⟨himage, hsucceeded, hwritten⟩, rfl⟩
    rintro _ w₂ ⟨hruns, hpublished, huser⟩
    refine Prog.wp_bind.2 (runComposer_spec update fun r _ hr _ _ w₃ ht₃ => ?_)
    have hran : Ran c w w₃ r := by
      obtain ⟨n₃, rfl⟩ := ht₃
      refine ⟨by rw [← hruns], hr.trans huser, ?_, setFile_files_self .composerLock r.lockAfter w₂,
        hpublished⟩
      exact (setFile_files_of_ne hne r.lockAfter w₂).trans hr.symm
    have huser₃ : w₃.files .userComposer ≠ none := by
      rw [hran.user, hran.userComposer]
      exact Option.some_ne_none _
    refine ⟨fun n hn => Prog.wp_ite.2 ⟨fun hcode => ?_, fun hzero => ?_⟩, fun e he => ?_⟩
    · have hfail : ¬ r.Succeeded := by
        rw [ComposerRun.Succeeded, hn]
        intro hs
        exact hcode (Except.ok.inj hs)
      -- the marker is written or not
      have hmarker : (handleComposerFailure env c update).wp
          (fun _ w₄ => LockInv image w₄ ∧ w₄.published = w.published)
          (fun _ w₄ => LockInv image w₄ ∧ w₄.published = w.published) w₃ := by
        have hticked : ∀ {w₄ : Workload}, Ticked w₃ w₄ →
            LockInv image w₄ ∧ w₄.published = w.published := by
          rintro w₄ ⟨n₄, rfl⟩
          exact ⟨lockInv_of_failed hran.runs hfail huser₃, hran.published⟩
        cases update with
        | true =>
          refine wp_writeText (fun w₄ ht₄ => ?_) fun _ w₄ ht₄ _ => hticked ht₄
          obtain ⟨n₄, rfl⟩ := ht₄
          have hsome : (w₃.setFile .userComposer (some (.text (dumpsText (failed c).json)))).files
              .userComposer ≠ none := by
            rw [setFile_files_self]
            exact Option.some_ne_none _
          exact ⟨lockInv_of_failed hran.runs hfail hsome, hran.published⟩
        | false =>
          refine wp_writeText (fun w₄ ht₄ => ?_) fun _ w₄ ht₄ _ => hticked ht₄
          obtain ⟨n₄, rfl⟩ := ht₄
          have hsome : (w₃.setFile .composerLock (some (.text ""))).files .userComposer ≠ none := by
            rw [setFile_files_of_ne hne]
            exact huser₃
          exact ⟨lockInv_of_failed hran.runs hfail hsome, hran.published⟩
      exact Prog.wp_bind.2 (Prog.wp_mono hmarker (fun _ _ h => h) fun _ _ h => h)
    · obtain rfl : n = 0 := not_not.1 hzero
      refine Prog.wp_pure.2 ⟨rfl, ⟨fun he => ?_, fun r' rest he _ => ?_, fun _ => huser₃⟩, r, hn,
        hran⟩
      · rw [hran.runs] at he
        cases he
      · rw [hran.runs] at he
        obtain rfl : r = r' := (List.cons.inj he).1
        exact hran.lock
    · have hfail : ¬ r.Succeeded := by
        rw [ComposerRun.Succeeded, he]
        intro hs
        cases hs
      exact ⟨lockInv_of_failed hran.runs hfail huser₃, hran.published⟩
  · obtain ⟨n, rfl⟩ := ht
    exact ⟨⟨h.image, h.succeeded, h.written⟩, rfl⟩

/-- Composer keeps the invariant; it returns after a command that succeeded or is skipped
because the files hold what is wanted. -/
lemma composerReconciliation_lockInv (c : ComposerJson F) (update : Bool) (lock : Option String)
    (force : Bool) (h : LockInv image w) :
    (composerReconciliation env c update lock force).wp
      (fun _ w' => LockInv image w' ∧ w'.published = w.published ∧
        ((∃ r, r.Succeeded ∧ Ran c w w' r) ∨
          (force = false ∧ Wanted c update lock w.files ∧ Ticked w w')))
      (fun _ w' => LockInv image w' ∧ w'.published = w.published) w := by
  have hticked : ∀ {w₁ : Workload}, Ticked w w₁ → LockInv image w₁ ∧ w₁.published = w.published := by
    rintro w₁ ⟨n, rfl⟩
    exact ⟨⟨h.image, h.succeeded, h.written⟩, rfl⟩
  refine Prog.wp_ite.2 ⟨fun _ => hticked (.refl w), fun _ => ?_⟩
  have hskip : Prog.wp (if force then pure false else shouldSkipComposer env c update lock)
      (fun skip w₁ => Ticked w w₁ ∧ (skip = true → force = false ∧ Wanted c update lock w.files))
      (fun _ w₁ => Ticked w w₁) w := by
    refine Prog.wp_ite.2 ⟨fun _ => Prog.wp_pure.2 ⟨.refl w, nofun⟩, fun hf => ?_⟩
    have hf : force = false := by simpa using hf
    exact Prog.wp_mono (shouldSkipComposer_spec c update lock)
      (fun skip w₁ h => ⟨h.1, fun hs => ⟨hf, h.2.1 hs⟩⟩) fun _ _ h => h.1
  refine Prog.wp_bind.2 (Prog.wp_mono hskip ?_ fun _ _ ht => hticked ht)
  rintro skip w₁ ⟨ht, hyes⟩
  refine Prog.wp_ite.2 ⟨fun hs => ?_, fun _ => ?_⟩
  · obtain ⟨hf, hw⟩ := hyes hs
    exact Prog.wp_pure.2 ⟨(hticked ht).1, (hticked ht).2, .inr ⟨hf, hw, ht⟩⟩
  · refine Prog.wp_mono (writeAndRun_lockInv c update _ (hticked ht).1) ?_ ?_
    · rintro b w' ⟨-, hinv, r, hs, hruns, hr, huser, hlock, hpublished⟩
      obtain ⟨n, rfl⟩ := ht
      exact ⟨hinv, hpublished, .inl ⟨r, hs, hruns, hr, huser, hlock, hpublished⟩⟩
    · rintro e w' ⟨hinv, hpublished⟩
      exact ⟨hinv, hpublished.trans (hticked ht).2⟩

/-! ### What a leader may publish -/

/-- The lock on disk may be published for the configuration. -/
def Publishable (c : ComposerJson F) (image : Option Content) (w : Workload) : Prop :=
  ∀ lock, ReadsAs (w.files .composerLock) lock →
    Valid F image ⟨lock, dumpsText c.json, w.composerRuns⟩

lemma Publishable.changes {c : ComposerJson F} {parts : List Part} (h : Publishable c image w)
    (hw : Changes parts w w') (hparts : ∀ p ∈ lockParts, p ∉ parts) : Publishable c image w' := by
  have hlock : w'.files .composerLock = w.files .composerLock :=
    hw (.file .composerLock) (hparts _ (by decide))
  have hruns : w'.composerRuns = w.composerRuns := hw .composerRuns (hparts _ (by decide))
  intro lock hread
  rw [hruns]
  exact h lock (hlock ▸ hread)

/-- The last command has succeeded for what `composer.user.json` holds, if it exists. -/
def Confirmed (w : Workload) : Prop :=
  w.files .userComposer = none ∨ ∃ r rest, w.composerRuns = r :: rest ∧ r.Succeeded ∧
    r.userComposer = w.files .userComposer

lemma lastSuccess_head {composer : String} {r : ComposerRun} {rest : List ComposerRun}
    (hs : r.Succeeded) (hr : StartedWith F composer r) : LastSuccess F composer (r :: rest) r :=
  ⟨[], rest, rfl, hs, hr, List.forall_mem_nil _⟩

lemma publishable_of_ran {c : ComposerJson F} {r : ComposerRun} (hs : r.Succeeded)
    (hr : Ran c w w' r) : Publishable c image w' := by
  intro lock hread
  have hstarted : StartedWith F (dumpsText c.json) r := by
    refine ⟨dumpsText c.json, c.json, c.json, hr.userComposer, ?_, c.loadsText_dumpsText,
      pyEq_self c.json c.wellFormed⟩
    rw [readAs_dumpsText]
    exact c.loadsText_dumpsText
  refine .inr ⟨r, ?_, hr.lock ▸ hread⟩
  show LastSuccess F (dumpsText c.json) w'.composerRuns r
  rw [hr.runs]
  exact lastSuccess_head hs hstarted

/-- A leader that skips Composer may publish the lock it finds once the last command is
confirmed. -/
lemma publishable_of_wanted {c : ComposerJson F} {lock : Option String} (h : LockInv image w)
    (hw : Wanted c true lock w.files) (hc : Confirmed w) : Publishable c image w := by
  intro text hread
  unfold Wanted at hw
  split at hw
  · next hnone =>
    have hruns : w.composerRuns = [] := by
      by_contra hne
      exact h.written hne hnone
    rw [h.image hruns] at hread
    exact .inl ⟨hruns, hread⟩
  · exact hw.elim
  · next s huser =>
    obtain ⟨v, hv, heq, -⟩ := hw
    rcases hc with hnone | ⟨r, rest, hruns, hs, hr⟩
    · rw [huser] at hnone
      cases hnone
    · have hstarted : StartedWith F (dumpsText c.json) r :=
        ⟨s, v, c.json, hr.trans huser, hv, c.loadsText_dumpsText, heq⟩
      rw [h.succeeded r rest hruns hs] at hread
      refine .inr ⟨r, ?_, hread⟩
      show LastSuccess F (dumpsText c.json) w.composerRuns r
      rw [hruns]
      exact lastSuccess_head hs hstarted

/-! ### A cycle -/

/-- The cycle is none of a leader that skips Composer although the last command is not
confirmed. -/
def Sound (u : UnitState) (c : Cycle F) : Prop :=
  c.charm.isLeader = true → c.forced = false →
    Wanted c.charm.config.composer true none u.workload.files → Confirmed u.workload

/-- The lock on disk and the publications so far are as promised. -/
structure Inv (F : Type) [FiniteFloat F] (image : Option Content) (w : Workload) : Prop where
  lock : LockInv image w
  published : ∀ p ∈ w.published, Valid F image p

lemma Inv.changes {parts : List Part} (h : Inv F image w) (hw : Changes parts w w')
    (hparts : ∀ p ∈ lockParts, p ∉ parts) : Inv F image w' := by
  have hpublished : w'.published = w.published := hw .published (hparts _ (by decide))
  refine ⟨h.lock.changes hw hparts, fun p hp => h.published p ?_⟩
  rwa [hpublished] at hp

lemma Inv.ticked (h : Inv F image w) (hw : Ticked w w') : Inv F image w' := by
  obtain ⟨n, rfl⟩ := hw
  exact ⟨⟨h.lock.image, h.lock.succeeded, h.lock.written⟩, h.published⟩

/-- Whether Composer was run or skipped, a leader may publish the lock it has then. -/
lemma reconcileComposer_inv {charm : Charm F} {peerState : PeerState} {force : Bool}
    (h : Inv F image w) (hsound : charm.isLeader = true → force = false →
      Wanted charm.config.composer true none w.files → Confirmed w) :
    (reconcileComposer env charm peerState force).wp
      (fun _ w' => Inv F image w' ∧
        (charm.isLeader = true → Publishable charm.config.composer image w'))
      (fun _ w' => Inv F image w') w := by
  have hrestart : ∀ p ∈ lockParts, p ∉ [Part.file .restartRequired] := by decide
  refine reconcileComposer_spec peerState force (fun _ w' hw => h.changes hw hrestart)
    fun update w₁ hw₁ hupdate => ?_
  have h₁ := h.changes hw₁ hrestart
  refine Prog.wp_bind.2 (Prog.wp_mono (composerReconciliation_lockInv charm.config.composer update
    peerState.composerLock force h₁.lock) ?_ ?_)
  · rintro composerRan w₂ ⟨hlock₂, hpublished₂, hcases⟩
    have h₂ : Inv F image w₂ := ⟨hlock₂, fun p hp => h₁.published p (hpublished₂ ▸ hp)⟩
    have hpub : charm.isLeader = true → Publishable charm.config.composer image w₂ := by
      intro hleader
      rcases hcases with ⟨r, hs, hr⟩ | ⟨hforce, hwanted, n, rfl⟩
      · exact publishable_of_ran hs hr
      · -- the Composer files are still those the cycle has started with
        obtain rfl := hupdate hleader
        have huser : w₁.files .userComposer = w.files .userComposer :=
          hw₁ (.file .userComposer) (by decide)
        have hruns : w₁.composerRuns = w.composerRuns := hw₁ .composerRuns (by decide)
        have hconfirmed : Confirmed w₁ := by
          unfold Confirmed
          rw [huser, hruns]
          refine hsound hleader hforce ?_
          unfold Wanted at hwanted ⊢
          rw [huser] at hwanted
          split at hwanted
          · exact hwanted
          · exact hwanted
          · obtain ⟨v, hv, heq, -⟩ := hwanted
            exact ⟨v, hv, heq, .inl rfl⟩
        have hpub₁ := publishable_of_wanted h₁.lock hwanted hconfirmed
        exact hpub₁
    -- the marker and `robots.txt` are no files of Composer
    have hparts : ∀ p ∈ lockParts, p ∉ [Part.file .localisationRebuild, .file .robotsTxt] := by
      decide
    have hmarker : Prog.Within (Changes [.file .localisationRebuild, .file .robotsTxt])
        (if composerRan then requestLocalisationRebuild env else pure () : Prog Workload Exc Unit) :=
      .ite (within_requestLocalisationRebuild (by decide)) (.pure _)
    refine Prog.wp_bind.2 (Prog.wp_mono (hmarker.wp w₂) ?_ fun _ _ hw => h₂.changes hw hparts)
    intro _ w₃ hw₃
    have hrobots : Prog.Within (Changes [.file .localisationRebuild, .file .robotsTxt])
        (writeText env .robotsTxt charm.config.robotsTxt) := within_writeText (by decide) _
    refine Prog.wp_bind.2 (Prog.wp_mono (hrobots.wp w₃) ?_ fun _ _ hw =>
      h₂.changes (hw₃.trans hw) hparts)
    intro _ w₄ hw₄
    exact Prog.wp_pure.2 ⟨h₂.changes (hw₃.trans hw₄) hparts, fun hl =>
      (hpub hl).changes (hw₃.trans hw₄) hparts⟩
  · rintro e w₂ ⟨hlock₂, hpublished₂⟩
    exact ⟨hlock₂, fun p hp => h₁.published p (hpublished₂ ▸ hp)⟩

lemma publishComposerLock_inv {charm : Charm F} {s : PeerWorld Workload} (h : Inv F image s.rest)
    (hpub : charm.isLeader = true → Publishable charm.config.composer image s.rest) :
    (publishComposerLock env charm).wp (fun _ s' => Inv F image s'.rest)
      (fun _ s' => Inv F image s'.rest) s := by
  refine Prog.wp_ite.2 ⟨fun _ => Prog.wp_pure.2 h, fun hleader => ?_⟩
  have hleader : charm.isLeader = true := by simpa using hleader
  refine Prog.wp_bind.2 (wp_callback.2 (wp_pathExists (fun w₁ ht₁ => ?_) fun _ _ ht _ => h.ticked ht))
  refine Prog.wp_ite.2 ⟨fun _ => Prog.wp_throw.2 (h.ticked ht₁), fun _ => ?_⟩
  refine Prog.wp_bind.2 (wp_callback.2 (wp_readText (fun lock w₂ ht₂ hlock => ?_) fun _ _ ht _ =>
    h.ticked (ht₁.trans ht)))
  have ht : Ticked s.rest w₂ := ht₁.trans ht₂
  have hread : ReadsAs (s.rest.files .composerLock) (readAs lock) := by
    obtain ⟨n, rfl⟩ := ht₁
    exact ⟨lock, hlock, rfl⟩
  have hpublish : Prog.Within (RestChanges []) (publishState (D := Workload) (readAs lock)
      (charm.config.stateHash charm.hash)) := within_publishState _ _
  refine Prog.wp_bind.2 (Prog.wp_mono (hpublish.wp _) ?_ fun _ s' hs' =>
    (h.ticked ht).changes hs' (by decide))
  intro _ s₃ hs₃
  have h₃ := (h.ticked ht).changes hs₃ (by decide)
  have hruns : s₃.rest.composerRuns = s.rest.composerRuns := by
    obtain ⟨n, rfl⟩ := ht
    exact hs₃ .composerRuns (by decide)
  refine wp_callback.2 (Prog.wp_modify.2 ⟨⟨h₃.lock.image, h₃.lock.succeeded, h₃.lock.written⟩, ?_⟩)
  rintro p (_ | ⟨_, hp⟩)
  · rw [hruns]
    exact hpub hleader _ hread
  · exact h₃.published p hp

/-- A sound cycle keeps the invariant, wherever it ends. -/
lemma inv_next {u : UnitState} {c : Cycle F} (h : Inv F image u.workload) (hsound : Sound u c) :
    Inv F image (c.next u).workload := by
  suffices hwp : (reconcileConfiguration c.env c.charm c.peerState c.force).wp
      (fun _ s => Inv F image s.rest) (fun _ s => Inv F image s.rest) (c.start u) from
    Prog.wp_state hwp (fun _ _ h => h) fun _ _ h => h
  refine Prog.wp_bind.2 (wp_callback.2 (Prog.wp_mono (reconcileComposer_inv h hsound) ?_
    fun _ _ h => h))
  rintro composerRan w₁ ⟨h₁, hpub₁⟩
  have hconfigure : ∀ p ∈ lockParts, p ∉ configureParts := by decide
  refine Prog.wp_bind.2 (Prog.wp_mono ((within_installAndConfigure c.peerState).wp _) ?_
    fun _ _ hw => h₁.changes hw hconfigure)
  intro settingsChanged s₂ hs₂
  refine Prog.wp_bind.2 (Prog.wp_mono (publishComposerLock_inv (h₁.changes hs₂ hconfigure)
    fun hl => (hpub₁ hl).changes hs₂ hconfigure) ?_ fun _ _ h => h)
  intro _ s₃ h₃
  refine Prog.wp_mono ((within_localisationCacheReconciliation _ _ _).wp s₃) ?_ ?_
  · exact fun _ _ hw => h₃.changes hw (by decide)
  · exact fun _ _ hw => h₃.changes hw (by decide)

/-! ### Runs -/

variable (F) in
/-- The cycles of a unit that starts with the lock of the image. -/
def machine (image : Option Content) : Machine UnitState (Cycle F) where
  init u := u.workload.files .composerLock = image ∧ u.workload.files .userComposer = none ∧
    u.workload.composerRuns = [] ∧ u.workload.published = []
  step u c u' := u' = c.next u

/-- In every run of sound cycles every lock that was published is that of the last command
that succeeded for the published configuration, or that of the image. -/
theorem published_valid {u : UnitState} (h : ((machine F image).restrict Sound).Reachable u) :
    ∀ p ∈ u.workload.published, Valid F image p := by
  have hinv : ((machine F image).restrict Sound).Invariant fun u => Inv F image u.workload := by
    refine ⟨?_, ?_⟩
    · rintro u ⟨hlock, huser, hruns, hpublished⟩
      refine ⟨⟨fun _ => hlock, fun r rest he => ?_, fun hne => absurd hruns hne⟩, ?_⟩
      · rw [hruns] at he
        cases he
      · rw [hpublished]
        exact nofun
    · rintro u c u' hu ⟨hsound, rfl⟩
      exact inv_next hu hsound
  exact (hinv.reachable h).published

/-- The state of a unit that has only the lock of the image. -/
def imageUnit : UnitState where
  workload :=
    { files := fun p => if p = .composerLock then some (.text "lock of the image") else none }

/-- Surroundings in which nothing has changed and a composer command exits with a code. -/
def exiting (code : ℤ) : Env where
  flag flag _ := .ok (decide (flag ≠ .certificateTransferReconcile ∧ flag ≠ .tlsReconciliation))
  composer _ := ⟨.ok code, none⟩

/-- `{"a": null}` -/
def someComposer : ComposerJson Empty := ⟨[(lit "a", .null)], by decide⟩

/-- A non-leader that installs what the leader has published; the install exits with a code. -/
def installing (code : ℤ) : Cycle Empty where
  env := exiting code
  charm := { config := { composer := someComposer }, hash := fun _ => "hash" }
  peerState := { composerLock := some "lock of the leader", leaderStateHash := some "hash" }

/-- The same unit as the leader, with the same configuration. -/
def promoted : Cycle Empty where
  env := exiting 0
  charm := { isLeader := true, config := { composer := someComposer }, hash := fun _ => "hash" }

lemma confirmed_installing : Confirmed ((installing 0).next imageUnit).workload := by
  have hruns : ((installing 0).next imageUnit).workload.composerRuns.map (fun r =>
      (decide r.Succeeded, decide (r.userComposer =
        ((installing 0).next imageUnit).workload.files .userComposer))) = [(true, true)] := by
    decide +kernel
  obtain ⟨r, hr, hpair⟩ := List.map_eq_singleton_iff.1 hruns
  obtain ⟨hsucceeded, huser⟩ := Prod.mk.inj hpair
  exact .inr ⟨r, [], hr, of_decide_eq_true hsucceeded, of_decide_eq_true huser⟩

/-- After an install that succeeded the unit becomes the leader and publishes the lock that it was
given. -/
theorem published_valid_installed :
    ∃ p ∈ (promoted.next ((installing 0).next imageUnit)).workload.published,
      p.composerLock = "lock of the leader" ∧ p.composerRuns.length = 1 ∧
        Valid Empty (some (.text "lock of the image")) p := by
  have hpublished : (promoted.next ((installing 0).next imageUnit)).workload.published.map
      (fun p => (p.composerLock, p.composerRuns.length)) = [("lock of the leader", 1)] := by
    decide +kernel
  obtain ⟨p, hp, hpair⟩ := List.map_eq_singleton_iff.1 hpublished
  obtain ⟨hlock, hlength⟩ := Prod.mk.inj hpair
  have hmem : p ∈ (promoted.next ((installing 0).next imageUnit)).workload.published := by
    rw [hp]
    exact List.mem_cons_self
  refine ⟨p, hmem, hlock, hlength, published_valid (.step (.step (.init ⟨rfl, rfl, rfl, rfl⟩)
    ⟨?_, rfl⟩) ⟨fun _ _ _ => confirmed_installing, rfl⟩) p hmem⟩
  exact fun hleader => absurd hleader (by decide)

/-! ### A promotion after an install that failed -/

lemma composerReconciliation_skipped {c : ComposerJson F} {lock : Option String}
    (henv : env.FilesSucceed) (h : w.files .userComposer = some (.text (dumpsText c.json))) :
    composerReconciliation env c true lock false w =
      (.ok false, { w with clock := w.clock + 1 + 1 }) := by
  have hfile : ∀ w : Workload, doStep env .file w = (.ok (), { w with clock := w.clock + 1 }) := by
    intro w
    simp [doStep, ask, henv w.clock]
  have hexists : pathExists env .userComposer w = (.ok true, { w with clock := w.clock + 1 }) := by
    rw [pathExists, Prog.bind_run_ok (hfile w)]
    simp [Prog.bind_run, h]
  have hread : readText env .userComposer { w with clock := w.clock + 1 } =
      (.ok (readAs (dumpsText c.json)), { w with clock := w.clock + 1 + 1 }) := by
    rw [readText, Prog.bind_run_ok (hfile _)]
    simp [Prog.bind_run, h]
  have hskip : shouldSkipComposer env c true lock w =
      (.ok true, { w with clock := w.clock + 1 + 1 }) := by
    rw [shouldSkipComposer, Prog.bind_run_ok hexists, if_neg (by simp), Prog.bind_run_ok hread,
      readAs_dumpsText, c.loadsText_dumpsText]
    simp [pyEq_self c.json c.wellFormed]
  rw [composerReconciliation, if_neg (by simp)]
  exact (Prog.bind_run_ok hskip).trans rfl

lemma reconcileComposer_skipped {charm : Charm F} {peerState : PeerState} {force : Bool}
    {w₁ w₂ : Workload} (hleader : charm.isLeader = true)
    (hprepare : prepareConfiguration env w = (.ok (), w₁))
    (hskip : composerReconciliation env charm.config.composer true peerState.composerLock force w₁ =
      (.ok false, w₂)) :
    reconcileComposer env charm peerState force w = (do
      writeText env .robotsTxt charm.config.robotsTxt
      pure false : Prog Workload Exc Bool) w₂ := by
  rw [reconcileComposer, Prog.bind_run_ok hprepare]
  simp [hleader, Prog.bind_run, hskip]

lemma callback_run {α : Type} {x : Prog Workload Exc α} {s : PeerWorld Workload} {r : Except Exc α}
    (h : x s.rest = (r, w)) : callback x s = (r, { s with rest := w }) := by
  rw [callback, Prog.zoom, h]

/-- The failed command. -/
def failedRun : ComposerRun where
  update := false
  userComposer := some (.text (dumpsText someComposer.json))
  lock := some (.text "lock of the leader")
  result := .ok 1
  lockAfter := some (.text "lock of the leader")

/-- The container after the failed install. -/
def afterInstall : Workload where
  files
    | .userComposer => some (.text (dumpsText someComposer.json))
    | .composerLock => some (.text "")
    | _ => none
  clock := 13
  composerRuns := [failedRun]

lemma installing_next : (installing 1).next imageUnit = { workload := afterInstall } := by
  have hfiles : ((installing 1).next imageUnit).workload.files = afterInstall.files := by
    funext p
    cases p <;> rfl
  exact congrArg (fun files => ({ workload := { afterInstall with files := files } } : UnitState))
    hfiles

/-- The leader skips Composer and publishes the emptied lock. -/
lemma promoted_published : (promoted.next { workload := afterInstall }).workload.published.map
    (fun p => (p.composerLock, p.composerRuns.map fun r => decide r.Succeeded)) =
      [("", [false])] := by
  have hskip : composerReconciliation promoted.env promoted.charm.config.composer true
      promoted.peerState.composerLock
      (promoted.force || decide (promoted.peerState.operationMode = .forceReconciliation))
      { afterInstall with clock := 21 } = (.ok false, { afterInstall with clock := 23 }) :=
    composerReconciliation_skipped (fun _ => rfl) rfl
  have hcomposer := callback_run (s := promoted.start { workload := afterInstall })
    ((reconcileComposer_skipped (w := afterInstall) rfl rfl hskip).trans rfl)
  rw [Cycle.next, Cycle.run, reconcileConfiguration, Prog.bind_run_ok hcomposer]
  decide

/-- After an install that failed the unit becomes the leader and publishes the emptied lock. -/
theorem not_valid_promoted : ¬ ∀ u, (machine Empty (some (.text "lock of the image"))).Reachable u →
    ∀ p ∈ u.workload.published, Valid Empty (some (.text "lock of the image")) p := by
  intro h
  have hreach : (machine Empty (some (.text "lock of the image"))).Reachable
      (promoted.next ((installing 1).next imageUnit)) :=
    .step (.step (.init ⟨rfl, rfl, rfl, rfl⟩) rfl) rfl
  rw [installing_next] at hreach
  have hpublished : ("", [false]) ∈
      (promoted.next { workload := afterInstall }).workload.published.map
        (fun p => (p.composerLock, p.composerRuns.map fun r => decide r.Succeeded)) := by
    rw [promoted_published]
    exact List.mem_cons_self
  obtain ⟨p, hp, hpair⟩ := List.mem_map.1 hpublished
  obtain ⟨-, hfailed⟩ := Prod.mk.inj hpair
  -- the only command that was run has failed
  rcases h _ hreach p hp with ⟨hruns, -⟩ | ⟨r, ⟨later, earlier, hruns, hs, -⟩, -⟩
  · rw [hruns] at hfailed
    cases hfailed
  · have hmem : decide r.Succeeded ∈ [false] := by
      rw [← hfailed, hruns]
      simp
    rw [decide_eq_true hs] at hmem
    simp at hmem

end Failover
end MediawikiCharm
