/-
Reconciliation of the Composer files (`mediawiki/_composer.py`).

The wanted `composer.user.json` and, for an install, the wanted `composer.lock` are written
before the command runs.  A call is skipped when the files hold what is wanted already.  A
command that exits with an error leaves a marker: an update a key in `composer.user.json`,
an install an empty `composer.lock`.
-/
import MediawikiCharm.State
import MediawikiCharm.Workload

namespace MediawikiCharm
namespace Composer

open Json PyText Workload

variable {F : Type} [FiniteFloat F] (env : Env)

/-- The key of the marker of a failed update. -/
def charmErrorKey : PyStr := lit "_charm_error"

/-- The value of the marker of a failed update. -/
def charmError : PyStr := lit "Composer update failed"

/-- `{**composer_json, "_charm_error": "Composer update failed"}` -/
def failed (composerJson : ComposerJson F) : ComposerJson F :=
  composerJson.set charmErrorKey charmError (by decide) (by decide)

/-- `_should_skip_composer` -/
def shouldSkipComposer (composerJson : ComposerJson F) (updateDependencies : Bool)
    (lockContent : Option String) : Prog Workload Exc Bool := do
  if !(← pathExists env .userComposer) then
    pure composerJson.members.isEmpty
  else
    let text ← readText env .userComposer
    match (loadsText text : Option (Json F)) with
    | none => pure false
    | some currentJson =>
      if !pyEq currentJson composerJson.json then pure false
      else if updateDependencies then pure true
      else if !(← pathExists env .composerLock) then pure false
      else
        let lock ← readText env .composerLock
        pure (decide (some lock = lockContent))

/-- The composer command: `update` leaves a new `composer.lock`, `install` leaves the one it
has read. -/
def runComposer (update : Bool) : Prog Workload Exc ℤ := fun w =>
  let answer := env.composer w.clock
  let lockAfter := if update then answer.lock else w.files .composerLock
  (answer.result, { w.setFile .composerLock lockAfter with
    clock := w.clock + 1
    composerRuns := ⟨update, w.files .userComposer, w.files .composerLock, answer.result,
      lockAfter⟩ :: w.composerRuns })

/-- `_handle_composer_failure` -/
def handleComposerFailure (composerJson : ComposerJson F) (updateDependencies : Bool) :
    Prog Workload Exc Unit :=
  if updateDependencies then writeText env .userComposer (dumpsText (failed composerJson).json)
  else writeText env .composerLock ""

/-- The part of `_composer_reconciliation` from the first write on. -/
def writeAndRun (composerJson : ComposerJson F) (updateDependencies : Bool)
    (lockToWrite : Option String) : Prog Workload Exc Bool := do
  writeText env .userComposer (dumpsText composerJson.json)
  (match lockToWrite with
    | some lock => writeText env .composerLock lock
    | none => pure () : Prog Workload Exc Unit)
  let returnCode ← runComposer env updateDependencies
  if returnCode ≠ 0 then
    handleComposerFailure env composerJson updateDependencies
    throw (.blocked ("Composer " ++ (if updateDependencies then "update" else "install") ++
      " failed; see logs for details."))
  else
    pure true

/-- `_composer_reconciliation` -/
def composerReconciliation (composerJson : ComposerJson F) (updateDependencies : Bool)
    (lockContent : Option String) (force : Bool) : Prog Workload Exc Bool := do
  if updateDependencies = false ∧ lockContent = none then
    throw (.waiting "Waiting for leader to publish composer lock")
  else
    let lockToWrite := if updateDependencies then none else lockContent
    let skip ← (if force then pure false
      else shouldSkipComposer env composerJson updateDependencies lockContent :
        Prog Workload Exc Bool)
    if skip then pure false else writeAndRun env composerJson updateDependencies lockToWrite

/-! ### What a call does -/

/-- The files hold what is wanted, as `_should_skip_composer` sees it. -/
def Wanted (c : ComposerJson F) (update : Bool) (lock : Option String)
    (files : Path → Option Content) : Prop :=
  match files .userComposer with
  | none => c.members = []
  | some .undecodable => False
  | some (.text s) => ∃ v : Json F, loadsText (readAs s) = some v ∧ pyEq v c.json = true ∧
      (update = true ∨ ∃ t, files .composerLock = some (.text t) ∧ some (readAs t) = lock)

/-- A file that `_should_skip_composer` may read is not a text. -/
def Undecodable (update : Bool) (files : Path → Option Content) : Prop :=
  files .userComposer = some .undecodable ∨
    update = false ∧ files .composerLock = some .undecodable

/-- The command was started with the configuration and the lock on disk. -/
structure StartedFor (c : ComposerJson F) (updateDependencies : Bool) (lockContent : Option String)
    (files : Path → Option Content) (r : ComposerRun) : Prop where
  update : r.update = updateDependencies
  userComposer : r.userComposer = some (.text (dumpsText c.json))
  lock : r.lock = if updateDependencies then files .composerLock else lockContent.map .text
  lockAfter : updateDependencies = false → r.lockAfter = r.lock
  /-- An install is started with a lock only. -/
  lockContent_ne_none : updateDependencies = false → lockContent ≠ none

/-- The container after the command. -/
def afterRun (c : ComposerJson F) (r : ComposerRun) (w : Workload) : Workload :=
  { (w.setFile .userComposer (some (.text (dumpsText c.json)))).setFile .composerLock r.lockAfter with
    composerRuns := r :: w.composerRuns }

/-- The container after a command that failed: a return code leaves the marker. -/
def afterFailure (c : ComposerJson F) (r : ComposerRun) (w : Workload) : Workload :=
  match r.result with
  | .error _ => afterRun c r w
  | .ok _ =>
    if r.update then (afterRun c r w).setFile .userComposer (some (.text (dumpsText (failed c).json)))
    else (afterRun c r w).setFile .composerLock (some (.text ""))

lemma afterRun_userComposer (c : ComposerJson F) (r : ComposerRun) (w : Workload) :
    (afterRun c r w).files .userComposer = some (.text (dumpsText c.json)) := by
  simp [afterRun, setFile]

lemma afterRun_composerLock (c : ComposerJson F) (r : ComposerRun) (w : Workload) :
    (afterRun c r w).files .composerLock = r.lockAfter := by
  simp [afterRun, setFile]

lemma afterFailure_composerRuns (c : ComposerJson F) (r : ComposerRun) (w : Workload) :
    (afterFailure c r w).composerRuns = r :: w.composerRuns := by
  unfold afterFailure
  split
  · rfl
  · split <;> rfl

/-- A failed command leaves a text in `composer.user.json`. -/
lemma afterFailure_userComposer (c : ComposerJson F) (r : ComposerRun) (w : Workload) :
    ∃ s, (afterFailure c r w).files .userComposer = some (.text s) := by
  unfold afterFailure
  split
  · exact ⟨_, afterRun_userComposer c r w⟩
  · split
    · exact ⟨_, setFile_files_self ..⟩
    · have hne : Path.userComposer ≠ .composerLock := by decide
      exact ⟨_, (setFile_files_of_ne hne _ _).trans (afterRun_userComposer c r w)⟩

lemma afterFailure_ticked (c : ComposerJson F) (r : ComposerRun) {w w' : Workload}
    (h : Ticked w w') : Ticked (afterFailure c r w) (afterFailure c r w') := by
  obtain ⟨n, rfl⟩ := h
  unfold afterFailure
  split
  · exact ⟨n, rfl⟩
  · split
    · exact ⟨n, rfl⟩
    · exact ⟨n, rfl⟩

variable {env} {w : Workload}

lemma eq_undecodable {content : Option Content} (hsome : content ≠ none)
    (htext : ∀ s, content ≠ some (.text s)) : content = some .undecodable := by
  match content, hsome, htext with
  | some (.text s), _, htext => exact absurd rfl (htext s)
  | some .undecodable, _, _ => rfl

/-- `_should_skip_composer` returns whether the files hold what is wanted. -/
lemma shouldSkipComposer_spec (c : ComposerJson F) (update : Bool) (lock : Option String) :
    (shouldSkipComposer env c update lock).wp
      (fun skip w' => Ticked w w' ∧ (skip = true ↔ Wanted c update lock w.files))
      (fun _ w' => Ticked w w' ∧ (env.FilesSucceed → Undecodable update w.files)) w := by
  refine Prog.wp_bind.2 (wp_pathExists (fun w₁ ht₁ => ?_)
    fun e w' ht h => ⟨ht, fun hf => absurd hf h⟩)
  refine Prog.wp_ite.2 ⟨fun hnone => ?_, fun hsome => ?_⟩
  · have hfile : w.files .userComposer = none := by simpa using hnone
    refine Prog.wp_pure.2 ⟨ht₁, ?_⟩
    rw [Wanted, hfile]
    exact List.isEmpty_iff
  · obtain ⟨n₁, rfl⟩ := ht₁
    refine Prog.wp_bind.2 (wp_readText (fun s w₂ ht₂ hs => ?_) fun e w' ht h => ?_)
    · have hs : w.files .userComposer = some (.text s) := hs
      have ht₂ : Ticked w w₂ := Ticked.trans ⟨n₁, rfl⟩ ht₂
      have hwanted : Wanted c update lock w.files ↔ ∃ v : Json F, loadsText (readAs s) = some v ∧
          pyEq v c.json = true ∧ (update = true ∨
            ∃ t, w.files .composerLock = some (.text t) ∧ some (readAs t) = lock) := by
        rw [Wanted, hs]
      split
      · next hload =>
        refine Prog.wp_pure.2 ⟨ht₂, iff_of_false Bool.false_ne_true fun h => ?_⟩
        obtain ⟨v, hv, -⟩ := hwanted.1 h
        rw [hload] at hv
        cases hv
      · next v hload =>
        have hv : Wanted c update lock w.files ↔ pyEq v c.json = true ∧ (update = true ∨
            ∃ t, w.files .composerLock = some (.text t) ∧ some (readAs t) = lock) := by
          rw [hwanted, hload]
          simp
        refine Prog.wp_ite.2 ⟨fun hne => ?_, fun heq => Prog.wp_ite.2 ⟨fun hup => ?_, fun hup => ?_⟩⟩
        · refine Prog.wp_pure.2 ⟨ht₂, iff_of_false Bool.false_ne_true fun h => ?_⟩
          rw [(hv.1 h).1] at hne
          cases hne
        · have heq : pyEq v c.json = true := by simpa using heq
          exact Prog.wp_pure.2 ⟨ht₂, iff_of_true rfl (hv.2 ⟨heq, .inl hup⟩)⟩
        · have heq : pyEq v c.json = true := by simpa using heq
          obtain ⟨n₂, rfl⟩ := ht₂
          refine Prog.wp_bind.2 (wp_pathExists (fun w₃ ht₃ => ?_) fun e w' ht h =>
            ⟨Ticked.trans ⟨n₂, rfl⟩ ht, fun hf => absurd hf h⟩)
          have ht₃ : Ticked w w₃ := Ticked.trans ⟨n₂, rfl⟩ ht₃
          refine Prog.wp_ite.2 ⟨fun hnone => ?_, fun hsome => ?_⟩
          · refine Prog.wp_pure.2 ⟨ht₃, iff_of_false Bool.false_ne_true fun h => ?_⟩
            obtain ⟨t, ht, -⟩ := (hv.1 h).2.resolve_left hup
            have ht' : w.files .composerLock = none := by simpa using hnone
            rw [ht] at ht'
            cases ht'
          · obtain ⟨n₃, rfl⟩ := ht₃
            refine Prog.wp_bind.2 (wp_readText (fun t w₄ ht₄ ht => ?_) fun e w' ht h => ?_)
            · have ht : w.files .composerLock = some (.text t) := ht
              refine Prog.wp_pure.2 ⟨Ticked.trans ⟨n₃, rfl⟩ ht₄, ?_⟩
              rw [hv, decide_eq_true_iff]
              constructor
              · intro h
                exact ⟨heq, .inr ⟨t, ht, h⟩⟩
              · rintro ⟨-, hup' | ⟨t', ht', h⟩⟩
                · exact absurd hup' hup
                · rw [ht] at ht'
                  cases ht'
                  exact h
            · refine ⟨Ticked.trans ⟨n₃, rfl⟩ ht, fun hf => .inr ⟨by simpa using hup, ?_⟩⟩
              exact eq_undecodable (by simpa using hsome) (h.resolve_left (not_not.2 hf))
    · refine ⟨Ticked.trans ⟨n₁, rfl⟩ ht, fun hf => .inl ?_⟩
      exact eq_undecodable (by simpa using hsome) (h.resolve_left (not_not.2 hf))

/-- A text that `json.dumps` made is read as it was written. -/
lemma readAs_dumpsText (v : Json F) : readAs (dumpsText v) = dumpsText v := by
  rw [readAs_eq_self_iff, dumpsText, String.toList_ofList]
  intro h
  have hr := (printable_dumps v _ h).1
  revert hr
  decide

/-- With the text of a configuration in `composer.user.json`, that configuration has to be
equal to the wanted one. -/
lemma wanted_iff {c d : ComposerJson F} {update : Bool} {lock : Option String}
    {files : Path → Option Content} (h : files .userComposer = some (.text (dumpsText d.json))) :
    Wanted c update lock files ↔ pyEq d.json c.json = true ∧
      (update = true ∨ ∃ t, files .composerLock = some (.text t) ∧ some (readAs t) = lock) := by
  rw [Wanted, h]
  dsimp only
  rw [readAs_dumpsText, ComposerJson.loadsText_dumpsText]
  simp

/-- After a failed command the next call can read what it looks at. -/
lemma not_undecodable_afterFailure {c : ComposerJson F} {update : Bool} {lock : Option String}
    {r : ComposerRun} (hr : StartedFor c update lock w.files r) :
    ¬ Undecodable update (afterFailure c r w).files := by
  rintro (huser | ⟨rfl, hlock⟩)
  · obtain ⟨s, hs⟩ := afterFailure_userComposer c r w
    rw [hs] at huser
    cases huser
  · have htext : ∃ s, (afterFailure c r w).files .composerLock = some (.text s) := by
      unfold afterFailure
      split
      · cases lock with
        | none => exact absurd rfl (hr.lockContent_ne_none rfl)
        | some l => exact ⟨l, (afterRun_composerLock c r w).trans
            ((hr.lockAfter rfl).trans hr.lock)⟩
      · rw [hr.update, if_neg Bool.false_ne_true]
        exact ⟨"", setFile_files_self ..⟩
    obtain ⟨s, hs⟩ := htext
    rw [hs] at hlock
    cases hlock

lemma runComposer_spec (update : Bool) {Q : ℤ → Workload → Prop} {E : Exc → Workload → Prop}
    (h : ∀ r : ComposerRun, r.update = update → r.userComposer = w.files .userComposer →
      r.lock = w.files .composerLock → (update = false → r.lockAfter = r.lock) →
      ∀ w', Ticked { w.setFile .composerLock r.lockAfter with
        composerRuns := r :: w.composerRuns } w' →
        (∀ n, r.result = .ok n → Q n w') ∧ (∀ e, r.result = .error e → E e w')) :
    (runComposer env update).wp Q E w := by
  let r : ComposerRun := ⟨update, w.files .userComposer, w.files .composerLock,
    (env.composer w.clock).result,
    if update then (env.composer w.clock).lock else w.files .composerLock⟩
  have hafter : update = false → r.lockAfter = r.lock := by
    rintro rfl
    rfl
  obtain ⟨hQ, hE⟩ := h r rfl rfl rfl hafter (runComposer env update w).2 ⟨_, rfl⟩
  refine Prog.wp_iff.2 ⟨fun n w' hrun => ?_, fun e w' hrun => ?_⟩
  · rw [hrun] at hQ
    exact hQ n (congrArg Prod.fst hrun)
  · rw [hrun] at hE
    exact hE e (congrArg Prod.fst hrun)

lemma setFile_setFile (p : Path) (x y : Option Content) (w : Workload) :
    (w.setFile p x).setFile p y = w.setFile p y := by
  simp [setFile]

/-- The files once the wanted ones are written. -/
def written (c : ComposerJson F) (lock : Option String) (w : Workload) : Workload :=
  match lock with
  | none => w.setFile .userComposer (some (.text (dumpsText c.json)))
  | some l => (w.setFile .userComposer (some (.text (dumpsText c.json)))).setFile .composerLock
      (some (.text l))

lemma written_userComposer (c : ComposerJson F) (lock : Option String) (w : Workload) :
    (written c lock w).files .userComposer = some (.text (dumpsText c.json)) := by
  cases lock with
  | none => exact setFile_files_self ..
  | some l => exact (setFile_files_of_ne (by decide) _ _).trans (setFile_files_self ..)

lemma written_composerLock (c : ComposerJson F) (lock : Option String) (w : Workload) :
    (written c lock w).files .composerLock =
      if lock.isSome then lock.map .text else w.files .composerLock := by
  cases lock with
  | none => exact setFile_files_of_ne (by decide) _ _
  | some l => exact setFile_files_self ..

lemma written_setFile (c : ComposerJson F) (lock : Option String) (r : ComposerRun)
    (w : Workload) : { (written c lock w).setFile .composerLock r.lockAfter with
      composerRuns := r :: (written c lock w).composerRuns } = afterRun c r w := by
  cases lock with
  | none => rfl
  | some l => rw [written, setFile_setFile]; rfl

/-- From the first write on: the command is run for the configuration, and when it fails
its return code is recorded in a marker. -/
lemma writeAndRun_spec (c : ComposerJson F) (update : Bool) (lock : Option String)
    (hlock : lock.isSome = !update) :
    (writeAndRun env c update lock).wp
      (fun b w' => b = true ∧ ∃ r, StartedFor c update lock w.files r ∧ r.Succeeded ∧
        Ticked (afterRun c r w) w')
      (fun _ w' => env.FilesSucceed → ∃ r, StartedFor c update lock w.files r ∧ ¬ r.Succeeded ∧
        Ticked (afterFailure c r w) w') w := by
  refine Prog.wp_bind.2 (wp_writeText (fun w₁ ht₁ => ?_) fun _ _ _ h hf => absurd hf h)
  -- the lock is written for an install only
  have hwritten : Prog.wp (match lock with
      | some l => writeText env .composerLock l
      | none => pure ()) (fun _ w₂ => Ticked (written c lock w) w₂)
      (fun _ _ => ¬ env.FilesSucceed) w₁ := by
    obtain ⟨n₁, rfl⟩ := ht₁
    cases lock with
    | none => exact ⟨n₁, rfl⟩
    | some l =>
      refine wp_writeText (fun w₂ ht₂ => ?_) fun _ _ _ h => h
      exact Ticked.trans ⟨n₁, rfl⟩ ht₂
  refine Prog.wp_bind.2 (Prog.wp_mono hwritten ?_ fun _ _ h => fun hf => absurd hf h)
  rintro _ w₂ ⟨n₂, rfl⟩
  refine Prog.wp_bind.2 (runComposer_spec update fun r hup huser hl hafter w₃ ht₃ => ?_)
  have hstarted : StartedFor c update lock w.files r := by
    refine ⟨hup, huser.trans (written_userComposer c lock w), ?_, hafter, ?_⟩
    · rw [hl]
      refine (written_composerLock c lock w).trans ?_
      rw [hlock]
      cases update <;> rfl
    · rintro rfl rfl
      cases hlock
  have ht₃ : Ticked (afterRun c r w) w₃ := by
    rw [← written_setFile c lock r w]
    exact Ticked.trans ⟨n₂, rfl⟩ ht₃
  refine ⟨fun n hn => Prog.wp_ite.2 ⟨fun hne => ?_, fun hzero => ?_⟩, fun e he hf => ?_⟩
  · have hfail : ¬ r.Succeeded := by
      rw [ComposerRun.Succeeded, hn]
      intro h
      exact hne (Except.ok.inj h)
    have hmarked : (handleComposerFailure env c update).wp
        (fun _ w₄ => Ticked (afterFailure c r w) w₄) (fun _ _ => ¬ env.FilesSucceed) w₃ := by
      obtain ⟨n₃, rfl⟩ := ht₃
      cases update with
      | true =>
        refine wp_writeText (fun w₄ ht₄ => ?_) fun _ _ _ h => h
        rw [afterFailure, hn, hup]
        exact Ticked.trans ⟨n₃, rfl⟩ ht₄
      | false =>
        refine wp_writeText (fun w₄ ht₄ => ?_) fun _ _ _ h => h
        rw [afterFailure, hn, hup]
        exact Ticked.trans ⟨n₃, rfl⟩ ht₄
    exact Prog.wp_bind.2 (Prog.wp_mono hmarked (fun _ w₄ ht₄ _ => ⟨r, hstarted, hfail, ht₄⟩)
      fun _ _ h hf => absurd hf h)
  · have hzero : n = 0 := not_not.1 hzero
    refine Prog.wp_pure.2 ⟨rfl, r, hstarted, ?_, ht₃⟩
    rw [ComposerRun.Succeeded, hn, hzero]
  · refine ⟨r, hstarted, ?_, ?_⟩
    · rw [ComposerRun.Succeeded, he]
      intro h
      cases h
    · rw [afterFailure, he]
      exact ht₃

/-- A call is skipped, or the command is run; without a lock an install waits. -/
lemma composerReconciliation_spec (c : ComposerJson F) (update : Bool) (lock : Option String)
    (force : Bool) :
    (composerReconciliation env c update lock force).wp
      (fun b w' => (b = false ∧ force = false ∧ Wanted c update lock w.files ∧ Ticked w w') ∨
        (b = true ∧ (force = false → ¬ Wanted c update lock w.files) ∧
          ∃ r, StartedFor c update lock w.files r ∧ r.Succeeded ∧ Ticked (afterRun c r w) w'))
      (fun _ w' => env.FilesSucceed →
        (Ticked w w' ∧ (update = false ∧ lock = none ∨ force = false ∧ Undecodable update w.files)) ∨
        ((force = false → ¬ Wanted c update lock w.files) ∧
          ∃ r, StartedFor c update lock w.files r ∧ ¬ r.Succeeded ∧
            Ticked (afterFailure c r w) w')) w := by
  refine Prog.wp_ite.2 ⟨fun hwait _ => .inl ⟨.refl w, .inl hwait⟩, fun hready => ?_⟩
  have hlock : (if update then none else lock).isSome = !update := by
    cases update with
    | true => rfl
    | false =>
      cases lock with
      | none => exact absurd ⟨rfl, rfl⟩ hready
      | some l => rfl
  have hskip : Prog.wp (if force then pure false else shouldSkipComposer env c update lock)
      (fun skip w₁ => Ticked w w₁ ∧ (skip = true → force = false ∧ Wanted c update lock w.files) ∧
        (skip = false → force = false → ¬ Wanted c update lock w.files))
      (fun _ w₁ => Ticked w w₁ ∧ force = false ∧
        (env.FilesSucceed → Undecodable update w.files)) w := by
    refine Prog.wp_ite.2 ⟨fun hf => Prog.wp_pure.2 ⟨.refl w, nofun, fun _ h => ?_⟩, fun hf => ?_⟩
    · rw [hf] at h
      cases h
    · have hf : force = false := by simpa using hf
      refine Prog.wp_mono (shouldSkipComposer_spec c update lock) ?_ ?_
      · rintro skip w₁ ⟨ht, hiff⟩
        refine ⟨ht, fun h => ⟨hf, hiff.1 h⟩, fun h _ hw => ?_⟩
        rw [hiff.2 hw] at h
        cases h
      · rintro e w₁ ⟨ht, h⟩
        exact ⟨ht, hf, h⟩
  refine Prog.wp_bind.2 (Prog.wp_mono hskip ?_ ?_)
  · rintro skip w₁ ⟨⟨n₁, rfl⟩, hyes, hno⟩
    refine Prog.wp_ite.2 ⟨fun h => ?_, fun h => ?_⟩
    · obtain ⟨hf, hw⟩ := hyes h
      exact Prog.wp_pure.2 (.inl ⟨rfl, hf, hw, n₁, rfl⟩)
    · have hno := hno (by simpa using h)
      have hrun {r : ComposerRun} (hr : StartedFor c update (if update then none else lock)
          w.files r) : StartedFor c update lock w.files r := by
        refine ⟨hr.update, hr.userComposer, ?_, hr.lockAfter, ?_⟩
        · rw [hr.lock]
          cases update <;> rfl
        · rintro rfl
          exact hr.lockContent_ne_none rfl
      refine Prog.wp_mono (writeAndRun_spec c update _ hlock) ?_ ?_
      · rintro b w' ⟨hb, r, hr, hs, ht⟩
        exact .inr ⟨hb, hno, r, hrun hr, hs, Ticked.trans ⟨n₁, rfl⟩ ht⟩
      · intro e w' h hf
        obtain ⟨r, hr, hs, ht⟩ := h hf
        exact .inr ⟨hno, r, hrun hr, hs, (afterFailure_ticked c r ⟨n₁, rfl⟩).trans ht⟩
  · rintro e w₁ ⟨ht, hf, h⟩ hfs
    exact .inl ⟨ht, .inr ⟨hf, h hfs⟩⟩

end Composer
end MediawikiCharm
