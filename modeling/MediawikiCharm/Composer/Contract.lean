/-
What a reconciliation of the Composer files promises.

A non-leader that returns normally has installed exactly the lock and configuration it was
given, or has found that lock on disk: this fails for the empty configuration before the
first command, when the lock on disk is not looked at.  After a command that failed, the
next call runs Composer again exactly when the failure was recorded.
-/
import MediawikiCharm.Composer

namespace MediawikiCharm
namespace Composer

open Json PyText Workload

variable {F : Type} [FiniteFloat F]

/-! ### Adoption of the lock of the leader -/

/-- The file holds a text that is read as `lock`. -/
def LockOnDisk (lock : String) (w : Workload) : Prop :=
  ∃ t, w.files .composerLock = some (.text t) ∧ readAs t = lock

/-- An install succeeded with exactly this lock and configuration on disk. -/
def Installed (c : ComposerJson F) (lock : String) (w w' : Workload) : Prop :=
  ∃ r, w'.composerRuns = r :: w.composerRuns ∧ r.update = false ∧ r.Succeeded ∧
    r.userComposer = some (.text (dumpsText c.json)) ∧ r.lock = some (.text lock) ∧
    w'.files .userComposer = r.userComposer ∧ w'.files .composerLock = r.lock

/-- What a normal return promises a non-leader: the lock was installed, or nothing was
written and it was on disk. -/
def Adopted (c : ComposerJson F) (lock : String) (w w' : Workload) : Prop :=
  Installed c lock w w' ∨
    (w'.files = w.files ∧ w'.composerRuns = w.composerRuns ∧ LockOnDisk lock w)

lemma installed_of_startedFor {c : ComposerJson F} {lock : String} {r : ComposerRun}
    {w w' : Workload} (hr : StartedFor c false (some lock) w.files r) (hs : r.Succeeded)
    (ht : Ticked (afterRun c r w) w') : Installed c lock w w' := by
  obtain ⟨n, rfl⟩ := ht
  have hlock : r.lock = some (.text lock) := hr.lock
  refine ⟨r, rfl, hr.update, hs, hr.userComposer, hlock, ?_, ?_⟩
  · rw [hr.userComposer]
    exact afterRun_userComposer c r w
  · rw [← hr.lockAfter rfl]
    exact afterRun_composerLock c r w

/-- The wanted files of a non-leader include its lock, unless nothing was ever written. -/
lemma lockOnDisk_of_wanted {c : ComposerJson F} {lock : String} {w : Workload}
    (h : Wanted c false (some lock) w.files)
    (hne : ¬ (w.files .userComposer = none ∧ c.members = [] ∧ ¬ LockOnDisk lock w)) :
    LockOnDisk lock w := by
  unfold Wanted at h
  split at h
  · next hnone =>
    by_contra hlock
    exact hne ⟨hnone, h, hlock⟩
  · exact h.elim
  · obtain ⟨v, -, -, hup | ⟨t, ht, hread⟩⟩ := h
    · cases hup
    · exact ⟨t, ht, Option.some.inj hread⟩

/-- The shared early exit: without `composer.user.json` and with an empty configuration the
call is skipped, whatever the lock on disk is. -/
lemma skipped_of_members_eq_nil {c : ComposerJson F} {lock : String} {w : Workload}
    (hfile : w.files .userComposer = none) (hc : c.members = []) (result : ComposerResult) :
    composerReconciliation (.quiet result) c false (some lock) false w =
      (.ok false, { w with clock := w.clock + 1 }) := by
  have hexists : pathExists (.quiet result) .userComposer w =
      (.ok false, { w with clock := w.clock + 1 }) := by
    simp [pathExists, doStep, ask, Env.quiet, Prog.bind_run, hfile]
  have hskip : shouldSkipComposer (.quiet result) c false (some lock) w =
      (.ok true, { w with clock := w.clock + 1 }) := by
    rw [shouldSkipComposer, Prog.bind_run_ok hexists]
    simp [hc]
  rw [composerReconciliation, if_neg (by simp)]
  exact (Prog.bind_run_ok hskip).trans rfl

/-- A non-leader adopts the lock of the leader on every normal return, whatever Composer
does, except before the first command for an empty configuration when the lock on disk is
another one. -/
theorem adopted_iff (c : ComposerJson F) (lock : String) (force : Bool) (w : Workload) :
    (∀ env b w', composerReconciliation env c false (some lock) force w = (.ok b, w') →
      Adopted c lock w w') ↔
      ¬ (force = false ∧ w.files .userComposer = none ∧ c.members = [] ∧ ¬ LockOnDisk lock w) := by
  constructor
  · rintro h ⟨rfl, hfile, hc, hlock⟩
    have hrun : composerReconciliation (.quiet ⟨.ok 0, none⟩) c false (some lock) false w = _ :=
      skipped_of_members_eq_nil hfile hc ⟨.ok 0, none⟩
    rcases h _ _ _ hrun with ⟨r, hruns, -⟩ | ⟨-, -, hd⟩
    · have hlen := congrArg List.length hruns
      simp at hlen
    · exact hlock hd
  · intro hne env b w' hrun
    rcases Prog.wp_of_ok (composerReconciliation_spec c false (some lock) force) hrun with
      ⟨-, hf, hw, n, rfl⟩ | ⟨-, -, r, hr, hs, ht⟩
    · exact .inr ⟨rfl, rfl, lockOnDisk_of_wanted hw fun h => hne ⟨hf, h⟩⟩
    · exact .inl (installed_of_startedFor hr hs ht)

/-- The call is skipped for an empty configuration while `composer.lock` holds a text that
is not the lock of the leader. -/
theorem not_adopted_staleLock :
    ¬ ∀ (c : ComposerJson Empty) (lock : String) (force : Bool) (w : Workload) (env : Env)
      (b : Bool) (w' : Workload),
      composerReconciliation env c false (some lock) force w = (.ok b, w') →
        Adopted c lock w w' := by
  intro h
  let w : Workload :=
    { files := fun p => if p = .composerLock then some (.text "lock of the image") else none }
  rcases h .empty "lock of the leader" false w (.quiet ⟨.ok 0, none⟩) false
    { w with clock := 1 } rfl with ⟨r, hr, -⟩ | ⟨-, -, t, ht, hread⟩
  · cases hr
  · obtain rfl : "lock of the image" = t := by simpa [w] using ht
    exact absurd hread (by decide)

/-! ### The call after a failure -/

/-- The next call runs Composer again and does not report the files as unchanged. -/
def RunsAgain (c : ComposerJson F) (update : Bool) (lock : Option String) (w : Workload) : Prop :=
  ∀ env : Env, env.FilesSucceed → ∀ result w',
    composerReconciliation env c update lock false w = (result, w') →
      result ≠ .ok false ∧ ∃ r, w'.composerRuns = r :: w.composerRuns

/-- The failure of a command is seen by the next call: the command has exited with a return
code, and the marker is not what is wanted anyway.  Nothing records an exception; a lock
with a carriage return is never read back as it was written, and so is written again. -/
def FailureRecorded (c : ComposerJson F) (update : Bool) (lock : Option String)
    (result : Except Exc ℤ) : Prop :=
  match result with
  | .ok _ =>
    if update then c.members.lookup charmErrorKey ≠ some (.str charmError) else lock ≠ some ""
  | .error _ => update = false ∧ ∀ l, lock = some l → '\r' ∈ l.toList

lemma filesSucceed_quiet (result : ComposerResult) : (Env.quiet result).FilesSucceed :=
  fun _ => rfl

/-- The call is skipped exactly when the files hold what is wanted. -/
lemma runsAgain_iff {c : ComposerJson F} {update : Bool} {lock : Option String} {w : Workload}
    (hlock : update = false → lock ≠ none) (hdec : ¬ Undecodable update w.files) :
    RunsAgain c update lock w ↔ ¬ Wanted c update lock w.files := by
  have hstop : ¬ (update = false ∧ lock = none ∨ (false = false ∧ Undecodable update w.files)) := by
    rintro (⟨hup, hnone⟩ | ⟨-, h⟩)
    · exact hlock hup hnone
    · exact hdec h
  constructor
  · intro h hw
    rcases hrun : composerReconciliation (.quiet ⟨.ok 0, none⟩) c update lock false w with
      ⟨e | b, w'⟩
    · rcases Prog.wp_of_error (composerReconciliation_spec c update lock false) hrun
        (filesSucceed_quiet _) with ⟨-, hs⟩ | ⟨hno, -⟩
      · exact hstop hs
      · exact hno rfl hw
    · rcases Prog.wp_of_ok (composerReconciliation_spec c update lock false) hrun with
        ⟨rfl, -⟩ | ⟨-, hno, -⟩
      · exact (h _ (filesSucceed_quiet _) _ _ hrun).1 rfl
      · exact hno rfl hw
  · intro hw env henv result w' hrun
    cases result with
    | error e =>
      refine ⟨nofun, ?_⟩
      rcases Prog.wp_of_error (composerReconciliation_spec c update lock false) hrun henv with
        ⟨-, hs⟩ | ⟨-, r, -, -, n, rfl⟩
      · exact absurd hs hstop
      · exact ⟨r, afterFailure_composerRuns c r w⟩
    | ok b =>
      rcases Prog.wp_of_ok (composerReconciliation_spec c update lock false) hrun with
        ⟨-, -, hw', -⟩ | ⟨rfl, -, r, -, -, n, rfl⟩
      · exact absurd hw' hw
      · exact ⟨nofun, r, rfl⟩

lemma pyEq_str_iff {t : PyStr} {v : Json F} : pyEq (.str t) v = true ↔ v = .str t := by
  cases v <;> simp [pyEq, num?, eq_comm]

/-- What a failed command leaves is what is wanted, unless its failure was recorded. -/
lemma wanted_afterFailure {c : ComposerJson F} {update : Bool} {lock : Option String}
    {r : ComposerRun} {w : Workload} (hr : StartedFor c update lock w.files r) :
    Wanted c update lock (afterFailure c r w).files ↔ ¬ FailureRecorded c update lock r.result := by
  have hself : pyEq c.json c.json = true := pyEq_self c.json c.wellFormed
  unfold afterFailure FailureRecorded
  rw [hr.update]
  cases r.result with
  | error e =>
    rw [wanted_iff (afterRun_userComposer c r w), afterRun_composerLock]
    cases update with
    | true => simp [hself]
    | false =>
      cases lock with
      | none => exact absurd rfl (hr.lockContent_ne_none rfl)
      | some l =>
        have hafter : r.lockAfter = some (.text l) := (hr.lockAfter rfl).trans hr.lock
        have hread := @readAs_eq_self_iff l
        rw [hafter]
        simp [hself, hread]
  | ok n =>
    cases update with
    | true =>
      have huser : ((afterRun c r w).setFile .userComposer
          (some (.text (dumpsText (failed c).json)))).files .userComposer =
            some (.text (dumpsText (failed c).json)) := setFile_files_self ..
      have hkey : pyEq (failed c).json c.json = true ↔
          c.members.lookup charmErrorKey = some (.str charmError) := by
        refine (pyEq_insert c.wellFormed).trans ?_
        simp [pyEq_str_iff]
      rw [if_pos rfl, if_pos rfl, wanted_iff huser, hkey]
      simp
    | false =>
      have huser : ((afterRun c r w).setFile .composerLock (some (.text ""))).files .userComposer =
          some (.text (dumpsText c.json)) :=
        (setFile_files_of_ne (by decide) _ _).trans (afterRun_userComposer c r w)
      have hempty : readAs "" = "" := by decide
      rw [if_neg Bool.false_ne_true, if_neg Bool.false_ne_true, wanted_iff huser,
        setFile_files_self]
      simp [hself, hempty, eq_comm]

/-- After a command that failed, the next call runs Composer again exactly when the failure
was recorded. -/
theorem runsAgain_iff_recorded {env : Env} {c : ComposerJson F} {update : Bool}
    {lock : Option String} {force : Bool} {w w' : Workload} {e : Exc} {r : ComposerRun}
    (henv : env.FilesSucceed)
    (hfail : composerReconciliation env c update lock force w = (.error e, w'))
    (hran : w'.composerRuns = r :: w.composerRuns) :
    RunsAgain c update lock w' ↔ FailureRecorded c update lock r.result := by
  rcases Prog.wp_of_error (composerReconciliation_spec c update lock force) hfail henv with
    ⟨⟨n, rfl⟩, -⟩ | ⟨-, r', hr, -, n, rfl⟩
  · have hlen := congrArg List.length hran
    simp at hlen
  · have hruns := afterFailure_composerRuns c r' w
    obtain rfl : r' = r := (List.cons.inj (hruns.symm.trans hran)).1
    have hnext : RunsAgain c update lock { afterFailure c r' w with clock := n } ↔
        ¬ Wanted c update lock (afterFailure c r' w).files :=
      runsAgain_iff hr.lockContent_ne_none (not_undecodable_afterFailure hr)
    rw [hnext, wanted_afterFailure hr, not_not]

/-- An update that exits with return code 1 is run again by the next call. -/
theorem runsAgain_iff_recorded_exit :
    RunsAgain (.empty : ComposerJson Empty) true none
      (composerReconciliation (.quiet ⟨.ok 1, none⟩) (.empty : ComposerJson Empty) true none true
        {}).2 :=
  (@runsAgain_iff_recorded Empty _ (.quiet ⟨.ok 1, none⟩) .empty true none true {} _
    (.blocked "Composer update failed; see logs for details.")
    ⟨true, some (.text (dumpsText (.obj [] : Json Empty))), none, .ok 1, none⟩
    (filesSucceed_quiet _) rfl rfl).2 (by simp [FailureRecorded, ComposerJson.empty])

/-- An update whose command timed out is skipped by the next call. -/
theorem not_runsAgain_timeout :
    ¬ ∀ (env : Env) (c : ComposerJson Empty) (update : Bool) (lock : Option String) (force : Bool)
      (w w' : Workload) (e : Exc) (r : ComposerRun), env.FilesSucceed →
      composerReconciliation env c update lock force w = (.error e, w') →
      w'.composerRuns = r :: w.composerRuns → RunsAgain c update lock w' := by
  intro h
  let timeout : Exc := .containerError
    "Container command execution timed out; see logs for details."
  have hfail : composerReconciliation (.quiet ⟨.error timeout, none⟩) (.empty : ComposerJson Empty)
      true none true {} = (.error timeout, (composerReconciliation (.quiet ⟨.error timeout, none⟩)
        (.empty : ComposerJson Empty) true none true {}).2) := rfl
  have hagain := h _ _ _ _ _ _ _ _ ⟨true, some (.text (dumpsText (.obj [] : Json Empty))), none,
    .error timeout, none⟩ (filesSucceed_quiet _) hfail rfl
  -- the next call finds the configuration it wants
  exact (hagain (.quiet ⟨.ok 0, none⟩) (filesSucceed_quiet _) (.ok false) _ rfl).1 rfl

end Composer
end MediawikiCharm
