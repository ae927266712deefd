/-
The command of git-sync (`_git_sync_command` and `_pebble_layer` of `git_sync.py`).

The command is a list of words, and the layer has them with a space between two of them and without
quotes.  By the rules of shell words that text has the same words exactly if the repository and the
reference need no quotes.
-/
import MediawikiCharm.GitSync
import MediawikiCharm.Lib.ShellWords

namespace MediawikiCharm
namespace GitSync

/-! ### The words -/

/-- The command for a repository. -/
def commandWords (config : GitSyncConfig) (sshKey : Option String) : List String :=
  baseCommand config ++
    (if sshKey.getD "" = "" then [] else ["--ssh-key-file", GitSyncFile.sshKey.path]) ++
    (if config.staticAssetsGitSparseCheckout = "" then []
      else ["--sparse-checkout-file", GitSyncFile.sparseCheckout.path])

/-- A text that needs no quotes. -/
def IsWord (w : String) : Prop := ShellWords.IsWord w.toList

instance (w : String) : Decidable (IsWord w) := inferInstanceAs (Decidable (ShellWords.IsWord _))

lemma isWord_commandWords_iff {config : GitSyncConfig} {sshKey : Option String} :
    (∀ w ∈ commandWords config sshKey, IsWord w) ↔
      IsWord config.staticAssetsGitRepo ∧
        (config.staticAssetsGitRef ≠ "" → IsWord config.staticAssetsGitRef) := by
  have hbase : (∀ w ∈ ["/git-sync", "--repo", config.staticAssetsGitRepo, "--root",
      "/mnt/static-assets", "--period", "10s", "--max-failures", "3", "--http-bind", ":8081",
      "--http-metrics", "--ssh-known-hosts-file", GitSyncFile.knownHosts.path, "--link", "repo"],
      IsWord w) ↔ IsWord config.staticAssetsGitRepo := by
    refine ⟨fun h => h _ (by simp), fun h => ?_⟩
    exact List.forall_mem_cons.2 ⟨by decide, List.forall_mem_cons.2 ⟨by decide,
      List.forall_mem_cons.2 ⟨h, by decide⟩⟩⟩
  have href : (∀ w ∈ (if config.staticAssetsGitRef = "" then []
      else ["--ref", config.staticAssetsGitRef]), IsWord w) ↔
        (config.staticAssetsGitRef ≠ "" → IsWord config.staticAssetsGitRef) := by
    split_ifs with hempty
    · exact iff_of_true (fun _ hw => absurd hw List.not_mem_nil) fun h => absurd hempty h
    · rw [List.forall_mem_cons, List.forall_mem_singleton]
      exact ⟨fun h _ => h.2, fun h => ⟨by decide, h hempty⟩⟩
  have hkey : ∀ w ∈ (if sshKey.getD "" = "" then []
      else ["--ssh-key-file", GitSyncFile.sshKey.path]), IsWord w := by
    split_ifs
    · exact fun _ hw => absurd hw List.not_mem_nil
    · decide
  have hsparse : ∀ w ∈ (if config.staticAssetsGitSparseCheckout = "" then []
      else ["--sparse-checkout-file", GitSyncFile.sparseCheckout.path]), IsWord w := by
    split_ifs
    · exact fun _ hw => absurd hw List.not_mem_nil
    · decide
  rw [commandWords, baseCommand, List.forall_mem_append, List.forall_mem_append,
    List.forall_mem_append, and_iff_left hsparse, and_iff_left hkey, hbase, href]

/-- The shell words of words with spaces between them. -/
lemma split_intercalate_iff (words : List String) :
    ShellWords.split (" ".intercalate words).toList = some (words.map String.toList) ↔
      ∀ w ∈ words, IsWord w := by
  have htext : (" ".intercalate words).toList = [' '].intercalate (words.map String.toList) := by
    rw [String.toList_intercalate]
    rfl
  rw [htext, ShellWords.split_intercalate_iff, List.forall_mem_map]
  rfl

/-! ### The files -/

variable {charm : GitSyncCharm} {env : GitSyncEnv}

/-- An operation that returns has had its effect. -/
lemma perform_spec (operation : Operation) (effect : GitSyncState → GitSyncState)
    (s : GitSyncState) : (perform env operation effect).wp
      (fun _ s' => s' = { effect s with clock := s.clock + 1 }) (fun _ _ => True) s := by
  unfold Prog.wp perform
  cases env.failure operation s.clock with
  | none => rfl
  | some failure => trivial

lemma fileExists_spec (file : GitSyncFile) (s : GitSyncState) :
    (fileExists env file).wp (fun b s' => b = (s.files file).isSome ∧ s'.files = s.files)
      (fun _ _ => True) s := by
  refine Prog.wp_bind.2 (Prog.wp_mono (perform_spec _ id s) ?_ fun _ _ h => h)
  rintro _ s' rfl
  exact Prog.wp_bind.2 (Prog.wp_get.2 (Prog.wp_pure.2 ⟨rfl, rfl⟩))

lemma files_setFile_of_ne {file other : GitSyncFile} (hne : other ≠ file)
    (content : Option String) (s : GitSyncState) :
    (s.setFile other content).files file = s.files file := Function.update_of_ne hne.symm _ _

/-- An operation that has no effect on a file. -/
lemma frame_file {operation : Operation} {effect : GitSyncState → GitSyncState} {file : GitSyncFile}
    (h : ∀ s, (effect s).files file = s.files file) :
    Prog.Frame (fun s => s.files file) (perform env operation effect) := by
  intro s
  unfold perform
  cases env.failure operation s.clock with
  | none => exact h s
  | some failure =>
    show (if failure.done then effect s else s).files file = s.files file
    split_ifs
    · exact h s
    · rfl

lemma frame_writeOther {file other : GitSyncFile} (hne : other ≠ file) (content : String) :
    Prog.Frame (fun s => s.files file) (writeText env other content) :=
  frame_file (files_setFile_of_ne hne _)

/-- A file that a content decides on: it is written or removed. -/
lemma writeOrRemove_spec {file : GitSyncFile} {wanted : Prop} [Decidable wanted]
    {write : Prog GitSyncState Exc Unit} (hwrite : ∀ s, write.wp
      (fun _ t => (t.files file).isSome = true) (fun _ _ => True) s) (s : GitSyncState) :
    (if wanted then write else do
      if ← fileExists env file then perform env (.unlink file) (.setFile file none)).wp
      (fun _ s' => (s'.files file).isSome = decide wanted) (fun _ _ => True) s := by
  refine Prog.wp_ite.2 ⟨fun hwanted => ?_, fun hwanted => ?_⟩
  · rw [decide_eq_true hwanted]
    exact hwrite s
  · rw [decide_eq_false hwanted]
    refine Prog.wp_bind.2 (Prog.wp_mono (fileExists_spec file s) ?_ fun _ _ h => h)
    rintro b s₁ ⟨rfl, hfiles⟩
    refine Prog.wp_ite.2 ⟨fun _ => ?_, fun habsent => ?_⟩
    · refine Prog.wp_mono (perform_spec _ _ s₁) ?_ fun _ _ h => h
      rintro _ s₂ rfl
      simp [GitSyncState.setFile]
    · refine Prog.wp_pure.2 ?_
      rw [hfiles]
      exact Bool.eq_false_iff.2 habsent

lemma writeText_spec (file : GitSyncFile) (content : String) (s : GitSyncState) :
    (writeText env file content).wp (fun _ s' => (s'.files file).isSome = true)
      (fun _ _ => True) s := by
  refine Prog.wp_mono (perform_spec _ _ s) ?_ fun _ _ h => h
  rintro _ s' rfl
  simp [GitSyncState.setFile]

/-- After the SSH step the key is there exactly if one is configured. -/
lemma sshConfigReconciliation_spec (config : GitSyncConfig) (sshKey : Option String)
    (s : GitSyncState) : (sshConfigReconciliation charm env config sshKey).wp
      (fun _ s' => (s'.files .sshKey).isSome = decide (sshKey.getD "" ≠ ""))
      (fun _ _ => True) s := by
  have hkey : (reconcileSshKey env sshKey).wp
      (fun _ s' => (s'.files .sshKey).isSome = decide (sshKey.getD "" ≠ ""))
      (fun _ _ => True) s := by
    refine writeOrRemove_spec (fun s => ?_) s
    exact Prog.wp_bind.2 (Prog.wp_mono (perform_spec _ id s)
      (fun _ s' _ => writeText_spec _ _ s') fun _ _ h => h)
  unfold sshConfigReconciliation sshReconcileConfig
  rw [Prog.bind_assoc]
  refine Prog.wp_bind.2 (Prog.wp_mono hkey (fun _ s₁ h₁ => ?_) fun _ _ h => h)
  rw [← h₁]
  refine Prog.wp_mono ((Prog.Frame.bind ?_ fun _ => .ofExcept _).wp s₁)
    (fun _ _ h => congrArg Option.isSome h) fun _ _ _ => trivial
  refine .bind (frame_file fun _ => rfl) fun _ => .bind (frame_writeOther (by decide) _) fun _ => ?_
  exact .bind (.ofExcept _) fun _ => .bind (frame_file fun _ => rfl) fun _ =>
    frame_writeOther (by decide) _

lemma sparseCheckoutReconciliation_spec (config : GitSyncConfig) (s : GitSyncState) :
    (sparseCheckoutReconciliation env config).wp
      (fun _ s' => (s'.files .sparseCheckout).isSome =
        decide (config.staticAssetsGitSparseCheckout ≠ "")) (fun _ _ => True) s :=
  writeOrRemove_spec (fun s => writeText_spec _ _ s) s

lemma frame_sparseCheckoutReconciliation (config : GitSyncConfig) :
    Prog.Frame (fun s => s.files .sshKey) (sparseCheckoutReconciliation env config) := by
  refine .ite (frame_writeOther (by decide) _) (.bind ?_ fun _ => .ite ?_ (.pure _))
  · exact .bind (frame_file fun _ => rfl) fun _ => .bind .get fun _ => .pure _
  · exact frame_file (files_setFile_of_ne (by decide) _)

/-! ### The service -/

/-- The files are those that the configuration asks for. -/
structure FilesFor (config : GitSyncConfig) (sshKey : Option String) (s : GitSyncState) : Prop where
  sshKey : (s.files .sshKey).isSome = decide (sshKey.getD "" ≠ "")
  sparseCheckout : (s.files .sparseCheckout).isSome =
    decide (config.staticAssetsGitSparseCheckout ≠ "")

/-- With these files the command is the one for the configuration. -/
lemma gitSyncCommand_words {config : GitSyncConfig} {sshKey : Option String} {s : GitSyncState}
    (hrepo : config.staticAssetsGitRepo ≠ "") (h : FilesFor config sshKey s) :
    (gitSyncCommand env config).wp (fun command _ => command = commandWords config sshKey)
      (fun _ _ => True) s := by
  unfold gitSyncCommand
  rw [if_neg hrepo]
  refine Prog.wp_bind.2 (Prog.wp_mono (fileExists_spec _ s) ?_ fun _ _ h => h)
  rintro _ s₁ ⟨rfl, hfiles₁⟩
  refine Prog.wp_bind.2 (Prog.wp_mono (fileExists_spec _ s₁) ?_ fun _ _ h => h)
  rintro _ s₂ ⟨rfl, -⟩
  refine Prog.wp_pure.2 ?_
  rw [hfiles₁, h.sshKey, h.sparseCheckout, commandWords]
  simp only [ne_eq, decide_not, Bool.not_eq_true', decide_eq_false_iff_not, ite_not]

/-- The enabled service of the command is planned and runs. -/
def Serves (charm : GitSyncCharm) (command : List String) (s : GitSyncState) : Prop :=
  s.pebble.plan serviceName = some (gitSyncService charm command false) ∧
    s.pebble.running serviceName = some (gitSyncService charm command false)

/-- A replan brings an enabled service up with the configuration of the plan. -/
lemma running_replanEnabled {p : Pebble} {service : String} {c : ServiceConfig}
    (hplan : p.plan service = some c) (hstartup : c.startupEnabled = true) :
    (p.touch p.replanEffect).running service = some c := by
  cases hrun : p.running service with
  | none =>
    have heffect : p.replanEffect service = .started := by
      simp [Pebble.replanEffect, hrun, hplan, hstartup]
    simp [Pebble.touch, heffect, hplan]
  | some c' =>
    by_cases hc : c = c'
    · have heffect : p.replanEffect service = .untouched := by
        simp [Pebble.replanEffect, hrun, hplan, hc]
      simp [Pebble.touch, heffect, hrun, hc]
    · have heffect : p.replanEffect service = .started := by
        simp [Pebble.replanEffect, hrun, hplan, hc]
      simp [Pebble.touch, heffect, hplan]

lemma reconcileServices_serves {config : GitSyncConfig} {sshKey : Option String} {s : GitSyncState}
    (hrepo : config.staticAssetsGitRepo ≠ "") (h : FilesFor config sshKey s) :
    (reconcileServices charm env config false).wp
      (fun _ s' => Serves charm (commandWords config sshKey) s') (fun _ _ => True) s := by
  refine Prog.wp_bind.2 (Prog.wp_bind.2 (Prog.wp_mono (gitSyncCommand_words hrepo h) ?_
    fun _ _ h => h))
  rintro _ s₁ rfl
  refine Prog.wp_pure.2 (Prog.wp_bind.2 (Prog.wp_mono (perform_spec _ _ s₁) ?_ fun _ _ h => h))
  rintro _ s₂ rfl
  have henabled : (gitSyncService charm (commandWords config sshKey) false).startupEnabled =
      true := by
    simp [gitSyncService, commandWords, baseCommand]
  unfold Prog.wp replan
  cases env.failure .replan _ with
  | some failure => trivial
  | none =>
    refine ⟨?_, running_replanEnabled ?_ henabled⟩
    · simp [Pebble.touch, Pebble.addLayer]
    · simp [Pebble.addLayer]

/-- A container that is not ready is left as it is. -/
lemma reconciliation_of_not_ready {sshKey : Option String} (h : env.isReady = .ok false)
    (s : GitSyncState) : reconciliation charm env sshKey s = (.ok (), s) := by
  unfold reconciliation
  rw [h]
  rfl

/-- With a repository configured, a reconciliation of a ready container that returns leaves git-sync
running with the command for the configuration. -/
lemma reconciliation_serves {config : GitSyncConfig} {sshKey : Option String}
    (hready : env.isReady = .ok true) (hconfig : env.config = .ok config)
    (hrepo : config.staticAssetsGitRepo ≠ "") (s : GitSyncState) :
    (reconciliation charm env sshKey).wp
      (fun _ s' => Serves charm (commandWords config sshKey) s') (fun _ _ => True) s := by
  unfold reconciliation
  rw [hready, hconfig]
  refine Prog.wp_bind.2 (Prog.wp_ofExcept.2 ⟨?_, fun _ _ => trivial⟩)
  intro ready hok
  obtain rfl := Except.ok.inj hok
  refine Prog.wp_ite.2 ⟨fun h => absurd h (by decide), fun _ => ?_⟩
  refine Prog.wp_bind.2 (Prog.wp_ofExcept.2 ⟨?_, fun _ _ => trivial⟩)
  intro config' hok
  obtain rfl := Except.ok.inj hok
  have hssh : (tryCatch (sshConfigReconciliation charm env config sshKey) fun e => do
      reconcileServices charm env config true
      throw e).wp (fun _ s' => (s'.files .sshKey).isSome = decide (sshKey.getD "" ≠ ""))
        (fun _ _ => True) s := by
    refine Prog.wp_tryCatch.2 (Prog.wp_mono (sshConfigReconciliation_spec config sshKey s)
      (fun _ _ h => h) fun e s₁ _ => Prog.wp_bind.2 (Prog.wp_iff.2 ⟨?_, fun _ _ _ => trivial⟩))
    exact fun _ s₂ _ => Prog.wp_throw.2 trivial
  refine Prog.wp_bind.2 (Prog.wp_mono hssh (fun _ s₁ h₁ => ?_) fun _ _ h => h)
  have hsparse : (sparseCheckoutReconciliation env config).wp
      (fun _ s' => FilesFor config sshKey s') (fun _ _ => True) s₁ := by
    have hframe := @frame_sparseCheckoutReconciliation env config s₁
    refine Prog.wp_iff.2 ⟨fun _ s₂ hrun => ⟨?_, ?_⟩, fun _ _ _ => trivial⟩
    · rw [hrun] at hframe
      rw [← h₁]
      exact congrArg Option.isSome hframe
    · have hfile := Prog.wp_of_ok (sparseCheckoutReconciliation_spec config s₁) hrun
      exact hfile
  refine Prog.wp_bind.2 (Prog.wp_mono hsparse (fun _ s₂ h₂ => ?_) fun _ _ h => h)
  refine Prog.wp_bind.2 (Prog.wp_mono (reconcileServices_serves hrepo h₂) (fun _ s₃ h₃ => ?_)
    fun _ _ h => h)
  refine Prog.wp_bind.2 (Prog.wp_mono (gitSyncCommand_spec config s₃) ?_ fun _ _ _ => trivial)
  rintro command s₄ ⟨hpebble, -, hcommand⟩
  obtain ⟨rest, rfl⟩ := hcommand hrepo
  rw [if_neg (List.cons_ne_nil _ _)]
  refine Prog.wp_pure.2 ?_
  rw [Serves, hpebble]
  exact h₃

/-- A reconciliation that returns has found the container not ready and has done nothing, or it
leaves git-sync planned and running for the configuration, whatever files and services there were.
The command has the words for the configuration with spaces between them; split as shell words it
has them exactly if the repository and the reference need no quotes. -/
theorem command_split_iff {config : GitSyncConfig} {sshKey : Option String} {s s' : GitSyncState}
    (hconfig : env.config = .ok config) (hrepo : config.staticAssetsGitRepo ≠ "")
    (h : reconciliation charm env sshKey s = (.ok (), s')) :
    (env.isReady = .ok false ∧ s' = s) ∨ env.isReady = .ok true ∧
      ∃ service, s'.pebble.plan serviceName = some service ∧
        s'.pebble.running serviceName = some service ∧ service.startupEnabled = true ∧
        service.command = " ".intercalate (commandWords config sshKey) ∧
        (ShellWords.split service.command.toList =
            some ((commandWords config sshKey).map String.toList) ↔
          IsWord config.staticAssetsGitRepo ∧
            (config.staticAssetsGitRef ≠ "" → IsWord config.staticAssetsGitRef)) := by
  cases hready : env.isReady with
  | error e =>
    have hraises : reconciliation charm env sshKey s = (.error e, s) := by
      unfold reconciliation
      rw [hready]
      rfl
    rw [hraises] at h
    cases h
  | ok ready =>
    cases ready with
    | false =>
      rw [reconciliation_of_not_ready hready] at h
      exact .inl ⟨rfl, (Prod.mk.inj h).2.symm⟩
    | true =>
      have hserves : (reconciliation charm env sshKey).wp
          (fun _ s' => Serves charm (commandWords config sshKey) s') (fun _ _ => True) s :=
        reconciliation_serves hready hconfig hrepo s
      obtain ⟨hplan, hrunning⟩ := Prog.wp_of_ok hserves h
      have hne : commandWords config sshKey ≠ [] := by simp [commandWords, baseCommand]
      have hcommand : (gitSyncService charm (commandWords config sshKey) false).command =
          " ".intercalate (commandWords config sshKey) := by
        rw [gitSyncService, if_neg hne]
      refine .inr ⟨rfl, _, hplan, hrunning, ?_, hcommand, ?_⟩
      · simp [gitSyncService, hne]
      · rw [hcommand, split_intercalate_iff, isWord_commandWords_iff]

/-- A repository on a local disk, with a space in its path. -/
def spacedRepository : GitSyncConfig := { staticAssetsGitRepo := "file:///srv/static assets" }

theorem command_split_iff_spaced : ∃ service,
    (reconciliation directCharm { config := .ok spacedRepository } none {}).2.pebble.running
      serviceName = some service ∧
    service.command = " ".intercalate (commandWords spacedRepository none) ∧
    ShellWords.split service.command.toList ≠
      some ((commandWords spacedRepository none).map String.toList) := by
  have hrun : reconciliation directCharm { config := .ok spacedRepository } none {} =
      (.ok (), (reconciliation directCharm { config := .ok spacedRepository } none {}).2) := rfl
  have hreconciled := command_split_iff rfl (by decide) hrun
  obtain ⟨-, service, -, hrunning, -, hcommand, hsplit⟩ := hreconciled.resolve_left fun h => by
    cases h.1
  have hquotes : ¬ IsWord spacedRepository.staticAssetsGitRepo := by decide
  exact ⟨service, hrunning, hcommand, fun h => hquotes (hsplit.1 h).1⟩

end GitSync
end MediawikiCharm
