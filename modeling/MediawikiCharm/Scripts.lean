/-
The actions that run maintenance scripts (`charm.py`, `container.py`, `mediawiki/_base.py`).

A maintenance script is started by `run.php`, with the words that the action was given.  What the
script prints is masked before it is part of a result or of a message.  The lines that are only
logged are not part of the model.
-/
import MediawikiCharm.Egress.Addresses
import MediawikiCharm.Lib.Shlex
import MediawikiCharm.LogRedaction

namespace MediawikiCharm
namespace Scripts

open PyText Redactor

/-! ### Commands of the container -/

/-- A command as the container is asked for it. -/
structure Command where
  argv : List String
  environment : Option (List (String × String))
  user : String
  group : String
  timeout : ℕ
deriving DecidableEq

/-- `CommandExecResult`; the texts are `str`. -/
structure CommandExecResult where
  returnCode : ℤ
  stdout : PyStr
  stderr : Option PyStr

/-- How a command ends. -/
inductive ExecAnswer
  | finished (returnCode : ℤ) (stdout : PyStr) (stderr : Option PyStr)
  | timedOut
  /-- An error of Pebble, with its text. -/
  | raised (message : PyStr)

/-- The exceptions that reach the actions. -/
inductive ScriptExc
  /-- `MediaWikiStatusException`, with the message of its status -/
  | status (message : PyStr)
  /-- `MediaWikiInstallError` -/
  | install (message : PyStr)
  /-- any other exception -/
  | other (message : PyStr)

def ScriptExc.text : ScriptExc → PyStr
  | .status m | .install m | .other m => m

/-- What the actions find. -/
structure ScriptEnv where
  isPrintable : PyChar → Bool
  exec : Command → ExecAnswer
  /-- `get_proxy_env()` -/
  proxyEnv : Option (List (String × String)) := none
  /-- What `secrets.token_urlsafe(64)` returns. -/
  token : String := ""
  /-- The order of the variants of a registered value. -/
  order : SetOrder

/-- The redactor, and the commands that were started. -/
structure ScriptState where
  redactor : Redactor := {}
  started : List Command := []

/-- How an action ends. -/
inductive ScriptEnd
  /-- `event.fail(message)` -/
  | fail (message : PyStr)
  /-- `event.log(…)` for each line, then `event.set_results(…)` -/
  | results (log : List PyStr) (fields : List (String × PyStr))

variable (env : ScriptEnv)

/-- A call of the redactor. -/
def redacting {α : Type} (call : Prog Redactor Exc α) : Prog ScriptState ScriptExc α := fun s =>
  (((call s.redactor).1.mapError fun e => .other (lit e.message)),
    { s with redactor := (call s.redactor).2 })

/-- The part of `_run_cli` that waits for the command: what it printed is masked. -/
def waitOutput : ExecAnswer → Prog ScriptState ScriptExc CommandExecResult
  | .raised message => throw (.other message)
  | .timedOut =>
    throw (.other (lit "Container command execution timed out; see logs for details."))
  | .finished returnCode stdout none => do
    let stdout ← redacting (redact stdout)
    pure ⟨returnCode, stdout, none⟩
  | .finished returnCode stdout (some stderr) => do
    let stdout ← redacting (redact stdout)
    let stderr ← redacting (redact stderr)
    pure ⟨returnCode, stdout, some stderr⟩

/-- `_run_cli` -/
def runCli (command : Command) : Prog ScriptState ScriptExc CommandExecResult := do
  Prog.modify fun s => { s with started := s.started ++ [command] }
  waitOutput (env.exec command)

/-- The command that `_run_maintenance_script` asks for. -/
def scriptCommand (args : List String) : Command where
  argv := "/usr/bin/php" :: "/var/www/html/w/maintenance/run.php" :: args
  environment := env.proxyEnv
  user := "_daemon_"
  group := "_daemon_"
  timeout := 600

/-- `_run_maintenance_script` -/
def runMaintenanceScript (args : List String) : Prog ScriptState ScriptExc CommandExecResult :=
  runCli env (scriptCommand env args)

/-! ### `run-maintenance-script` -/

/-- `_ALLOWED_MAINTENANCE_SCRIPTS` -/
def allowedMaintenanceScripts : List String :=
  ["blockUsers", "checkImages", "cleanupBlocks", "cleanupEmptyCategories", "cleanupInvalidDbKeys",
    "cleanupPreferences", "cleanupUploadStash", "cleanupWatchlist", "emptyUserGroup",
    "findMissingFiles", "findOrphanedFiles", "pruneFileCache", "purgeChangedFiles",
    "purgeChangedPages", "purgeExpiredBlocks", "purgeExpiredUserrights",
    "purgeExpiredWatchlistItems", "purgeMessageBlobStore", "purgeParserCache", "rebuildall",
    "rebuildImages", "rebuildrecentchanges", "rebuildtextindex", "recountCategories",
    "refreshImageMetadata", "refreshLinks", "removeUnusedAccounts", "resetPageRandom", "showJobs",
    "showSiteStats", "updateArticleCount"]

/-- `_BLOCKED_FLAGS` -/
def blockedFlags : List String := ["--conf", "--globals", "--wiki"]

/-- `arg.split("=")[0]` -/
def flagOf (arg : String) : String := String.ofList (arg.toList.takeWhile fun c => c ≠ '=')

/-- A name that is a path: it begins with a slash, has a part `..` or ends with `.php`. -/
def isPath (script : String) : Bool :=
  ['/'].isPrefixOf script.toList || decide (['.', '.'] ∈ script.toList.splitOn '/') ||
    ['.', 'p', 'h', 'p'].isSuffixOf script.toList

/-- The first blocked flag among the arguments. -/
def blockedFlag (args : List String) : Option String :=
  (args.map flagOf).find? fun flag => flag ∈ blockedFlags

/-- `shlex.split` -/
def shlexSplit (args : String) : Except String (List String) :=
  (Shlex.split args.toList).map fun words => words.map String.ofList

/-- The part of `_on_run_maintenance_script` that runs the script. -/
def runChecked (script : String) (args : List String) : Prog ScriptState ScriptExc ScriptEnd :=
  tryCatch
    (do
      let result ← runMaintenanceScript env (script :: args)
      pure (if result.returnCode ≠ 0 then
          .fail (lit ("Maintenance script failed (exit " ++ toString result.returnCode ++ "):\n") ++
            result.stdout ++ result.stderr.getD [])
        else .results [] [("output", result.stdout)]))
    fun e => pure (.fail (lit "Maintenance script failed: " ++ e.text))

/-- `_on_run_maintenance_script` -/
def onRunMaintenanceScript (script args : String) : Prog ScriptState ScriptExc ScriptEnd :=
  if isPath script then
    pure (.fail (lit ("Invalid script name '" ++ script ++
      "': absolute paths and path traversal are not permitted.")))
  else if script ∉ allowedMaintenanceScripts then
    pure (.fail (lit ("'" ++ script ++ "' is not an allowed maintenance script.")))
  else
    match shlexSplit args with
    | .error e => pure (.fail (lit ("Invalid args: " ++ e)))
    | .ok args =>
      match blockedFlag args with
      | some flag => pure (.fail (lit ("Flag '" ++ flag ++ "' is not permitted.")))
      | none => runChecked env script args

/-! ### What is started -/

variable {env : ScriptEnv}

/-- The script is allowed and no argument gives a blocked flag. -/
structure Permitted (script : String) (args : List String) : Prop where
  allowed : script ∈ allowedMaintenanceScripts
  unblocked : ∀ arg ∈ args, flagOf arg ∉ blockedFlags

lemma frame_redacting {α : Type} (call : Prog Redactor Exc α) :
    Prog.Frame ScriptState.started (redacting call) := fun _ => rfl

lemma frame_waitOutput (answer : ExecAnswer) :
    Prog.Frame ScriptState.started (waitOutput answer) := by
  cases answer with
  | raised message => exact .throw _
  | timedOut => exact .throw _
  | finished returnCode stdout stderr =>
    cases stderr with
    | none => exact .bind (frame_redacting _) fun _ => .pure _
    | some stderr =>
      exact .bind (frame_redacting _) fun _ => .bind (frame_redacting _) fun _ => .pure _

lemma runCli_started (command : Command) (s : ScriptState) :
    (runCli env command s).2.started = s.started ++ [command] :=
  frame_waitOutput (env.exec command) _

/-- The script is started once, and every exception becomes a message. -/
lemma runChecked_spec (script : String) (args : List String) (s : ScriptState) :
    (runChecked env script args).wp
      (fun _ s' => s'.started = s.started ++ [scriptCommand env (script :: args)])
      (fun _ _ => False) s := by
  have hrun : (runMaintenanceScript env (script :: args) s).2.started =
      s.started ++ [scriptCommand env (script :: args)] := runCli_started _ s
  refine Prog.wp_tryCatch.2 (Prog.wp_bind.2 (Prog.wp_iff.2 ⟨?_, ?_⟩))
  · intro result s' h
    rw [h] at hrun
    exact Prog.wp_pure.2 hrun
  · intro e s' h
    rw [h] at hrun
    exact Prog.wp_pure.2 hrun

lemma isPath_of_allowed : ∀ script ∈ allowedMaintenanceScripts, isPath script = false := by decide

lemma blockedFlag_eq_none {args : List String} :
    blockedFlag args = none ↔ ∀ arg ∈ args, flagOf arg ∉ blockedFlags := by
  rw [blockedFlag, List.find?_eq_none, List.forall_mem_map]
  simp only [decide_eq_true_eq]

/-- A request that is not permitted starts nothing. -/
lemma onRunMaintenanceScript_refused {script args : String}
    (h : ∀ words, shlexSplit args = .ok words → ¬ Permitted script words) (s : ScriptState) :
    ∃ message, onRunMaintenanceScript env script args s = (.ok (.fail message), s) := by
  unfold onRunMaintenanceScript
  by_cases hpath : isPath script = true
  · rw [if_pos hpath]
    exact ⟨_, rfl⟩
  by_cases hallowed : script ∈ allowedMaintenanceScripts
  · rw [if_neg hpath, if_neg (not_not.2 hallowed)]
    cases hsplit : shlexSplit args with
    | error e => exact ⟨_, rfl⟩
    | ok words =>
      dsimp only
      cases hflag : blockedFlag words with
      | some flag => exact ⟨_, rfl⟩
      | none => exact absurd ⟨hallowed, blockedFlag_eq_none.1 hflag⟩ (h words hsplit)
  · rw [if_neg hpath, if_pos hallowed]
    exact ⟨_, rfl⟩

/-- A permitted request starts its command, whatever the state is. -/
lemma onRunMaintenanceScript_permitted {script args : String} {words : List String}
    (hsplit : shlexSplit args = .ok words) (h : Permitted script words) :
    onRunMaintenanceScript env script args = runChecked env script words := by
  unfold onRunMaintenanceScript
  rw [if_neg (by simp [isPath_of_allowed script h.allowed]), if_neg (not_not.2 h.allowed), hsplit]
  simp only [blockedFlag_eq_none.2 h.unblocked]

/-! ### What can be started -/

lemma isPlain_of_safe {c : Char} (h : Egress.isSafe c = true) : Shlex.isPlain c = true := by
  have hplain := (Egress.isPlain_of_isSafe h).1
  simp only [ShellWords.isPlain, ShellWords.isBlank, Shlex.isPlain, Shlex.isWhitespace,
    Shlex.isQuote, Bool.and_eq_true, Bool.not_eq_true', Bool.or_eq_false_iff,
    decide_eq_false_iff_not, decide_eq_true_eq] at hplain ⊢
  exact ⟨⟨hplain.1.1.1, hplain.1.1.2, hplain.1.2⟩, hplain.2⟩

/-- `shlex.split` reads what `shlex.quote` writes. -/
lemma spells_quote (w : String) : Shlex.Spells (Egress.quote w).toList w.toList := by
  unfold Egress.quote
  split_ifs with hempty hsafe
  · subst hempty
    exact Shlex.spells_enclose []
  · refine Shlex.spells_self ?_ fun c hc => isPlain_of_safe (List.all_eq_true.1 hsafe c hc)
    rw [ne_eq, String.toList_eq_nil_iff]
    exact hempty
  · rw [String.toList_ofList]
    exact Shlex.spells_enclose w.toList

/-- Every list of arguments can be given. -/
lemma exists_shlexSplit (words : List String) : ∃ args, shlexSplit args = .ok words := by
  refine ⟨String.ofList ([' '].intercalate (words.map fun w => (Egress.quote w).toList)), ?_⟩
  rw [shlexSplit, String.toList_ofList, Shlex.split_intercalate fun w _ => spells_quote w]
  simp [Except.map, Function.comp_def]

/-- The action starts a command exactly for the permitted requests: one that runs an allowed
script, with any arguments but those that give a blocked flag, and each of these can be started.
Every other request fails and changes nothing. -/
theorem starts_iff (env : ScriptEnv) (s : ScriptState) :
    (∀ command, (∃ script args, (onRunMaintenanceScript env script args s).2.started =
        s.started ++ [command]) ↔
      ∃ script words, Permitted script words ∧ command = scriptCommand env (script :: words)) ∧
    ∀ script args, (∃ words, shlexSplit args = .ok words ∧ Permitted script words ∧
        ∃ result s', onRunMaintenanceScript env script args s = (.ok result, s') ∧
          s'.started = s.started ++ [scriptCommand env (script :: words)]) ∨
      ∃ message, onRunMaintenanceScript env script args s = (.ok (.fail message), s) := by
  have hdecide : ∀ script args, (∃ words, shlexSplit args = .ok words ∧ Permitted script words ∧
      ∃ result s', onRunMaintenanceScript env script args s = (.ok result, s') ∧
        s'.started = s.started ++ [scriptCommand env (script :: words)]) ∨
      ∃ message, onRunMaintenanceScript env script args s = (.ok (.fail message), s) := by
    intro script args
    by_cases h : ∃ words, shlexSplit args = .ok words ∧ Permitted script words
    · obtain ⟨words, hsplit, hpermitted⟩ := h
      refine .inl ⟨words, hsplit, hpermitted, ?_⟩
      rw [onRunMaintenanceScript_permitted hsplit hpermitted]
      have hspec : (runChecked env script words).wp _ _ s := runChecked_spec script words s
      rcases hrun : runChecked env script words s with ⟨e | result, s'⟩
      · exact (Prog.wp_of_error hspec hrun).elim
      · have hstarted := Prog.wp_of_ok hspec hrun
        exact ⟨result, s', rfl, hstarted⟩
    · refine .inr (onRunMaintenanceScript_refused (fun words hsplit hpermitted => ?_) s)
      exact h ⟨words, hsplit, hpermitted⟩
  refine ⟨fun command => ⟨?_, ?_⟩, hdecide⟩
  · rintro ⟨script, args, hstarted⟩
    rcases hdecide script args with ⟨words, -, hpermitted, result, s', hrun, hs'⟩ | ⟨_, hrun⟩
    · rw [hrun, hs'] at hstarted
      have hcommand := List.singleton_inj.1 (List.append_cancel_left hstarted)
      exact ⟨script, words, hpermitted, hcommand.symm⟩
    · rw [hrun] at hstarted
      exact absurd hstarted (by simp)
  · rintro ⟨script, words, hpermitted, rfl⟩
    obtain ⟨args, hsplit⟩ := exists_shlexSplit words
    refine ⟨script, args, ?_⟩
    rw [onRunMaintenanceScript_permitted hsplit hpermitted]
    exact Prog.wp_state (runChecked_spec script words s) (fun _ _ h => h) fun _ _ h => h.elim

end Scripts
end MediawikiCharm
