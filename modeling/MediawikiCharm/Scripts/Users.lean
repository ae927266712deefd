/-
The action `create-and-promote` (`charm.py`, `mediawiki/_core.py`).

A generated password is registered before the script that receives it is started.  Whatever the
script prints, the password is in no message: it is shown only in the results of an action that has
succeeded.
-/
import MediawikiCharm.Scripts
import MediawikiCharm.LogRedaction.Renderings

namespace MediawikiCharm
namespace Scripts

open PyText Redactor Substitution

/-! ### The action -/

/-- The parameters of the action. -/
structure CreateAndPromoteParams where
  username : String
  generatePassword : Bool := false
  sysop : Bool := false
  bureaucrat : Bool := false
  interfaceAdmin : Bool := false
  bot : Bool := false
  force : Bool := false
  customGroups : String := ""
  email : String := ""
  reason : String := ""

namespace CreateAndPromoteParams

variable (params : CreateAndPromoteParams)

/-- `args` -/
def scriptArgs (password : Option String) : List String :=
  ["createAndPromote"] ++
  (if params.sysop then ["--sysop"] else []) ++
  (if params.bureaucrat then ["--bureaucrat"] else []) ++
  (if params.interfaceAdmin then ["--interface-admin"] else []) ++
  (if params.bot then ["--bot"] else []) ++
  (if params.force then ["--force"] else []) ++
  (if params.customGroups = "" then [] else ["--custom-groups", params.customGroups]) ++
  (if params.email = "" then [] else ["--email", params.email]) ++
  (if params.reason = "" then [] else ["--reason", params.reason]) ++
  ["--", params.username] ++ password.toList

end CreateAndPromoteParams

/-- `raise_for_status("Creating user", MediaWikiInstallError, include_stderr=True)` -/
def raiseForStatus (result : CommandExecResult) : Prog ScriptState ScriptExc Unit :=
  if result.returnCode = 0 then pure ()
  else
    let stderrText := strip (result.stderr.getD [])
    throw (.install (if stderrText = [] then lit "Creating user failed; see logs for details."
      else lit "Creating user failed: " ++ stderrText))

variable (env : ScriptEnv) (params : CreateAndPromoteParams)

/-- `create_and_promote_user` -/
def createAndPromoteUser : Prog ScriptState ScriptExc (Option String) := do
  let password := if params.generatePassword then some env.token else none
  redacting (register env.isPrintable env.order [password.map lit])
  let result ← runMaintenanceScript env (params.scriptArgs password)
  raiseForStatus result
  pure password

/-- `_on_create_and_promote_user` -/
def onCreateAndPromoteUser : Prog ScriptState ScriptExc ScriptEnd :=
  if !params.generatePassword && !params.force then
    pure (.fail (lit ("Refusing to create a user without a password. Pass generate-password=true " ++
      "to create a user with a generated password, or force=true to promote an existing user " ++
      "without changing its password.")))
  else
    tryCatch
      (do
        let password ← createAndPromoteUser env params
        pure (.results [lit ("User '" ++ params.username ++ "' created and promoted successfully")]
          (("username", lit params.username) ::
            password.toList.map fun password => ("password", lit password))))
      fun e => pure (match e with
        | .status message | .install message => .fail (lit "User creation failed: " ++ message)
        | .other _ => .fail (lit "User creation failed due to an unexpected error"))

/-! ### Occurrences of a token -/

/-- The characters of the URL-safe Base64 encoding. -/
def urlsafeAlphabet : List Char :=
  "ABCDEFGHIJKLMNOPQRSTUVWXYZabcdefghijklmnopqrstuvwxyz0123456789-_".toList

/-- A text as `secrets.token_urlsafe(64)` makes it: 64 bytes, encoded. -/
structure IsToken (token : String) : Prop where
  length : token.toList.length = 86
  urlsafe : ∀ c ∈ token.toList, c ∈ urlsafeAlphabet

/-- Neither spaces nor brackets nor surrogates are in the alphabet. -/
lemma val_of_urlsafe {c : Char} (hc : c ∈ urlsafeAlphabet) :
    0x20 < (ofChar c).val ∧ (ofChar c).val < 0x80 ∧ (ofChar c).val ≠ 0x5b ∧
      (ofChar c).val ≠ 0x5d := by
  have hall : urlsafeAlphabet.all (fun c => 0x20 < (ofChar c).val && (ofChar c).val < 0x80 &&
      (ofChar c).val != 0x5b && (ofChar c).val != 0x5d) = true := by decide
  simpa [and_assoc] using List.all_eq_true.1 hall c hc

namespace IsToken

variable {token : String}

lemma val_of_mem (h : IsToken token) {c : PyChar} (hc : c ∈ lit token) :
    0x20 < c.val ∧ c.val < 0x80 ∧ c.val ≠ 0x5b ∧ c.val ≠ 0x5d := by
  obtain ⟨d, hd, rfl⟩ := List.mem_map.1 hc
  exact val_of_urlsafe (h.urlsafe d hd)

lemma notMem_of_val (h : IsToken token) {c : PyChar} (hc : c.val = 0x20 ∨ c.val = 0x5b ∨
    c.val = 0x5d) : c ∉ lit token := by
  intro hmem
  have hval := h.val_of_mem hmem
  omega

lemma encodable (h : IsToken token) : Encodable (lit token) := by
  intro c hc
  have hval := h.val_of_mem hc
  rw [isSurrogate, Bool.and_eq_false_iff, decide_eq_false_iff_not]
  exact .inl (by omega)

/-- A token is in no text that is shorter. -/
lemma not_infix_of_length (h : IsToken token) {text : PyStr} (htext : text.length < 86) :
    ¬ lit token <:+: text := by
  intro hinside
  have hle := hinside.length_le
  rw [lit, List.length_map, h.length] at hle
  omega

/-- A token is not blank. -/
lemma strip_ne_nil (h : IsToken token) : strip (lit token) ≠ [] := by
  intro hstrip
  cases htoken : lit token with
  | nil =>
    have hlength : (lit token).length = 86 := by rw [lit, List.length_map, h.length]
    rw [htoken] at hlength
    cases hlength
  | cons c t =>
    have hval := h.val_of_mem (htoken ▸ List.mem_cons_self)
    have hspace := strip_eq_nil_iff.1 hstrip c (htoken ▸ List.mem_cons_self)
    simp only [isSpace, Bool.or_eq_true, Bool.and_eq_true, decide_eq_true_eq, beq_iff_eq] at hspace
    omega

end IsToken

/-! ### What is masked -/

/-- The redactor has the token, and these commands were started. -/
def Secured (isPrintable : PyChar → Bool) (token : String) (started : List Command)
    (s : ScriptState) : Prop :=
  (∃ st, ((machine isPrintable).restrict EncodableCall).Reachable st ∧
    st.redactor = s.redactor ∧ lit token ∈ st.registered) ∧ s.started = started

variable {isPrintable : PyChar → Bool} {token : String} {started : List Command}

/-- A masked text does not have the token. -/
lemma redacting_spec (htoken : IsToken token) (text : PyStr) {s : ScriptState}
    (hs : Secured isPrintable token started s) :
    (redacting (redact text)).wp
      (fun t s' => ¬ lit token <:+: t ∧ Secured isPrintable token started s')
      (fun _ _ => False) s := by
  obtain ⟨⟨st, hreach, hredactor, hmem⟩, hstarted⟩ := hs
  obtain ⟨hvalues, hnil, segs, last, -, hrun, hll⟩ := exists_decomposition hreach text
  have hstored : lit token ∈ st.redactor.values := by
    rw [hvalues]
    exact Finset.mem_biUnion.2 ⟨lit token, hmem, self_mem_storedOf htoken.encodable⟩
  obtain ⟨hsegs, hlast⟩ := hll.not_infix hstored fun hne => hnil (hne ▸ hstored)
  have hmask : mask = ofChar '[' :: lit "REDACTED" ++ [ofChar ']'] := by decide
  rw [hredactor, hmask] at hrun
  have hstep : ((machine isPrintable).restrict EncodableCall).Reachable
      (st.step isPrintable (.redact text)) := .step (l := .redact text) hreach ⟨trivial, rfl⟩
  have hout : (redacting (redact text)) s = (.ok (masked mask segs last),
      { s with redactor := (redact text s.redactor).2 }) := by
    rw [redacting, hrun, hmask]
    rfl
  rw [Prog.wp_iff]
  refine ⟨fun t s' h => ?_, fun e s' h => ?_⟩
  · rw [hout] at h
    cases h
    refine ⟨?_, ⟨st.step isPrintable (.redact text), hstep, ?_, hmem⟩, hstarted⟩
    · rw [hmask]
      exact not_infix_masked (htoken.notMem_of_val (.inr (.inl rfl)))
        (htoken.notMem_of_val (.inr (.inr rfl))) (htoken.not_infix_of_length (by decide)) hsegs hlast
    · rw [Session.step, hredactor]
  · rw [hout] at h
    cases h

/-- The masked result of a command does not have the token. -/
lemma waitOutput_spec (htoken : IsToken token) (answer : ExecAnswer) {s : ScriptState}
    (hs : Secured isPrintable token started s) :
    (waitOutput answer).wp
      (fun result s' => (∃ stdout stderr, answer = .finished result.returnCode stdout stderr) ∧
        ¬ lit token <:+: result.stderr.getD [] ∧ s'.started = started)
      (fun e s' => (∀ stdout stderr, answer ≠ .finished 0 stdout stderr) ∧ (∃ m, e = .other m) ∧
        s'.started = started) s := by
  cases answer with
  | raised message =>
    refine Prog.wp_throw.2 ⟨?_, ⟨_, rfl⟩, hs.2⟩
    simp
  | timedOut =>
    refine Prog.wp_throw.2 ⟨?_, ⟨_, rfl⟩, hs.2⟩
    simp
  | finished returnCode stdout stderr =>
    have hstdout := redacting_spec htoken stdout hs
    cases stderr with
    | none =>
      refine Prog.wp_bind.2 (Prog.wp_mono hstdout (fun t s' h => ?_) fun _ _ h => h.elim)
      exact Prog.wp_pure.2 ⟨⟨_, _, rfl⟩, htoken.not_infix_of_length (Nat.succ_pos 85), h.2.2⟩
    | some stderr =>
      refine Prog.wp_bind.2 (Prog.wp_mono hstdout (fun t s' h => ?_) fun _ _ h => h.elim)
      refine Prog.wp_bind.2 (Prog.wp_mono (redacting_spec htoken stderr h.2) (fun u s'' h => ?_)
        fun _ _ h => h.elim)
      exact Prog.wp_pure.2 ⟨⟨_, _, rfl⟩, h.1, h.2.2⟩

lemma secured_of_register (htoken : IsToken token) (order : SetOrder) {st : Session}
    (h : ((machine isPrintable).restrict EncodableCall).Reachable st) {s : ScriptState}
    (hs : s.redactor = st.redactor) :
    (redacting (register isPrintable order [some (lit token)])).wp
      (fun _ s' => Secured isPrintable token s.started s') (fun _ _ => False) s := by
  have hencodable : ∀ value, some value ∈ [some (lit token)] → Encodable value := by
    intro value hvalue
    rw [List.mem_singleton, Option.some.injEq] at hvalue
    exact hvalue ▸ htoken.encodable
  have hstep : ((machine isPrintable).restrict EncodableCall).Reachable
      (st.step isPrintable (.register order [some (lit token)])) :=
    .step (l := .register order [some (lit token)]) h ⟨hencodable, rfl⟩
  have hmem : lit token ∈ nonBlank [some (lit token)] :=
    mem_nonBlank.2 ⟨List.mem_singleton_self _, htoken.strip_ne_nil⟩
  have hrun : redacting (register isPrintable order [some (lit token)]) s =
      (.ok (),
        { s with redactor := (register isPrintable order [some (lit token)] s.redactor).2 }) := by
    rw [redacting, register_run isPrintable order hencodable]
    rfl
  rw [Prog.wp_iff]
  refine ⟨fun _ s' h => ?_, fun e s' h => ?_⟩
  · rw [hrun] at h
    cases h
    exact ⟨⟨_, hstep, by rw [Session.step, hs], Finset.mem_union_right _ hmem⟩, rfl⟩
  · rw [hrun] at h
    cases h

/-- How the action may end that has generated a password. -/
inductive Ends (env : ScriptEnv) (params : CreateAndPromoteParams) : ScriptEnd → Prop
  /-- The script has succeeded, and the results have the password. -/
  | shown (stdout : PyStr) (stderr : Option PyStr)
      (h : env.exec (scriptCommand env (params.scriptArgs (some env.token))) =
        .finished 0 stdout stderr) :
      Ends env params (.results
        [lit ("User '" ++ params.username ++ "' created and promoted successfully")]
        [("username", lit params.username), ("password", lit env.token)])
  /-- The script has not succeeded, and the password is not in the message. -/
  | hidden (message : PyStr)
      (h : ∀ stdout stderr, env.exec (scriptCommand env (params.scriptArgs (some env.token))) ≠
        .finished 0 stdout stderr)
      (hhidden : ¬ lit env.token <:+: message) : Ends env params (.fail message)

variable {env : ScriptEnv} {params : CreateAndPromoteParams}

/-- The exception of a failed command, as a message, does not have the token. -/
lemma raiseForStatus_spec (htoken : IsToken token) {result : CommandExecResult}
    (h : ¬ lit token <:+: result.stderr.getD []) (s : ScriptState) :
    (raiseForStatus result).wp (fun _ s' => s' = s ∧ result.returnCode = 0)
      (fun e s' => s' = s ∧ result.returnCode ≠ 0 ∧
        ∃ m, e = .install m ∧ ¬ lit token <:+: lit "User creation failed: " ++ m) s := by
  unfold raiseForStatus
  refine Prog.wp_ite.2 ⟨fun hcode => Prog.wp_pure.2 ⟨rfl, hcode⟩, fun hcode => ?_⟩
  refine Prog.wp_throw.2 ⟨rfl, hcode, _, rfl, ?_⟩
  split_ifs with hempty
  · exact htoken.not_infix_of_length (by decide)
  · have hspace : lit "User creation failed: " ++ (lit "Creating user failed: " ++
        strip (result.stderr.getD [])) = lit "User creation failed: Creating user failed:" ++
          ofChar ' ' :: strip (result.stderr.getD []) := by
      have hprefix : lit "User creation failed: " ++ lit "Creating user failed: " =
          lit "User creation failed: Creating user failed:" ++ [ofChar ' '] := by decide
      rw [← List.append_assoc, hprefix, List.append_assoc, List.singleton_append]
    rw [hspace]
    intro hinside
    rcases infix_or_infix (htoken.notMem_of_val (.inl rfl)) hinside with hinside | hinside
    · exact htoken.not_infix_of_length (by decide) hinside
    · refine h (hinside.trans ?_)
      exact (List.rdropWhile_prefix _ _).isInfix.trans (List.dropWhile_suffix _).isInfix

lemma createAndPromoteUser_spec (htoken : IsToken env.token)
    (hgenerate : params.generatePassword = true) {st : Session}
    (h : ((machine env.isPrintable).restrict EncodableCall).Reachable st) {s : ScriptState}
    (hs : s.redactor = st.redactor) {command : Command}
    (hcommand : command = scriptCommand env (params.scriptArgs (some env.token))) :
    (createAndPromoteUser env params).wp
      (fun password s' => password = some env.token ∧
        (∃ stdout stderr, env.exec command = .finished 0 stdout stderr) ∧
        s'.started = s.started ++ [command])
      (fun e s' => (∀ stdout stderr, env.exec command ≠ .finished 0 stdout stderr) ∧
        ((∃ m, e = .other m) ∨
          ∃ m, e = .install m ∧ ¬ lit env.token <:+: lit "User creation failed: " ++ m) ∧
        s'.started = s.started ++ [command]) s := by
  subst hcommand
  unfold createAndPromoteUser
  rw [if_pos hgenerate]
  refine Prog.wp_bind.2 (Prog.wp_mono (secured_of_register htoken env.order h hs) ?_
    fun _ _ h => h.elim)
  rintro _ s₁ ⟨htokens, hstarted⟩
  -- the command is started with the token registered
  have hsecured : Secured env.isPrintable env.token
      (s.started ++ [scriptCommand env (params.scriptArgs (some env.token))]) { s₁ with started :=
        s₁.started ++ [scriptCommand env (params.scriptArgs (some env.token))] } :=
    ⟨htokens, by rw [hstarted]⟩
  refine Prog.wp_bind.2 (Prog.wp_mono (waitOutput_spec htoken _ hsecured) ?_
    fun e s₂ h => ⟨h.1, .inl h.2.1, h.2.2⟩)
  rintro result s₂ ⟨⟨stdout, stderr, hfinished⟩, hhidden, hstarted⟩
  refine Prog.wp_bind.2 (Prog.wp_mono (raiseForStatus_spec htoken hhidden s₂) ?_ ?_)
  · rintro _ s₃ ⟨rfl, hcode⟩
    refine Prog.wp_pure.2 ⟨rfl, ⟨stdout, stderr, ?_⟩, hstarted⟩
    rw [← hcode]
    exact hfinished
  · rintro e s₃ ⟨rfl, hcode, hinstall⟩
    refine ⟨fun stdout' stderr' h => ?_, .inr hinstall, hstarted⟩
    have hends := hfinished.symm.trans h
    rw [ExecAnswer.finished.injEq] at hends
    exact hcode hends.1

/-- A generated password is shown exactly when the script has succeeded.  In every other case the
message does not have it, whatever the script has printed. -/
theorem password_hidden (htoken : IsToken env.token) (hgenerate : params.generatePassword = true)
    {st : Session} (h : ((machine env.isPrintable).restrict EncodableCall).Reachable st)
    {s : ScriptState} (hs : s.redactor = st.redactor) :
    ∃ result s', onCreateAndPromoteUser env params s = (.ok result, s') ∧
      s'.started = s.started ++ [scriptCommand env (params.scriptArgs (some env.token))] ∧
      Ends env params result := by
  have hspec := createAndPromoteUser_spec htoken hgenerate h hs rfl
  have hwp : (onCreateAndPromoteUser env params).wp (fun result s' =>
      s'.started = s.started ++ [scriptCommand env (params.scriptArgs (some env.token))] ∧
        Ends env params result) (fun _ _ => False) s := by
    unfold onCreateAndPromoteUser
    rw [hgenerate, if_neg (by simp)]
    refine Prog.wp_tryCatch.2 (Prog.wp_bind.2 (Prog.wp_mono hspec ?_ ?_))
    · rintro password s' ⟨rfl, ⟨stdout, stderr, hfinished⟩, hstarted⟩
      exact Prog.wp_pure.2 ⟨hstarted, .shown stdout stderr hfinished⟩
    · rintro e s' ⟨hfailed, hmessage, hstarted⟩
      refine Prog.wp_pure.2 ⟨hstarted, ?_⟩
      rcases hmessage with ⟨m, rfl⟩ | ⟨m, rfl, hhidden⟩
      · exact .hidden _ hfailed (htoken.not_infix_of_length (by decide))
      · exact .hidden _ hfailed hhidden
  rcases hrun : onCreateAndPromoteUser env params s with ⟨e | result, s'⟩
  · exact (Prog.wp_of_error hwp hrun).elim
  · have hends := Prog.wp_of_ok hwp hrun
    exact ⟨result, s', rfl, hends⟩

/-- A script that fails and prints its last argument, with the token in it. -/
def printingEnv : ScriptEnv where
  isPrintable := isAsciiPrintable
  exec command := .finished 1 [] (command.argv.getLast?.map fun arg => lit ("not a user: " ++ arg))
  token := String.ofList (List.replicate 86 'a')
  order := sortedOrder

lemma isToken_printing : IsToken printingEnv.token := by
  refine ⟨by simp [printingEnv], fun c hc => ?_⟩
  obtain rfl : c = 'a' := by simpa [printingEnv] using hc
  decide

theorem password_hidden_printing : ∃ result s',
    onCreateAndPromoteUser printingEnv { username := "Admin", generatePassword := true } {} =
      (.ok result, s') ∧
    s'.started = [] ++ [scriptCommand printingEnv
      (CreateAndPromoteParams.scriptArgs { username := "Admin", generatePassword := true }
        (some printingEnv.token))] ∧
    Ends printingEnv { username := "Admin", generatePassword := true } result :=
  password_hidden isToken_printing rfl (.init rfl) rfl

end Scripts
end MediawikiCharm
