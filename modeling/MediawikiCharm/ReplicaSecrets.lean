/-
The secret that the replicas share (`mediawiki_peers.py`, `mediawiki/_secrets.py`).

The application owns one secret.  `setup_replica_data` creates it, `reconciliation_state` adds
the fields that an earlier revision of the charm did not write, and `rotate_secrets`, which only
the action of `charm.py` calls, replaces it.
-/
import MediawikiCharm.Peers
import MediawikiCharm.Records

namespace MediawikiCharm
namespace ReplicaSecrets

/-! ### The values -/

/-- The content of a secret. -/
abbrev Content := String → Option String

/-- `data[name]` -/
def getItem (data : Content) (name : String) : Except Exc String :=
  match data name with
  | some value => .ok value
  | none => .error (.other "KeyError")

/-- `from_juju_secret` -/
def fromJujuSecret (data : Content) : Except Exc MediaWikiSecrets := do
  let secretKey ← getItem data "key"
  let sessionSecret ← getItem data "session"
  let samlSecretSalt ← getItem data "saml-salt"
  let authenticationTokenVersion ← getItem data "authentication-token-version"
  pure {
    secretKey := secretKey
    sessionSecret := sessionSecret
    samlSecretSalt := samlSecretSalt
    authenticationTokenVersion := authenticationTokenVersion }

/-- The names of the current fields. -/
def fields : List String := ["key", "session", "saml-salt", "authentication-token-version"]

/-- The content with these entries only. -/
def ofEntries (entries : List (String × String)) : Content := fun name => entries.lookup name

/-- The content holds the values field by field. -/
def Holds (content : Content) (s : MediaWikiSecrets) : Prop :=
  ∀ entry ∈ s.toJujuSecret, content entry.1 = some entry.2

/-! ### The functions -/

/-- The secret as Juju keeps it. -/
structure Secret where
  content : Content
  /-- how many times the secret was written -/
  revision : ℕ := 1

/-- `SecretNotFoundError` -/
def secretNotFound : Exc := .other "SecretNotFoundError"

/-- `model.get_secret(label=…)`, where `none` stands for no secret with the label. -/
def getSecret : Prog (Option Secret) Exc Secret := do
  match ← Prog.get with
  | some secret => pure secret
  | none => throw secretNotFound

/-- `app.add_secret(…, label=…)` -/
def addSecret (content : Content) : Prog (Option Secret) Exc Unit :=
  Prog.modify fun _ => some { content := content }

/-- `secret.set_content(…)` -/
def setContent (content : Content) : Prog (Option Secret) Exc Unit :=
  Prog.modify (Option.map fun secret => { content := content, revision := secret.revision + 1 })

/-- `_replica_secret_exists` -/
def replicaSecretExists : Prog (Option Secret) Exc Bool :=
  tryCatch (do
    let _ ← getSecret
    pure true) fun e => if e = secretNotFound then pure false else throw e

/-- `setup_replica_data` -/
def setupReplicaData (isLeader : Bool) (generated : MediaWikiSecrets) :
    Prog (Option Secret) Exc Unit := do
  if (← replicaSecretExists) || !isLeader then pure ()
  else addSecret (ofEntries generated.toJujuSecret)

/-- `rotate_secrets` -/
def rotateSecrets (generated : MediaWikiSecrets) : Prog (Option Secret) Exc Unit := do
  let _ ← getSecret
  setContent (ofEntries generated.toJujuSecret)

/-- `_on_rotate_secrets`, with the text the action fails with -/
def onRotateSecrets (isLeader : Bool) (generated : MediaWikiSecrets) :
    Prog (Option Secret) Exc (Option String) :=
  if !isLeader then pure (some "Only the leader unit can rotate MediaWiki secrets")
  else
    tryCatch (do
      rotateSecrets generated
      pure none) fun e =>
        if e = secretNotFound then pure (some "Failed to rotate secrets: replica secret not found")
        else pure (some "Failed to rotate secrets due to unexpected error")

/-- The loop over the missing keys. -/
def addMissing (content : Content) (missing : List (String × String)) : Content :=
  missing.foldl (fun content entry => Function.update content entry.1 (some entry.2)) content

/-- `_replica_secrets` -/
def replicaSecrets (isLeader : Bool) (generated : MediaWikiSecrets) :
    Prog (Option Secret) Exc MediaWikiSecrets :=
  tryCatch (do
    let secret ← getSecret
    let expected := generated.toJujuSecret
    let missing := expected.filter fun entry => secret.content entry.1 = none
    if missing ≠ [] then
      if !isLeader then throw (.waiting "Waiting for leader to migrate replica secrets")
      else
        let content := addMissing secret.content missing
        setContent content
        Prog.ofExcept (fromJujuSecret content)
    else Prog.ofExcept (fromJujuSecret secret.content)) fun e =>
      if e = secretNotFound then throw (.waiting "Waiting for replica secrets to be available")
      else throw e

/-- `reconciliation_state` -/
def reconciliationState (isLeader : Bool) (generated : MediaWikiSecrets) :
    Prog (PeerWorld (Option Secret)) Exc PeerState := do
  let r ← Peers.relation
  let secrets ← Peers.callback (replicaSecrets isLeader generated)
  let mode ← Prog.ofExcept (Peers.operationMode r.app)
  pure {
    secrets := secrets
    operationMode := mode
    maintenanceMessage := r.app.maintenanceMessage
    composerLock := r.app.composerLock
    leaderStateHash := r.app.leaderStateHash }

variable {content : Content} {generated : MediaWikiSecrets} {isLeader : Bool} {name : String}
  {s : Option Secret} {secret : Secret}

/-! ### Contents -/

lemma map_fst_toJujuSecret (s : MediaWikiSecrets) : s.toJujuSecret.map Prod.fst = fields := rfl

lemma lookup_eq_none_iff {entries : List (String × String)} :
    entries.lookup name = none ↔ name ∉ entries.map Prod.fst := by
  rw [List.lookup_eq_none_iff, List.mem_map, not_exists]
  constructor
  · rintro h entry ⟨hentry, rfl⟩
    exact bne_iff_ne.1 (h entry hentry) rfl
  · intro h entry hentry
    rw [bne_iff_ne]
    rintro rfl
    exact h entry ⟨hentry, rfl⟩

lemma ofEntries_ne_none_iff : ofEntries generated.toJujuSecret name ≠ none ↔ name ∈ fields := by
  rw [ofEntries, Ne, lookup_eq_none_iff, not_not, map_fst_toJujuSecret]

lemma nodup_fields : fields.Nodup := by decide

lemma addMissing_apply {entries : List (String × String)} (h : (entries.map Prod.fst).Nodup) :
    addMissing content entries name = (entries.lookup name).or (content name) := by
  unfold addMissing
  induction entries generalizing content with
  | nil => rfl
  | cons entry entries ih =>
    rw [List.map_cons, List.nodup_cons] at h
    rw [List.foldl_cons, ih h.2]
    by_cases hname : name = entry.1
    · subst hname
      rw [lookup_eq_none_iff.2 h.1, List.lookup_cons, beq_self_eq_true, Option.none_or,
        Function.update_self, Option.some_or]
    · rw [List.lookup_cons, beq_false_of_ne hname, Function.update_of_ne hname]

lemma lookup_filter {entries : List (String × String)} {p : String → Bool} :
    (entries.filter fun entry => p entry.1).lookup name =
      if p name then entries.lookup name else none := by
  induction entries with
  | nil => rw [List.filter_nil, List.lookup_nil, ite_self]
  | cons entry entries ih =>
    by_cases hname : name = entry.1
    · subst hname
      by_cases hp : p entry.1
      · rw [List.filter_cons_of_pos (by simpa using hp), if_pos hp, List.lookup_cons,
          List.lookup_cons, beq_self_eq_true]
      · rw [List.filter_cons_of_neg (by simpa using hp), ih, if_neg hp, if_neg hp]
    · have hlookup : List.lookup name (entry :: entries) = List.lookup name entries := by
        rw [List.lookup_cons, beq_false_of_ne hname]
      rw [hlookup, ← ih, List.filter_cons]
      split
      · rw [List.lookup_cons, beq_false_of_ne hname]
      · rfl

/-- The migrated content: the old values, and the generated ones where there was none. -/
def migrated (content : Content) (generated : MediaWikiSecrets) : Content := fun name =>
  (content name).or (ofEntries generated.toJujuSecret name)

/-- The loop fills in what is missing and keeps the rest. -/
lemma addMissing_missing (content : Content) (generated : MediaWikiSecrets) :
    addMissing content (generated.toJujuSecret.filter fun entry => content entry.1 = none) =
      migrated content generated := by
  funext name
  have hnodup : ((generated.toJujuSecret.filter fun entry =>
      content entry.1 = none).map Prod.fst).Nodup := by
    have hsub := (List.filter_sublist (l := generated.toJujuSecret)
      (p := fun entry => decide (content entry.1 = none))).map Prod.fst
    exact nodup_fields.sublist hsub
  rw [addMissing_apply hnodup,
    lookup_filter (p := fun name => decide (content name = none)), migrated]
  by_cases hname : content name = none
  · rw [hname, if_pos (decide_eq_true rfl), Option.or_none, Option.none_or, ofEntries]
  · obtain ⟨v, hv⟩ := Option.ne_none_iff_exists'.1 hname
    rw [hv, if_neg (by simp), Option.none_or, Option.some_or]

lemma migrated_of_eq_some {v : String} (h : content name = some v) :
    migrated content generated name = some v := by
  rw [migrated, h, Option.some_or]

lemma migrated_of_eq_none (h : content name = none) :
    migrated content generated name = ofEntries generated.toJujuSecret name := by
  rw [migrated, h, Option.none_or]

lemma migrated_ne_none (h : name ∈ fields) : migrated content generated name ≠ none := by
  cases hname : content name with
  | none =>
    rw [migrated_of_eq_none hname]
    exact ofEntries_ne_none_iff.2 h
  | some v =>
    rw [migrated_of_eq_some hname]
    exact Option.some_ne_none v

/-- Only the current fields are filled in. -/
lemma mem_of_migrated (h : content name = none) (hne : migrated content generated name ≠ none) :
    name ∈ fields := by
  rw [migrated_of_eq_none h] at hne
  exact ofEntries_ne_none_iff.1 hne

lemma migrated_of_not_mem (h : name ∉ fields) :
    migrated content generated name = content name := by
  cases hname : content name with
  | none => exact not_not.1 (mt (mem_of_migrated hname) h)
  | some v => exact migrated_of_eq_some hname

/-- A complete content is read field by field. -/
lemma fromJujuSecret_of_complete (h : ∀ name ∈ fields, content name ≠ none) :
    ∃ s, fromJujuSecret content = .ok s ∧ Holds content s := by
  simp only [fields, List.forall_mem_cons, Option.ne_none_iff_exists'] at h
  obtain ⟨⟨key, hkey⟩, ⟨session, hsession⟩, ⟨salt, hsalt⟩, ⟨version, hversion⟩, -⟩ := h
  refine ⟨⟨key, session, salt, version⟩, ?_, ?_⟩
  · simp only [fromJujuSecret, getItem, hkey, hsession, hsalt, hversion]
    rfl
  · simp only [Holds, MediaWikiSecrets.toJujuSecret, List.forall_mem_cons, hkey, hsession, hsalt,
      hversion, true_and]
    exact fun _ h => absurd h List.not_mem_nil

/-! ### What the functions do -/

/-- Nothing is missing. -/
def Complete (content : Content) : Prop := ∀ name ∈ fields, content name ≠ none

lemma missing_eq_nil_iff (content : Content) (generated : MediaWikiSecrets) :
    (generated.toJujuSecret.filter fun entry => content entry.1 = none) = [] ↔
      Complete content := by
  rw [List.filter_eq_nil_iff, Complete, ← map_fst_toJujuSecret generated, List.forall_mem_map]
  simp only [decide_eq_true_eq, Ne]

lemma setupReplicaData_run (isLeader : Bool) (generated : MediaWikiSecrets) (s : Option Secret) :
    (setupReplicaData isLeader generated s).2 =
      if isLeader = true ∧ s = none then some { content := ofEntries generated.toJujuSecret }
      else s := by
  cases s <;> cases isLeader <;> rfl

lemma onRotateSecrets_run (isLeader : Bool) (generated : MediaWikiSecrets) (s : Option Secret) :
    (onRotateSecrets isLeader generated s).2 =
      if isLeader = true then s.map fun secret =>
        { content := ofEntries generated.toJujuSecret, revision := secret.revision + 1 }
      else s := by
  cases s <;> cases isLeader <;> rfl

/-- A complete secret is returned as it is. -/
lemma replicaSecrets_of_complete (isLeader : Bool) (generated : MediaWikiSecrets)
    (h : Complete secret.content) :
    ∃ r, replicaSecrets isLeader generated (some secret) = (.ok r, some secret) ∧
      Holds secret.content r := by
  obtain ⟨r, hr, hholds⟩ := fromJujuSecret_of_complete h
  refine ⟨r, ?_, hholds⟩
  have hmissing := (missing_eq_nil_iff secret.content generated).2 h
  simp [replicaSecrets, getSecret, Prog.tryCatch_run, Prog.bind_run, hmissing, hr]

/-- A leader migrates what is not complete. -/
lemma replicaSecrets_of_leader (generated : MediaWikiSecrets) (h : ¬ Complete secret.content) :
    ∃ r, replicaSecrets true generated (some secret) =
      (.ok r, some { content := migrated secret.content generated
                     revision := secret.revision + 1 }) ∧
      Holds (migrated secret.content generated) r := by
  have hcomplete : ∀ name ∈ fields, migrated secret.content generated name ≠ none :=
    fun _ => migrated_ne_none
  obtain ⟨r, hr, hholds⟩ := fromJujuSecret_of_complete hcomplete
  refine ⟨r, ?_, hholds⟩
  have hmissing := mt (missing_eq_nil_iff secret.content generated).1 h
  simp [replicaSecrets, getSecret, setContent, Prog.tryCatch_run, Prog.bind_run, hmissing,
    addMissing_missing, hr]

/-- Another unit waits for the leader to migrate it. -/
lemma replicaSecrets_of_not_leader (generated : MediaWikiSecrets)
    (h : ¬ Complete secret.content) :
    ∃ e, replicaSecrets false generated (some secret) = (.error e, some secret) := by
  have hmissing := mt (missing_eq_nil_iff secret.content generated).1 h
  simp [replicaSecrets, getSecret, Prog.tryCatch_run, Prog.bind_run, hmissing, secretNotFound]

lemma replicaSecrets_none (isLeader : Bool) (generated : MediaWikiSecrets) :
    ∃ e, replicaSecrets isLeader generated none = (.error e, none) := ⟨_, rfl⟩

/-- Around `_replica_secrets`, `reconciliation_state` only reads. -/
lemma reconciliationState_run (isLeader : Bool) (generated : MediaWikiSecrets)
    (s : Option Secret) (relation : Relation) :
    (reconciliationState isLeader generated { relation := some relation, rest := s }).2.rest =
      (replicaSecrets isLeader generated s).2 ∧
    ∀ state, (reconciliationState isLeader generated
        { relation := some relation, rest := s }).1 = .ok state →
      (replicaSecrets isLeader generated s).1 = .ok state.secrets := by
  rcases hrun : replicaSecrets isLeader generated s with ⟨e | secrets, s'⟩
  · have h : reconciliationState isLeader generated { relation := some relation, rest := s } =
        (.error e, { relation := some relation, rest := s' }) := by
      simp [reconciliationState, Peers.relation, Peers.callback, Prog.bind_run, Prog.zoom, hrun]
    rw [h]
    refine ⟨rfl, fun state hstate => ?_⟩
    cases hstate
  · have h : reconciliationState isLeader generated { relation := some relation, rest := s } =
        ((Peers.operationMode relation.app).map fun mode => {
          secrets := secrets
          operationMode := mode
          maintenanceMessage := relation.app.maintenanceMessage
          composerLock := relation.app.composerLock
          leaderStateHash := relation.app.leaderStateHash },
        { relation := some relation, rest := s' }) := by
      simp only [reconciliationState, Peers.relation, Peers.callback, Prog.bind_run, Prog.zoom,
        Prog.get_run, Prog.pure_run, hrun, Prog.ofExcept_run]
      cases Peers.operationMode relation.app <;> rfl
    rw [h]
    refine ⟨rfl, fun state hstate => ?_⟩
    cases hmode : Peers.operationMode relation.app with
    | error e =>
      rw [hmode] at hstate
      cases hstate
    | ok mode =>
      rw [hmode] at hstate
      rw [← Except.ok.inj hstate]

lemma reconciliationState_run_none :
    (reconciliationState isLeader generated { relation := none, rest := s }).2.rest = s ∧
    ∀ state, (reconciliationState isLeader generated
      { relation := none, rest := s }).1 ≠ .ok state := ⟨rfl, nofun⟩

end ReplicaSecrets
end MediawikiCharm
