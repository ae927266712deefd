/-
The credentials that are registered before anything else runs (`_seed_log_secrets` of
`charm.py`, `register_secret` and `register_relation_secrets` of `log_redaction.py`).

Credentials lie in secrets, in the databags of relations, in secrets that a databag refers to
and in a JSON list inside a databag.  A `ModelError` of a secret that cannot be read is reported
in the log, which already runs through the redactor.  A list that is no JSON is reported too, but
one that meets a limit of the interpreter raises, and so does a relation or a configuration that
cannot be read.
-/
import MediawikiCharm.Lib.JsonLimits
import MediawikiCharm.LogRedaction.Bytes

namespace MediawikiCharm
namespace Redactor

open Json PyText Substitution

variable {F : Type} [FiniteFloat F] (isPrintable : PyChar → Bool) (order : SetOrder) (depth : ℕ)

/-! ### What Juju answers -/

/-- The content of a secret or of a databag. -/
abbrev Bag := PyStr → Option (List Char)

/-- An error of a call to Juju. -/
inductive JujuError
  /-- `SecretNotFoundError` -/
  | secretNotFound
  /-- another `ModelError`, with the name of its class -/
  | modelError (name : PyStr)
  /-- an exception that is no `ModelError`, as for an identifier that no command can be given -/
  | other (name : PyStr)

/-- What a secret is looked up by. -/
inductive SecretRef
  | id (secretId : PyStr)
  | label (label : PyStr)

/-- A secret that was found. -/
structure JujuSecret where
  getContent : Except JujuError Bag
  peekContent : Except JujuError Bag

/-- A relation; without a remote application it has no databag. -/
structure Relation where
  data : Option (Except JujuError Bag)

/-- The model and the configuration as a hook sees them. -/
structure Model where
  getSecret : SecretRef → Except JujuError JujuSecret
  relations : PyStr → Except JujuError (List Relation)
  /-- `config.get("ssh-key")`, where a value that is no text is `none` -/
  sshKey : Except JujuError (Option PyStr)

/-! ### The functions -/

/-- `RelationRedaction` -/
structure RelationRedaction where
  fields : List PyStr
  references : List PyStr := []
  nestedListKey : Option PyStr := none

/-- `Database.REDACTION` -/
def databaseRedaction : RelationRedaction :=
  { fields := [lit "password"], references := [lit "secret-user"] }

/-- `Valkey.REDACTION` -/
def valkeyRedaction : RelationRedaction :=
  { fields := [lit "password", lit "entity-password"]
    references := [lit "secret-user", lit "secret-entity", lit "secret-requested-entity"]
    nestedListKey := some (lit "requests") }

/-- `Smtp.REDACTION` -/
def smtpRedaction : RelationRedaction :=
  { fields := [lit "password"], references := [lit "password_id"] }

/-- `OAuth.REDACTION` -/
def oauthRedaction : RelationRedaction :=
  { fields := [lit "client_secret", lit "secret"], references := [lit "client_secret_id"] }

/-- `S3.REDACTION` -/
def s3Redaction : RelationRedaction := { fields := [lit "access-key", lit "secret-key"] }

/-- The endpoints with what they declare. -/
def sources : List (PyStr × RelationRedaction) := [
  (lit "database", databaseRedaction), (lit "valkey", valkeyRedaction), (lit "smtp", smtpRedaction),
  (lit "oauth", oauthRedaction), (lit "s3-parameters", s3Redaction)]

/-- `_REPLICA_SECRET_LABEL` -/
def replicaSecretLabel : PyStr := lit "replica-secret"

/-- The credentials of the replicas. -/
def replicaFields : List PyStr :=
  [lit "key", lit "session", lit "saml-salt", lit "authentication-token-version"]

/-- `_SSH_KEY_FIELDS` -/
def sshKeyFields : List PyStr := [lit "mediawiki", lit "git-sync"]

/-- What can be raised. -/
inductive Raised
  | juju (e : JujuError)
  | other (e : Exc)

/-- A call to Juju. -/
def call {α : Type} (r : Except JujuError α) : Prog Session Raised α :=
  Prog.ofExcept (r.mapError .juju)

/-- `register_secrets` -/
def registerSecrets (values : List (Option PyStr)) : Prog Session Raised Unit := fun st =>
  ((register isPrintable order values st.redactor).1.mapError .other,
    st.step isPrintable (.register order values))

/-- `logger.warning`: the formatter of the log masks the text. -/
def warning (text : PyStr) : Prog Session Raised Unit := fun st =>
  (.ok (), st.step isPrintable (.redact text))

/-- What `register_secret` does about an exception. -/
def unreadable (ref : SecretRef) : Raised → Prog Session Raised Unit
  | .juju .secretNotFound =>
    match ref with
    | .id secretId =>
      if secretId ≠ [] then
        warning isPrintable
          (lit "Log masking could not read a referenced secret; it may be removed.")
      else pure ()
    | .label _ => pure ()
  | .juju (.modelError name) =>
    warning isPrintable (lit "Log masking could not read a secret (" ++ name ++ lit ").")
  | .juju (.other name) => throw (.juju (.other name))
  | .other e => throw (.other e)

/-- `register_secret` -/
def registerSecret (model : Model) (ref : SecretRef) (fields : List PyStr) :
    Prog Session Raised Unit :=
  tryCatch (do
    let secret ← call (model.getSecret ref)
    [secret.getContent, secret.peekContent].forM fun readContent => do
      let content ← call readContent
      registerSecrets isPrintable order (fields.map fun field => (content field).map chars))
    (unreadable isPrintable ref)

/-- `register_secret` for a value that is a text and not empty -/
def registerReferenced (model : Model) (fields : List PyStr) :
    Option PyStr → Prog Session Raised Unit
  | some secretId =>
    if secretId ≠ [] then registerSecret isPrintable order model (.id secretId) fields else pure ()
  | none => pure ()

/-- A value that is a text. -/
def asText : Json F → Option PyStr
  | .str value => some value
  | _ => none

/-- `register_secrets` for a value that is a text -/
def registerText : Option PyStr → Prog Session Raised Unit
  | some value => registerSecrets isPrintable order [some value]
  | none => pure ()

/-- `_register_fields` -/
def registerFields (model : Model) (data : PyStr → Option (Json F))
    (fields references : List PyStr) : Prog Session Raised Unit := do
  fields.forM fun field => registerText isPrintable order ((data field).bind asText)
  references.forM fun reference =>
    registerReferenced isPrintable order model fields ((data reference).bind asText)

/-- A databag as the mapping that `_register_fields` takes. -/
def ofBag (data : Bag) : PyStr → Option (Json F) := fun field =>
  (data field).map fun text => .str (chars text)

/-- An item of the JSON list. -/
def registerItem (model : Model) (redaction : RelationRedaction) :
    Json F → Prog Session Raised Unit
  | .obj members =>
    registerFields isPrintable order model (fun field => members.lookup field) redaction.fields
      redaction.references
  | _ => pure ()

/-- The JSON list, as `json.loads` returns it. -/
def registerNested (model : Model) (redaction : RelationRedaction) :
    Except LoadsError (Json F) → Prog Session Raised Unit
  | .ok (.arr items) => items.forM (registerItem isPrintable order model redaction)
  | .ok _ => pure ()
  | .error .decode => warning isPrintable (lit "Log masking could not parse nested relation data.")
  | .error .digits => throw (.other (.other "ValueError"))
  | .error .recursion => throw (.other (.other "RecursionError"))

variable (F) in
/-- `register_relation_secrets` -/
def registerRelationSecrets (model : Model) (relation : Relation) (redaction : RelationRedaction) :
    Prog Session Raised Unit :=
  match relation.data with
  | none => pure ()
  | some answer => do
    -- the databag is fetched when its first field is read
    let data ← call answer
    registerFields isPrintable order model (ofBag (F := F) data) redaction.fields
      redaction.references
    match redaction.nestedListKey with
    | none => pure ()
    | some key =>
      registerNested isPrintable order model redaction
        (loadsWithin (F := F) depth ((data key).getD ['[', ']']))

variable (F) in
/-- `_seed_log_secrets` with `depth` levels of recursion left -/
def seedLogSecrets (model : Model) : Prog Session Raised Unit := do
  registerSecret isPrintable order model (.label replicaSecretLabel) replicaFields
  let secretId ← call model.sshKey
  registerReferenced isPrintable order model sshKeyFields secretId
  sources.forM fun source => do
    let relations ← call (model.relations source.1)
    relations.forM fun relation =>
      registerRelationSecrets F isPrintable order depth model relation source.2

/-! ### The credentials -/

/-- A credential in the content of a secret. -/
def InContent (content : Bag) (fields : List PyStr) (value : PyStr) : Prop :=
  ∃ field ∈ fields, ∃ v, content field = some v ∧ value = chars v

/-- A credential in a secret: in the revision that is tracked, or in the latest one once the
tracked one was read. -/
inductive InSecret (model : Model) (ref : SecretRef) (fields : List PyStr) : PyStr → Prop
  | tracked {secret : JujuSecret} {content : Bag} {value : PyStr} :
    model.getSecret ref = .ok secret → secret.getContent = .ok content →
    InContent content fields value → InSecret model ref fields value
  | latest {secret : JujuSecret} {tracked content : Bag} {value : PyStr} :
    model.getSecret ref = .ok secret → secret.getContent = .ok tracked →
    secret.peekContent = .ok content → InContent content fields value →
    InSecret model ref fields value

/-- A credential in a mapping or in a secret that it refers to. -/
inductive InFields (model : Model) (data : PyStr → Option (Json F))
    (fields references : List PyStr) : PyStr → Prop
  | field {field value : PyStr} : field ∈ fields → data field = some (.str value) →
    InFields model data fields references value
  | referenced {reference secretId value : PyStr} : reference ∈ references →
    data reference = some (.str secretId) → secretId ≠ [] →
    InSecret model (.id secretId) fields value → InFields model data fields references value

variable (F) in
/-- A credential in a relation. -/
inductive InRelation (model : Model) (relation : Relation) (redaction : RelationRedaction) :
    PyStr → Prop
  | databag {data : Bag} {value : PyStr} : relation.data = some (.ok data) →
    InFields model (ofBag (F := F) data) redaction.fields redaction.references value →
    InRelation model relation redaction value
  | nested {data : Bag} {key : PyStr} {text : List Char} {items : List (Json F)}
    {members : List (PyStr × Json F)} {value : PyStr} : relation.data = some (.ok data) →
    redaction.nestedListKey = some key → data key = some text → loads text = some (.arr items) →
    .obj members ∈ items →
    InFields model (fun field => members.lookup field) redaction.fields redaction.references
      value → InRelation model relation redaction value

variable (F) in
/-- A credential that the charm has access to. -/
inductive Credential (model : Model) : PyStr → Prop
  | replica {value : PyStr} :
    InSecret model (.label replicaSecretLabel) replicaFields value → Credential model value
  | sshKey {secretId value : PyStr} : model.sshKey = .ok (some secretId) → secretId ≠ [] →
    InSecret model (.id secretId) sshKeyFields value → Credential model value
  | relation {endpoint value : PyStr} {redaction : RelationRedaction} {relations : List Relation}
    {relation : Relation} : (endpoint, redaction) ∈ sources →
    model.relations endpoint = .ok relations → relation ∈ relations →
    InRelation F model relation redaction value → Credential model value

/-! ### What lies in a secret -/

variable {model : Model} {ref : SecretRef} {fields : List PyStr} {e : JujuError}
  {secret : JujuSecret} {tracked latest : Bag}

lemma inSecret_iff {value : PyStr} :
    InSecret model ref fields value ↔ ∃ secret tracked, model.getSecret ref = .ok secret ∧
      secret.getContent = .ok tracked ∧ (InContent tracked fields value ∨
        ∃ latest, secret.peekContent = .ok latest ∧ InContent latest fields value) := by
  constructor
  · rintro (⟨hget, hfirst, hin⟩ | ⟨hget, hfirst, hsecond, hin⟩)
    · exact ⟨_, _, hget, hfirst, .inl hin⟩
    · exact ⟨_, _, hget, hfirst, .inr ⟨_, hsecond, hin⟩⟩
  · rintro ⟨secret, tracked, hget, hfirst, hin | ⟨latest, hsecond, hin⟩⟩
    · exact .tracked hget hfirst hin
    · exact .latest hget hfirst hsecond hin

lemma inSecret_of_getSecret_error (hget : model.getSecret ref = .error e) :
    InSecret model ref fields = fun _ => False := by
  ext v
  simp [inSecret_iff, hget]

lemma inSecret_of_getContent_error (hget : model.getSecret ref = .ok secret)
    (hfirst : secret.getContent = .error e) : InSecret model ref fields = fun _ => False := by
  ext v
  simp [inSecret_iff, hget, hfirst]

/-- The latest revision cannot be read. -/
lemma inSecret_of_peekContent_error (hget : model.getSecret ref = .ok secret)
    (hfirst : secret.getContent = .ok tracked) (hsecond : secret.peekContent = .error e) :
    InSecret model ref fields = InContent tracked fields := by
  ext v
  simp [inSecret_iff, hget, hfirst, hsecond]

/-- Both revisions can be read. -/
lemma inSecret_of_read (hget : model.getSecret ref = .ok secret)
    (hfirst : secret.getContent = .ok tracked) (hsecond : secret.peekContent = .ok latest) :
    InSecret model ref fields =
      fun v => InContent tracked fields v ∨ InContent latest fields v := by
  ext v
  simp [inSecret_iff, hget, hfirst, hsecond]

/-! ### What must not raise -/

/-- `except ops.SecretNotFoundError` or `except ops.ModelError` catches the exception. -/
def JujuError.IsModelError : JujuError → Prop
  | .secretNotFound => True
  | .modelError _ => True
  | .other _ => False

/-- The exception that reading a secret ends in, if there is one. -/
def readingError (model : Model) (ref : SecretRef) : Option JujuError :=
  match model.getSecret ref with
  | .error e => some e
  | .ok secret =>
    match secret.getContent with
    | .error e => some e
    | .ok _ =>
      match secret.peekContent with
      | .error e => some e
      | .ok _ => none

/-- The secret can be read, or what is raised is a `ModelError`. -/
def Reported (model : Model) (ref : SecretRef) : Prop :=
  ∀ e, readingError model ref = some e → e.IsModelError

/-- What an identifier that is given stands for is reported where it cannot be read. -/
def ReportedAt (model : Model) (o : Option PyStr) : Prop :=
  ∀ secretId, o = some secretId → secretId ≠ [] → Reported model (.id secretId)

/-- So are the secrets that a mapping refers to. -/
def ReferencesReported (model : Model) (data : PyStr → Option (Json F))
    (references : List PyStr) : Prop :=
  ∀ reference ∈ references, ReportedAt model ((data reference).bind asText)

variable (F) in
/-- The JSON list meets no limit of the interpreter, and the secrets that its objects refer to are
reported where they cannot be read. -/
structure ListReadable (model : Model) (redaction : RelationRedaction) (text : List Char) :
    Prop where
  limits : WithinLimits F depth text
  references : ∀ items, loads (F := F) text = some (.arr items) → ∀ members, .obj members ∈ items →
    ReferencesReported model (fun field => members.lookup field) redaction.references

variable (F) in
/-- The databag can be read, and nothing that lies in it raises. -/
def Readable (model : Model) (relation : Relation) (redaction : RelationRedaction) : Prop :=
  ∀ answer, relation.data = some answer → ∃ data, answer = .ok data ∧
    ReferencesReported model (ofBag (F := F) data) redaction.references ∧
    ∀ key, redaction.nestedListKey = some key →
      ListReadable F depth model redaction ((data key).getD ['[', ']'])

variable (F) in
/-- The configuration and the relations can be read.  No secret has to be, but what is raised in
its place must be a `ModelError`. -/
structure Accessible (model : Model) : Prop where
  replica : Reported model (.label replicaSecretLabel)
  sshKey : ∃ secretId, model.sshKey = .ok secretId ∧ ReportedAt model secretId
  relations : ∀ source ∈ sources, ∃ relations, model.relations source.1 = .ok relations ∧
    ∀ relation ∈ relations, Readable F depth model relation source.2

end Redactor
end MediawikiCharm
