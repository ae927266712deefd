/-
The authentication key of Shellbox (`shellbox.py`, `unit_secret_value` of `utils.py`).

MediaWiki signs its requests with the key in `LateSettings.php`, and PHP-FPM in the sidecar
checks them with the key that was in its file when it was last started.  Both keys come from
one field of the secret of the unit, which `unit_secret_value` adds when it is missing.

A hook that fails keeps what it has done to the containers, but Juju discards what it wrote
to the secret.  The model therefore follows the file, the services and the secret through
whole hooks that may fail at any call, through the restarts that Pebble makes of its own
accord and through the loss of the containers.
-/
import MediawikiCharm.Lib.Machine
import MediawikiCharm.Pebble
import MediawikiCharm.ReplicaSecrets.Runs

namespace MediawikiCharm
namespace Shellbox

open ReplicaSecrets

/-! ### The sidecar and the secret -/

/-- `AUTHENTICATION_KEY_CONTENT_KEY` -/
def authenticationKeyContentKey : String := "shellbox-key"

/-- `_PHP_FPM_SERVICE` -/
def phpFpmService : String := "php-fpm"

/-- `_SERVICES` -/
def services : List String := [phpFpmService, "apache2", "apache-exporter"]

/-- The services of the image; none of them has an enabled startup. -/
def rockServices : List (String × ServiceConfig) := [
  ("php-fpm",
    { summary := ""
      command := "/bin/sh -ec 'mkdir -p /run/php; exec /usr/sbin/php-fpm* --nodaemonize " ++
        "--fpm-config /etc/shellbox/php-fpm.conf'"
      user := some "root"
      group := some "root" }),
  ("apache2",
    { summary := ""
      command := "/bin/sh -ec 'mkdir -p /run/apache2; exec /usr/sbin/apache2 -D FOREGROUND'"
      user := some "_daemon_"
      group := some "_daemon_"
      environment := [("APACHE_RUN_USER", "_daemon_"), ("APACHE_RUN_GROUP", "_daemon_"),
        ("APACHE_RUN_DIR", "/run/apache2"), ("APACHE_PID_FILE", "/run/apache2/apache2.pid"),
        ("APACHE_LOCK_DIR", "/run/apache2"), ("APACHE_LOG_DIR", "/run/apache2")]
      requires := ["php-fpm"]
      after := ["php-fpm"] }),
  ("apache-exporter",
    { summary := ""
      command := "/bin/apache_exporter --scrape_uri=http://127.0.0.1:8092/server-status?auto " ++
        "--web.listen-address=:9118"
      user := some "_daemon_"
      group := some "_daemon_"
      after := ["apache2"] })]

/-- Pebble in a new container. -/
def rockPebble : Pebble := { plan := fun s => rockServices.lookup s }

/-- A file with its permissions. -/
structure File where
  text : String
  mode : ℕ
  user : String
  group : String
deriving DecidableEq

/-- The file that passes a key to PHP-FPM. -/
def keyFileOf (key : String) : File :=
  { text := "[shellbox]\nenv[SHELLBOX_SECRET_KEY] = " ++ key ++ "\n"
    mode := 0o600
    user := "root"
    group := "root" }

/-- The unit as a hook sees it. -/
structure World where
  /-- The secret with the label `UNIT_SECRET_LABEL`. -/
  secret : Option Secret := none
  /-- `KEY_FILE` -/
  keyFile : Option File := none
  pebble : Pebble := rockPebble
  /-- `KEY_FILE` when PHP-FPM was last started in this container. -/
  loaded : Option File := none
  /-- PHP-FPM has been started in this container. -/
  asked : Bool := false
  /-- The key in `LateSettings.php`. -/
  lateSettings : Option String := none
  /-- How many calls were made. -/
  clock : ℕ := 0

namespace World

/-- The key in the secret. -/
def key (w : World) : Option String := value w.secret authenticationKeyContentKey

/-- A call was made. -/
def ticked (w : World) : World := { w with clock := w.clock + 1 }

/-- Let a call to Pebble have its effect; PHP-FPM reads its file when it starts. -/
def touch (effect : String → Effect) (w : World) : World :=
  { w with
    pebble := w.pebble.touch effect
    loaded := if effect phpFpmService = .started then w.keyFile else w.loaded
    asked := w.asked || decide (effect phpFpmService = .started) }

/-- Replace the content of the secret. -/
def setContent (content : Content) (w : World) : World :=
  { w with
    secret := some {
      content := content
      revision := w.secret.elim 1 fun secret => secret.revision + 1 } }

end World

/-! ### The calls -/

/-- Whether `_reconciliation` turns the exception into a status of the unit. -/
def isCaught : Exc → Bool
  | .configInvalid _ => true
  | e => e.isStatus

/-- A call that raises. -/
structure Fault where
  error : Exc
  /-- What it would have written is written nevertheless. -/
  written : Bool := false
  /-- What it has done to the services nevertheless. -/
  effect : String → Effect := fun _ => .untouched
  /-- The calls raise no exceptions of the charm. -/
  uncaught : isCaught error = false := by decide
  /-- A secret that exists is found. -/
  found : error ≠ secretNotFound := by decide

/-- The answers of the surroundings to the calls of a hook, by the number of the call. -/
structure Env where
  /-- `can_connect` -/
  canConnect : Bool := true
  fault : ℕ → Option Fault := fun _ => none
  /-- `secrets.token_hex(64)` -/
  tokenHex : ℕ → String

variable (env : Env)

/-- Count a call. -/
def tick : Prog World Exc ℕ := fun w => (.ok w.clock, w.ticked)

/-- A call with an effect on the state, and with another one when it raises. -/
def call (effect : World → World) (faulty : Fault → World → World) : Prog World Exc Unit := do
  let n ← tick
  match env.fault n with
  | none => Prog.modify effect
  | some f => do
    Prog.modify (faulty f)
    throw f.error

/-- A call that only asks. -/
def query : Prog World Exc Unit := call env id fun _ => id

/-- A call that writes. -/
def write (effect : World → World) : Prog World Exc Unit :=
  call env effect fun f => if f.written then effect else id

/-- A call to Pebble with effects on the services. -/
def pebbleCall (intended : Pebble → String → Effect) : Prog World Exc Unit :=
  call env (fun w => w.touch (intended w.pebble))
    fun f w => w.touch (Pebble.partialEffect (intended w.pebble) f.effect)

/-- `model.get_secret(label=UNIT_SECRET_LABEL)` -/
def getSecret : Prog World Exc Secret := do
  query env
  let w ← Prog.get
  match w.secret with
  | some secret => pure secret
  | none => throw secretNotFound

/-- `secret.get_content(refresh=True)` -/
def getContent (secret : Secret) : Prog World Exc Content := do
  query env
  pure secret.content

/-- `value_factory()` -/
def generate : Prog World Exc String := do
  let n ← tick
  pure (env.tokenHex n)

/-- `ensure_contents` for `KEY_FILE` -/
def ensureContents (file : File) : Prog World Exc Bool := do
  let w ← Prog.get
  if w.keyFile = some file then do
    query env
    pure false
  else do
    write env fun w => { w with keyFile := some file }
    pure true

/-! ### The functions -/

/-- `unit_secret_value` -/
def unitSecretValue (key : String) : Prog World Exc String := do
  let found ← tryCatch (do
    let secret ← getSecret env
    pure (some secret)) fun e => if e = secretNotFound then pure none else throw e
  match found with
  | none => do
    let value ← generate env
    write env fun w => w.setContent (ofEntries [(key, value)])
    pure value
  | some secret => do
    let content ← getContent env secret
    match content key with
    | some value => pure value
    | none => do
      let value ← generate env
      write env fun w => w.setContent (Function.update content key (some value))
      pure value

/-- `authentication_key` -/
def authenticationKey : Prog World Exc String := unitSecretValue env authenticationKeyContentKey

/-- The layer that `reconciliation` adds, merged into the plan: its services get an enabled
startup. -/
def layer (p : Pebble) : Layer :=
  { services := services.filterMap fun s =>
      (p.plan s).map fun c => (s, { c with startupEnabled := true })
    checks := [("shellbox", true)] }

/-- `reconciliation` -/
def reconciliation : Prog World Exc Unit :=
  if !env.canConnect then throw (.waiting "Waiting for shellbox sidecar")
  else do
    let key ← authenticationKey env
    let keyChanged ← ensureContents env (keyFileOf key)
    write env fun w => { w with pebble := w.pebble.addLayer (layer w.pebble) }
    (if keyChanged then pebbleCall env fun _ => Pebble.restartEffect [phpFpmService] else pure ())
    pebbleCall env Pebble.replanEffect

/-! ### Hooks -/

/-- The exception that other parts of a hook raise, if any. -/
def raises : Option Exc → Prog World Exc Unit
  | none => pure ()
  | some e => throw e

/-- A reconciliation of the unit. -/
structure Hook where
  env : Env
  /-- what ends it before Shellbox -/
  before : Option Exc := none
  /-- what ends it between Shellbox and the settings -/
  between : Option Exc := none
  /-- what ends it after the settings -/
  after : Option Exc := none

namespace Hook

/-- `_reconciliation`, as far as it concerns Shellbox: its own reconciliation and that of
`LateSettings.php`. -/
def program (h : Hook) : Prog World Exc Unit := do
  raises h.before
  reconciliation h.env
  raises h.between
  let key ← authenticationKey h.env
  write h.env fun w => { w with lateSettings := some key }
  raises h.after

/-- The hook fails on an exception that `_reconciliation` does not catch. -/
def fails : Except Exc Unit → Bool
  | .ok _ => false
  | .error e => !isCaught e

/-- The state after a hook: the secret is as before when it has failed. -/
def outcome (h : Hook) (w : World) : World :=
  { (h.program w).2 with
    secret := if fails (h.program w).1 then w.secret else (h.program w).2.secret }

/-- The hook reconciles everything. -/
def Completes (h : Hook) (w : World) : Prop := (h.program w).1 = .ok ()

end Hook

/-- What happens to a unit. -/
inductive Label
  /-- a hook or an action that reconciles the unit -/
  | hook (h : Hook)
  /-- services of the sidecar exit, or are started anew by Pebble -/
  | services (effect : String → Effect)
  /-- the sidecar is replaced by a new container -/
  | sidecarReplaced
  /-- the container of MediaWiki is replaced by a new one -/
  | mediawikiReplaced

/-- What may follow a state.  Pebble starts PHP-FPM of its own accord only once it was asked to
start it. -/
def step (w : World) : Label → World → Prop
  | .hook h, w' => w' = h.outcome w
  | .services effect, w' =>
    (effect phpFpmService = .started → w.asked = true) ∧ w' = w.touch effect
  | .sidecarReplaced, w' =>
    w' = { w with keyFile := none, pebble := rockPebble, loaded := none, asked := false }
  | .mediawikiReplaced, w' => w' = { w with lateSettings := none }

/-- A unit starts with new containers and, after an upgrade, with a secret without the key. -/
def machine : Machine World Label where
  init w := w.key = none ∧ w.keyFile = none ∧ w.pebble = rockPebble ∧ w.loaded = none ∧
    w.asked = false ∧ w.lateSettings = none
  step := step

/-- A key that is generated in the hook is not the one in the file. -/
def Fresh (w : World) : Label → Prop
  | .hook h => ∀ n, w.keyFile ≠ some (keyFileOf (h.env.tokenHex n))
  | _ => True

/-! ### What the calls leave -/

/-- Every field of the secret keeps its value. -/
def Extends (w w' : World) : Prop :=
  ∀ name v, value w.secret name = some v → value w'.secret name = some v

section Calls

variable {env : Env} {w w' w'' : World}

lemma Extends.refl (w : World) : Extends w w := fun _ _ h => h

lemma Extends.trans (h : Extends w w') (h' : Extends w' w'') : Extends w w'' :=
  fun name v hv => h' name v (h name v hv)

lemma Extends.key (h : Extends w w') {key : String} (hkey : w.key = some key) :
    w'.key = some key := h _ _ hkey

lemma wp_call {effect : World → World} {faulty : Fault → World → World}
    {Q : Unit → World → Prop} {E : Exc → World → Prop} (hQ : Q () (effect w.ticked))
    (hE : ∀ f : Fault, E f.error (faulty f w.ticked)) : (call env effect faulty).wp Q E w := by
  have htick : tick w = (.ok w.clock, w.ticked) := rfl
  unfold call Prog.wp
  rw [Prog.bind_run_ok htick]
  cases env.fault w.clock with
  | none => exact hQ
  | some f => exact hE f

lemma wp_query {Q : Unit → World → Prop} {E : Exc → World → Prop} (hQ : Q () w.ticked)
    (hE : ∀ f : Fault, E f.error w.ticked) : (query env).wp Q E w := wp_call hQ hE

/-- A call that writes has written or not, also when it raises. -/
lemma wp_write {effect : World → World} {Q : Unit → World → Prop} {E : Exc → World → Prop}
    (hQ : Q () (effect w.ticked)) (hwritten : ∀ f : Fault, E f.error (effect w.ticked))
    (hnot : ∀ f : Fault, E f.error w.ticked) : (write env effect).wp Q E w := by
  refine wp_call hQ fun f => ?_
  cases hf : f.written with
  | true => simpa [hf] using hwritten f
  | false => simpa [hf] using hnot f

/-- Only the secret differs, and it keeps its values. -/
structure Added (w w' : World) : Prop where
  keyFile : w'.keyFile = w.keyFile
  pebble : w'.pebble = w.pebble
  loaded : w'.loaded = w.loaded
  asked : w'.asked = w.asked
  lateSettings : w'.lateSettings = w.lateSettings
  secret : Extends w w'

lemma Added.ticked (w : World) : Added w w.ticked := ⟨rfl, rfl, rfl, rfl, rfl, .refl w⟩

lemma Added.trans (h : Added w w') (h' : Added w' w'') : Added w w'' where
  keyFile := h'.keyFile.trans h.keyFile
  pebble := h'.pebble.trans h.pebble
  loaded := h'.loaded.trans h.loaded
  asked := h'.asked.trans h.asked
  lateSettings := h'.lateSettings.trans h.lateSettings
  secret := h.secret.trans h'.secret

lemma added_setContent {content : Content}
    (h : ∀ name v, value w.secret name = some v → content name = some v) :
    Added w (w.setContent content) := ⟨rfl, rfl, rfl, rfl, rfl, h⟩

lemma wp_getSecret {Q : Secret → World → Prop} {E : Exc → World → Prop}
    (hQ : ∀ secret, w.secret = some secret → Q secret w.ticked)
    (hnone : w.secret = none → E secretNotFound w.ticked)
    (hE : ∀ f : Fault, E f.error w.ticked) : (getSecret env).wp Q E w := by
  refine Prog.wp_bind.2 (wp_query ?_ hE)
  have hsecret : w.ticked.secret = w.secret := rfl
  refine Prog.wp_bind.2 (Prog.wp_get.2 ?_)
  rw [hsecret]
  cases h : w.secret with
  | some secret => exact hQ secret h
  | none => exact hnone h

/-- A value that is generated and written to the secret, beside those it has. -/
lemma wp_store {content : String → Content} {name : String}
    (h : ∀ v n u, value w.secret n = some u → content v n = some u)
    (hname : ∀ v, content v name = some v) :
    (do
      let v ← generate env
      write env fun w => w.setContent (content v)
      pure v : Prog World Exc String).wp
      (fun v w' => Added w w' ∧ value w'.secret name = some v ∧ ∃ n, v = env.tokenHex n)
      (fun e w' => Added w w' ∧ isCaught e = false) w := by
  have hadded : ∀ v, Added w (w.ticked.ticked.setContent (content v)) := fun v =>
    (Added.ticked w).trans ((Added.ticked _).trans (added_setContent (h v)))
  have hticked : Added w w.ticked.ticked := (Added.ticked w).trans (Added.ticked _)
  refine Prog.wp_bind.2 (Prog.wp_bind.2 ?_)
  show Prog.wp _ _ _ w.ticked
  refine Prog.wp_bind.2 (wp_write ?_ (fun f => ?_) fun f => ?_)
  · exact ⟨hadded _, hname _, _, rfl⟩
  · exact ⟨hadded _, f.uncaught⟩
  · exact ⟨hticked, f.uncaught⟩

/-- The value is in the secret; one that was not there before was generated.  An exception
leaves the secret with all its values, too. -/
lemma unitSecretValue_spec (name : String) (w : World) :
    (unitSecretValue env name).wp
      (fun v w' => Added w w' ∧ value w'.secret name = some v ∧
        (value w.secret name = none → ∃ n, v = env.tokenHex n))
      (fun e w' => Added w w' ∧ isCaught e = false) w := by
  refine Prog.wp_bind.2 (Prog.wp_tryCatch.2 (Prog.wp_bind.2 (wp_getSecret ?_ ?_ ?_)))
  · intro secret hsecret
    have hvalue : ∀ n, value w.secret n = secret.content n := fun n => by rw [hsecret, value_some]
    refine Prog.wp_pure.2 (Prog.wp_bind.2 (Prog.wp_bind.2 (wp_query (Prog.wp_pure.2 ?_) ?_)))
    · have hticked : Added w w.ticked.ticked := (Added.ticked w).trans (Added.ticked _)
      cases hname : secret.content name with
      | some v =>
        refine ⟨hticked, (hvalue name).trans hname, fun h => ?_⟩
        rw [hvalue, hname] at h
        cases h
      | none =>
        have hkept : ∀ v n u, value w.ticked.ticked.secret n = some u →
            Function.update secret.content name (some v) n = some u := by
          intro v n u hu
          have hu' : secret.content n = some u := (hvalue n).symm.trans hu
          have hn : n ≠ name := by
            rintro rfl
            rw [hname] at hu'
            cases hu'
          rw [Function.update_of_ne hn, hu']
        refine Prog.wp_mono (wp_store hkept fun v => Function.update_self ..) ?_ ?_
        · rintro v w' ⟨hadded, hv, hn⟩
          exact ⟨hticked.trans hadded, hv, fun _ => hn⟩
        · rintro e w' ⟨hadded, he⟩
          exact ⟨hticked.trans hadded, he⟩
    · intro f
      exact ⟨(Added.ticked w).trans (Added.ticked _), f.uncaught⟩
  · intro hnone
    have hkept : ∀ v n u, value w.ticked.secret n = some u →
        ofEntries [(name, v)] n = some u := by
      intro v n u hu
      have hu' : value none n = some u := hnone ▸ hu
      cases hu'
    have hstore := @wp_store env w.ticked _ name hkept fun v => List.lookup_cons_self
    refine (Prog.wp_mono hstore ?_ ?_ : Prog.wp _ _ _ w.ticked)
    · rintro v w' ⟨hadded, hv, hn⟩
      exact ⟨(Added.ticked w).trans hadded, hv, fun _ => hn⟩
    · rintro e w' ⟨hadded, he⟩
      exact ⟨(Added.ticked w).trans hadded, he⟩
  · intro f
    rw [if_neg f.found]
    exact ⟨.ticked w, f.uncaught⟩

end Calls

end Shellbox
end MediawikiCharm
