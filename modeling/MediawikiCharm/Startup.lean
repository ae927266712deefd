/-
The start of the charm (`state.py`, `charm.py`, `mediawiki/_core.py`).

Every dispatch constructs the charm and runs the observers of its event.  The base class reads
the proxy settings of the model; where they are invalid it blocks the unit and returns, and the
attribute `state` is never assigned.  The constructor of the charm goes on behind it, and
`MediaWiki.__init__` reads the attribute.
-/
import MediawikiCharm.Egress

namespace MediawikiCharm
namespace Startup

open Egress

/-! ### The proxy settings -/

/-- The environment of a dispatch, as far as it is read. -/
structure Environment where
  jujuCharmHttpProxy : Option String := none
  jujuCharmHttpsProxy : Option String := none
  jujuCharmNoProxy : Option String := none

/-- What the code outside the repository does. -/
structure Surroundings where
  /-- `HttpUrl`: the URL of a text, or `none` where the validation fails -/
  httpUrl : String → Option HttpUrl
  library : Library

/-- A variable that is not set is as good as an empty one. -/
def given (value : Option String) : Option String := value.filter (· ≠ "")

/-- The validation of a field `Optional[HttpUrl]`. -/
def Surroundings.optionalUrl (sur : Surroundings) : Option String → Except Exc (Option HttpUrl)
  | none => .ok none
  | some text =>
    match sur.httpUrl text with
    | some url => .ok (some url)
    | none => .error (.other "ValidationError")

/-- `ProxyConfig.from_env` -/
def Environment.fromEnv (env : Environment) (sur : Surroundings) :
    Except Exc (Option ProxyConfig) :=
  let httpProxy := given env.jujuCharmHttpProxy
  let httpsProxy := given env.jujuCharmHttpsProxy
  if httpProxy = none ∧ httpsProxy = none then .ok none
  else do
    let httpUrl ← sur.optionalUrl httpProxy
    let httpsUrl ← sur.optionalUrl httpsProxy
    pure (some {
      httpProxy := httpUrl
      httpsProxy := httpsUrl
      noProxy := env.jujuCharmNoProxy })

/-- `State` -/
structure State where
  proxyConfig : Option ProxyConfig := none

/-- `State.from_charm` -/
def Environment.fromCharm (env : Environment) (sur : Surroundings) : Except Exc State :=
  match env.fromEnv sur with
  | .ok proxyConfig => .ok { proxyConfig := proxyConfig }
  | .error _ => .error (.configInvalid "Invalid model proxy configuration.")

/-- Each of the two URLs is missing, empty or valid. -/
def Environment.IsValid (env : Environment) (sur : Surroundings) : Prop :=
  ∀ text, (text ∈ given env.jujuCharmHttpProxy ∨ text ∈ given env.jujuCharmHttpsProxy) →
    (sur.httpUrl text).isSome

/-! ### The charm under construction -/

inductive UnitStatus
  | unknown
  | active (message : String)
  | maintenance (message : String)
  | waiting (message : String)
  | blocked (message : String)

def UnitStatus.IsBlocked (status : UnitStatus) : Prop := ∃ message, status = .blocked message

/-- The object of `mediawiki/_core.py`, as far as its constructor fills it with something of its
own. -/
structure MediaWiki where
  container : String
  routeResolver : ProxyRouteResolver
  tunnelServices : TunnelServiceRegistry

/-- The charm and the unit it runs on. -/
structure Charm (ω : Type) where
  /-- the attribute `state`, `none` as long as it is not assigned -/
  state : Option State := none
  status : UnitStatus
  mediawiki : Option MediaWiki := none
  /-- the rest of the process, of the unit and of the model -/
  rest : ω
  /-- how often `state` was read without being assigned -/
  unboundReads : ℕ := 0

/-- What a constructor or an observer may do: read `state` and go on with the value or with the
exception, look at and change the status and everything else, return or raise.  Nothing but
`StatefulCharmBase.__init__` assigns `state`. -/
inductive Code (ω : Type)
  | done
  | raise (e : Exc)
  | readState (next : Except Exc State → Code ω)
  | act (effect : UnitStatus × ω → UnitStatus × ω) (next : UnitStatus × ω → Code ω)

/-- The objects that `Charm.__init__` constructs before `MediaWiki`, in its order, with
`_seed_log_secrets` in front. -/
inductive EarlyPart
  | logSecrets | database | oauth | saml | valkey | s3 | smtp | peers | tls | certificateTransfer
  | shellbox

/-- What `Charm.__init__` does behind `MediaWiki`, in its order. -/
inductive LatePart
  | gitSync | ingressRequirer | grafanaDashboards | logging | metrics | observers

/-- The constructors other than that of `MediaWiki`, and the observers of an event. -/
structure Program (ω η : Type) where
  early : EarlyPart → Code ω
  late : LatePart → Code ω
  observers : η → List (Code ω)

variable {ω η : Type} (sur : Surroundings) (env : Environment) (program : Program ω η)

/-- `charm.state` -/
def getState : Prog (Charm ω) Exc State := do
  let charm ← Prog.get
  match charm.state with
  | some state => pure state
  | none =>
    Prog.modify fun charm => { charm with unboundReads := charm.unboundReads + 1 }
    throw (.other "AttributeError")

def Code.run : Code ω → Prog (Charm ω) Exc Unit
  | .done => pure ()
  | .raise e => throw e
  | .readState next => fun charm => (next (getState charm).1).run (getState charm).2
  | .act effect next => fun charm =>
    let seen := effect (charm.status, charm.rest)
    (next seen).run { charm with status := seen.1, rest := seen.2 }

/-- `StatefulCharmBase.__init__` -/
def statefulCharmBaseInit : Prog (Charm ω) Exc Unit :=
  match env.fromCharm sur with
  | .ok state => Prog.modify fun charm => { charm with state := some state }
  | .error (.configInvalid message) =>
    Prog.modify fun charm => { charm with status := .blocked message }
  | .error e => throw e

/-- `MediaWiki.__init__` -/
def mediaWikiInit : Prog (Charm ω) Exc Unit := do
  let state ← getState
  Prog.modify fun charm => { charm with
    mediawiki := some {
      container := "mediawiki"
      routeResolver := { library := sur.library, proxyConfig := state.proxyConfig }
      tunnelServices := fun _ => none } }

def earlyParts : List EarlyPart :=
  [.logSecrets, .database, .oauth, .saml, .valkey, .s3, .smtp, .peers, .tls,
    .certificateTransfer, .shellbox]

def lateParts : List LatePart :=
  [.gitSync, .ingressRequirer, .grafanaDashboards, .logging, .metrics, .observers]

/-- `Charm.__init__` -/
def charmInit : Prog (Charm ω) Exc Unit := do
  statefulCharmBaseInit sur env
  earlyParts.forM fun part => (program.early part).run
  mediaWikiInit sur
  lateParts.forM fun part => (program.late part).run

/-- The charm is constructed and the observers of the event run one after the other.  An
exception that reaches the end of a dispatch is one that nothing handled. -/
def dispatch (event : η) : Prog (Charm ω) Exc Unit := do
  charmInit sur env program
  (program.observers event).forM Code.run

/-- The charm runs with a state, or the unit is blocked and nothing was raised; no read of
`state` came before its assignment. -/
structure BlocksInsteadOfCrashing (outcome : Except Exc Unit × Charm ω) : Prop where
  hasState_or_isBlocked :
    outcome.2.state.isSome ∨ (outcome.1 = .ok () ∧ outcome.2.status.IsBlocked)
  unboundReads : outcome.2.unboundReads = 0

variable {sur env program}

/-! ### Reading the environment -/

lemma optionalUrl_cases (sur : Surroundings) (text : Option String) :
    (∃ url, sur.optionalUrl text = .ok url ∧ ∀ t ∈ text, (sur.httpUrl t).isSome) ∨
      (∃ e, sur.optionalUrl text = .error e ∧ ∃ t ∈ text, sur.httpUrl t = none) := by
  cases text with
  | none => exact .inl ⟨none, rfl, fun t ht => absurd ht (Option.not_mem_none t)⟩
  | some t =>
    cases hurl : sur.httpUrl t with
    | none =>
      refine .inr ⟨.other "ValidationError", ?_, t, rfl, hurl⟩
      simp only [Surroundings.optionalUrl, hurl]
    | some url =>
      refine .inl ⟨some url, ?_, fun t' ht' => ?_⟩
      · simp only [Surroundings.optionalUrl, hurl]
      obtain rfl := Option.mem_some_iff.1 ht'
      rw [hurl, Option.isSome_some]

/-- The environment is read exactly where it is valid. -/
lemma fromEnv_cases (sur : Surroundings) (env : Environment) :
    (env.IsValid sur ∧ ∃ config, env.fromEnv sur = .ok config) ∨
      (¬ env.IsValid sur ∧ ∃ e, env.fromEnv sur = .error e) := by
  unfold Environment.fromEnv Environment.IsValid
  by_cases hnone : given env.jujuCharmHttpProxy = none ∧ given env.jujuCharmHttpsProxy = none
  · refine .inl ⟨fun text htext => ?_, none, if_pos hnone⟩
    rw [hnone.1, hnone.2, or_self] at htext
    exact absurd htext (Option.not_mem_none text)
  · rw [if_neg hnone]
    rcases optionalUrl_cases sur (given env.jujuCharmHttpProxy) with
      ⟨url, hok, hvalid⟩ | ⟨e, herror, t, ht, hurl⟩
    · rcases optionalUrl_cases sur (given env.jujuCharmHttpsProxy) with
        ⟨url', hok', hvalid'⟩ | ⟨e, herror, t, ht, hurl⟩
      · rw [hok, hok']
        exact .inl ⟨fun t ht => ht.elim (hvalid t) (hvalid' t), _, rfl⟩
      · rw [hok, herror]
        refine .inr ⟨fun hvalid => ?_, e, rfl⟩
        simpa [hurl] using hvalid t (.inr ht)
    · rw [herror]
      refine .inr ⟨fun hvalid => ?_, e, rfl⟩
      simpa [hurl] using hvalid t (.inl ht)

/-- After the base class the charm has its state, or it is blocked without one. -/
lemma statefulCharmBaseInit_cases (sur : Surroundings) (env : Environment) (charm : Charm ω) :
    (env.IsValid sur ∧ ∃ state,
      statefulCharmBaseInit sur env charm = (.ok (), { charm with state := some state })) ∨
    (¬ env.IsValid sur ∧ ∃ message,
      statefulCharmBaseInit sur env charm =
        (.ok (), { charm with status := .blocked message })) := by
  unfold statefulCharmBaseInit Environment.fromCharm
  rcases fromEnv_cases sur env with ⟨hvalid, config, h⟩ | ⟨hinvalid, e, h⟩
  · rw [h]
    exact .inl ⟨hvalid, _, rfl⟩
  · rw [h]
    exact .inr ⟨hinvalid, _, rfl⟩

/-! ### Behind the base class -/

/-- The state with the number of reads that came before it, as long as there is a state. -/
def Charm.bound (charm : Charm ω) : Option (State × ℕ) :=
  charm.state.map fun state => (state, charm.unboundReads)

lemma bound_eq_none {charm : Charm ω} : charm.bound = none ↔ charm.state = none :=
  Option.map_eq_none_iff

lemma frame_getState : Prog.Frame Charm.bound (getState : Prog (Charm ω) Exc State) := by
  intro charm
  rcases charm with ⟨_ | state, status, mediawiki, rest, reads⟩
  · rfl
  · rfl

/-- No constructor and no observer takes the state away, gives the charm one, or misses it where
it is. -/
lemma frame_run (code : Code ω) : Prog.Frame Charm.bound code.run := by
  intro charm
  induction code generalizing charm with
  | done => rfl
  | raise e => rfl
  | readState next ih =>
    rw [Code.run, ih]
    exact frame_getState charm
  | act effect next ih =>
    rw [Code.run, ih]
    rfl

lemma frame_mediaWikiInit : Prog.Frame Charm.bound (mediaWikiInit sur : Prog (Charm ω) Exc Unit) :=
  frame_getState.bind fun _ => .modify fun _ => rfl

/-- Without a state `MediaWiki.__init__` raises. -/
lemma mediaWikiInit_of_state_eq_none (sur : Surroundings) {charm : Charm ω} (h : charm.state = none) :
    ∃ e charm', mediaWikiInit sur charm = (.error e, charm') := by
  rcases charm with ⟨_ | state, status, mediawiki, rest, reads⟩
  · exact ⟨_, _, rfl⟩
  · exact absurd h (Option.some_ne_none state)

/-- What a dispatch does behind the base class. -/
def dispatchRest (sur : Surroundings) (program : Program ω η) (event : η) :
    Prog (Charm ω) Exc Unit := do
  earlyParts.forM fun part => (program.early part).run
  mediaWikiInit sur
  lateParts.forM fun part => (program.late part).run
  (program.observers event).forM Code.run

lemma dispatch_eq (event : η) :
    dispatch sur env program event =
      (do statefulCharmBaseInit sur env; dispatchRest sur program event) := by
  unfold dispatch charmInit dispatchRest
  simp only [Prog.bind_assoc]

lemma frame_dispatchRest (sur : Surroundings) (program : Program ω η) (event : η) :
    Prog.Frame Charm.bound (dispatchRest sur program event) := by
  have hearly := Prog.Frame.forM (fun part => frame_run (program.early part)) earlyParts
  have hlate := Prog.Frame.forM (fun part => frame_run (program.late part)) lateParts
  have hobservers := Prog.Frame.forM (fun code => frame_run code) (program.observers event)
  exact hearly.bind fun _ => frame_mediaWikiInit.bind fun _ => hlate.bind fun _ => hobservers

/-- Without a state a dispatch ends in an exception, whatever the other constructors do. -/
lemma dispatchRest_of_state_eq_none (sur : Surroundings) (program : Program ω η) (event : η)
    {charm : Charm ω} (h : charm.state = none) :
    ∃ e charm', dispatchRest sur program event charm = (.error e, charm') := by
  have hframe := Prog.Frame.forM (fun part => frame_run (program.early part)) earlyParts charm
  unfold dispatchRest
  rcases hearly : (earlyParts.forM fun part => (program.early part).run) charm with
    ⟨e | ⟨⟩, charm'⟩
  · exact ⟨e, charm', Prog.bind_run_error hearly⟩
  · rw [Prog.bind_run_ok hearly]
    rw [hearly] at hframe
    have hnone : charm'.state = none := bound_eq_none.1 (hframe.trans (bound_eq_none.2 h))
    obtain ⟨e, charm'', hinit⟩ := mediaWikiInit_of_state_eq_none sur hnone
    exact ⟨e, charm'', Prog.bind_run_error hinit⟩

/-! ### A dispatch -/

/-- **A dispatch runs with a state or blocks the unit without an exception exactly where the
proxy settings are valid**: an invalid URL blocks the unit and then ends the dispatch in an
exception, for every event. -/
theorem blocksInsteadOfCrashing_dispatch_iff (sur : Surroundings) (env : Environment)
    (program : Program ω η) (event : η) (status : UnitStatus) (rest : ω) :
    BlocksInsteadOfCrashing
        (dispatch sur env program event { status := status, rest := rest }) ↔
      env.IsValid sur := by
  rw [dispatch_eq]
  rcases statefulCharmBaseInit_cases sur env
      ({ status := status, rest := rest } : Charm ω) with
    ⟨hvalid, state, hinit⟩ | ⟨hinvalid, message, hinit⟩
  · rw [Prog.bind_run_ok hinit, iff_true_right hvalid]
    have hframe := frame_dispatchRest sur program event
      { state := some state, status := status, rest := rest }
    obtain ⟨state', hstate, hreads⟩ := Option.map_eq_some_iff.1 hframe
    constructor
    · exact .inl (Option.isSome_iff_exists.2 ⟨state', hstate⟩)
    · exact (Prod.ext_iff.1 hreads).2
  · rw [Prog.bind_run_ok hinit, iff_false_right hinvalid]
    rintro ⟨hstate | ⟨hok, -⟩, -⟩
    · have hframe := frame_dispatchRest sur program event
        { status := .blocked message, rest := rest }
      rw [bound_eq_none.1 hframe] at hstate
      exact absurd hstate Bool.false_ne_true
    · have hnone : ({ status := .blocked message, rest := rest } : Charm ω).state = none := rfl
      obtain ⟨e, charm', herror⟩ := dispatchRest_of_state_eq_none sur program event hnone
      rw [herror] at hok
      exact absurd hok nofun

/-- A validation that accepts one proxy. -/
def someUrls : Surroundings where
  httpUrl text :=
    if text = "http://squid.internal:3128" then some ⟨"http", "squid.internal", some 3128⟩
    else none
  library := {
    acceptsNetloc := fun _ => true
    lower := id
    shouldBypassProxies := fun _ _ => .ok false }

/-- Constructors that only construct, and an event without observers. -/
def quiet : Program Unit Unit where
  early _ := .done
  late _ := .done
  observers _ := []

/-- The value of `test_invalid_proxy_config` ends a dispatch in an `AttributeError`. -/
theorem dispatch_invalid :
    (dispatch someUrls { jujuCharmHttpProxy := some "invalid" } quiet ()
      { status := .unknown, rest := () }).1 = .error (.other "AttributeError") ∧
    ¬ BlocksInsteadOfCrashing (dispatch someUrls { jujuCharmHttpProxy := some "invalid" } quiet ()
      { status := .unknown, rest := () }) := by
  have hrun : (dispatch someUrls { jujuCharmHttpProxy := some "invalid" } quiet ()
      { status := .unknown, rest := () }).1 = .error (.other "AttributeError") := rfl
  refine ⟨hrun, fun h => ?_⟩
  rcases h.hasState_or_isBlocked with hstate | ⟨hok, -⟩
  · exact absurd hstate (by decide)
  · rw [hrun] at hok
    exact absurd hok nofun

end Startup
end MediawikiCharm
