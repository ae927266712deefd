/-
Runs of the calls that touch the secret of the replicas (`mediawiki_peers.py`, `charm.py`).

Any unit makes the calls in any order, with an answer of its own to `is_leader`, and nothing but
the code keeps a unit from writing.  What is stored changes only through a rotation; what is
missing comes in once, by a leader; and what `reconciliation_state` returns is what is stored.
-/
import MediawikiCharm.ReplicaSecrets

namespace MediawikiCharm
namespace ReplicaSecrets

/-! ### Runs -/

inductive Call
  | setupReplicaData
  /-- with the peer relation as the unit finds it -/
  | reconciliationState (relation : Option Relation)
  | rotateSecrets

/-- A call by a unit, with what it finds and what is generated for it. -/
structure Event where
  unit : String
  isLeader : Bool
  generated : MediaWikiSecrets
  call : Call

/-- The state that a call of `reconciliation_state` returns, and the secret behind the call. -/
def Event.run (e : Event) (s : Option Secret) : Option PeerState × Option Secret :=
  match e.call with
  | .setupReplicaData => (none, (setupReplicaData e.isLeader e.generated s).2)
  | .reconciliationState relation =>
    let outcome := reconciliationState e.isLeader e.generated { relation := relation, rest := s }
    (outcome.1.toOption, outcome.2.rest)
  | .rotateSecrets => (none, (onRotateSecrets e.isLeader e.generated s).2)

/-- The secret behind a run. -/
def runAll (s : Option Secret) (events : List Event) : Option Secret :=
  events.foldl (fun s e => (e.run s).2) s

/-- The calls of a run, each with the secret it finds. -/
def trace : Option Secret → List Event → List (Option Secret × Event)
  | _, [] => []
  | s, e :: events => (s, e) :: trace (e.run s).2 events

/-- What is stored under a name. -/
def value (s : Option Secret) (name : String) : Option String := s.bind fun secret =>
  secret.content name

/-- How many calls of a run find nothing under the name and leave something there. -/
def additions (name : String) : Option Secret → List Event → ℕ
  | _, [] => 0
  | s, e :: events =>
    (if value s name = none ∧ value (e.run s).2 name ≠ none then 1 else 0) +
      additions name (e.run s).2 events

/-- The call comes as far as the fields: it creates the secret, or reads the one there is. -/
def Event.Reaches (e : Event) (s : Option Secret) : Prop :=
  (e.call = .setupReplicaData ∧ s = none) ∨
    (∃ relation, e.call = .reconciliationState (some relation)) ∧ s ≠ none

/-- What a call may do to the secret it finds. -/
structure Event.IsStable (e : Event) (s : Option Secret) : Prop where
  /-- A stored value changes only through a rotation. -/
  changed : ∀ name v, value s name = some v → value (e.run s).2 name ≠ some v →
    e.call = .rotateSecrets
  /-- Only a leader adds a field, and only one of the current ones. -/
  added : ∀ name, value s name = none → value (e.run s).2 name ≠ none →
    e.isLeader = true ∧ name ∈ fields
  /-- A leader that comes as far as the fields leaves none of them missing. -/
  migrates : e.isLeader = true → e.Reaches s → ∀ name ∈ fields, value (e.run s).2 name ≠ none
  /-- Other units write nothing, not even the same content. -/
  nonLeader : e.isLeader = false → (e.run s).2 = s
  /-- Unknown fields survive everything but a rotation. -/
  unknown : ∀ name, name ∉ fields → e.call ≠ .rotateSecrets →
    value (e.run s).2 name = value s name
  /-- What is returned is what is stored. -/
  returned : ∀ state, (e.run s).1 = some state →
    ∃ secret, (e.run s).2 = some secret ∧ Holds secret.content state.secrets

variable {content : Content} {generated : MediaWikiSecrets} {name : String}
  {s : Option Secret} {secret : Secret} {e : Event}

@[simp] lemma value_none : value none name = none := rfl

@[simp] lemma value_some : value (some secret) name = secret.content name := rfl

/-! ### What a call does -/

/-- What a call can do: leave the secret alone, create it, migrate it or replace it. -/
inductive Event.Does (e : Event) : Option Secret → Option PeerState × Option Secret → Prop
  /-- Nothing is written; what is returned is read from a complete secret. -/
  | nothing {s : Option Secret} {returned : Option PeerState}
      (hreturned : ∀ state ∈ returned, ∃ secret, s = some secret ∧
        Holds secret.content state.secrets)
      (hreaches : e.isLeader = true → e.Reaches s → ∀ name ∈ fields, value s name ≠ none) :
      e.Does s (returned, s)
  | create (hleader : e.isLeader = true) :
      e.Does none (none, some { content := ofEntries e.generated.toJujuSecret })
  | migrate {secret : Secret} {returned : Option PeerState} (hleader : e.isLeader = true)
      (hreturned : ∀ state ∈ returned,
        Holds (migrated secret.content e.generated) state.secrets) :
      e.Does (some secret) (returned, some {
        content := migrated secret.content e.generated
        revision := secret.revision + 1 })
  | rotate {secret : Secret} (hleader : e.isLeader = true) (hcall : e.call = .rotateSecrets) :
      e.Does (some secret) (none, some {
        content := ofEntries e.generated.toJujuSecret
        revision := secret.revision + 1 })

lemma eq_ok_of_mem_toOption {α : Type} {x : Except Exc α} {a : α} (h : a ∈ x.toOption) :
    x = .ok a := by
  cases x with
  | error e => exact absurd h (Option.not_mem_none a)
  | ok b => exact congrArg Except.ok (Option.some.inj h)

lemma reaches_reconciliationState {relation : Relation}
    (hcall : e.call = .reconciliationState (some relation)) : e.Reaches s ↔ s ≠ none := by
  unfold Event.Reaches
  rw [hcall]
  constructor
  · rintro (⟨hcall, -⟩ | ⟨-, hs⟩)
    · exact absurd hcall nofun
    · exact hs
  · intro hs
    exact .inr ⟨⟨relation, rfl⟩, hs⟩

lemma does_setupReplicaData (hcall : e.call = .setupReplicaData) : e.Does s (e.run s) := by
  have hrun : e.run s = (none, (setupReplicaData e.isLeader e.generated s).2) := by
    rw [Event.run, hcall]
  rw [hrun, setupReplicaData_run]
  by_cases h : e.isLeader = true ∧ s = none
  · obtain ⟨hleader, rfl⟩ := h
    rw [if_pos ⟨hleader, rfl⟩]
    exact .create hleader
  · rw [if_neg h]
    refine .nothing (fun state hstate => absurd hstate (Option.not_mem_none state)) ?_
    rintro hleader (⟨-, rfl⟩ | ⟨⟨relation, hcall'⟩, -⟩)
    · exact absurd ⟨hleader, rfl⟩ h
    · rw [hcall] at hcall'
      exact absurd hcall' nofun

lemma does_rotateSecrets (hcall : e.call = .rotateSecrets) : e.Does s (e.run s) := by
  have hrun : e.run s = (none, (onRotateSecrets e.isLeader e.generated s).2) := by
    rw [Event.run, hcall]
  have hreaches : ¬ e.Reaches s := by
    rintro (⟨hcall', -⟩ | ⟨⟨relation, hcall'⟩, -⟩)
    · rw [hcall] at hcall'
      exact absurd hcall' nofun
    · rw [hcall] at hcall'
      exact absurd hcall' nofun
  rw [hrun, onRotateSecrets_run]
  split
  · next hleader =>
    cases s with
    | none =>
      exact .nothing (fun state hstate => absurd hstate (Option.not_mem_none state))
        fun _ h => absurd h hreaches
    | some secret => exact .rotate hleader hcall
  · exact .nothing (fun state hstate => absurd hstate (Option.not_mem_none state))
      fun _ h => absurd h hreaches

lemma does_reconciliationState {relation : Option Relation}
    (hcall : e.call = .reconciliationState relation) : e.Does s (e.run s) := by
  have hrun : e.run s =
      ((reconciliationState e.isLeader e.generated { relation := relation, rest := s }).1.toOption,
        (reconciliationState e.isLeader e.generated
          { relation := relation, rest := s }).2.rest) := by
    rw [Event.run, hcall]
  rw [hrun]
  cases relation with
  | none =>
    rw [reconciliationState_run_none.1]
    refine .nothing (fun state hstate => ?_) ?_
    · exact absurd (eq_ok_of_mem_toOption hstate) (reconciliationState_run_none.2 state)
    · rintro - (⟨hcall', -⟩ | ⟨⟨relation, hcall'⟩, -⟩)
      · rw [hcall] at hcall'
        exact absurd hcall' nofun
      · rw [hcall] at hcall'
        exact absurd hcall' nofun
  | some relation =>
    obtain ⟨hsecret, hstate⟩ := reconciliationState_run e.isLeader e.generated s relation
    rw [hsecret]
    -- a state is returned only where the secrets are
    have hreturned : ∀ state,
        state ∈ (reconciliationState e.isLeader e.generated
          { relation := some relation, rest := s }).1.toOption →
        (replicaSecrets e.isLeader e.generated s).1 = .ok state.secrets :=
      fun state h => hstate state (eq_ok_of_mem_toOption h)
    generalize (reconciliationState e.isLeader e.generated
      { relation := some relation, rest := s }).1.toOption = returned at hreturned ⊢
    cases s with
    | none =>
      obtain ⟨error, herror⟩ := replicaSecrets_none e.isLeader e.generated
      rw [herror] at hreturned ⊢
      refine .nothing (fun state h => absurd (hreturned state h) nofun) fun _ h => ?_
      exact absurd rfl ((reaches_reconciliationState hcall).1 h)
    | some secret =>
      by_cases hcomplete : Complete secret.content
      · obtain ⟨r, hr, hholds⟩ := replicaSecrets_of_complete e.isLeader e.generated hcomplete
        rw [hr] at hreturned ⊢
        refine .nothing (fun state h => ?_) fun _ _ => hcomplete
        exact ⟨secret, rfl, Except.ok.inj (hreturned state h) ▸ hholds⟩
      · cases hleader : e.isLeader with
        | false =>
          rw [hleader] at hreturned
          obtain ⟨error, herror⟩ := replicaSecrets_of_not_leader e.generated hcomplete
          rw [herror] at hreturned ⊢
          refine .nothing (fun state h => absurd (hreturned state h) nofun) fun h => ?_
          rw [hleader] at h
          exact absurd h Bool.false_ne_true
        | true =>
          rw [hleader] at hreturned
          obtain ⟨r, hr, hholds⟩ := replicaSecrets_of_leader e.generated hcomplete
          rw [hr] at hreturned ⊢
          exact .migrate hleader fun state h => Except.ok.inj (hreturned state h) ▸ hholds

lemma does_run (e : Event) (s : Option Secret) : e.Does s (e.run s) := by
  cases hcall : e.call with
  | setupReplicaData => exact does_setupReplicaData hcall
  | reconciliationState relation => exact does_reconciliationState hcall
  | rotateSecrets => exact does_rotateSecrets hcall

/-! ### Stability -/

namespace Event.Does

variable {outcome : Option PeerState × Option Secret}

lemma changed (h : e.Does s outcome) {v : String} (hv : value s name = some v)
    (hne : value outcome.2 name ≠ some v) : e.call = .rotateSecrets := by
  cases h with
  | nothing => exact absurd hv hne
  | create => exact absurd hv nofun
  | migrate => exact absurd (migrated_of_eq_some hv) hne
  | rotate _ hcall => exact hcall

lemma added (h : e.Does s outcome) (hs : value s name = none) (hne : value outcome.2 name ≠ none) :
    e.isLeader = true ∧ name ∈ fields := by
  cases h with
  | nothing => exact absurd hs hne
  | create hleader => exact ⟨hleader, ofEntries_ne_none_iff.1 hne⟩
  | migrate hleader => exact ⟨hleader, mem_of_migrated hs hne⟩
  | rotate hleader => exact ⟨hleader, ofEntries_ne_none_iff.1 hne⟩

lemma migrates (h : e.Does s outcome) (hleader : e.isLeader = true) (hreaches : e.Reaches s) :
    ∀ name ∈ fields, value outcome.2 name ≠ none := by
  cases h with
  | nothing _ hcomplete => exact hcomplete hleader hreaches
  | create => exact fun _ => ofEntries_ne_none_iff.2
  | migrate => exact fun _ => migrated_ne_none
  | rotate => exact fun _ => ofEntries_ne_none_iff.2

lemma nonLeader (h : e.Does s outcome) (hleader : e.isLeader = false) : outcome.2 = s := by
  cases h with
  | nothing => rfl
  | create hleader' | migrate hleader' | rotate hleader' =>
    rw [hleader] at hleader'
    exact absurd hleader' Bool.false_ne_true

lemma unknown (h : e.Does s outcome) (hname : name ∉ fields) (hcall : e.call ≠ .rotateSecrets) :
    value outcome.2 name = value s name := by
  cases h with
  | nothing => rfl
  | create => exact not_not.1 (mt ofEntries_ne_none_iff.1 hname)
  | migrate => exact migrated_of_not_mem hname
  | rotate _ hcall' => exact absurd hcall' hcall

lemma returned (h : e.Does s outcome) {state : PeerState} (hstate : outcome.1 = some state) :
    ∃ secret, outcome.2 = some secret ∧ Holds secret.content state.secrets := by
  cases h with
  | nothing hreturned => exact hreturned state hstate
  | create => exact absurd hstate nofun
  | migrate _ hreturned => exact ⟨_, rfl, hreturned state hstate⟩
  | rotate => exact absurd hstate nofun

/-- A current field that is stored stays stored. -/
lemma value_ne_none (h : e.Does s outcome) (hname : name ∈ fields) (hs : value s name ≠ none) :
    value outcome.2 name ≠ none := by
  cases h with
  | nothing => exact hs
  | create => exact absurd rfl hs
  | migrate => exact migrated_ne_none hname
  | rotate => exact ofEntries_ne_none_iff.2 hname

end Event.Does

lemma isStable (e : Event) (s : Option Secret) : e.IsStable s where
  changed _ _ := (does_run e s).changed
  added _ := (does_run e s).added
  migrates := (does_run e s).migrates
  nonLeader := (does_run e s).nonLeader
  unknown _ := (does_run e s).unknown
  returned _ := (does_run e s).returned

/-! ### Runs of calls -/

variable {events : List Event}

lemma additions_cons : additions name s (e :: events) =
    (if value s name = none ∧ value (e.run s).2 name ≠ none then 1 else 0) +
      additions name (e.run s).2 events := rfl

lemma runAll_cons : runAll s (e :: events) = runAll (e.run s).2 events := rfl

/-- Nothing is added under a name that is not a field. -/
lemma additions_of_not_mem (hname : name ∉ fields) (s : Option Secret) (events : List Event) :
    additions name s events = 0 ∧ (value s name = none → value (runAll s events) name = none) := by
  induction events generalizing s with
  | nil => exact ⟨rfl, id⟩
  | cons e events ih =>
    have hadded := (isStable e s).added name
    have hkeeps : value s name = none → value (e.run s).2 name = none := by
      intro hs
      by_contra hne
      exact hname (hadded hs hne).2
    rw [additions_cons, runAll_cons, (ih _).1, if_neg fun h => h.2 (hkeeps h.1)]
    exact ⟨rfl, fun hs => (ih _).2 (hkeeps hs)⟩

/-- Nothing is added under a field that is stored. -/
lemma additions_of_ne_none (hname : name ∈ fields) (hs : value s name ≠ none) :
    additions name s events = 0 := by
  induction events generalizing s with
  | nil => rfl
  | cons e events ih =>
    rw [additions_cons, ih ((does_run e s).value_ne_none hname hs), if_neg fun h => hs h.1]

lemma runAll_ne_none (hname : name ∈ fields) (hs : value s name ≠ none) :
    value (runAll s events) name ≠ none := by
  induction events generalizing s with
  | nil => exact hs
  | cons e events ih => exact ih ((does_run e s).value_ne_none hname hs)

/-- A missing field is added once, unless it is still missing behind the run. -/
lemma additions_of_eq_none (hname : name ∈ fields) (hs : value s name = none) :
    additions name s events = if value (runAll s events) name ≠ none then 1 else 0 := by
  induction events generalizing s with
  | nil => exact (if_neg fun h => h hs).symm
  | cons e events ih =>
    rw [additions_cons, runAll_cons]
    by_cases he : value (e.run s).2 name = none
    · rw [if_neg fun h => h.2 he, Nat.zero_add, ih he]
    · rw [if_pos ⟨hs, he⟩, additions_of_ne_none hname he, if_pos (runAll_ne_none hname he)]

/-- **Replica secret stability**: in every run from any secret or none, each call is stable, and
a name comes into the secret once where it was missing and is there behind the run, and never
otherwise. -/
theorem replicaSecrets_stable (s : Option Secret) (events : List Event) :
    (∀ step ∈ trace s events, step.2.IsStable step.1) ∧
      ∀ name, additions name s events =
        if value s name = none ∧ value (runAll s events) name ≠ none then 1 else 0 := by
  refine ⟨fun step _ => isStable step.2 step.1, fun name => ?_⟩
  by_cases hname : name ∈ fields
  · by_cases hs : value s name = none
    · simp only [additions_of_eq_none hname hs, hs, true_and]
    · rw [additions_of_ne_none hname hs, if_neg fun h => hs h.1]
  · obtain ⟨hzero, hkeeps⟩ := additions_of_not_mem hname s events
    rw [hzero, if_neg fun h => h.2 (hkeeps h.1)]

end ReplicaSecrets
end MediawikiCharm
