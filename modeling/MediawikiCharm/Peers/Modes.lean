/-
Mutual exclusion of the coordinated operations.

The application databag holds one operation mode.  Successive leaders request operations,
units acknowledge the mode their current hook read, and the leader completes an
operation; these calls occur in any order and their writes take effect at once.  A unit
handles one hook or action at a time, and leadership may move at any moment.

While a mode other than normal is requested, the unit that opened the operation
acknowledges nothing but that mode, because it was in normal operation and in no hook when
it opened the operation.  Every other leader sees that unit, which is why no operation is
completed or replaced in the name of another one.
-/
import MediawikiCharm.Lib.Machine
import MediawikiCharm.Peers

namespace MediawikiCharm
namespace Modes

open Peers

/-- The peer relation shared by the units. -/
structure State where
  /-- The application databag. -/
  app : AppData := {}
  /-- The databags of the units. -/
  data : String → UnitData := fun _ => {}
  /-- The units of the application. -/
  members : List String := []
  /-- The leader. -/
  leader : Option String := none
  /-- The mode that the hook a unit is running has read, `none` between hooks. -/
  seen : String → Option OperationMode := fun _ => none

/-- The calls of the units. -/
inductive Event
  /-- A unit joins the relation. -/
  | join (unit : String)
  /-- A unit becomes the leader. -/
  | elect (unit : String)
  /-- A hook of the unit starts and reads the mode. -/
  | begin (unit : String)
  | acknowledge (unit : String)
  /-- `outcome` is how `update_database_schema` ends, should it be called. -/
  | reconcile (unit : String) (outcome : Except Exc Unit)
  /-- The hook ends. -/
  | finish (unit : String)
  | requestDatabaseUpdate (unit : String)
  | requestForceReconciliation (unit : String)
  /-- `protection` is how `set_database_read_only` ends, should it be called. -/
  | requestMaintenanceMode (unit : String) (enabled : Bool) (message : Option String)
      (protection : Except Exc Unit)

/-- The schema update, which leaves a note that it returned. -/
def schemaUpdate (outcome : Except Exc Unit) : Prog Bool Exc Unit := do
  Prog.ofExcept outcome
  Prog.modify fun _ => true

namespace State

/-- The relation as a unit sees it. -/
def relation (st : State) (unit : String) : Relation :=
  { units := st.members.filter (· ≠ unit), app := st.app, data := st.data }

/-- The state in which a unit calls a function. -/
def peers (st : State) (unit : String) : PeerWorld Bool := ⟨some (st.relation unit), false⟩

/-- Take over what a call wrote. -/
def write (st : State) (s : PeerWorld Bool) : State :=
  match s.relation with
  | some r => { st with app := r.app, data := r.data }
  | none => st

/-- The state after a call of a unit. -/
def run {α : Type} (st : State) (unit : String) (x : Prog (PeerWorld Bool) Exc α) : State :=
  st.write (x (st.peers unit)).2

/-- The call of `reconcile_operation_mode` by a unit whose hook has read `mode`. -/
def reconcile (st : State) (unit : String) (mode : OperationMode) (outcome : Except Exc Unit) :
    Prog (PeerWorld Bool) Exc Unit :=
  reconcileOperationMode (decide (st.leader = some unit)) mode (schemaUpdate outcome)

/-- Requests are made by the leader, which is then in no hook. -/
def mayRequest (st : State) (unit : String) : Prop :=
  st.leader = some unit ∧ st.seen unit = none

instance (st : State) (unit : String) : Decidable (st.mayRequest unit) :=
  inferInstanceAs (Decidable (_ ∧ _))

end State

/-- The state after an event, `none` where the event cannot occur. -/
def step (st : State) : Event → Option State
  | .join u => if u ∈ st.members then none else some { st with members := u :: st.members }
  | .elect u => if u ∈ st.members then some { st with leader := some u } else none
  | .begin u =>
    match operationMode st.app with
    | .ok m =>
      if u ∈ st.members ∧ st.seen u = none then
        some { st with seen := Function.update st.seen u (some m) }
      else none
    | .error _ => none
  | .acknowledge u => (st.seen u).map fun m => st.run u (acknowledgeOperationMode u m)
  | .reconcile u outcome => (st.seen u).map fun m => st.run u (st.reconcile u m outcome)
  | .finish u => some { st with seen := Function.update st.seen u none }
  | .requestDatabaseUpdate u =>
    if st.mayRequest u then some (st.run u (requestDatabaseUpdate u)) else none
  | .requestForceReconciliation u =>
    if st.mayRequest u then some (st.run u (requestForceReconciliation u)) else none
  | .requestMaintenanceMode u enabled message protection =>
    if st.mayRequest u then
      some (st.run u
        (requestMaintenanceMode u enabled (fun _ => Prog.ofExcept protection) message))
    else none

/-- The runs that start with empty peer data. -/
def machine : Machine State Event where
  init st := st = {}
  step st e st' := step st e = some st'

/-- The changes of the mode that the protocol allows. -/
inductive Allowed (st : State) : Event → OperationMode → OperationMode → Prop
  | openUpdate {u : String} : st.leader = some u → InNormalOperation u (st.relation u) →
      Allowed st (.requestDatabaseUpdate u) .normal .databaseUpdate
  | openForce {u : String} : st.leader = some u → InNormalOperation u (st.relation u) →
      Allowed st (.requestForceReconciliation u) .normal .forceReconciliation
  | enable {u : String} {message : Option String} : st.leader = some u →
      InNormalOperation u (st.relation u) →
      Allowed st (.requestMaintenanceMode u true message (.ok ())) .normal .maintenance
  | disable {u : String} {message : Option String} : st.leader = some u →
      Allowed st (.requestMaintenanceMode u false message (.ok ())) .maintenance .normal
  | updated {u : String} {outcome : Except Exc Unit} : st.leader = some u →
      (∀ v ∈ (st.relation u).units,
        (st.data v).operationMode = some OperationMode.databaseUpdate.value) →
      (st.reconcile u .databaseUpdate outcome (st.peers u)).2.rest = true →
      Allowed st (.reconcile u outcome) .databaseUpdate .normal
  | reconciled {u : String} {outcome : Except Exc Unit} : st.leader = some u →
      (∀ v ∈ (st.relation u).units,
        (st.data v).operationMode = some OperationMode.forceReconciliation.value) →
      Allowed st (.reconcile u outcome) .forceReconciliation .normal

/-! ### The invariant -/

/-- The unit acknowledges no mode but `m`: neither in its databag nor in its hook. -/
structure Bound (st : State) (m : OperationMode) (u : String) : Prop where
  ack : (st.data u).operationMode = none ∨
    (st.data u).operationMode = some OperationMode.normal.value ∨
    (st.data u).operationMode = some m.value
  seen : st.seen u = none ∨ st.seen u = some m

/-- The requested mode is known, and a unit is bound to it unless it is normal. -/
structure Inv (st : State) : Prop where
  leader : ∀ u, st.leader = some u → u ∈ st.members
  mode : ∃ m, operationMode st.app = .ok m ∧ (m ≠ .normal → ∃ c ∈ st.members, Bound st m c)

/-- The step keeps the invariant and changes the mode in an allowed way only. -/
def Good (st : State) (e : Event) (st' : State) : Prop :=
  Inv st' ∧ ∃ m m', operationMode st.app = .ok m ∧ operationMode st'.app = .ok m' ∧
    (m = m' ∨ Allowed st e m m')

variable {st st' : State} {e : Event} {u : String}

lemma inv_init : Inv {} where
  leader := by simp
  mode := ⟨.normal, rfl, fun h => absurd rfl h⟩

@[simp] lemma write_peers : st.write (st.peers u) = st := rfl

@[simp] lemma write_rest {b : Bool} : st.write { st.peers u with rest := b } = st := rfl

@[simp] lemma write_setApp {app : AppData} {b : Bool} :
    st.write ⟨some ((st.relation u).setApp app), b⟩ = { st with app := app } := rfl

lemma good_same (h : Inv st) : Good st e st :=
  let ⟨m, hm, _⟩ := h.mode
  ⟨h, m, m, hm, hm, .inl rfl⟩

/-- A unit in normal operation that is in no hook is bound to any mode. -/
lemma bound_of_inNormalOperation {m : OperationMode} (hu : st.mayRequest u)
    (h : InNormalOperation u (st.relation u)) : Bound st m u where
  ack := (h u (by simp)).imp id .inl
  seen := .inl hu.2

/-- Writing a mode to which a unit is bound. -/
lemma good_setApp {app : AppData} {n m : OperationMode} (h : Inv st)
    (hn : operationMode st.app = .ok n) (hm : operationMode app = .ok m)
    (hb : m ≠ .normal → ∃ c ∈ st.members, Bound st m c) (ha : n = m ∨ Allowed st e n m) :
    Good st e { st with app := app } :=
  ⟨⟨h.leader, m, hm, fun hne =>
    let ⟨c, hc, hbc⟩ := hb hne
    ⟨c, hc, hbc.ack, hbc.seen⟩⟩, n, m, hn, hm, ha⟩

lemma good_requestDatabaseUpdate (h : Inv st) (hu : st.mayRequest u) :
    Good st (.requestDatabaseUpdate u) (st.run u (requestDatabaseUpdate u)) := by
  refine Prog.wp_state (P := fun s => Good _ _ (st.write s))
    (requestDatabaseUpdate_spec (st.peers u)) ?_ fun _ _ ⟨he, _⟩ => he ▸ good_same h
  rintro recorded s' (⟨-, hr, -⟩ | ⟨-, r, hr, hm, hn, rfl⟩)
  · exact absurd hr (by simp [State.peers])
  · obtain rfl : st.relation u = r := Option.some.inj hr
    have hb : ∃ c ∈ st.members, Bound st .databaseUpdate c :=
      ⟨u, h.leader u hu.1, bound_of_inNormalOperation hu hn⟩
    rcases hm with hm | hm
    · exact good_setApp h hm (by simp) (fun _ => hb) (.inr (.openUpdate hu.1 hn))
    · exact good_setApp h hm (by simp) (fun _ => hb) (.inl rfl)

lemma good_requestForceReconciliation (h : Inv st) (hu : st.mayRequest u) :
    Good st (.requestForceReconciliation u) (st.run u (requestForceReconciliation u)) := by
  refine Prog.wp_state (P := fun s => Good _ _ (st.write s))
    (requestForceReconciliation_spec (st.peers u)) ?_ fun _ _ ⟨he, _⟩ => he ▸ good_same h
  rintro recorded s' (⟨-, hr, -⟩ | ⟨-, r, hr, hm, hn, rfl⟩)
  · exact absurd hr (by simp [State.peers])
  · obtain rfl : st.relation u = r := Option.some.inj hr
    exact good_setApp h hm (by simp)
      (fun _ => ⟨u, h.leader u hu.1, bound_of_inNormalOperation hu hn⟩)
      (.inr (.openForce hu.1 hn))

lemma good_requestMaintenanceMode {enabled : Bool} {message : Option String}
    {protection : Except Exc Unit} (h : Inv st) (hu : st.mayRequest u) :
    Good st (.requestMaintenanceMode u enabled message protection)
      (st.run u (requestMaintenanceMode u enabled (fun _ => Prog.ofExcept protection) message)) := by
  refine Prog.wp_state (P := fun s => Good _ _ (st.write s))
    (requestMaintenanceMode_spec enabled (fun _ => Prog.ofExcept protection) message (st.peers u))
    ?_ ?_
  · rintro recorded s' (⟨-, hr, -⟩ | ⟨-, r, m, d, hr, hm, hdu, hfr, hn, hp, rfl⟩)
    · exact absurd hr (by simp [State.peers])
    obtain rfl : st.relation u = r := Option.some.inj hr
    obtain ⟨m₀, hm₀, hb⟩ := h.mode
    obtain rfl : some m₀ = m := by simpa [State.relation, hm₀, Except.toOption] using hm
    obtain rfl : protection = .ok () := congrArg Prod.fst hp
    rw [write_setApp]
    cases m₀ with
    | databaseUpdate => exact absurd rfl hdu
    | forceReconciliation => exact absurd rfl hfr
    | normal =>
      cases enabled with
      | false => exact good_same h
      | true =>
        have hn := hn rfl rfl
        exact good_setApp h hm₀ (m := .maintenance) (by simp [recordMaintenanceMode])
          (fun _ => ⟨u, h.leader u hu.1, bound_of_inNormalOperation hu hn⟩)
          (.inr (.enable hu.1 hn))
    | maintenance =>
      cases enabled with
      | false =>
        exact good_setApp h hm₀ (m := .normal) (by simp [recordMaintenanceMode])
          (fun hne => absurd rfl hne) (.inr (.disable hu.1))
      | true =>
        exact good_setApp h hm₀ (m := .maintenance) (by simp [recordMaintenanceMode]) hb (.inl rfl)
  · rintro ex s' (⟨rfl, -⟩ | ⟨r, m, d, -, -, -, -, -, rfl⟩)
    · exact good_same h
    · exact good_same h

/-- The leader sees the unit that is bound to the requested mode, or is that unit; so the
mode it completes is the requested one. -/
lemma eq_of_applied {m m' : OperationMode} (hb : m ≠ .normal → ∃ c ∈ st.members, Bound st m c)
    (hu : st.seen u = some m')
    (hall : ∀ v ∈ (st.relation u).units, (st.data v).operationMode = some m'.value)
    (hm' : m' ≠ .normal) : m = .normal ∨ m = m' := by
  by_contra! hne
  obtain ⟨c, hc, hbc⟩ := hb hne.1
  by_cases hcu : c = u
  · subst hcu
    rcases hbc.seen with hs | hs <;> rw [hu] at hs
    · exact absurd hs (by simp)
    · exact hne.2 (Option.some.inj hs).symm
  · have hack := hall c (by simp [State.relation, hc, hcu])
    rcases hbc.ack with ha | ha | ha <;> rw [hack] at ha
    · exact absurd ha (by simp)
    · exact hm' (by simpa using ha)
    · exact hne.2 (by simpa using ha.symm)

/-- A schema update that returned has left its note. -/
lemma schemaUpdate_ok {outcome : Except Exc Unit} {b d : Bool}
    (h : schemaUpdate outcome b = (.ok (), d)) : d = true := by
  cases outcome with
  | ok _ => exact (congrArg Prod.snd h).symm
  | error ex => exact absurd (congrArg Prod.fst h) (by simp [schemaUpdate, Prog.bind_run])

lemma good_reconcile {m : OperationMode} {outcome : Except Exc Unit} (h : Inv st)
    (hu : st.seen u = some m) :
    Good st (.reconcile u outcome) (st.run u (st.reconcile u m outcome)) := by
  obtain ⟨m₀, hm₀, hb⟩ := h.mode
  have hspec := reconcileOperationMode_spec (decide (st.leader = some u)) m (schemaUpdate outcome)
    (st.peers u)
  refine Prog.wp_state
    (P := fun s => s = (st.reconcile u m outcome (st.peers u)).2 → Good _ _ (st.write s))
    hspec ?_ ?_ rfl
  · rintro _ s' (rfl | ⟨hl, r, d, hr, hall, hd, rfl⟩) hs'
    · exact good_same h
    obtain rfl : st.relation u = r := Option.some.inj hr
    rw [write_setApp]
    have hl := of_decide_eq_true hl
    have key := eq_of_applied hb hu hall (by rcases hd with ⟨rfl, -⟩ | ⟨rfl, -⟩ <;> simp)
    refine good_setApp h hm₀ (m := .normal) (by simp) (fun hne => absurd rfl hne)
      (key.imp id fun heq => ?_)
    subst heq
    rcases hd with ⟨rfl, hd⟩ | ⟨rfl, -⟩
    · refine .updated hl hall ?_
      rw [← hs']
      exact schemaUpdate_ok hd
    · exact .reconciled hl hall
  · rintro ex s' (⟨rfl, -⟩ | ⟨-, r, d, hr, -, -, -, rfl⟩) -
    · exact good_same h
    · exact good_same h

/-- What the calls outside the requests and the completion leave of a bound unit. -/
lemma good_of_bound (h : Inv st) (hl : ∀ v, st'.leader = some v → v ∈ st'.members)
    (ha : st'.app = st.app) (hmem : ∀ v ∈ st.members, v ∈ st'.members)
    (hb : ∀ m c, operationMode st.app = .ok m → Bound st m c → Bound st' m c) :
    Good st e st' := by
  obtain ⟨m, hm, hbm⟩ := h.mode
  refine ⟨⟨hl, m, ha ▸ hm, fun hne => ?_⟩, m, m, hm, ha ▸ hm, .inl rfl⟩
  obtain ⟨c, hc, hbc⟩ := hbm hne
  exact ⟨c, hmem c hc, hb m c hm hbc⟩

lemma run_acknowledge (m : OperationMode) :
    st.run u (acknowledgeOperationMode u m) =
      { st with data :=
          Function.update st.data u ({ st.data u with operationMode := some m.value }) } := by
  simp [State.run, acknowledgeOperationMode, relation, writeRelation, State.peers, State.write,
    Prog.bind_run, State.relation]

lemma good_acknowledge {m : OperationMode} (h : Inv st) (hu : st.seen u = some m) :
    Good st e (st.run u (acknowledgeOperationMode u m)) := by
  rw [run_acknowledge]
  refine good_of_bound h h.leader rfl (fun _ hv => hv) fun m₀ c _ hbc => ⟨?_, hbc.seen⟩
  by_cases hcu : c = u
  · subst hcu
    rcases hbc.seen with hs | hs <;> rw [hu] at hs
    · exact absurd hs (by simp)
    · obtain rfl := Option.some.inj hs
      exact .inr (.inr (by simp))
  · simpa [hcu] using hbc.ack

/-- Every step keeps the invariant and changes the mode in an allowed way only. -/
lemma good_step (h : Inv st) (hst : step st e = some st') : Good st e st' := by
  cases e with
  | join u =>
    simp only [step] at hst
    split_ifs at hst
    cases hst
    exact good_of_bound h (fun v hv => List.mem_cons_of_mem _ (h.leader v hv)) rfl
      (fun _ hv => List.mem_cons_of_mem _ hv) fun _ _ _ hbc => ⟨hbc.ack, hbc.seen⟩
  | elect u =>
    simp only [step] at hst
    split_ifs at hst with hu
    cases hst
    exact good_of_bound h (fun v hv => Option.some.inj hv ▸ hu) rfl (fun _ hv => hv)
      fun _ _ _ hbc => ⟨hbc.ack, hbc.seen⟩
  | begin u =>
    simp only [step] at hst
    split at hst
    · rename_i m hm
      split_ifs at hst
      cases hst
      refine good_of_bound h h.leader rfl (fun _ hv => hv) fun m₀ c hm₀ hbc => ⟨hbc.ack, ?_⟩
      obtain rfl : m = m₀ := Except.ok.inj (hm.symm.trans hm₀)
      by_cases hcu : c = u
      · subst hcu
        exact .inr (by simp)
      · simpa [hcu] using hbc.seen
    · cases hst
  | acknowledge u =>
    obtain ⟨m, hm, rfl⟩ := Option.map_eq_some_iff.1 hst
    exact good_acknowledge h hm
  | reconcile u outcome =>
    obtain ⟨m, hm, rfl⟩ := Option.map_eq_some_iff.1 hst
    exact good_reconcile h hm
  | finish u =>
    cases hst
    refine good_of_bound h h.leader rfl (fun _ hv => hv) fun m c _ hbc => ⟨hbc.ack, ?_⟩
    by_cases hcu : c = u
    · subst hcu
      exact .inl (by simp)
    · simpa [hcu] using hbc.seen
  | requestDatabaseUpdate u =>
    simp only [step] at hst
    split_ifs at hst with hu
    cases hst
    exact good_requestDatabaseUpdate h hu
  | requestForceReconciliation u =>
    simp only [step] at hst
    split_ifs at hst with hu
    cases hst
    exact good_requestForceReconciliation h hu
  | requestMaintenanceMode u enabled message protection =>
    simp only [step] at hst
    split_ifs at hst with hu
    cases hst
    exact good_requestMaintenanceMode h hu

lemma inv_invariant : machine.Invariant Inv where
  init := by
    rintro st rfl
    exact inv_init
  step _ _ _ h hst := (good_step h hst).1

/-- In every run from empty peer data, every event leaves the mode as it is or changes it
in an allowed way. -/
theorem mode_changes_allowed {st st' : State} {e : Event} (h : machine.Reachable st)
    (hst : machine.step st e st') :
    ∃ m m', operationMode st.app = .ok m ∧ operationMode st'.app = .ok m' ∧
      (m = m' ∨ Allowed st e m m') :=
  (good_step (inv_invariant.reachable h) hst).2

/-- A run in which two units apply a database update. -/
def updateRun : List Event :=
  [.join "mediawiki/0", .join "mediawiki/1", .elect "mediawiki/0",
    .requestDatabaseUpdate "mediawiki/0", .begin "mediawiki/1", .acknowledge "mediawiki/1",
    .finish "mediawiki/1", .begin "mediawiki/0", .acknowledge "mediawiki/0"]

/-- The leader completes the update that both units applied. -/
theorem mode_changes_allowed_updateRun :
    ∃ st, Machine.exec step {} updateRun = some st ∧
      Allowed st (.reconcile "mediawiki/0" (.ok ())) .databaseUpdate .normal := by
  have hst : Machine.exec step {} updateRun =
    some ((Machine.exec step {} updateRun).get (by decide)) := (Option.some_get _).symm
  refine ⟨_, hst, ?_⟩
  obtain ⟨m, m', hm, hm', hc⟩ := mode_changes_allowed
    (Machine.reachable_of_exec (fun _ _ _ h => h) (.init rfl) hst)
    (e := .reconcile "mediawiki/0" (.ok ())) rfl
  obtain rfl : m = .databaseUpdate := (Except.ok.inj hm).symm
  obtain rfl : m' = .normal := (Except.ok.inj hm').symm
  exact hc.resolve_left (by decide)

end Modes

end MediawikiCharm
