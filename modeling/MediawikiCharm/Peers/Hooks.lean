/-
Safety of the coordinated schema update.

The hooks of different units overlap in any order.  A hook reads the requested mode when
it starts, renders the settings, acknowledges the mode and, on the leader, completes the
operation.  Its databag writes become visible when it ends and are lost when it fails; the
files it wrote stay.  Leadership moves between hooks only, and a unit appears in the
leader's `relation.units` before its first hook reads the mode.

The acknowledgement of a mode is a single text, so one from an earlier update could be
mistaken for one of the present update.  `opening` counts the changes of the mode from
normal to database update; a hook and an acknowledgement carry the count that held when
the hook read the mode.
-/
import MediawikiCharm.Lib.Machine
import MediawikiCharm.Peers

namespace MediawikiCharm
namespace Hooks

open Peers

/-- A hook that is running. -/
structure Hook where
  /-- The mode the hook has read. -/
  mode : OperationMode
  /-- The number of update openings when the hook read the mode. -/
  opening : ℕ
  /-- `relation.units` in this hook. -/
  units : List String
  /-- The databag of the unit as the hook has written it. -/
  own : UnitData
  /-- Whether `LateSettings.php` was rendered for the mode. -/
  rendered : Bool := false
  /-- Whether the mode was acknowledged. -/
  acked : Bool := false
  /-- Whether `reconcile_operation_mode` was called. -/
  reconciled : Bool := false
  /-- Whether that call has called `update_database_schema`. -/
  updateCalled : Bool := false
  /-- The application databag that the hook has written. -/
  app : Option AppData := none

/-- The visible peer data, the running hooks and the settings on the units' disks. -/
structure State where
  /-- The visible application databag. -/
  app : AppData := {}
  /-- The visible databags of the units. -/
  data : String → UnitData := fun _ => {}
  /-- The units that have started a hook. -/
  started : List String := []
  leader : Option String := none
  /-- The hook a unit is running. -/
  hook : String → Option Hook := fun _ => none
  /-- The mode that `LateSettings.php` on the unit's disk is rendered for. -/
  late : String → Option OperationMode := fun _ => none
  /-- How often the visible mode has changed from normal to database update. -/
  opening : ℕ := 0
  /-- The count that the hook which wrote the visible acknowledgement has read. -/
  ackOpening : String → ℕ := fun _ => 0

/-- What the units do.  Where a call sees `relation.units`, the event lists them. -/
inductive Event
  | elect (unit : String)
  /-- A hook starts and reads the mode. -/
  | begin (unit : String) (units : List String)
  /-- `LateSettings.php` is rendered for the installation. -/
  | renderInstall (unit : String)
  /-- `LateSettings.php` is rendered for the mode. -/
  | render (unit : String)
  | acknowledge (unit : String)
  /-- `outcome` is how `update_database_schema` ends, should it be called. -/
  | reconcile (unit : String) (outcome : Except Exc Unit)
  /-- The hook ends. -/
  | finish (unit : String) (failed : Bool)
  | requestDatabaseUpdate (unit : String) (units : List String)
  | requestForceReconciliation (unit : String) (units : List String)
  /-- `protection` is how `set_database_read_only` ends, should it be called. -/
  | requestMaintenanceMode (unit : String) (units : List String) (enabled : Bool)
      (message : Option String) (protection : Except Exc Unit)

/-- The schema update, which leaves a note that it was called. -/
def schemaUpdate (outcome : Except Exc Unit) : Prog Bool Exc Unit := do
  Prog.modify fun _ => true
  Prog.ofExcept outcome

/-- The application databag changes from normal operation to a database update. -/
def opens (app app' : AppData) : Bool :=
  decide (operationMode app = .ok .normal ∧ operationMode app' = .ok .databaseUpdate)

namespace State

/-- Make an application databag visible. -/
def setApp (st : State) (app : AppData) : State :=
  { st with app := app, opening := if opens st.app app then st.opening + 1 else st.opening }

/-- Replace the hook of a unit. -/
def setHook (st : State) (unit : String) (k : Option Hook) : State :=
  { st with hook := Function.update st.hook unit k }

@[simp] lemma setHook_hook_self {st : State} {u : String} {k : Option Hook} :
    (st.setHook u k).hook u = k := Function.update_self ..

lemma setHook_hook_of_ne {st : State} {u v : String} {k : Option Hook} (h : v ≠ u) :
    (st.setHook u k).hook v = st.hook v := Function.update_of_ne h ..

/-- `relation.units` lists every other unit that has started a hook. -/
def covers (st : State) (unit : String) (units : List String) : Bool :=
  st.started.all fun v => v == unit || units.contains v

/-- The unit appears in the leader's `relation.units`. -/
def seenByLeader (st : State) (unit : String) : Bool :=
  match st.leader with
  | none => true
  | some l => l == unit || (st.hook l).all fun k => k.units.contains unit

/-- The relation as a hook sees it. -/
def view (st : State) (unit : String) (k : Hook) : Relation :=
  { units := k.units, app := k.app.getD st.app, data := Function.update st.data unit k.own }

/-- The state in which a hook calls a function. -/
def peers (st : State) (unit : String) (k : Hook) : PeerWorld Bool :=
  ⟨some (st.view unit k), false⟩

/-- The leader may request an operation between its hooks. -/
def mayRequest (st : State) (unit : String) (units : List String) : Bool :=
  st.leader == some unit && (st.hook unit).isNone && st.covers unit units

/-- The state after a request of the leader. -/
def request {α : Type} (st : State) (units : List String) (x : Prog (PeerWorld Bool) Exc α) :
    State :=
  match (x ⟨some { units := units, app := st.app, data := st.data }, false⟩).2.relation with
  | some r => st.setApp r.app
  | none => st

/-- The databag of a unit becomes visible at the end of its hook. -/
def commit (st : State) (unit : String) (k : Hook) : State :=
  { st with
    data := Function.update st.data unit k.own
    ackOpening := Function.update st.ackOpening unit
      (if k.acked then k.opening else st.ackOpening unit) }.setHook unit none

end State

/-- The hook after `reconcile_operation_mode` left the state `s`. -/
def Hook.afterReconcile (k : Hook) (app : AppData) (s : PeerWorld Bool) : Hook :=
  { k with
    reconciled := true
    updateCalled := s.rest
    app := s.relation.bind fun r => if r.app = app then none else some r.app }

/-- The state after an event, `none` where the event cannot occur. -/
def step (st : State) : Event → Option State
  | .elect u =>
    if st.leader.all (fun l => (st.hook l).isNone) ∧ (st.hook u).isNone then
      some { st with leader := some u }
    else none
  | .begin u units =>
    match operationMode st.app with
    | .ok m =>
      if (st.hook u).isNone ∧ st.seenByLeader u ∧ u ∉ units ∧
          (st.leader = some u → st.covers u units) then
        some ({ st with started := u :: st.started }.setHook u
          (some { mode := m, opening := st.opening, units := units, own := st.data u }))
      else none
    | .error _ => none
  | .renderInstall u =>
    match st.hook u with
    | some k =>
      if k.rendered then none
      else some { st with late := Function.update st.late u (some .databaseUpdate) }
    | none => none
  | .render u =>
    match st.hook u with
    | some k => some ({ st with late := Function.update st.late u (some k.mode) }.setHook u
        (some { k with rendered := true }))
    | none => none
  | .acknowledge u =>
    match st.hook u with
    | some k =>
      if k.rendered then
        (acknowledgeOperationMode u k.mode (st.peers u k)).2.relation.map fun r =>
          st.setHook u (some { k with own := r.data u, acked := true })
      else none
    | none => none
  | .reconcile u outcome =>
    match st.hook u with
    | some k =>
      if k.acked ∧ ¬ k.reconciled then
        let s := (reconcileOperationMode (decide (st.leader = some u)) k.mode
          (schemaUpdate outcome) (st.peers u k)).2
        some (st.setHook u (some (k.afterReconcile st.app s)))
      else none
    | none => none
  | .finish u failed =>
    match st.hook u with
    | some k =>
      if failed then some (st.setHook u none)
      else some ((st.commit u k).setApp (k.app.getD st.app))
    | none => none
  | .requestDatabaseUpdate u units =>
    if st.mayRequest u units then some (st.request units (requestDatabaseUpdate u)) else none
  | .requestForceReconciliation u units =>
    if st.mayRequest u units then some (st.request units (requestForceReconciliation u)) else none
  | .requestMaintenanceMode u units enabled message protection =>
    if st.mayRequest u units then
      some (st.request units
        (requestMaintenanceMode u enabled (fun _ => Prog.ofExcept protection) message))
    else none

/-- The runs that start with empty peer data. -/
def machine : Machine State Event where
  init st := st = {}
  step st e st' := step st e = some st'

/-- What must hold when the leader `u` updates the schema: the requested mode is database
update, and every unit has acknowledged it in a hook that has read it since it was last
opened and runs with the settings of the database update.  The leader's own
acknowledgement is the one of its running hook. -/
structure Safe (st : State) (u : String) : Prop where
  mode : operationMode st.app = .ok .databaseUpdate
  opened : 0 < st.opening
  hook : ∃ k, st.hook u = some k ∧ k.own.operationMode = some OperationMode.databaseUpdate.value ∧
    k.acked = true ∧ k.opening = st.opening ∧ st.late u = some .databaseUpdate ∧
    ∀ v ∈ k.units, (st.data v).operationMode = some OperationMode.databaseUpdate.value ∧
      st.ackOpening v = st.opening ∧ st.late v = some .databaseUpdate

/-! ### The invariant -/

/-- The visible mode is database update. -/
def State.Updating (st : State) : Prop := operationMode st.app = .ok .databaseUpdate

/-- The unit has visibly acknowledged a database update. -/
def State.Acked (st : State) (u : String) : Prop :=
  (st.data u).operationMode = some OperationMode.databaseUpdate.value

/-- What holds of a unit. -/
structure UnitInv (st : State) (u : String) : Prop where
  fresh : u ∉ st.started → (st.data u).operationMode = none ∧ st.hook u = none
  acked : st.Updating → st.Acked u →
    st.ackOpening u = st.opening ∧ st.late u = some .databaseUpdate

/-- What holds of a running hook.  A hook that has read a database update which is over by
now belongs to a unit that has acknowledged it and stays in its name until the next hook,
so no other operation can be opened meanwhile. -/
structure HookInv (st : State) (u : String) (k : Hook) : Prop where
  own : k.own.operationMode =
    if k.acked then some k.mode.value else (st.data u).operationMode
  ackRendered : k.acked = true → k.rendered = true
  rendered : k.rendered = true → st.late u = some k.mode
  stale : ¬ st.Updating → k.mode = .databaseUpdate → st.Acked u
  current : st.Updating → k.mode = .databaseUpdate → k.opening = st.opening
  bound : st.Updating → st.Acked u → k.mode = .databaseUpdate
  others : u ∉ k.units
  leads : st.leader = some u → operationMode st.app = .ok k.mode ∧ st.covers u k.units
  pending : ∀ a, k.app = some a → st.leader = some u ∧ operationMode a = .ok .normal ∧
    (k.mode = .databaseUpdate → ∀ v ∈ k.units, st.Acked v)

/-- The invariant of the protocol. -/
structure Inv (st : State) : Prop where
  known : ∃ m, operationMode st.app = .ok m
  opened : st.Updating → 0 < st.opening
  unit : ∀ u, UnitInv st u
  hook : ∀ u k, st.hook u = some k → HookInv st u k

variable {st st' : State} {e : Event} {u : String}

lemma inv_init : Inv {} where
  known := ⟨.normal, rfl⟩
  opened h := absurd (Except.ok.inj h) (by simp)
  unit _ := ⟨fun _ => ⟨rfl, rfl⟩, fun h => absurd (Except.ok.inj h) (by simp)⟩
  hook _ _ h := absurd h (by simp)

lemma Inv.started_of_hook (h : Inv st) {k : Hook} (hk : st.hook u = some k) : u ∈ st.started := by
  by_contra hu
  rw [((h.unit u).fresh hu).2] at hk
  cases hk

lemma covers_iff {us : List String} :
    st.covers u us ↔ ∀ v ∈ st.started, v = u ∨ v ∈ us := by
  simp [State.covers]

/-! ### Changes of the visible mode -/

lemma not_opens {a a' : AppData} (h : operationMode a' = operationMode a ∨
    operationMode a' ≠ .ok .databaseUpdate) : opens a a' = false := by
  refine decide_eq_false ?_
  rintro ⟨hn, hd⟩
  rcases h with h | h
  · rw [h, hn] at hd
    exact absurd (Except.ok.inj hd) (by simp)
  · exact h hd

/-- Writing the application databag with the same mode. -/
lemma inv_setApp_same {a : AppData} (h : Inv st)
    (ha : operationMode a = operationMode st.app) : Inv (st.setApp a) := by
  have hop : (st.setApp a).opening = st.opening := by simp [State.setApp, not_opens (.inl ha)]
  have hup : (st.setApp a).Updating ↔ st.Updating := by
    simp only [State.Updating, State.setApp, ha]
  exact {
    known := h.known.imp fun m hm => ha.trans hm
    opened := fun hu => hop ▸ h.opened (hup.1 hu)
    unit := fun v => ⟨(h.unit v).fresh, fun hu hv => hop ▸ (h.unit v).acked (hup.1 hu) hv⟩
    hook := fun v k hk =>
      let hh := h.hook v k hk
      ⟨hh.own, hh.ackRendered, hh.rendered, fun hu => hh.stale (mt hup.2 hu),
        fun hu => hop ▸ hh.current (hup.1 hu), fun hu => hh.bound (hup.1 hu), hh.others,
        fun hl => ⟨ha.trans (hh.leads hl).1, (hh.leads hl).2⟩, hh.pending⟩ }

/-- The leader, between its hooks, writes a mode other than database update. -/
lemma inv_setApp_leave {a : AppData} {m : OperationMode} (h : Inv st)
    (hl : st.leader = some u) (hu : st.hook u = none) (ha : operationMode a = .ok m)
    (hm : m ≠ .databaseUpdate)
    (hack : st.Updating → ∀ v k, st.hook v = some k → k.mode = .databaseUpdate → st.Acked v) :
    Inv (st.setApp a) := by
  have hne : operationMode a ≠ .ok .databaseUpdate := by
    rw [ha]
    exact fun hd => hm (Except.ok.inj hd)
  have hup : ¬ (st.setApp a).Updating := hne
  exact {
    known := ⟨m, ha⟩
    opened := fun hd => absurd hd hup
    unit := fun v => ⟨(h.unit v).fresh, fun hd => absurd hd hup⟩
    hook := fun v k hk => by
      have hh := h.hook v k hk
      have hvu : v ≠ u := by
        rintro rfl
        exact absurd (hu.symm.trans hk) (by simp)
      refine ⟨hh.own, hh.ackRendered, hh.rendered, fun _ hd => ?_, fun hd => absurd hd hup,
        fun hd => absurd hd hup, hh.others, fun hlv => ?_, hh.pending⟩
      · by_cases hst : st.Updating
        · exact hack hst v k hk hd
        · exact hh.stale hst hd
      · exact absurd (Option.some.inj (hlv.symm.trans hl)) hvu }

/-- The leader, between its hooks, opens a database update. -/
lemma inv_setApp_open {a : AppData} (h : Inv st) (hl : st.leader = some u)
    (hu : st.hook u = none) (hn : operationMode st.app = .ok .normal)
    (ha : operationMode a = .ok .databaseUpdate) (hack : ∀ v, ¬ st.Acked v) :
    Inv (st.setApp a) := by
  have hst : ¬ st.Updating := by
    intro hd
    exact absurd (Except.ok.inj (hn.symm.trans hd)) (by simp)
  exact {
    known := ⟨_, ha⟩
    opened := fun _ => by simp [State.setApp, opens, hn, ha]
    unit := fun v => ⟨(h.unit v).fresh, fun _ hv => absurd hv (hack v)⟩
    hook := fun v k hk => by
      have hh := h.hook v k hk
      have hvu : v ≠ u := by
        rintro rfl
        exact absurd (hu.symm.trans hk) (by simp)
      refine ⟨hh.own, hh.ackRendered, hh.rendered, fun hd => absurd ha hd,
        fun _ hd => absurd (hh.stale hst hd) (hack v), fun _ hv => absurd hv (hack v),
        hh.others, fun hlv => ?_, hh.pending⟩
      exact absurd (Option.some.inj (hlv.symm.trans hl)) hvu }

/-! ### Requests of the leader -/

section Requests

variable {us : List String}

lemma mayRequest_iff : st.mayRequest u us ↔
    st.leader = some u ∧ st.hook u = none ∧ ∀ v ∈ st.started, v = u ∨ v ∈ us := by
  simp [State.mayRequest, covers_iff, and_assoc]

/-- The check of the units covers every unit, since the others have acknowledged nothing. -/
lemma not_acked_of_inNormalOperation (h : Inv st) (hr : st.mayRequest u us)
    (hn : InNormalOperation u { units := us, app := st.app, data := st.data }) (v : String) :
    ¬ st.Acked v := by
  intro hv
  by_cases hs : v ∈ st.started
  · have hvu : v ∈ u :: us := by
      rcases (mayRequest_iff.1 hr).2.2 v hs with rfl | hvu
      · exact List.mem_cons_self
      · exact List.mem_cons_of_mem _ hvu
    rcases hn v hvu with hd | hd <;> rw [hv] at hd
    · exact absurd hd (by simp)
    · exact absurd hd (by simp)
  · have hd := ((h.unit v).fresh hs).1
    rw [hv] at hd
    cases hd

lemma inv_request {α : Type} {x : Prog (PeerWorld Bool) Exc α} {Q : α → PeerWorld Bool → Prop}
    {E : Exc → PeerWorld Bool → Prop}
    (hx : x.wp Q E ⟨some { units := us, app := st.app, data := st.data }, false⟩)
    (hQ : ∀ a s, Q a s → ∀ r, s.relation = some r → Inv (st.setApp r.app))
    (hE : ∀ e s, E e s → ∀ r, s.relation = some r → Inv (st.setApp r.app)) (h : Inv st) :
    Inv (st.request us x) := by
  have key := Prog.wp_state (P := fun s => ∀ r, s.relation = some r → Inv (st.setApp r.app)) hx
    hQ hE
  unfold State.request
  split
  · rename_i r hr
    exact key r hr
  · exact h

lemma inv_requestDatabaseUpdate (h : Inv st) (hr : st.mayRequest u us) :
    Inv (st.request us (requestDatabaseUpdate u)) := by
  obtain ⟨hl, hu, -⟩ := mayRequest_iff.1 hr
  refine inv_request (requestDatabaseUpdate_spec _) ?_ ?_ h
  · rintro recorded s (⟨-, hn, -⟩ | ⟨-, r, hr', hm, hn, rfl⟩) r' hr''
    · cases hn
    cases hr'
    cases hr''
    have hack := not_acked_of_inNormalOperation h hr hn
    rcases hm with hm | hm
    · exact inv_setApp_open h hl hu hm (by simp) hack
    · exact inv_setApp_same h (by simpa using hm.symm)
  · rintro ex s ⟨rfl, -⟩ r hr'
    cases hr'
    exact inv_setApp_same h rfl

lemma inv_requestForceReconciliation (h : Inv st) (hr : st.mayRequest u us) :
    Inv (st.request us (requestForceReconciliation u)) := by
  obtain ⟨hl, hu, -⟩ := mayRequest_iff.1 hr
  refine inv_request (requestForceReconciliation_spec _) ?_ ?_ h
  · rintro recorded s (⟨-, hn, -⟩ | ⟨-, r, hr', hm, hn, rfl⟩) r' hr''
    · cases hn
    cases hr'
    cases hr''
    have hack := not_acked_of_inNormalOperation h hr hn
    exact inv_setApp_leave h hl hu (m := .forceReconciliation) (by simp) (by simp) fun hst =>
      absurd (hm.symm.trans hst) (by simp)
  · rintro ex s ⟨rfl, -⟩ r hr'
    cases hr'
    exact inv_setApp_same h rfl

lemma inv_requestMaintenanceMode {enabled : Bool} {message : Option String}
    {protect : Bool → Prog Bool Exc Unit} (h : Inv st) (hr : st.mayRequest u us) :
    Inv (st.request us (requestMaintenanceMode u enabled protect message)) := by
  obtain ⟨hl, hu, -⟩ := mayRequest_iff.1 hr
  refine inv_request (requestMaintenanceMode_spec enabled protect message _) ?_ ?_ h
  · rintro recorded s (⟨-, hn, -⟩ | ⟨-, r, m, d, hr', hm, hdu, -, -, -, rfl⟩) r' hr''
    · cases hn
    cases hr'
    cases hr''
    have hst : ¬ st.Updating := by
      intro hd
      rw [State.Updating] at hd
      exact hdu (by simpa [hd, Except.toOption] using hm.symm)
    simp only [Relation.setApp_app]
    unfold recordMaintenanceMode
    split_ifs
    · exact inv_setApp_leave h hl hu (m := .maintenance) (by simp) (by simp) fun hd =>
        absurd hd hst
    · exact inv_setApp_leave h hl hu (m := .normal) (by simp) (by simp) fun hd => absurd hd hst
    · exact inv_setApp_same h rfl
  · rintro ex s (⟨rfl, -⟩ | ⟨_, m, d, -, -, -, -, -, rfl⟩) r hr'
    · cases hr'
      exact inv_setApp_same h rfl
    · cases hr'
      exact inv_setApp_same h rfl

end Requests

/-! ### Steps of a hook -/

/-- A change that concerns one unit and its hook only. -/
lemma inv_hook_change (h : Inv st) (happ : st'.app = st.app) (hop : st'.opening = st.opening)
    (hdata : st'.data = st.data) (hstarted : st'.started = st.started)
    (hleader : st'.leader = st.leader) (hack : st'.ackOpening = st.ackOpening)
    (hlate : ∀ v, v ≠ u → st'.late v = st.late v) (hhook : ∀ v, v ≠ u → st'.hook v = st.hook v)
    (hu : UnitInv st' u) (hk : ∀ k, st'.hook u = some k → HookInv st' u k) : Inv st' := by
  have hup : st'.Updating ↔ st.Updating := by simp only [State.Updating, happ]
  have hacked : ∀ v, st'.Acked v ↔ st.Acked v := by simp [State.Acked, hdata]
  refine ⟨happ ▸ h.known, fun hd => hop ▸ h.opened (hup.1 hd), fun v => ?_, fun v k hvk => ?_⟩
  · by_cases hvu : v = u
    · exact hvu ▸ hu
    have hv := h.unit v
    refine ⟨fun hs => ?_, fun hd ha => ?_⟩
    · rw [hdata, hhook v hvu]
      exact hv.fresh (hstarted ▸ hs)
    · rw [hack, hop, hlate v hvu]
      exact hv.acked (hup.1 hd) ((hacked v).1 ha)
  · by_cases hvu : v = u
    · subst hvu
      exact hk k hvk
    have hh := h.hook v k (hhook v hvu ▸ hvk)
    refine ⟨hdata ▸ hh.own, hh.ackRendered, fun hr => (hlate v hvu).trans (hh.rendered hr),
      fun hd hm => (hacked v).2 (hh.stale (mt hup.2 hd) hm),
      fun hd hm => (hh.current (hup.1 hd) hm).trans hop.symm,
      fun hd ha => hh.bound (hup.1 hd) ((hacked v).1 ha), hh.others, fun hl => ?_, fun a ha => ?_⟩
    · obtain ⟨hm, hc⟩ := hh.leads (hleader ▸ hl)
      refine ⟨happ ▸ hm, ?_⟩
      unfold State.covers at hc ⊢
      rwa [hstarted]
    · obtain ⟨hl, hn, hall⟩ := hh.pending a ha
      exact ⟨hleader.trans hl, hn, fun hm w hw => (hacked w).2 (hall hm w hw)⟩

lemma inv_elect (h : Inv st) (hl : st.leader.all fun l => (st.hook l).isNone)
    (hu : (st.hook u).isNone) : Inv { st with leader := some u } := by
  refine ⟨h.known, h.opened, fun v => ⟨(h.unit v).fresh, (h.unit v).acked⟩, fun v k hk => ?_⟩
  have hh := h.hook v k hk
  refine ⟨hh.own, hh.ackRendered, hh.rendered, hh.stale, hh.current, hh.bound, hh.others,
    fun hlv => ?_, fun a ha => ?_⟩
  · obtain rfl := Option.some.inj hlv
    simp [show st.hook u = some k from hk] at hu
  · rw [(hh.pending a ha).1] at hl
    simp [show st.hook v = some k from hk] at hl

lemma seen_units {v : String} {k : Hook} (hs : st.seenByLeader u) (hl : st.leader = some v)
    (hk : st.hook v = some k) : v = u ∨ u ∈ k.units := by
  simpa [State.seenByLeader, hl, hk] using hs

lemma inv_begin {m : OperationMode} {us : List String} (h : Inv st)
    (hm : operationMode st.app = .ok m) (hu : (st.hook u).isNone) (hs : st.seenByLeader u)
    (hus : u ∉ us) (hc : st.leader = some u → st.covers u us) :
    Inv ({ st with started := u :: st.started }.setHook u
      (some { mode := m, opening := st.opening, units := us, own := st.data u })) := by
  refine ⟨h.known, h.opened, fun v => ⟨fun hv => ?_, (h.unit v).acked⟩, fun v k hk => ?_⟩
  · obtain ⟨hvu, hvs⟩ := not_or.1 (mt List.mem_cons.2 hv)
    rw [State.setHook_hook_of_ne hvu]
    exact (h.unit v).fresh hvs
  · by_cases hvu : v = u
    · subst hvu
      rw [State.setHook_hook_self] at hk
      obtain rfl := Option.some.inj hk
      refine ⟨rfl, by simp, by simp, fun hd hmd => absurd (hm.trans (congrArg _ hmd)) hd,
        fun _ _ => rfl,
        fun hd _ => Except.ok.inj (hm.symm.trans hd), hus, fun hl => ⟨hm, ?_⟩, by simp⟩
      rw [covers_iff]
      intro w hw
      rcases List.mem_cons.1 hw with rfl | hw
      · exact .inl rfl
      · exact covers_iff.1 (hc hl) w hw
    · rw [State.setHook_hook_of_ne hvu] at hk
      have hh := h.hook v k hk
      refine ⟨hh.own, hh.ackRendered, hh.rendered, hh.stale, hh.current, hh.bound, hh.others,
        fun hl => ⟨(hh.leads hl).1, ?_⟩, hh.pending⟩
      -- the hook of the leader lists the unit that starts
      rw [covers_iff]
      intro w hw
      rcases List.mem_cons.1 hw with rfl | hw
      · exact (seen_units hs hl hk).imp Eq.symm id
      · exact covers_iff.1 (hh.leads hl).2 w hw

lemma inv_renderInstall {k : Hook} (h : Inv st) (hk : st.hook u = some k)
    (hr : k.rendered = false) :
    Inv { st with late := Function.update st.late u (some .databaseUpdate) } := by
  refine inv_hook_change (u := u) h rfl rfl rfl rfl rfl rfl
    (fun v hvu => Function.update_of_ne hvu ..) (fun _ _ => rfl) ?_ fun k' hk' => ?_
  · exact ⟨(h.unit u).fresh, fun hd ha => ⟨((h.unit u).acked hd ha).1, Function.update_self ..⟩⟩
  · obtain rfl := Option.some.inj (hk.symm.trans hk')
    have hh := h.hook u k hk
    exact ⟨hh.own, hh.ackRendered, fun ht => absurd (hr.symm.trans ht) (by simp), hh.stale,
      hh.current, hh.bound, hh.others, hh.leads, hh.pending⟩

lemma inv_render {k : Hook} (h : Inv st) (hk : st.hook u = some k) :
    Inv ({ st with late := Function.update st.late u (some k.mode) }.setHook u
      (some { k with rendered := true })) := by
  have hh := h.hook u k hk
  refine inv_hook_change (u := u) h rfl rfl rfl rfl rfl rfl
    (fun v hvu => Function.update_of_ne hvu ..) (fun v hvu => State.setHook_hook_of_ne hvu) ?_
    fun k' hk' => ?_
  · refine ⟨fun hs => absurd (h.started_of_hook hk) hs, fun hd ha =>
      ⟨((h.unit u).acked hd ha).1, ?_⟩⟩
    rw [← hh.bound hd ha]
    exact Function.update_self ..
  · rw [State.setHook_hook_self] at hk'
    obtain rfl := Option.some.inj hk'
    exact ⟨hh.own, fun _ => rfl, fun _ => Function.update_self .., hh.stale, hh.current, hh.bound,
      hh.others, hh.leads, hh.pending⟩

/-- Replacing the hook of a unit by one that has read the same mode. -/
lemma inv_setHook {k k' : Hook} (h : Inv st) (hk : st.hook u = some k)
    (hk' : HookInv st u k') : Inv (st.setHook u (some k')) := by
  refine inv_hook_change (u := u) h rfl rfl rfl rfl rfl rfl (fun _ _ => rfl)
    (fun v hvu => State.setHook_hook_of_ne hvu) ?_ fun k'' hk'' => ?_
  · exact ⟨fun hs => absurd (h.started_of_hook hk) hs, (h.unit u).acked⟩
  · rw [State.setHook_hook_self] at hk''
    obtain rfl := Option.some.inj hk''
    exact ⟨hk'.own, hk'.ackRendered, hk'.rendered, hk'.stale, hk'.current, hk'.bound,
      hk'.others, hk'.leads, hk'.pending⟩

lemma inv_acknowledge {k : Hook} {d : UnitData} (h : Inv st) (hk : st.hook u = some k)
    (hr : k.rendered = true) (hd : d.operationMode = some k.mode.value) :
    Inv (st.setHook u (some { k with own := d, acked := true })) := by
  have hh := h.hook u k hk
  exact inv_setHook h hk ⟨hd, fun _ => hr, hh.rendered, hh.stale, hh.current, hh.bound,
    hh.others, hh.leads, hh.pending⟩

lemma acknowledge_run (k : Hook) :
    (acknowledgeOperationMode u k.mode (st.peers u k)).2.relation = some ((st.view u k).setData u
      { k.own with operationMode := some k.mode.value }) := by
  simp [acknowledgeOperationMode, relation, writeRelation, State.peers, State.view, Prog.bind_run]

/-- What `reconcile_operation_mode` may leave in a hook: it writes the normal mode at most,
on the leader and with every listed unit in the mode of the hook. -/
def Reconciled (st : State) (u : String) (k : Hook) (s : PeerWorld Bool) : Prop :=
  s = st.peers u k ∨ st.leader = some u ∧
    (∀ v ∈ k.units, (st.data v).operationMode = some k.mode.value) ∧
    (s.rest = true → k.mode = .databaseUpdate) ∧
    (s.relation = some (st.view u k) ∨ s.relation = some ((st.view u k).setApp
      ((st.view u k).app.setOperationMode .normal)))

lemma reconciled_reconcile {k : Hook} (hu : u ∉ k.units) (outcome : Except Exc Unit) :
    Reconciled st u k (reconcileOperationMode (decide (st.leader = some u)) k.mode
      (schemaUpdate outcome) (st.peers u k)).2 := by
  have hdata : ∀ v ∈ k.units, (st.view u k).data v = st.data v := fun v hv =>
    Function.update_of_ne (by rintro rfl; exact hu hv) ..
  refine Prog.wp_state (reconcileOperationMode_spec _ _ _ _) ?_ ?_
  · rintro _ s' (rfl | ⟨hl, r, d, hr, hall, hd, rfl⟩)
    · exact .inl rfl
    obtain rfl : st.view u k = r := Option.some.inj hr
    refine .inr ⟨of_decide_eq_true hl, fun v hv => hdata v hv ▸ hall v hv, fun hrest => ?_,
      .inr rfl⟩
    rcases hd with ⟨hm, -⟩ | ⟨-, hd⟩
    · exact hm
    · exact absurd (hd.symm.trans hrest) (by simp [State.peers])
  · rintro ex s' (⟨rfl, -⟩ | ⟨hl, r, d, hr, hall, hm, -, rfl⟩)
    · exact .inl rfl
    obtain rfl : st.view u k = r := Option.some.inj hr
    exact .inr ⟨of_decide_eq_true hl, fun v hv => hdata v hv ▸ hall v hv, fun _ => hm, .inl rfl⟩

/-- The application databag after `reconcile_operation_mode`. -/
lemma afterReconcile_app {k : Hook} {s : PeerWorld Bool} {a : AppData}
    (hs : Reconciled st u k s) (ha : (k.afterReconcile st.app s).app = some a) :
    k.app = some a ∨ st.leader = some u ∧ operationMode a = .ok .normal ∧
      ∀ v ∈ k.units, (st.data v).operationMode = some k.mode.value := by
  have hsame : s.relation = some (st.view u k) → k.app = some a := by
    intro hr
    cases happ : k.app with
    | none => simp [Hook.afterReconcile, hr, State.view, happ] at ha
    | some a' =>
      simp only [Hook.afterReconcile, hr, State.view, happ, Option.bind_some,
        Option.getD_some] at ha
      split_ifs at ha
      exact ha
  rcases hs with rfl | ⟨hl, hall, -, hr | hr⟩
  · exact .inl (hsame rfl)
  · exact .inl (hsame hr)
  · simp only [Hook.afterReconcile, hr, Option.bind_some] at ha
    split_ifs at ha
    obtain rfl := Option.some.inj ha
    exact .inr ⟨hl, by simp, hall⟩

lemma inv_reconcile {k : Hook} {s : PeerWorld Bool} (h : Inv st) (hk : st.hook u = some k)
    (hs : Reconciled st u k s) : Inv (st.setHook u (some (k.afterReconcile st.app s))) := by
  have hh := h.hook u k hk
  refine inv_setHook h hk ⟨hh.own, hh.ackRendered, hh.rendered, hh.stale, hh.current, hh.bound,
    hh.others, hh.leads, fun a ha => ?_⟩
  rcases afterReconcile_app hs ha with ha | ⟨hl, hn, hall⟩
  · exact hh.pending a ha
  · exact ⟨hl, hn, fun hm v hv => (hall v hv).trans (congrArg _ (congrArg _ hm))⟩

/-! ### The end of a hook -/

lemma inv_drop (h : Inv st) : Inv (st.setHook u none) := by
  refine inv_hook_change (u := u) h rfl rfl rfl rfl rfl rfl (fun _ _ => rfl)
    (fun v hvu => State.setHook_hook_of_ne hvu) ?_ fun k hk => ?_
  · exact ⟨fun hs => ⟨((h.unit u).fresh hs).1, State.setHook_hook_self⟩, (h.unit u).acked⟩
  · rw [State.setHook_hook_self] at hk
    cases hk

/-- A unit that has acknowledged the present update acknowledges it again. -/
lemma acked_commit {k : Hook} (h : Inv st) (hk : st.hook u = some k) (hst : st.Updating)
    {v : String} (hv : st.Acked v) : (st.commit u k).Acked v := by
  by_cases hvu : v = u
  · subst hvu
    have hh := h.hook v k hk
    show (Function.update st.data v k.own v).operationMode = _
    rw [Function.update_self, hh.own, hh.bound hst hv]
    split
    · rfl
    · exact hv
  · show (Function.update st.data u k.own v).operationMode = _
    rwa [Function.update_of_ne hvu]

lemma unitInv_commit {k : Hook} (h : Inv st) (hk : st.hook u = some k) :
    UnitInv (st.commit u k) u := by
  have hh := h.hook u k hk
  refine ⟨fun hs => absurd (h.started_of_hook hk) hs, fun hst hack => ?_⟩
  have hown : k.own.operationMode = some OperationMode.databaseUpdate.value := by
    simpa [State.commit, State.setHook, State.Acked] using hack
  show Function.update st.ackOpening u _ u = st.opening ∧ _
  rw [Function.update_self]
  by_cases ha : k.acked = true
  · -- the acknowledgement is the one of this hook
    have hm : k.mode = .databaseUpdate := by simpa [hh.own, ha] using hown
    rw [if_pos ha]
    exact ⟨hh.current hst hm, (hh.rendered (hh.ackRendered ha)).trans (congrArg _ hm)⟩
  · rw [if_neg ha]
    refine (h.unit u).acked hst ?_
    simpa [State.Acked, hh.own, ha] using hown

lemma inv_commit {k : Hook} (h : Inv st) (hk : st.hook u = some k) : Inv (st.commit u k) := by
  have hdata : ∀ v, v ≠ u → (st.commit u k).data v = st.data v := fun v hvu =>
    Function.update_of_ne hvu ..
  have hhook : ∀ v, v ≠ u → (st.commit u k).hook v = st.hook v := fun v hvu =>
    State.setHook_hook_of_ne hvu
  have hacked : ∀ v, v ≠ u → ((st.commit u k).Acked v ↔ st.Acked v) := fun v hvu => by
    simp only [State.Acked, hdata v hvu]
  refine ⟨h.known, h.opened, fun v => ?_, fun v k' hk' => ?_⟩
  · by_cases hvu : v = u
    · subst hvu
      exact unitInv_commit h hk
    have hv := h.unit v
    refine ⟨fun hs => ?_, fun hst hack => ?_⟩
    · rw [hdata v hvu, hhook v hvu]
      exact hv.fresh hs
    · show Function.update st.ackOpening u _ v = st.opening ∧ _
      rw [Function.update_of_ne hvu]
      exact hv.acked hst ((hacked v hvu).1 hack)
  · have hvu : v ≠ u := by
      rintro rfl
      simp [State.commit] at hk'
    rw [hhook v hvu] at hk'
    have hh := h.hook v k' hk'
    refine ⟨hdata v hvu ▸ hh.own, hh.ackRendered, hh.rendered,
      fun hst hm => (hacked v hvu).2 (hh.stale hst hm), hh.current,
      fun hst hack => hh.bound hst ((hacked v hvu).1 hack), hh.others, hh.leads, fun a ha => ?_⟩
    obtain ⟨hl, hn, hall⟩ := hh.pending a ha
    refine ⟨hl, hn, fun hm w hw => acked_commit h hk ?_ (hall hm w hw)⟩
    exact (hh.leads hl).1.trans (congrArg _ hm)

/-- The application databag that a hook of the leader has written becomes visible with the
databag of the unit. -/
lemma inv_commit_setApp {k : Hook} (h : Inv st) (hk : st.hook u = some k) :
    Inv ((st.commit u k).setApp (k.app.getD st.app)) := by
  have hh := h.hook u k hk
  cases ha : k.app with
  | none => exact inv_setApp_same (inv_commit h hk) rfl
  | some a =>
    obtain ⟨hl, hn, hall⟩ := hh.pending a ha
    refine inv_setApp_leave (inv_commit h hk) hl State.setHook_hook_self hn (by simp) ?_
    intro hst v k' hk' hm
    -- every running hook belongs to a unit that the leader has seen acknowledge the update
    have hmode : k.mode = .databaseUpdate := Except.ok.inj ((hh.leads hl).1.symm.trans hst)
    have hvu : v ≠ u := by
      rintro rfl
      simp [State.commit] at hk'
    have hk'' : st.hook v = some k' := (State.setHook_hook_of_ne hvu).symm.trans hk'
    have hv := (covers_iff.1 (hh.leads hl).2 v (h.started_of_hook hk'')).resolve_left hvu
    exact acked_commit h hk hst (hall hmode v hv)

/-- Every step keeps the invariant. -/
lemma inv_step (h : Inv st) (hst : step st e = some st') : Inv st' := by
  cases e with
  | elect u =>
    simp only [step] at hst
    split_ifs at hst with hc
    cases hst
    exact inv_elect h hc.1 hc.2
  | begin u us =>
    simp only [step] at hst
    split at hst
    · split_ifs at hst with hc
      cases hst
      exact inv_begin h ‹_› hc.1 hc.2.1 hc.2.2.1 hc.2.2.2
    · cases hst
  | renderInstall u =>
    simp only [step] at hst
    split at hst
    · split_ifs at hst with hr
      cases hst
      exact inv_renderInstall h ‹_› (by simpa using hr)
    · cases hst
  | render u =>
    simp only [step] at hst
    split at hst
    · cases hst
      exact inv_render h ‹_›
    · cases hst
  | acknowledge u =>
    simp only [step] at hst
    split at hst
    · split_ifs at hst with hr
      rw [acknowledge_run] at hst
      cases hst
      exact inv_acknowledge h ‹_› hr (by simp)
    · cases hst
  | reconcile u outcome =>
    simp only [step] at hst
    split at hst
    · rename_i k hk
      split_ifs at hst
      cases hst
      exact inv_reconcile h hk (reconciled_reconcile (h.hook u k hk).others outcome)
    · cases hst
  | finish u failed =>
    simp only [step] at hst
    split at hst
    · split_ifs at hst
      · cases hst
        exact inv_drop h
      · cases hst
        exact inv_commit_setApp h ‹_›
    · cases hst
  | requestDatabaseUpdate u us =>
    simp only [step] at hst
    split_ifs at hst with hr
    cases hst
    exact inv_requestDatabaseUpdate h hr
  | requestForceReconciliation u us =>
    simp only [step] at hst
    split_ifs at hst with hr
    cases hst
    exact inv_requestForceReconciliation h hr
  | requestMaintenanceMode u us enabled message protection =>
    simp only [step] at hst
    split_ifs at hst with hr
    cases hst
    exact inv_requestMaintenanceMode h hr

lemma inv_invariant : machine.Invariant Inv where
  init := by
    rintro st rfl
    exact inv_init
  step _ _ _ h hst := inv_step h hst

/-! ### The schema update -/

/-- The call of `reconcile_operation_mode` in the hook of a unit has called
`update_database_schema`. -/
def State.UpdateCalled (st : State) (u : String) : Prop :=
  ∃ k, st.hook u = some k ∧ k.updateCalled = true

lemma safe_of_called {k : Hook} {s : PeerWorld Bool} (h : Inv st) (hk : st.hook u = some k)
    (hacked : k.acked = true) (hs : Reconciled st u k s) (hrest : s.rest = true) : Safe st u := by
  have hh := h.hook u k hk
  rcases hs with rfl | ⟨hl, hall, hm, -⟩
  · cases hrest
  have hm := hm hrest
  have hst : st.Updating := (hh.leads hl).1.trans (congrArg _ hm)
  refine ⟨hst, h.opened hst, k, hk, ?_, hacked, hh.current hst hm, ?_, fun v hv => ?_⟩
  · rw [hh.own, if_pos hacked, hm]
  · rw [hh.rendered (hh.ackRendered hacked), hm]
  · have hv : st.Acked v := (hall v hv).trans (congrArg _ (congrArg _ hm))
    exact ⟨hv, (h.unit v).acked hst hv⟩

/-- Whenever `reconcile_operation_mode` calls `update_database_schema`, in any run from empty
peer data, every unit has applied and acknowledged the present database update. -/
theorem schema_update_safe {st st' : State} {u : String} {outcome : Except Exc Unit}
    (h : machine.Reachable st) (hst : machine.step st (.reconcile u outcome) st')
    (hc : st'.UpdateCalled u) : Safe st u := by
  have hinv := inv_invariant.reachable h
  have hst : step st (.reconcile u outcome) = some st' := hst
  obtain ⟨k', hk', hcalled⟩ := hc
  simp only [step] at hst
  split at hst
  · rename_i k hk
    split_ifs at hst with hg
    cases hst
    rw [State.setHook_hook_self] at hk'
    obtain rfl := Option.some.inj hk'
    exact safe_of_called hinv hk hg.1 (reconciled_reconcile (hinv.hook u k hk).others outcome)
      hcalled
  · cases hst

/-- A run in which the hooks of two units overlap, one of them opened before the database
update and one after it. -/
def updateRun : List Event :=
  let u₀ := "mediawiki/0"
  let u₁ := "mediawiki/1"
  [.elect u₀, .begin u₁ [u₀], .requestDatabaseUpdate u₀ [u₁], .render u₁, .acknowledge u₁,
    .begin u₀ [u₁], .finish u₁ false, .begin u₁ [u₀], .renderInstall u₁, .render u₁,
    .acknowledge u₁, .finish u₁ false, .render u₀, .acknowledge u₀]

theorem schema_update_safe_updateRun :
    ∃ st, Machine.exec step {} updateRun = some st ∧ Safe st "mediawiki/0" := by
  have hst : Machine.exec step {} updateRun =
    some ((Machine.exec step {} updateRun).get (by decide)) := (Option.some_get _).symm
  have hst' : step ((Machine.exec step {} updateRun).get (by decide))
      (.reconcile "mediawiki/0" (.ok ())) = some _ := rfl
  exact ⟨_, hst, schema_update_safe
    (Machine.reachable_of_exec (fun _ _ _ h => h) (.init rfl) hst) hst' ⟨_, rfl, rfl⟩⟩

end Hooks

end MediawikiCharm
