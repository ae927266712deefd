/-
The peer relation (`mediawiki_peers.py`).

The units of the application share one relation: an application databag that only the
leader writes and a databag for each unit.  The functions here are those of
`MediaWikiPeers`.  They run over the relation, which may not be there yet, and over a
remaining state `D` that only the callbacks passed to them touch.
-/
import MediawikiCharm.Exceptions
import MediawikiCharm.Lib.Program

namespace MediawikiCharm

/-- What a databag holds under a key after `databag[key] = value`: the empty text removes
the key. -/
def databagValue (value : String) : Option String := if value = "" then none else some value

@[simp] lemma databagValue_mode (m : OperationMode) : databagValue m.value = some m.value := by
  cases m <;> rfl

/-- The application databag. -/
structure AppData where
  /-- `OPERATION_MODE_KEY` -/
  operationMode : Option String := none
  /-- `MAINTENANCE_MESSAGE_KEY` -/
  maintenanceMessage : Option String := none
  /-- `COMPOSER_LOCK_KEY` -/
  composerLock : Option String := none
  /-- `LEADER_STATE_HASH_KEY` -/
  leaderStateHash : Option String := none
deriving DecidableEq

namespace AppData

/-- `app_data[OPERATION_MODE_KEY] = mode.value` -/
def setOperationMode (mode : OperationMode) (app : AppData) : AppData :=
  { app with operationMode := databagValue mode.value }

/-- Write `MAINTENANCE_MESSAGE_KEY`, or remove it where there is no message. -/
def setMaintenanceMessage (message : Option String) (app : AppData) : AppData :=
  { app with maintenanceMessage := message.bind databagValue }

@[simp] lemma setOperationMode_operationMode (m : OperationMode) (app : AppData) :
    (app.setOperationMode m).operationMode = some m.value := databagValue_mode m

@[simp] lemma setMaintenanceMessage_operationMode (t : Option String) (app : AppData) :
    (app.setMaintenanceMessage t).operationMode = app.operationMode := rfl

end AppData

/-- The databag of one unit. -/
structure UnitData where
  /-- `OPERATION_MODE_KEY` -/
  operationMode : Option String := none
  /-- `L10N_CACHE_VERSION_KEY` -/
  l10nCacheVersion : Option String := none
deriving DecidableEq

/-- The peer relation as one unit sees it. -/
structure Relation where
  /-- The other units, `relation.units`. -/
  units : List String
  /-- The application databag. -/
  app : AppData
  /-- The databag of each unit. -/
  data : String → UnitData

namespace Relation

/-- Write the application databag. -/
def setApp (app : AppData) (r : Relation) : Relation := { r with app := app }

/-- Write the databag of a unit. -/
def setData (unit : String) (d : UnitData) (r : Relation) : Relation :=
  { r with data := Function.update r.data unit d }

@[simp] lemma setApp_app (a : AppData) (r : Relation) : (r.setApp a).app = a := rfl

@[simp] lemma setApp_units (a : AppData) (r : Relation) : (r.setApp a).units = r.units := rfl

@[simp] lemma setApp_data (a : AppData) (r : Relation) : (r.setApp a).data = r.data := rfl

@[simp] lemma setData_app (u : String) (d : UnitData) (r : Relation) :
    (r.setData u d).app = r.app := rfl

@[simp] lemma setData_units (u : String) (d : UnitData) (r : Relation) :
    (r.setData u d).units = r.units := rfl

@[simp] lemma setData_data (u : String) (d : UnitData) (r : Relation) :
    (r.setData u d).data = Function.update r.data u d := rfl

end Relation

/-- The state the functions of `MediaWikiPeers` run over. -/
structure PeerWorld (D : Type) where
  /-- `get_relation(self._relation_name)`. -/
  relation : Option Relation
  /-- What only the callbacks touch. -/
  rest : D

namespace Peers

variable {D : Type}

/-- `RELATION_NAME` -/
def relationName : String := "mediawiki-replica"

/-- Run a callback on the rest of the state. -/
def callback {α : Type} (x : Prog D Exc α) : Prog (PeerWorld D) Exc α :=
  Prog.zoom PeerWorld.rest (fun d s => { s with rest := d }) x

/-- Write the peer relation. -/
def writeRelation (r : Relation) : Prog (PeerWorld D) Exc Unit :=
  Prog.modify fun s => { s with relation := some r }

/-- `_relation` -/
def relation : Prog (PeerWorld D) Exc Relation := do
  let s ← Prog.get
  match s.relation with
  | some r => pure r
  | none => throw (.waiting ("Waiting for peer relation " ++ relationName ++ " to be ready"))

/-- `_operation_mode`: the operation mode requested in the application data. -/
def operationMode (appData : AppData) : Except Exc OperationMode :=
  let value := appData.operationMode.getD OperationMode.normal.value
  match OperationMode.ofValue value with
  | some m => .ok m
  | none => .error (.unknownOperationMode
      ("Unknown operation mode '" ++ value ++ "', run set-maintenance-mode to override it"))

/-- `_ensure_units_in_normal_operation`: all units are ready to start a new coordinated
operation. -/
def ensureUnitsInNormalOperation (unit : String) (relation : Relation) : Except Exc Unit :=
  let unitModes := (unit :: relation.units).map fun u =>
    (relation.data u).operationMode.getD OperationMode.normal.value
  if OperationMode.maintenance.value ∈ unitModes then
    .error (.modeConflict "Disable maintenance mode before starting another operation")
  else if unitModes.any (· != OperationMode.normal.value) then
    .error (.modeConflict
      "Wait for all units to return to normal operation before starting another operation")
  else .ok ()

/-- `publish_state`: the leader publishes its Composer lock and the hash of its state. -/
def publishState (lock stateHash : String) : Prog (PeerWorld D) Exc Unit := do
  let r ← relation
  writeRelation (r.setApp { r.app with
    composerLock := databagValue lock, leaderStateHash := databagValue stateHash })

/-- `acknowledge_operation_mode`: the unit publishes the mode it applied. -/
def acknowledgeOperationMode (unit : String) (mode : OperationMode) :
    Prog (PeerWorld D) Exc Unit := do
  let r ← relation
  writeRelation (r.setData unit { r.data unit with operationMode := databagValue mode.value })

/-- `maintenance_mode`: the requested maintenance mode, `none` without a relation. -/
def maintenanceMode : Prog (PeerWorld D) Exc (Option (Bool × Option String)) := do
  let s ← Prog.get
  match s.relation with
  | none => pure none
  | some r =>
    let mode ← Prog.ofExcept (operationMode r.app)
    pure (some (decide (mode = .maintenance), r.app.maintenanceMessage))

/-- The check of one unit in `reconcile_operation_mode`. -/
def checkApplied (r : Relation) (mode : OperationMode) (u : String) : Except Exc Unit :=
  if (r.data u).operationMode ≠ some mode.value then
    .error (.waiting ("Waiting for unit " ++ u ++ " to apply operation mode " ++ mode.value))
  else .ok ()

/-- `reconcile_operation_mode`: the leader completes the requested operation once all
peer units have applied it. -/
def reconcileOperationMode (isLeader : Bool) (mode : OperationMode)
    (updateDatabaseSchema : Prog D Exc Unit) : Prog (PeerWorld D) Exc Unit := do
  if !isLeader || !(mode == .databaseUpdate || mode == .forceReconciliation) then
    pure ()
  else
    let r ← relation
    Prog.ofExcept (forM r.units (checkApplied r mode))
    if mode == .databaseUpdate then
      callback updateDatabaseSchema
    writeRelation (r.setApp (r.app.setOperationMode .normal))

/-- `localisation_cache_version` -/
def localisationCacheVersion (unit : String) : Prog (PeerWorld D) Exc (Option String) := do
  let r ← relation
  pure (r.data unit).l10nCacheVersion

/-- `mark_localisation_cache_rebuilt` -/
def markLocalisationCacheRebuilt (unit version : String) : Prog (PeerWorld D) Exc Unit := do
  let r ← relation
  writeRelation (r.setData unit { r.data unit with l10nCacheVersion := databagValue version })

/-- `request_database_update` -/
def requestDatabaseUpdate (unit : String) : Prog (PeerWorld D) Exc Bool := do
  let s ← Prog.get
  match s.relation with
  | none => pure false
  | some r =>
    let currentMode ← Prog.ofExcept (operationMode r.app)
    if currentMode = .maintenance then
      throw (.modeConflict "Disable maintenance mode before requesting a database update")
    else if currentMode = .forceReconciliation then
      throw (.modeConflict
        "Wait for forced reconciliation to complete before requesting a database update")
    else
      Prog.ofExcept (ensureUnitsInNormalOperation unit r)
      writeRelation (r.setApp (r.app.setOperationMode .databaseUpdate))
      pure true

/-- The current mode as `request_maintenance_mode` reads it: `none` where it is not
recognised. -/
def recognisedMode (appData : AppData) : Except Exc (Option OperationMode) :=
  match operationMode appData with
  | .ok m => .ok (some m)
  | .error (.unknownOperationMode _) => .ok none
  | .error e => .error e

/-- The application data that `request_maintenance_mode` leaves once the database
protection was applied. -/
def recordMaintenanceMode (enabled : Bool) (message : Option String)
    (currentMode : Option OperationMode) (appData : AppData) : AppData :=
  if enabled then (appData.setOperationMode .maintenance).setMaintenanceMessage message
  else if currentMode = some .maintenance ∨ currentMode = none then
    (appData.setOperationMode .normal).setMaintenanceMessage none
  else appData

/-- `request_maintenance_mode` -/
def requestMaintenanceMode (unit : String) (enabled : Bool)
    (setDatabaseReadOnly : Bool → Prog D Exc Unit) (message : Option String) :
    Prog (PeerWorld D) Exc Bool := do
  let s ← Prog.get
  match s.relation with
  | none => pure false
  | some r =>
    let currentMode ← Prog.ofExcept (recognisedMode r.app)
    let action := if enabled then "enabling" else "disabling"
    if currentMode = some .databaseUpdate then
      throw (.modeConflict
        ("Wait for the database update to complete before " ++ action ++ " maintenance mode"))
    else if currentMode = some .forceReconciliation then
      throw (.modeConflict
        ("Wait for forced reconciliation to complete before " ++ action ++ " maintenance mode"))
    else
      Prog.ofExcept (if enabled = true ∧ currentMode = some .normal then
        ensureUnitsInNormalOperation unit r else .ok ())
      callback (setDatabaseReadOnly enabled)
      writeRelation (r.setApp (recordMaintenanceMode enabled message currentMode r.app))
      pure true

/-- `request_force_reconciliation` -/
def requestForceReconciliation (unit : String) : Prog (PeerWorld D) Exc Bool := do
  let s ← Prog.get
  match s.relation with
  | none => pure false
  | some r =>
    let currentMode ← Prog.ofExcept (operationMode r.app)
    if currentMode ≠ .normal then
      throw (.modeConflict
        ("Wait for " ++ currentMode.value ++ " to complete before forcing reconciliation"))
    else
      Prog.ofExcept (ensureUnitsInNormalOperation unit r)
      writeRelation (r.setApp (r.app.setOperationMode .forceReconciliation))
      pure true

/-! ### What each function can do -/

variable {unit : String}

/-- Every unit, `unit` included, has an absent or a normal acknowledgement. -/
def InNormalOperation (unit : String) (r : Relation) : Prop :=
  ∀ u ∈ unit :: r.units, (r.data u).operationMode = none ∨
    (r.data u).operationMode = some OperationMode.normal.value

lemma getD_eq_normal {o : Option String} :
    o.getD OperationMode.normal.value = OperationMode.normal.value ↔
      o = none ∨ o = some OperationMode.normal.value := by
  cases o <;> simp

lemma ensureUnitsInNormalOperation_eq_ok {r : Relation} :
    ensureUnitsInNormalOperation unit r = .ok () ↔ InNormalOperation unit r := by
  unfold ensureUnitsInNormalOperation
  simp only [List.mem_map, List.any_map, InNormalOperation]
  split_ifs with hm ha
  · obtain ⟨u, hu, hum⟩ := hm
    refine iff_of_false (by simp) fun h => ?_
    rw [getD_eq_normal.2 (h u hu)] at hum
    exact absurd hum (by simp)
  · obtain ⟨u, hu, hun⟩ := List.any_eq_true.1 ha
    refine iff_of_false (by simp) fun h => ?_
    simp [getD_eq_normal.2 (h u hu)] at hun
  · refine iff_of_true rfl fun u hu => getD_eq_normal.1 ?_
    by_contra hun
    exact ha (List.any_eq_true.2 ⟨u, hu, by simpa using hun⟩)

lemma ensureUnitsInNormalOperation_error {r : Relation} {e : Exc}
    (h : ensureUnitsInNormalOperation unit r = .error e) : e.isModeConflict := by
  unfold ensureUnitsInNormalOperation at h
  dsimp only at h
  split_ifs at h <;> cases h <;> rfl

lemma operationMode_error {app : AppData} {e : Exc} (h : operationMode app = .error e) :
    ∃ message, e = .unknownOperationMode message := by
  unfold operationMode at h
  dsimp only at h
  split at h <;> cases h
  exact ⟨_, rfl⟩

lemma operationMode_eq_ok {app : AppData} {m : OperationMode} :
    operationMode app = .ok m ↔
      OperationMode.ofValue (app.operationMode.getD OperationMode.normal.value) = some m := by
  unfold operationMode
  dsimp only
  split <;> simp_all

@[simp] lemma operationMode_setOperationMode (m : OperationMode) (app : AppData) :
    operationMode (app.setOperationMode m) = .ok m := by
  simp [operationMode_eq_ok]

@[simp] lemma operationMode_setMaintenanceMessage (t : Option String) (app : AppData) :
    operationMode (app.setMaintenanceMessage t) = operationMode app := rfl

lemma recognisedMode_eq_ok {app : AppData} {m : Option OperationMode} :
    recognisedMode app = .ok m ↔ (operationMode app).toOption = m := by
  unfold recognisedMode
  cases h : operationMode app with
  | ok m' => simp [Except.toOption]
  | error e =>
    obtain ⟨message, rfl⟩ := operationMode_error h
    simp [Except.toOption]

lemma wp_writeRelation {r : Relation} {Q : Unit → PeerWorld D → Prop}
    {E : Exc → PeerWorld D → Prop} {s : PeerWorld D} :
    (writeRelation r).wp Q E s ↔ Q () { s with relation := some r } := Iff.rfl

lemma wp_callback {α : Type} {x : Prog D Exc α} {Q : α → PeerWorld D → Prop}
    {E : Exc → PeerWorld D → Prop} {s : PeerWorld D} :
    (callback x).wp Q E s ↔
      x.wp (fun a d => Q a { s with rest := d }) (fun e d => E e { s with rest := d }) s.rest :=
  Prog.wp_zoom

lemma operationMode_error_isModeConflict {app : AppData} {e : Exc}
    (h : operationMode app = .error e) : e.isModeConflict := by
  obtain ⟨message, rfl⟩ := operationMode_error h
  rfl

/-- A request for a database update is recorded in normal operation, or repeated while
one is pending; otherwise nothing is written. -/
lemma requestDatabaseUpdate_spec (s : PeerWorld D) :
    (requestDatabaseUpdate unit).wp
      (fun recorded s' => (recorded = false ∧ s.relation = none ∧ s' = s) ∨
        (recorded = true ∧ ∃ r, s.relation = some r ∧
          (operationMode r.app = .ok .normal ∨ operationMode r.app = .ok .databaseUpdate) ∧
          InNormalOperation unit r ∧
          s' = { s with relation := some (r.setApp (r.app.setOperationMode .databaseUpdate)) }))
      (fun e s' => s' = s ∧ e.isModeConflict) s := by
  rcases s with ⟨_ | r, d⟩
  · simp [requestDatabaseUpdate]
  · simp only [requestDatabaseUpdate, Prog.wp_bind, Prog.wp_get, Prog.wp_ofExcept, Prog.wp_ite,
      Prog.wp_throw, Prog.wp_pure, wp_writeRelation]
    refine ⟨fun m hm => ⟨fun _ => ⟨trivial, rfl⟩, fun hmt => ⟨fun _ => ⟨trivial, rfl⟩, fun hfr =>
      ⟨fun _ hu => ?_, fun e he => ⟨trivial, ensureUnitsInNormalOperation_error he⟩⟩⟩⟩,
      fun e he => ⟨trivial, operationMode_error_isModeConflict he⟩⟩
    refine .inr ⟨trivial, r, rfl, ?_, ensureUnitsInNormalOperation_eq_ok.1 hu, rfl⟩
    cases m with
    | normal => exact .inl hm
    | databaseUpdate => exact .inr hm
    | maintenance => exact absurd rfl hmt
    | forceReconciliation => exact absurd rfl hfr

/-- A request for forced reconciliation is recorded in normal operation only. -/
lemma requestForceReconciliation_spec (s : PeerWorld D) :
    (requestForceReconciliation unit).wp
      (fun recorded s' => (recorded = false ∧ s.relation = none ∧ s' = s) ∨
        (recorded = true ∧ ∃ r, s.relation = some r ∧ operationMode r.app = .ok .normal ∧
          InNormalOperation unit r ∧
          s' = { s with
            relation := some (r.setApp (r.app.setOperationMode .forceReconciliation)) }))
      (fun e s' => s' = s ∧ e.isModeConflict) s := by
  rcases s with ⟨_ | r, d⟩
  · simp [requestForceReconciliation]
  · simp only [requestForceReconciliation, Prog.wp_bind, Prog.wp_get, Prog.wp_ofExcept,
      Prog.wp_ite, Prog.wp_throw, Prog.wp_pure, wp_writeRelation]
    refine ⟨fun m hm => ⟨fun _ => ⟨trivial, rfl⟩, fun hn => ⟨fun _ hu => ?_, fun e he =>
      ⟨trivial, ensureUnitsInNormalOperation_error he⟩⟩⟩,
      fun e he => ⟨trivial, operationMode_error_isModeConflict he⟩⟩
    obtain rfl : m = .normal := not_not.1 hn
    exact .inr ⟨trivial, r, rfl, hm, ensureUnitsInNormalOperation_eq_ok.1 hu, rfl⟩

lemma toOption_eq_some {α : Type} {x : Except Exc α} {a : α} :
    x.toOption = some a ↔ x = .ok a := by
  cases x <;> simp [Except.toOption]

lemma recognisedMode_error {app : AppData} {e : Exc} : recognisedMode app ≠ .error e := by
  unfold recognisedMode
  cases h : operationMode app with
  | ok m' => simp
  | error e =>
    obtain ⟨message, rfl⟩ := operationMode_error h
    simp

/-- A maintenance request is accepted in normal operation and maintenance, and where the
mode is not recognised.  It is recorded after the database protection was applied; before
that nothing is written. -/
lemma requestMaintenanceMode_spec (enabled : Bool) (setDatabaseReadOnly : Bool → Prog D Exc Unit)
    (message : Option String) (s : PeerWorld D) :
    (requestMaintenanceMode unit enabled setDatabaseReadOnly message).wp
      (fun recorded s' => (recorded = false ∧ s.relation = none ∧ s' = s) ∨
        (recorded = true ∧ ∃ r m d, s.relation = some r ∧ (operationMode r.app).toOption = m ∧
          m ≠ some .databaseUpdate ∧ m ≠ some .forceReconciliation ∧
          (enabled = true → m = some .normal → InNormalOperation unit r) ∧
          setDatabaseReadOnly enabled s.rest = (.ok (), d) ∧
          s' = ⟨some (r.setApp (recordMaintenanceMode enabled message m r.app)), d⟩))
      (fun e s' => (s' = s ∧ e.isModeConflict ∧
          ∀ r, s.relation = some r → enabled = true ∨
            operationMode r.app = .ok .databaseUpdate ∨
            operationMode r.app = .ok .forceReconciliation) ∨
        ∃ r m d, s.relation = some r ∧ (operationMode r.app).toOption = m ∧
          m ≠ some .databaseUpdate ∧ m ≠ some .forceReconciliation ∧
          setDatabaseReadOnly enabled s.rest = (.error e, d) ∧ s' = { s with rest := d }) s := by
  rcases s with ⟨_ | r, d⟩
  · simp [requestMaintenanceMode]
  · simp only [requestMaintenanceMode, Prog.wp_bind, Prog.wp_get, Prog.wp_ofExcept,
      Prog.wp_ite, Prog.wp_throw, Prog.wp_pure, wp_writeRelation, wp_callback]
    refine ⟨fun m hm => ?_, fun e he => absurd he recognisedMode_error⟩
    have hm := recognisedMode_eq_ok.1 hm
    refine ⟨fun hdu => .inl ⟨trivial, rfl, fun r' hr' => .inr (.inl ?_)⟩, fun hdu =>
      ⟨fun hfr => .inl ⟨trivial, rfl, fun r' hr' => .inr (.inr ?_)⟩, fun hfr =>
        ⟨fun _ hu => ?_, fun e he => ?_⟩⟩⟩
    · cases hr'
      exact toOption_eq_some.1 (hm.trans hdu)
    · cases hr'
      exact toOption_eq_some.1 (hm.trans hfr)
    · refine Prog.wp_iff.2 ⟨fun _ d' hd => .inr ?_, fun e d' hd =>
        .inr ⟨r, m, d', rfl, hm, hdu, hfr, hd, rfl⟩⟩
      refine ⟨trivial, r, m, d', rfl, hm, hdu, hfr, fun hen hmn => ?_, hd, rfl⟩
      rw [if_pos ⟨hen, hmn⟩] at hu
      exact ensureUnitsInNormalOperation_eq_ok.1 hu
    · split_ifs at he with hen
      exact .inl ⟨trivial, ensureUnitsInNormalOperation_error he, fun _ _ => .inl hen.1⟩

lemma checkApplied_eq_ok {r : Relation} {mode : OperationMode} {u : String} :
    checkApplied r mode u = .ok () ↔ (r.data u).operationMode = some mode.value := by
  unfold checkApplied
  split_ifs with h <;> simp_all

lemma checkApplied_error {r : Relation} {mode : OperationMode} {u : String} {e : Exc}
    (h : checkApplied r mode u = .error e) : e.isWaiting := by
  unfold checkApplied at h
  split_ifs at h
  cases h
  rfl

lemma forM_checkApplied_eq_ok {r : Relation} {mode : OperationMode} :
    ∀ {us : List String}, forM us (checkApplied r mode) = .ok () ↔
      ∀ u ∈ us, (r.data u).operationMode = some mode.value
  | [] => by simp [pure, Except.pure]
  | u :: us => by
    rw [List.forM_cons, List.forall_mem_cons, ← forM_checkApplied_eq_ok, ← checkApplied_eq_ok]
    cases checkApplied r mode u <;> simp [bind, Except.bind]

lemma forM_checkApplied_error {r : Relation} {mode : OperationMode} {e : Exc} :
    ∀ us : List String, forM us (checkApplied r mode) = .error e → e.isWaiting
  | [], h => by cases h
  | u :: us, h => by
    rw [List.forM_cons] at h
    cases hu : checkApplied r mode u with
    | ok _ => exact forM_checkApplied_error us (by simpa [hu, bind, Except.bind] using h)
    | error e' =>
      obtain rfl : e' = e := by simpa [hu, bind, Except.bind] using h
      exact checkApplied_error hu

/-- The leader returns the application to normal operation only when every other unit has
acknowledged the mode it applied and, for a database update, the schema update returned. -/
lemma reconcileOperationMode_spec (isLeader : Bool) (mode : OperationMode)
    (updateDatabaseSchema : Prog D Exc Unit) (s : PeerWorld D) :
    (reconcileOperationMode isLeader mode updateDatabaseSchema).wp
      (fun _ s' => s' = s ∨
        (isLeader = true ∧ ∃ r d, s.relation = some r ∧
          (∀ u ∈ r.units, (r.data u).operationMode = some mode.value) ∧
          (mode = .databaseUpdate ∧ updateDatabaseSchema s.rest = (.ok (), d) ∨
            mode = .forceReconciliation ∧ d = s.rest) ∧
          s' = ⟨some (r.setApp (r.app.setOperationMode .normal)), d⟩))
      (fun e s' => (s' = s ∧ e.isWaiting) ∨
        (isLeader = true ∧ ∃ r d, s.relation = some r ∧
          (∀ u ∈ r.units, (r.data u).operationMode = some mode.value) ∧
          mode = .databaseUpdate ∧ updateDatabaseSchema s.rest = (.error e, d) ∧
          s' = { s with rest := d })) s := by
  cases isLeader with
  | false => simp [reconcileOperationMode]
  | true =>
    rcases s with ⟨_ | r, d⟩
    · cases mode <;> simp [reconcileOperationMode, relation, Exc.isWaiting]
    · cases mode with
      | normal => simp [reconcileOperationMode]
      | maintenance => simp [reconcileOperationMode]
      | databaseUpdate =>
        simp only [reconcileOperationMode, relation, Prog.wp_bind, Prog.wp_get, Prog.wp_pure,
          Prog.wp_ofExcept, Prog.wp_ite, wp_writeRelation, wp_callback]
        refine ⟨fun h => absurd h (by decide), fun _ => ⟨fun _ hu => ⟨fun _ => ?_, fun h =>
          absurd rfl h⟩, fun e he => .inl ⟨trivial, forM_checkApplied_error _ he⟩⟩⟩
        have hu := forM_checkApplied_eq_ok.1 hu
        exact Prog.wp_iff.2 ⟨fun _ d' hd => .inr ⟨trivial, r, d', rfl, hu, .inl ⟨trivial, hd⟩, rfl⟩,
          fun e d' hd => .inr ⟨trivial, r, d', rfl, hu, trivial, hd, rfl⟩⟩
      | forceReconciliation =>
        simp only [reconcileOperationMode, relation, Prog.wp_bind, Prog.wp_get, Prog.wp_pure,
          Prog.wp_ofExcept, Prog.wp_ite, wp_writeRelation, wp_callback]
        refine ⟨fun h => absurd h (by decide), fun _ => ⟨fun _ hu => ⟨fun h =>
          absurd h (by decide), fun _ => ?_⟩,
          fun e he => .inl ⟨trivial, forM_checkApplied_error _ he⟩⟩⟩
        exact .inr ⟨trivial, r, d, rfl, forM_checkApplied_eq_ok.1 hu, .inr ⟨trivial, rfl⟩, rfl⟩

end Peers

end MediawikiCharm
