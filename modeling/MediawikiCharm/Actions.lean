/-
The actions `update-database` and `set-maintenance-mode` (`charm.py`).

An action runs on one unit, over the peer relation and the database.  Its result is the
message it fails with, the lines it logs, or the maintenance mode it reports.
-/
import MediawikiCharm.Database
import MediawikiCharm.Peers

namespace MediawikiCharm

/-- How an action ends. -/
inductive ActionResult
  /-- `event.fail(message)` -/
  | fail (message : String)
  /-- `event.log(…)` for each line -/
  | log (lines : List String)
  /-- `event.set_results(…)` of a query of the maintenance mode -/
  | results (enabled : Bool) (message : Option String)
deriving DecidableEq

/-- What an action finds: the unit, whether it is the leader, the workload container and
the database. -/
structure ActionContext where
  unit : String
  isLeader : Bool := true
  canConnect : Bool := true
  /-- `get_relation_data()` of the database, with the name of the database. -/
  relationData : Except Exc String
  /-- The exception of `_is_database_initialized`, if any. -/
  initializedFailure : Option Exc := none
  /-- The calls of `set_read_only`. -/
  calls : Database.Calls := {}

namespace Actions

open Peers Database

/-- `ensure_ready` -/
def ensureReady (c : ActionContext) : Prog Server Exc Unit := do
  if !c.canConnect then
    throw (.waiting "Waiting for pebble")
  else
    let ready ← Prog.ofExcept (isRelationReady c.relationData)
    if !ready then
      throw (.blocked "Database relation is not ready")
    else
      let initialized ← isDatabaseInitialized c.initializedFailure
      if !initialized then
        throw (.waiting "Waiting for MediaWiki to be installed")

/-- `_on_update_database` -/
def onUpdateDatabase (c : ActionContext) : Prog (PeerWorld Server) Exc ActionResult := do
  if !c.isLeader then
    pure (.fail "Only the leader unit can request a database update")
  else
    tryCatch
      (do
        let recorded ← requestDatabaseUpdate c.unit
        pure (if recorded then .log ["Database update requested"]
          else .fail "Peer relation not ready yet"))
      fun e => if e.isModeConflict then pure (.fail e.message) else throw e

/-- `_report_maintenance_mode` -/
def reportMaintenanceMode : Prog (PeerWorld Server) Exc ActionResult :=
  tryCatch
    (do
      let mode ← maintenanceMode
      pure (match mode with
        | none => .fail "Peer relation not ready yet"
        | some (enabled, message) => .results enabled message))
    fun e => if e.isModeConflict then pure (.fail e.message) else throw e

/-- The part of `_on_set_maintenance_mode` before the request: the message to fail with. -/
def beforeMaintenanceRequest (c : ActionContext) (enabled : Bool) :
    Prog (PeerWorld Server) Exc (Option String) :=
  if enabled then
    callback (tryCatch (do ensureReady c; pure none)
      fun e => if e.isStatus then pure (some e.message) else throw e)
  else do
    let ready ← Prog.ofExcept (isRelationReady c.relationData)
    pure (if ready then none else some "Database relation is not ready")

/-- The message of an action whose `set_read_only` has failed. -/
def readOnlyFailure (e : Exc) : String :=
  "Failed to set database read-only mode: " ++ e.message ++ ". " ++
    "Maintenance request unchanged; database state may have changed. " ++
    "Retry the action to verify the requested state."

/-- `str(enabled)` -/
def pyBool (b : Bool) : String := if b then "True" else "False"

/-- `_on_set_maintenance_mode` -/
def onSetMaintenanceMode (c : ActionContext) (enabled : Option Bool) (message : Option String) :
    Prog (PeerWorld Server) Exc ActionResult := do
  if !c.isLeader then
    pure (.fail "Only the leader unit can set maintenance mode")
  else
    match enabled with
    | none => reportMaintenanceMode
    | some enabled =>
      let failure ← beforeMaintenanceRequest c enabled
      match failure with
      | some m => pure (.fail m)
      | none =>
        tryCatch
          (do
            let recorded ← requestMaintenanceMode c.unit enabled
              (setReadOnly c.relationData c.calls) message
            pure (if recorded then
                .log ["Database read-only mode verified: " ++ pyBool enabled,
                  "Maintenance mode request recorded"]
              else .fail "Peer relation not ready yet"))
          fun e =>
            if e.isModeConflict then pure (.fail e.message)
            else if e.isStatus then pure (.fail (readOnlyFailure e))
            else throw e

/-! ### What the actions do -/

variable {c : ActionContext}

lemma isDatabaseInitialized_spec (failure : Option Exc) (s : Server) :
    (isDatabaseInitialized failure).wp (fun b s' => s' = s ∧ b = s.initialized)
      (fun _ s' => s' = s) s := by
  cases failure with
  | none => exact ⟨rfl, rfl⟩
  | some e => exact rfl

/-- The workload is ready only with an initialized database. -/
lemma ensureReady_spec (c : ActionContext) (s : Server) :
    (ensureReady c).wp (fun _ s' => s' = s ∧ s.initialized = true) (fun _ s' => s' = s) s := by
  simp only [ensureReady, Prog.wp_ite, Prog.wp_throw, Prog.wp_bind, Prog.wp_ofExcept]
  refine ⟨fun _ => trivial, fun _ => ⟨fun ready _ => ⟨fun _ => trivial, fun _ => ?_⟩,
    fun _ _ => trivial⟩⟩
  refine Prog.wp_mono (isDatabaseInitialized_spec c.initializedFailure s) ?_ fun _ _ h => h
  rintro b s' ⟨rfl, rfl⟩
  cases hs : s'.initialized <;> simp

lemma beforeMaintenanceRequest_spec (enabled : Bool) (s : PeerWorld Server) :
    (beforeMaintenanceRequest c enabled).wp
      (fun failure s' => s' = s ∧ (failure = none → enabled = true → s.rest.initialized = true))
      (fun _ s' => s' = s) s := by
  cases enabled with
  | false => exact Prog.wp_bind.2 (Prog.wp_ofExcept.2 ⟨fun _ _ => ⟨rfl, by simp⟩, fun _ _ => rfl⟩)
  | true =>
    simp only [beforeMaintenanceRequest, if_true, wp_callback, Prog.wp_tryCatch, Prog.wp_bind,
      Prog.wp_pure]
    refine Prog.wp_mono (ensureReady_spec c s.rest) (fun _ s' h => ?_) fun e s' h => ?_
    · obtain ⟨rfl, hi⟩ := h
      exact ⟨rfl, fun _ _ => hi⟩
    · obtain rfl := h
      split_ifs
      · exact ⟨rfl, by simp⟩
      · exact rfl

/-- A maintenance action that was not recorded: the peer data are as before, and the
option of the database may have been set where the mode is not a database update. -/
def Attempted (enabled : Option Bool) (s s' : PeerWorld Server) : Prop :=
  s'.relation = s.relation ∧ (s' = s ∨ ∃ b r, enabled = some b ∧ s.relation = some r ∧
    operationMode r.app ≠ .ok .databaseUpdate ∧ (b = true → s.rest.initialized = true) ∧
    Touched b s.rest s'.rest)

/-- A maintenance action that was recorded. -/
def Recorded (enabled : Option Bool) (message : Option String) (s s' : PeerWorld Server) : Prop :=
  ∃ b r m, enabled = some b ∧ s.relation = some r ∧ (operationMode r.app).toOption = m ∧
    m ≠ some .databaseUpdate ∧ m ≠ some .forceReconciliation ∧
    (b = true → s.rest.initialized = true) ∧
    s' = ⟨some (r.setApp (recordMaintenanceMode b message m r.app)),
      { s.rest with readOnly := b }⟩

lemma attempted_refl {enabled : Option Bool} {s : PeerWorld Server} : Attempted enabled s s :=
  ⟨rfl, .inl rfl⟩

lemma reportMaintenanceMode_spec (s : PeerWorld Server) :
    reportMaintenanceMode.wp (fun res s' => (∀ l, res ≠ .log l) ∧ s' = s) (fun _ s' => s' = s) s := by
  rcases s with ⟨_ | r, d⟩
  · exact ⟨by simp, rfl⟩
  · simp only [reportMaintenanceMode, maintenanceMode, Prog.wp_tryCatch, Prog.wp_bind,
      Prog.wp_get, Prog.wp_ofExcept, Prog.wp_pure, Prog.wp_ite, Prog.wp_throw]
    exact ⟨fun _ _ => ⟨by simp, trivial⟩, fun _ _ => ⟨fun _ => ⟨by simp, trivial⟩,
      fun _ => trivial⟩⟩

/-- A maintenance action logs exactly when it was recorded; the database is then in the
requested state. -/
lemma onSetMaintenanceMode_spec (c : ActionContext) (enabled : Option Bool)
    (message : Option String) (s : PeerWorld Server) :
    (onSetMaintenanceMode c enabled message).wp
      (fun res s' => ((∀ l, res ≠ .log l) ∧ Attempted enabled s s') ∨
        ((∃ l, res = .log l) ∧ Recorded enabled message s s'))
      (fun _ s' => Attempted enabled s s') s := by
  unfold onSetMaintenanceMode
  refine Prog.wp_ite.2 ⟨fun _ => .inl ⟨by simp, attempted_refl⟩, fun _ => ?_⟩
  cases enabled with
  | none =>
    exact Prog.wp_mono (reportMaintenanceMode_spec s)
      (fun _ _ h => .inl ⟨h.1, h.2 ▸ attempted_refl⟩) fun _ _ h => h ▸ attempted_refl
  | some b =>
    refine Prog.wp_bind.2 (Prog.wp_mono (beforeMaintenanceRequest_spec b s) ?_
      fun _ _ h => h ▸ attempted_refl)
    rintro failure s' ⟨rfl, hi⟩
    cases failure with
    | some m => exact .inl ⟨by simp, attempted_refl⟩
    | none =>
      have hi := hi rfl
      refine Prog.wp_tryCatch.2 (Prog.wp_bind.2 (Prog.wp_mono
        (requestMaintenanceMode_spec b (setReadOnly c.relationData c.calls) message s') ?_ ?_))
      · rintro recorded s'' (⟨rfl, -, rfl⟩ | ⟨rfl, r, m, d, hr, hm, hdu, hfr, -, hd, rfl⟩)
        · exact .inl ⟨by simp, attempted_refl⟩
        · obtain rfl := Prog.wp_of_ok (setReadOnly_spec c.relationData c.calls b s'.rest) hd
          exact .inr ⟨⟨_, rfl⟩, b, r, m, rfl, hr, hm, hdu, hfr, hi, rfl⟩
      · intro e s'' h
        have ha : Attempted (some b) s' s'' := by
          rcases h with ⟨rfl, -⟩ | ⟨r, m, d, hr, hm, hdu, -, hd, rfl⟩
          · exact attempted_refl
          · refine ⟨rfl, .inr ⟨b, r, rfl, hr, fun hop => hdu ?_, hi,
              (Prog.wp_of_error (setReadOnly_spec c.relationData c.calls b s'.rest) hd).1⟩⟩
            rw [← hm, hop]
            rfl
        refine Prog.wp_ite.2 ⟨fun _ => .inl ⟨by simp, ha⟩, fun _ => Prog.wp_ite.2
          ⟨fun _ => .inl ⟨by simp, ha⟩, fun _ => ha⟩⟩

/-- An update action is recorded in normal operation, or while an update is pending. -/
lemma onUpdateDatabase_spec (c : ActionContext) (s : PeerWorld Server) :
    (onUpdateDatabase c).wp
      (fun _ s' => s' = s ∨ ∃ r, c.isLeader = true ∧ s.relation = some r ∧
        (operationMode r.app = .ok .normal ∨ operationMode r.app = .ok .databaseUpdate) ∧
        InNormalOperation c.unit r ∧
        s' = { s with relation := some (r.setApp (r.app.setOperationMode .databaseUpdate)) })
      (fun _ s' => s' = s) s := by
  unfold onUpdateDatabase
  refine Prog.wp_ite.2 ⟨fun _ => .inl rfl, fun hl => Prog.wp_tryCatch.2 (Prog.wp_bind.2
    (Prog.wp_mono (requestDatabaseUpdate_spec s) ?_ ?_))⟩
  · rintro recorded s' (⟨-, -, rfl⟩ | ⟨-, r, hr, hm, hn, rfl⟩)
    · exact .inl rfl
    · exact .inr ⟨r, by simpa using hl, hr, hm, hn, rfl⟩
  · rintro e s' ⟨rfl, -⟩
    exact Prog.wp_ite.2 ⟨fun _ => .inl rfl, fun _ => rfl⟩

end Actions

end MediawikiCharm
