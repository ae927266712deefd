/-
Write protection of the database and schema updates.

The actions `set-maintenance-mode` and `update-database` and the reconciliation of the
leader change two stores, the requested mode and the READ ONLY option of the database.
`set-maintenance-mode` may fail after the option was set and before the mode is recorded.
It then leaves normal operation with a read-only database, and `update-database` looks at
the mode only.  In every run without such an `update-database`, the two stores agree as
far as schema updates need them to.
-/
import MediawikiCharm.Actions
import MediawikiCharm.Lib.Machine

namespace MediawikiCharm
namespace WriteProtection

open Peers Database Actions

/-- How the steps of an installation by the leader end. -/
structure InstallSteps where
  /-- The schema updates before a retry. -/
  retries : List (Except Exc Unit) := []
  /-- The installation script, in the end. -/
  installed : Except Exc Unit := .ok ()
  update : Except Exc Unit := .ok ()
  setInitialized : Except Exc Unit := .ok ()

/-- How the steps of a reconciliation by the leader end. -/
structure ReconcileSteps where
  /-- What precedes the check of the database. -/
  before : Except Exc Unit := .ok ()
  initializedFailure : Option Exc := none
  install : InstallSteps := {}
  /-- The rest of the configuration and the services. -/
  after : Except Exc Unit := .ok ()
  update : Except Exc Unit := .ok ()

/-- A schema update before another installation attempt; its failure is ignored. -/
def retryUpdate (outcome : Except Exc Unit) : Prog Server Exc Unit :=
  tryCatch (updateDatabaseSchema outcome) fun
    | .installError _ => pure ()
    | e => throw e

/-- `_install` of the leader. -/
def install (steps : InstallSteps) : Prog Server Exc Unit := do
  steps.retries.forM retryUpdate
  Prog.ofExcept steps.installed
  updateDatabaseSchema steps.update
  Prog.ofExcept steps.setInitialized
  Prog.modify fun s => { s with initialized := true }

/-- The installation where the database is not initialized. -/
def ensureInstalled (steps : ReconcileSteps) : Prog Server Exc Unit := do
  let initialized ← isDatabaseInitialized steps.initializedFailure
  if !initialized then install steps.install

/-- `reconciliation` of the leader, as far as the mode and the database go. -/
def reconciliation (unit : String) (steps : ReconcileSteps) : Prog (PeerWorld Server) Exc Unit := do
  let r ← relation
  let mode ← Prog.ofExcept (operationMode r.app)
  Prog.ofExcept steps.before
  callback (ensureInstalled steps)
  Prog.ofExcept steps.after
  acknowledgeOperationMode unit mode
  reconcileOperationMode true mode (updateDatabaseSchema steps.update)

/-- What happens to the application. -/
inductive Event
  | setMaintenanceMode (c : ActionContext) (enabled : Option Bool) (message : Option String)
  | updateDatabase (c : ActionContext)
  /-- `discard` says whether the databag writes are lost should the hook fail. -/
  | reconcile (unit : String) (steps : ReconcileSteps) (discard : Bool)
  /-- Units join, leave and acknowledge. -/
  | peers (units : List String) (data : String → UnitData)

/-- The state after an event. -/
def step (s : PeerWorld Server) : Event → PeerWorld Server
  | .setMaintenanceMode c enabled message => (onSetMaintenanceMode c enabled message s).2
  | .updateDatabase c => (onUpdateDatabase c s).2
  | .reconcile unit steps discard =>
    match reconciliation unit steps s with
    | (.ok _, s') => s'
    | (.error _, s') => if discard then { s' with relation := s.relation } else s'
  | .peers units data =>
    { s with relation := s.relation.map fun r => { r with units := units, data := data } }

/-- The runs that start in normal mode with a writable database. -/
def machine : Machine (PeerWorld Server) Event where
  init s := (∃ r, s.relation = some r ∧ operationMode r.app = .ok .normal) ∧
    s.rest.readOnly = false ∧ s.rest.updatedReadOnly = false
  step s e s' := s' = step s e

/-- An `update-database` of the unit would be recorded in normal operation. -/
def OpensUpdate (s : PeerWorld Server) (unit : String) : Prop :=
  ∃ r, s.relation = some r ∧ operationMode r.app = .ok .normal ∧ InNormalOperation unit r

/-- The event is no `update-database` in normal operation with a read-only database. -/
def Sound (s : PeerWorld Server) (e : Event) : Prop :=
  ∀ c, e = .updateDatabase c → c.isLeader = true → s.rest.readOnly = true →
    ¬ OpensUpdate s c.unit

/-- What write protection promises of a state. -/
structure Protected (s : PeerWorld Server) : Prop where
  /-- No database update is requested of a read-only database. -/
  entered : s.rest.readOnly = true → ∀ r, s.relation = some r →
    operationMode r.app ≠ .ok .databaseUpdate
  /-- No schema update was started on a read-only database. -/
  started : s.rest.updatedReadOnly = false
  /-- A maintenance action that fails leaves the peer data as they are. -/
  failed : ∀ c enabled message, (∀ l, (onSetMaintenanceMode c enabled message s).1 ≠ .ok (.log l)) →
    (onSetMaintenanceMode c enabled message s).2.relation = s.relation
  /-- A maintenance action that succeeds leaves the database in the requested state. -/
  succeeded : ∀ c b message l, (onSetMaintenanceMode c (some b) message s).1 = .ok (.log l) →
    (onSetMaintenanceMode c (some b) message s).2.rest.readOnly = b
  /-- Whatever its database calls do, a request to disable maintenance of a read-only
  database is not rejected with a mode conflict, and it succeeds when they do. -/
  available : s.rest.readOnly = true → ∀ unit message database,
    (∀ calls e, (requestMaintenanceMode unit false (setReadOnly (.ok database) calls) message
      s).1 = .error e → e.isModeConflict = false) ∧
    ∃ l, (onSetMaintenanceMode { unit := unit, relationData := .ok database } (some false) message
      s).1 = .ok (.log l)

/-! ### The invariant -/

/-- The server was never updated while read-only, and a read-only database is initialized,
so that no installation touches it. -/
structure ServerInv (d : Server) : Prop where
  initialized : d.readOnly = true → d.initialized = true
  started : d.updatedReadOnly = false

/-- The invariant of the two stores. -/
structure Inv (s : PeerWorld Server) : Prop where
  mode : ∃ r m, s.relation = some r ∧ operationMode r.app = .ok m ∧ m ≠ .forceReconciliation ∧
    (s.rest.readOnly = true → m ≠ .databaseUpdate)
  server : ServerInv s.rest

variable {s : PeerWorld Server} {d : Server}

lemma serverInv_touched {b : Bool} {d' : Server} (h : ServerInv d)
    (hb : b = true → d.initialized = true) (ht : Touched b d d') : ServerInv d' := by
  rcases ht with rfl | rfl
  · exact h
  · exact ⟨hb, h.started⟩

/-- Writing a mode, and perhaps the option of the database. -/
lemma inv_of_mode {s' : PeerWorld Server} {r : Relation} {m : OperationMode}
    (hr : s'.relation = some r) (hm : operationMode r.app = .ok m)
    (hfr : m ≠ .forceReconciliation) (hro : s'.rest.readOnly = true → m ≠ .databaseUpdate)
    (hd : ServerInv s'.rest) : Inv s' :=
  ⟨⟨r, m, hr, hm, hfr, hro⟩, hd⟩

lemma inv_attempted {enabled : Option Bool} {s' : PeerWorld Server} (h : Inv s)
    (ha : Attempted enabled s s') : Inv s' := by
  obtain ⟨hrel, rfl | ⟨b, r, -, hr, hop, hb, ht⟩⟩ := ha
  · exact h
  obtain ⟨r', m, hr', hm, hfr, -⟩ := h.mode
  obtain rfl : r = r' := Option.some.inj (hr.symm.trans hr')
  refine inv_of_mode (hrel.trans hr) hm hfr (fun _ hd => hop (hm.trans (congrArg _ hd))) ?_
  exact serverInv_touched h.server hb ht

lemma inv_recorded {enabled : Option Bool} {message : Option String} {s' : PeerWorld Server}
    (h : Inv s) (ha : Recorded enabled message s s') : Inv s' := by
  obtain ⟨b, r, m, -, hr, hm, hdu, -, hb, rfl⟩ := ha
  obtain ⟨r', m', hr', hm', hfr, -⟩ := h.mode
  obtain rfl : r = r' := Option.some.inj (hr.symm.trans hr')
  have hd : ServerInv { s.rest with readOnly := b } := ⟨hb, h.server.started⟩
  unfold recordMaintenanceMode
  split_ifs
  · exact inv_of_mode rfl (m := .maintenance) (by simp) (by simp) (by simp) hd
  · exact inv_of_mode rfl (m := .normal) (by simp) (by simp) (by simp) hd
  · refine inv_of_mode rfl hm' hfr (fun _ hop => hdu ?_) hd
    rw [← hm, hm', hop]
    rfl

lemma inv_setMaintenanceMode (h : Inv s) (c : ActionContext) (enabled : Option Bool)
    (message : Option String) : Inv (onSetMaintenanceMode c enabled message s).2 := by
  refine Prog.wp_state (onSetMaintenanceMode_spec c enabled message s) ?_
    fun _ _ ha => inv_attempted h ha
  rintro res s' (⟨-, ha⟩ | ⟨-, ha⟩)
  · exact inv_attempted h ha
  · exact inv_recorded h ha

lemma inv_updateDatabase {c : ActionContext} (h : Inv s) (hs : Sound s (.updateDatabase c)) :
    Inv (onUpdateDatabase c s).2 := by
  refine Prog.wp_state (onUpdateDatabase_spec c s) ?_ fun _ _ hs' => hs' ▸ h
  rintro res s' (rfl | ⟨r, hl, hr, hm, hn, rfl⟩)
  · exact h
  refine inv_of_mode rfl (m := .databaseUpdate) (by simp) (by simp) (fun hro => ?_) h.server
  exfalso
  rcases hm with hm | hm
  · exact hs c rfl hl hro ⟨r, hr, hm, hn⟩
  · obtain ⟨r', m', hr', hm', -, hdu⟩ := h.mode
    obtain rfl : r = r' := Option.some.inj (hr.symm.trans hr')
    exact hdu hro (Except.ok.inj (hm'.symm.trans hm))

/-! ### Reconciliations -/

/-- Some part of a reconciliation ran: the option is as before. -/
def Kept (d d' : Server) : Prop := ServerInv d' ∧ d'.readOnly = d.readOnly

lemma kept_refl (h : ServerInv d) : Kept d d := ⟨h, rfl⟩

/-- A schema update of a writable database. -/
lemma updateDatabaseSchema_spec {d' : Server} (hd : Kept d d') (hro : d.readOnly = false)
    (outcome : Except Exc Unit) :
    (updateDatabaseSchema outcome).wp (fun _ => Kept d) (fun _ => Kept d) d' := by
  have hro' : d'.readOnly = false := hd.2.trans hro
  have hk : Kept d { d' with updatedReadOnly := d'.updatedReadOnly || d'.readOnly } := by
    refine ⟨⟨hd.1.initialized, ?_⟩, hd.2⟩
    show (d'.updatedReadOnly || d'.readOnly) = false
    rw [hd.1.started, hro']
    rfl
  exact Prog.wp_bind.2 (Prog.wp_ofExcept.2 ⟨fun _ _ => hk, fun _ _ => hk⟩)

lemma retries_spec (hro : d.readOnly = false) :
    ∀ (outcomes : List (Except Exc Unit)) {d' : Server}, Kept d d' →
      (outcomes.forM retryUpdate).wp (fun _ => Kept d) (fun _ => Kept d) d'
  | [], _, hd => hd
  | o :: os, _, hd => by
    refine Prog.wp_bind.2 (Prog.wp_tryCatch.2 (Prog.wp_mono (updateDatabaseSchema_spec hd hro o)
      (fun _ _ h => retries_spec hro os h) fun e d'' h => ?_))
    cases e with
    | installError => exact retries_spec hro os h
    | _ => exact h

lemma install_spec {d' : Server} (hd : Kept d d') (hro : d.readOnly = false)
    (steps : InstallSteps) :
    (install steps).wp (fun _ => Kept d) (fun _ => Kept d) d' := by
  refine Prog.wp_bind.2 (Prog.wp_mono (retries_spec hro steps.retries hd) ?_ fun _ _ h => h)
  intro _ d₁ h₁
  refine Prog.wp_bind.2 (Prog.wp_ofExcept.2 ⟨fun _ _ => ?_, fun _ _ => h₁⟩)
  refine Prog.wp_bind.2 (Prog.wp_mono (updateDatabaseSchema_spec h₁ hro steps.update) ?_
    fun _ _ h => h)
  intro _ d₂ h₂
  refine Prog.wp_bind.2 (Prog.wp_ofExcept.2 ⟨fun _ _ => ?_, fun _ _ => h₂⟩)
  exact ⟨⟨fun _ => rfl, h₂.1.started⟩, h₂.2⟩

lemma ensureInstalled_spec (hd : ServerInv d) (steps : ReconcileSteps) :
    (ensureInstalled steps).wp (fun _ => Kept d) (fun _ => Kept d) d := by
  refine Prog.wp_bind.2 (Prog.wp_mono (isDatabaseInitialized_spec steps.initializedFailure d) ?_ ?_)
  · rintro b d' ⟨rfl, rfl⟩
    refine Prog.wp_ite.2 ⟨fun hi => ?_, fun _ => kept_refl hd⟩
    -- an uninitialized database is writable
    have hro : d'.readOnly = false := by
      by_contra hro
      simp [hd.initialized (by simpa using hro)] at hi
    exact install_spec (kept_refl hd) hro steps.install
  · rintro e d' rfl
    exact kept_refl hd

/-- What a reconciliation leaves, on every exit. -/
def Reconciled (s s' : PeerWorld Server) : Prop := Inv s' ∧ s'.rest.readOnly = s.rest.readOnly

lemma reconciliation_spec (h : Inv s) (unit : String) (steps : ReconcileSteps) :
    (reconciliation unit steps).wp (fun _ => Reconciled s) (fun _ => Reconciled s) s := by
  obtain ⟨r, m, hr, hm, hfr, hdu⟩ := h.mode
  obtain ⟨rel, d⟩ := s
  obtain rfl : rel = some r := hr
  have hinv : ∀ {d' : Server} {r' : Relation}, Kept d d' → r'.app = r.app →
      Reconciled ⟨some r, d⟩ ⟨some r', d'⟩ := fun hk happ =>
    ⟨inv_of_mode rfl (happ ▸ hm) hfr (fun hro => hdu (hk.2.symm.trans hro)) hk.1, hk.2⟩
  have hk := kept_refl h.server
  simp only [reconciliation, relation, Prog.wp_bind, Prog.wp_get, Prog.wp_pure,
    Prog.wp_ofExcept, wp_callback]
  refine ⟨fun m' hm' => ⟨fun _ _ => ?_, fun _ _ => hinv hk rfl⟩, fun _ _ => hinv hk rfl⟩
  obtain rfl : m = m' := Except.ok.inj (hm.symm.trans hm')
  refine Prog.wp_mono (ensureInstalled_spec h.server steps) (fun _ d₁ h₁ => ⟨fun _ _ => ?_,
    fun _ _ => hinv h₁ rfl⟩) fun _ d₁ h₁ => hinv h₁ rfl
  refine Prog.wp_mono (x := acknowledgeOperationMode unit m)
    (Q := fun _ s' => ∃ r', r'.app = r.app ∧ s' = ⟨some r', d₁⟩) (E := fun _ _ => False)
    ⟨_, rfl, rfl⟩ ?_ fun _ _ hf => hf.elim
  rintro _ s' ⟨r', happ, rfl⟩
  refine Prog.wp_mono (reconcileOperationMode_spec true m (updateDatabaseSchema steps.update) _)
    ?_ ?_
  · rintro _ s' (rfl | ⟨-, r'', d₂, hr'', -, hd₂, rfl⟩)
    · exact hinv h₁ happ
    have hk₂ : Kept d d₂ := by
      rcases hd₂ with ⟨rfl, hrun⟩ | ⟨rfl, -⟩
      · have hro : d.readOnly = false := by
          by_contra hro
          exact hdu (by simpa using hro) rfl
        have hk₂ := Prog.wp_of_ok (updateDatabaseSchema_spec h₁ hro steps.update) hrun
        exact hk₂
      · exact absurd rfl hfr
    exact ⟨inv_of_mode rfl (m := .normal) (by simp) (by simp) (by simp) hk₂.1, hk₂.2⟩
  · rintro e s' (⟨rfl, -⟩ | ⟨-, r'', d₂, hr'', -, rfl, hrun, rfl⟩)
    · exact hinv h₁ happ
    have hro : d.readOnly = false := by
      by_contra hro
      exact hdu (by simpa using hro) rfl
    have hk₂ := Prog.wp_of_error (updateDatabaseSchema_spec h₁ hro steps.update) hrun
    exact hinv hk₂ happ

lemma inv_reconcile (h : Inv s) (unit : String) (steps : ReconcileSteps) (discard : Bool) :
    Inv (step s (.reconcile unit steps discard)) := by
  obtain ⟨r, m, hr, hm, hfr, hdu⟩ := h.mode
  have hspec := Prog.wp_iff.1 (reconciliation_spec h unit steps)
  simp only [step]
  split
  · rename_i hrun
    exact (hspec.1 _ _ hrun).1
  · rename_i e s' hrun
    have h' := hspec.2 _ _ hrun
    split_ifs
    · exact inv_of_mode hr hm hfr (fun hro => hdu (h'.2.symm.trans hro)) h'.1.server
    · exact h'.1

lemma inv_step {e : Event} (h : Inv s) (hs : Sound s e) : Inv (step s e) := by
  cases e with
  | setMaintenanceMode c enabled message => exact inv_setMaintenanceMode h c enabled message
  | updateDatabase c => exact inv_updateDatabase h hs
  | reconcile unit steps discard => exact inv_reconcile h unit steps discard
  | peers units data =>
    obtain ⟨r, m, hr, hm, hfr, hdu⟩ := h.mode
    exact ⟨⟨{ r with units := units, data := data }, m, by simp [step, hr], hm, hfr, hdu⟩, h.server⟩

lemma inv_invariant : (machine.restrict Sound).Invariant Inv where
  init := by
    rintro s ⟨⟨r, hr, hm⟩, hro, hst⟩
    exact inv_of_mode hr hm (by simp) (by simp) ⟨fun h => absurd (hro.symm.trans h) (by simp), hst⟩
  step s e s' h hst := by
    obtain ⟨hs, rfl⟩ := hst
    exact inv_step h hs

/-! ### Protection -/

lemma failed_unchanged (s : PeerWorld Server) (c : ActionContext) (enabled : Option Bool)
    (message : Option String)
    (h : ∀ l, (onSetMaintenanceMode c enabled message s).1 ≠ .ok (.log l)) :
    (onSetMaintenanceMode c enabled message s).2.relation = s.relation := by
  have hspec := Prog.wp_iff.1 (onSetMaintenanceMode_spec c enabled message s)
  rcases hrun : onSetMaintenanceMode c enabled message s with ⟨e | res, s'⟩
  · exact (hspec.2 e s' hrun).1
  · rcases hspec.1 res s' hrun with ⟨-, ha⟩ | ⟨⟨l, rfl⟩, -⟩
    · exact ha.1
    · exact absurd (congrArg Prod.fst hrun) (h l)

lemma succeeded_requested (s : PeerWorld Server) (c : ActionContext) (b : Bool)
    (message : Option String) (l : List String)
    (h : (onSetMaintenanceMode c (some b) message s).1 = .ok (.log l)) :
    (onSetMaintenanceMode c (some b) message s).2.rest.readOnly = b := by
  have hspec := Prog.wp_iff.1 (onSetMaintenanceMode_spec c (some b) message s)
  rcases hrun : onSetMaintenanceMode c (some b) message s with ⟨e | res, s'⟩
  · rw [hrun] at h
    cases h
  · rw [hrun] at h
    obtain rfl : res = .log l := Except.ok.inj h
    rcases hspec.1 _ s' hrun with ⟨hne, -⟩ | ⟨-, b', r, m, hb, -, -, -, -, -, rfl⟩
    · exact absurd rfl (hne l)
    · exact (Option.some.inj hb).symm

/-- Disabling maintenance is not rejected where no coordinated operation is pending. -/
lemma disable_available {r : Relation} {m : OperationMode} (hr : s.relation = some r)
    (hm : operationMode r.app = .ok m) (hfr : m ≠ .forceReconciliation)
    (hdu : m ≠ .databaseUpdate) (unit : String) (message : Option String) (database : String) :
    (∀ calls e, (requestMaintenanceMode unit false (setReadOnly (.ok database) calls) message
      s).1 = .error e → e.isModeConflict = false) ∧
    ∃ l, (onSetMaintenanceMode { unit := unit, relationData := .ok database } (some false) message
      s).1 = .ok (.log l) := by
  obtain ⟨rel, d⟩ := s
  obtain rfl : rel = some r := hr
  refine ⟨fun calls e he => ?_, ?_⟩
  · have hspec := (Prog.wp_iff.1 (@requestMaintenanceMode_spec _ unit false
      (setReadOnly (.ok database) calls) message ⟨some r, d⟩)).2 e _ (Prod.ext he rfl)
    rcases hspec with ⟨-, -, hop⟩ | ⟨-, -, d', -, -, -, -, hd, -⟩
    · rcases hop r rfl with h | h | h
      · cases h
      · exact absurd (Except.ok.inj (hm.symm.trans h)) hdu
      · exact absurd (Except.ok.inj (hm.symm.trans h)) hfr
    · have hset := (Prog.wp_iff.1 (setReadOnly_spec (.ok database) calls false
        d)).2 e d' hd
      rcases hset.2 with h | ⟨t, rfl⟩
      · cases h
      · rfl
  · have hrec : recognisedMode r.app = .ok (some m) := by
      simp [recognisedMode_eq_ok, hm, Except.toOption]
    simp [onSetMaintenanceMode, beforeMaintenanceRequest, isRelationReady, requestMaintenanceMode,
      hrec, hdu, hfr, callback, writeRelation, Prog.bind_run, Prog.tryCatch_run, Prog.zoom,
      setReadOnly_run]

/-- In every run without an `update-database` in normal operation on a read-only database,
write protection holds in every state. -/
theorem protected_of_sound_run {s : PeerWorld Server}
    (h : (machine.restrict Sound).Reachable s) : Protected s := by
  have hinv := inv_invariant.reachable h
  obtain ⟨r, m, hr, hm, hfr, hdu⟩ := hinv.mode
  refine ⟨fun hro r' hr' hop => ?_, hinv.server.started, failed_unchanged s,
    succeeded_requested s, fun hro => disable_available hr hm hfr (hdu hro)⟩
  obtain rfl : r = r' := Option.some.inj (hr.symm.trans hr')
  exact hdu hro (Except.ok.inj (hm.symm.trans hop))

/-- An installed wiki with one unit. -/
def singleUnit : PeerWorld Server :=
  ⟨some { units := [], app := {}, data := fun _ => {} }, { initialized := true }⟩

lemma singleUnit_init : machine.init singleUnit := ⟨⟨_, rfl, rfl⟩, rfl, rfl⟩

/-- The action context of the single unit with the given database calls. -/
def context (calls : Calls) : ActionContext :=
  { unit := "mediawiki/0", relationData := .ok "mediawiki", calls := calls }

theorem protected_of_sound_run_enabled :
    Protected (step singleUnit (.setMaintenanceMode (context {}) (some true) none)) :=
  protected_of_sound_run (.step (l := .setMaintenanceMode (context {}) (some true) none)
    (.init singleUnit_init) ⟨fun _ h => (by cases h), rfl⟩)

/-- Enabling maintenance fails in the verification, and an update is requested. -/
def lostVerification : PeerWorld Server :=
  step (step singleUnit (.setMaintenanceMode
    (context { select := some "Lost connection to MySQL server" }) (some true) none))
    (.updateDatabase (context {}))

/-- Write protection fails in a run where the verification of the option was lost. -/
theorem not_protected_lostVerification :
    machine.Reachable lostVerification ∧ ¬ Protected lostVerification := by
  refine ⟨.step (l := .updateDatabase (context {})) (.step (l := .setMaintenanceMode
    (context { select := some "Lost connection to MySQL server" }) (some true) none)
    (.init singleUnit_init) rfl) rfl, fun h => ?_⟩
  exact h.entered (by decide) _ rfl rfl

end WriteProtection

end MediawikiCharm
