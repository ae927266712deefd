/-
The READ ONLY option of the database (`relations/database.py`).

`Database.set_read_only` connects, sets a lock timeout, alters the database, asks for the
option and compares.  Every one of these calls may fail on its own, and an `ALTER` that
fails may have taken effect.  The outcomes of the calls are a parameter; the database
answers the query for its option truthfully.
-/
import MediawikiCharm.Exceptions
import MediawikiCharm.Lib.Program
import Mathlib.Data.List.Infix

namespace MediawikiCharm

/-- The database server, as far as write protection goes. -/
structure Server where
  /-- The READ ONLY option of the database. -/
  readOnly : Bool := false
  /-- The flag table of an installed MediaWiki exists. -/
  initialized : Bool := false
  /-- A schema update was started while the database was read-only. -/
  updatedReadOnly : Bool := false
deriving DecidableEq

namespace Database

/-- What `fetchone` yields for the query of the schema options. -/
inductive Row
  /-- no row, or one that does not start with a text -/
  | malformed
  /-- the text of the options -/
  | options
deriving DecidableEq

/-- How an `ALTER DATABASE` ends. -/
inductive Alter
  | done
  /-- it fails with this message, with or without having taken effect -/
  | failed (message : String) (effective : Bool)
deriving DecidableEq

/-- How the calls of one `set_read_only` end.  A message is the one of a
`mysql.connector.Error`; `none` stands for a call that returns. -/
structure Calls where
  connect : Option String := none
  cursor : Option String := none
  setLockWaitTimeout : Option String := none
  alter : Alter := .done
  select : Option String := none
  row : Row := .options
  closeCursor : Option String := none
  close : Option String := none

/-- A call of the MySQL connector. -/
def call (failure : Option String) : Prog Server Exc Unit :=
  match failure with
  | some message => throw (.mysql message)
  | none => pure ()

/-- `ALTER DATABASE … READ ONLY = …` -/
def alterDatabase (alter : Alter) (enabled : Bool) : Prog Server Exc Unit :=
  match alter with
  | .done => Prog.modify fun s => { s with readOnly := enabled }
  | .failed message effective => do
    if effective then Prog.modify fun s => { s with readOnly := enabled }
    throw (.mysql message)

/-- The `OPTIONS` of `information_schema.SCHEMATA_EXTENSIONS`. -/
def schemaOptions (readOnly : Bool) : String := if readOnly then "READ ONLY=1" else ""

/-- `fetchone`: the text of the options, `none` where the row has none. -/
def fetchOptions (row : Row) : Prog Server Exc (Option String) := do
  let s ← Prog.get
  match row with
  | .malformed => pure none
  | .options => pure (some (schemaOptions s.readOnly))

/-- `get_database_connection`: run the body with a connection and close it.  The relation
data are those of `get_relation_data`, or its exception. -/
def withConnection {α : Type} (relationData : Except Exc String) (calls : Calls)
    (body : Prog Server Exc α) : Prog Server Exc α := do
  let _ ← Prog.ofExcept relationData
  call calls.connect
  Prog.andFinally body (call calls.close)

/-- `part in text` -/
def isSubstring (part text : String) : Bool := decide (part.toList <:+: text.toList)

/-- The comparison of the verified option with the requested one. -/
def verify (enabled : Bool) (row : Option String) : Except Exc Unit :=
  match row with
  | none => .error (.blocked "Unable to verify database read-only state")
  | some text =>
    if isSubstring "READ ONLY=1" text != enabled then
      .error (.blocked "Database read-only state does not match the requested maintenance mode")
    else .ok ()

/-- `except mysql.connector.Error` of `set_read_only` -/
def onMysqlError {α : Type} : Exc → Prog Server Exc α
  | .mysql message => throw (.blocked ("Unable to set database read-only mode: " ++ message))
  | e => throw e

/-- The statements of `set_read_only`: the text of the options after the `ALTER`. -/
def alterAndSelect (calls : Calls) (enabled : Bool) : Prog Server Exc (Option String) := do
  call calls.cursor
  Prog.andFinally
    (do
      call calls.setLockWaitTimeout
      alterDatabase calls.alter enabled
      call calls.select
      fetchOptions calls.row)
    (call calls.closeCursor)

/-- `set_read_only` -/
def setReadOnly (relationData : Except Exc String) (calls : Calls) (enabled : Bool) :
    Prog Server Exc Unit := do
  let _ ← Prog.ofExcept relationData
  let row ← tryCatch (withConnection relationData calls (alterAndSelect calls enabled))
    onMysqlError
  Prog.ofExcept (verify enabled row)

/-- `is_relation_ready` -/
def isRelationReady (relationData : Except Exc String) : Except Exc Bool :=
  match relationData with
  | .ok _ => .ok true
  | .error e => if e.isStatus then .ok false else .error e

/-- `_is_database_initialized`: the query for the flag table, or the exception it ends in. -/
def isDatabaseInitialized (failure : Option Exc) : Prog Server Exc Bool := do
  let s ← Prog.get
  match failure with
  | some e => throw e
  | none => pure s.initialized

/-- `update_database_schema`, which ends as `outcome` says; the server notes an update of a
read-only database. -/
def updateDatabaseSchema (outcome : Except Exc Unit) : Prog Server Exc Unit := do
  Prog.modify fun s => { s with updatedReadOnly := s.updatedReadOnly || s.readOnly }
  Prog.ofExcept outcome

/-! ### What `set_read_only` does -/

variable {s : Server} {enabled : Bool} {calls : Calls}

/-- The option is as before or as requested, and nothing else has changed. -/
def Touched (enabled : Bool) (s s' : Server) : Prop :=
  s' = s ∨ s' = { s with readOnly := enabled }

lemma isSubstring_schemaOptions (b : Bool) : isSubstring "READ ONLY=1" (schemaOptions b) = b := by
  cases b <;> decide

lemma verify_schemaOptions_eq_ok {b : Bool} :
    verify enabled (some (schemaOptions b)) = .ok () ↔ b = enabled := by
  simp only [verify, isSubstring_schemaOptions]
  cases b <;> cases enabled <;> simp

lemma wp_call {failure : Option String} {Q : Unit → Server → Prop} {E : Exc → Server → Prop}
    (hQ : Q () s) (hE : ∀ message, E (.mysql message) s) : (call failure).wp Q E s := by
  cases failure with
  | none => exact hQ
  | some message => exact hE message

/-- What a MySQL error leaves. -/
def Failed (enabled : Bool) (s : Server) (e : Exc) (s' : Server) : Prop :=
  Touched enabled s s' ∧ ∃ message, e = .mysql message

/-- What the query leaves: the row tells the truth. -/
def Selected (enabled : Bool) (s : Server) (row : Option String) (s' : Server) : Prop :=
  Touched enabled s s' ∧ (row = none ∨ row = some (schemaOptions s'.readOnly))

lemma alterDatabase_spec (alter : Alter) :
    (alterDatabase alter enabled).wp (fun _ s' => Touched enabled s s') (Failed enabled s) s := by
  cases alter with
  | done => exact .inr rfl
  | failed message effective =>
    cases effective with
    | false => exact ⟨.inl rfl, message, rfl⟩
    | true => exact ⟨.inr rfl, message, rfl⟩

lemma fetchOptions_spec (row : Row) {s' : Server} (h : Touched enabled s s') :
    (fetchOptions row).wp (Selected enabled s) (Failed enabled s) s' := by
  cases row with
  | malformed => exact ⟨h, .inl rfl⟩
  | options => exact ⟨h, .inr rfl⟩

lemma alterAndSelect_spec (calls : Calls) :
    (alterAndSelect calls enabled).wp (Selected enabled s) (Failed enabled s) s := by
  refine Prog.wp_bind.2 (wp_call ?_ fun m => ⟨.inl rfl, m, rfl⟩)
  rw [Prog.wp_andFinally]
  have hbody : Prog.wp (do
      call calls.setLockWaitTimeout
      alterDatabase calls.alter enabled
      call calls.select
      fetchOptions calls.row) (Selected enabled s) (Failed enabled s) s := by
    refine Prog.wp_bind.2 (wp_call ?_ fun m => ⟨.inl rfl, m, rfl⟩)
    refine Prog.wp_bind.2 (Prog.wp_mono (alterDatabase_spec calls.alter) ?_ fun _ _ h => h)
    intro _ s' h
    exact Prog.wp_bind.2 (wp_call (fetchOptions_spec calls.row h) fun m => ⟨h, m, rfl⟩)
  exact Prog.wp_mono hbody (fun _ _ h => wp_call h fun m => ⟨h.1, m, rfl⟩)
    fun _ _ h => wp_call h fun m => ⟨h.1, m, rfl⟩

lemma withConnection_spec {relationData : Except Exc String} (calls : Calls) :
    (withConnection relationData calls (alterAndSelect calls enabled)).wp (Selected enabled s)
      (fun e s' => Failed enabled s e s' ∨ (s' = s ∧ relationData = .error e)) s := by
  refine Prog.wp_bind.2 (Prog.wp_ofExcept.2 ⟨fun _ _ => ?_, fun e he => .inr ⟨rfl, he⟩⟩)
  refine Prog.wp_bind.2 (wp_call ?_ fun m => .inl ⟨.inl rfl, m, rfl⟩)
  rw [Prog.wp_andFinally]
  exact Prog.wp_mono (alterAndSelect_spec calls)
    (fun _ _ h => wp_call h fun m => .inl ⟨h.1, m, rfl⟩)
    fun _ _ h => wp_call (.inl h) fun m => .inl ⟨h.1, m, rfl⟩

/-- When `set_read_only` returns, the database is in the requested state.  When it raises,
the option may have changed; the exception is the one of the relation data or a blocked
status. -/
lemma setReadOnly_spec (relationData : Except Exc String) (calls : Calls) (enabled : Bool)
    (s : Server) :
    (setReadOnly relationData calls enabled).wp (fun _ s' => s' = { s with readOnly := enabled })
      (fun e s' => Touched enabled s s' ∧
        (relationData = .error e ∨ ∃ message, e = .blocked message)) s := by
  refine Prog.wp_bind.2 (Prog.wp_ofExcept.2 ⟨fun _ _ => ?_, fun e he => ⟨.inl rfl, .inl he⟩⟩)
  refine Prog.wp_bind.2 (Prog.wp_tryCatch.2 (Prog.wp_mono (withConnection_spec calls) ?_ ?_))
  · rintro row s' ⟨ht, hrow⟩
    refine Prog.wp_ofExcept.2 ⟨fun _ hv => ?_, fun e he => ⟨ht, .inr ?_⟩⟩
    · rcases hrow with rfl | rfl
      · cases hv
      · have hro := verify_schemaOptions_eq_ok.1 hv
        rcases ht with rfl | rfl
        · rw [← hro]
        · rfl
    · unfold verify at he
      split at he
      · exact ⟨_, (Except.error.inj he).symm⟩
      · split_ifs at he
        exact ⟨_, (Except.error.inj he).symm⟩
  · rintro e s' (⟨ht, m, rfl⟩ | ⟨rfl, he⟩)
    · exact ⟨ht, .inr ⟨_, rfl⟩⟩
    · cases e with
      | mysql m => exact ⟨.inl rfl, .inr ⟨_, rfl⟩⟩
      | _ => exact ⟨.inl rfl, .inl he⟩

/-- Where every call returns, `set_read_only` does. -/
lemma setReadOnly_run {database : String} (enabled : Bool) (s : Server) :
    setReadOnly (.ok database) {} enabled s = (.ok (), { s with readOnly := enabled }) := by
  cases enabled <;> simp [setReadOnly, withConnection, alterAndSelect, call, alterDatabase,
    fetchOptions, Prog.bind_run, Prog.tryCatch_run, Prog.andFinally, verify,
    isSubstring_schemaOptions]

end Database

end MediawikiCharm
