/-
The repair of tables without a primary key (`mediawiki/_database.py`).

Group Replication writes to a table only if it has a primary key or a unique key without a
nullable column.  `_reconcile_primary_key_compatibility` gives each listed table that has none
a surrogate: a column, a unique key over it and a default, by three statements.  Where a table
has got a key of its own, two statements drop the surrogate.  Statements take effect at once,
each of them may fail, and the decorator starts the function anew after an error of the
database.

What fails is a function of the attempt, the table and the statement.  Beside each table stands
the history of the statements that took effect on it.
-/
import MediawikiCharm.Exceptions
import MediawikiCharm.Lib.Program
import MediawikiCharm.Lib.Schema
import Mathlib.Data.Finset.Insert

namespace MediawikiCharm
namespace PrimaryKeys

open Schema

/-- `_PRIMARY_KEY_EQUIVALENT_COLUMN` -/
def column : String := "mw_charm_gr_key"

/-- The unique key of the surrogate. -/
def columnUniq : String := column ++ "_uniq"

/-- `PRIMARY_KEY_LESS_TABLES` -/
def primaryKeyLessTables : List String := ["oldimage", "querycache", "querycachetwo", "user_newtalk"]

/-- A statement that took effect. -/
structure Executed where
  statement : Ddl
  before : Table
  after : Table
  applied : statement.apply before = some after

/-- A table, or the absence of one, and the statements that took effect. -/
structure TableState where
  table : Option Table := none
  executed : List Executed := []

/-- The queries about one table. -/
inductive Query
  /-- `_table_exists` -/
  | tableExists
  /-- `_table_has_column` -/
  | tableHasColumn
  /-- `_group_replication_keys` -/
  | groupReplicationKeys
  /-- `_table_has_rows` -/
  | tableHasRows
  /-- `_column_has_default` -/
  | columnHasDefault

/-- The calls that are about no table. -/
inductive ConnectionCall
  /-- `get_database_connection` -/
  | connect
  /-- `SET SESSION lock_wait_timeout` -/
  | setLockWaitTimeout
  | commit
  | rollback

/-- The errors of the database: by attempt, table and statement. -/
structure DatabaseEnv where
  connection : ℕ → ConnectionCall → Option Exc := fun _ _ => none
  query : ℕ → String → Query → Option Exc := fun _ _ _ => none
  execute : ℕ → String → Ddl → Option Exc := fun _ _ _ => none
  /-- How many attempts there are before the deadline. -/
  attempts : ℕ := 1

/-- A database without errors. -/
def DatabaseEnv.quiet : DatabaseEnv := {}

variable (env : DatabaseEnv) (n : ℕ) (table : String)

/-- A query whose answer is read off the table. -/
def query {α : Type} (q : Query) (answer : Option Table → α) : Prog TableState Exc α := fun s =>
  match env.query n table q with
  | some e => (.error e, s)
  | none => (.ok (answer s.table), s)

/-- Let a statement take effect. -/
def perform (statement : Ddl) (s : TableState) : Option TableState :=
  match s.table with
  | none => none
  | some before =>
    match applied : statement.apply before with
    | none => none
    | some after => some ⟨some after, ⟨statement, before, after, applied⟩ :: s.executed⟩

/-- `cursor.execute` of a statement; one that does not apply fails. -/
def execute (statement : Ddl) : Prog TableState Exc Unit := fun s =>
  match env.execute n table statement with
  | some e => (.error e, s)
  | none =>
    match perform statement s with
    | some s' => (.ok (), s')
    | none => (.error (.mysql "mysql.connector.Error"), s)

/-- `_table_exists` -/
def tableExists : Prog TableState Exc Bool := query env n table .tableExists Option.isSome

/-- `_table_has_column` -/
def tableHasColumn : Prog TableState Exc Bool :=
  query env n table .tableHasColumn fun t => t.any (·.hasColumn column)

/-- `_group_replication_keys` -/
def groupReplicationKeys : Prog TableState Exc (List Key) :=
  query env n table .groupReplicationKeys fun t => (t.map (·.notNullKeys)).getD []

/-- `_table_has_rows` -/
def tableHasRows : Prog TableState Exc Bool :=
  query env n table .tableHasRows fun t => t.any (·.hasRows)

/-- `_column_has_default` -/
def columnHasDefault : Prog TableState Exc Bool :=
  query env n table .columnHasDefault fun t => t.any (·.columnHasDefault column)

/-- `ADD COLUMN … BINARY(16) NOT NULL INVISIBLE` -/
def addColumn : Ddl := .addColumn { name := column }

/-- `ADD UNIQUE KEY` over the surrogate column -/
def addUniqueKey : Ddl := .addUniqueKey { name := columnUniq, columns := [column] }

/-- `ALTER COLUMN … SET DEFAULT (UUID_TO_BIN(UUID(), 1))` -/
def setDefault : Ddl := .setDefault column

/-- `DROP INDEX` of the surrogate -/
def dropIndex : Ddl := .dropIndex columnUniq

/-- `DROP COLUMN` of the surrogate -/
def dropColumn : Ddl := .dropColumn column

/-- Whether the exception is a `mysql.connector.Error`. -/
def isMysql : Exc → Bool
  | .mysql _ => true
  | _ => false

/-- `_complete_surrogate_key` -/
def completeSurrogateKey (compliantKeys : List Key) : Prog TableState Exc Unit := do
  let columns := (compliantKeys.find? (·.name == columnUniq)).map (·.columns.toFinset)
  (if columns ≠ some {column} then execute env n table addUniqueKey else pure () :
    Prog TableState Exc Unit)
  (if !(← columnHasDefault env n table) then execute env n table setDefault else pure () :
    Prog TableState Exc Unit)

/-- The message of `_add_surrogate_key`. -/
def rowsMessage : String :=
  "Cannot add a Group-Replication-compatible key to table " ++ table ++ ": it already has " ++
  "rows, so the NOT NULL surrogate column cannot be added without backfilling them. " ++
  "Under Group Replication a PK-less table cannot accumulate rows, so this requires " ++
  "manual intervention."

/-- `_add_surrogate_key` -/
def addSurrogateKey : Prog TableState Exc Unit := do
  if ← tableHasRows env n table then throw (.installError (rowsMessage table))
  else
    execute env n table addColumn
    execute env n table addUniqueKey
    execute env n table setDefault

/-- The removal of a redundant surrogate; its errors are logged only. -/
def dropSurrogateKey : Prog TableState Exc Unit :=
  tryCatch (do
    execute env n table dropIndex
    execute env n table dropColumn) fun e => if isMysql e then pure () else throw e

/-- The body of the loop of `_reconcile_primary_key_compatibility`. -/
def reconcileTable : Prog TableState Exc Unit := do
  if !(← tableExists env n table) then pure ()
  else
    let hasColumn ← tableHasColumn env n table
    let compliantKeys ← groupReplicationKeys env n table
    if hasColumn then
      let surrogateRedundant := compliantKeys.any fun key => decide (column ∉ key.columns)
      if surrogateRedundant then dropSurrogateKey env n table
      else completeSurrogateKey env n table compliantKeys
    else if compliantKeys ≠ [] then pure ()
    else addSurrogateKey env n table

/-- The tables by name. -/
abbrev Database : Type := String → TableState

/-- A call on the connection. -/
def connectionCall (call : ConnectionCall) : Prog Database Exc Unit := fun w =>
  (match env.connection n call with
    | some e => .error e
    | none => .ok (), w)

/-- One attempt at `_reconcile_primary_key_compatibility`. -/
def attempt : Prog Database Exc Unit := do
  connectionCall env n .connect
  tryCatch (do
    connectionCall env n .setLockWaitTimeout
    primaryKeyLessTables.forM fun table => Prog.component table (reconcileTable env n table)
    connectionCall env n .commit) fun e => do
      connectionCall env n .rollback
      throw e

/-- `_db_retry_deco` with the attempts that are left before the deadline. -/
def dbRetry {σ : Type} (func : ℕ → Prog σ Exc Unit) : ℕ → ℕ → Prog σ Exc Unit
  | 0, _ => throw (.blocked "MySQL database operation failed")
  | left + 1, n => tryCatch (func n) fun e =>
      if isMysql e || e.isWaiting then dbRetry func left (n + 1) else throw e

/-- `_reconcile_primary_key_compatibility` -/
def reconcilePrimaryKeyCompatibility : Prog Database Exc Unit :=
  dbRetry (attempt env) env.attempts 0

end PrimaryKeys
end MediawikiCharm
