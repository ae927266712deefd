/-
The exceptions of the charm and the operation modes (`exceptions.py`, `types_.py`).
-/
import Mathlib.Tactic.Common

namespace MediawikiCharm

/-- The exceptions that the modelled functions raise or let through.  A constructor
stands for the class of its name; its argument is the message. -/
inductive Exc
  /-- `MediaWikiBlockedStatusException` -/
  | blocked (message : String)
  /-- `MediaWikiWaitingStatusException` -/
  | waiting (message : String)
  /-- `MediaWikiInstallError` -/
  | installError (message : String)
  /-- `MediaWikiModeConflictError` -/
  | modeConflict (message : String)
  /-- `MediaWikiUnknownOperationModeError`, both a blocked status and a mode conflict -/
  | unknownOperationMode (message : String)
  /-- `ContainerError` -/
  | containerError (message : String)
  /-- `CharmConfigInvalidError` -/
  | configInvalid (message : String)
  /-- an error of `ops.pebble` -/
  | pebble (message : String)
  /-- `mysql.connector.Error` -/
  | mysql (message : String)
  /-- any other exception -/
  | other (message : String)
deriving DecidableEq, Repr

namespace Exc

/-- The text of the exception. -/
def message : Exc → String
  | .blocked m | .waiting m | .installError m | .modeConflict m | .unknownOperationMode m
  | .containerError m | .configInvalid m | .pebble m | .mysql m | .other m => m

/-- Whether `except MediaWikiBlockedStatusException` catches the exception. -/
def isBlocked : Exc → Bool
  | .blocked _ | .unknownOperationMode _ => true
  | _ => false

/-- Whether `except MediaWikiWaitingStatusException` catches the exception. -/
def isWaiting : Exc → Bool
  | .waiting _ => true
  | _ => false

/-- Whether `except MediaWikiStatusException` catches the exception. -/
def isStatus (e : Exc) : Bool := e.isBlocked || e.isWaiting

/-- Whether `except MediaWikiModeConflictError` catches the exception. -/
def isModeConflict : Exc → Bool
  | .modeConflict _ | .unknownOperationMode _ => true
  | _ => false

end Exc

/-- Mutually exclusive operations coordinated across the units. -/
inductive OperationMode
  | normal
  | databaseUpdate
  | maintenance
  | forceReconciliation
deriving DecidableEq, Repr

namespace OperationMode

/-- The text that stands for a mode in a databag. -/
def value : OperationMode → String
  | normal => "normal"
  | databaseUpdate => "database-update"
  | maintenance => "maintenance"
  | forceReconciliation => "force-reconciliation"

/-- `OperationMode(value)`, or `none` where that raises `ValueError`. -/
def ofValue (v : String) : Option OperationMode :=
  if v = normal.value then some normal
  else if v = databaseUpdate.value then some databaseUpdate
  else if v = maintenance.value then some maintenance
  else if v = forceReconciliation.value then some forceReconciliation
  else none

@[simp] lemma ofValue_value (m : OperationMode) : ofValue m.value = some m := by
  cases m <;> decide

lemma value_injective : Function.Injective value := by
  intro m m' h
  have h' := congrArg ofValue h
  simpa using h'

@[simp] lemma value_inj {m m' : OperationMode} : m.value = m'.value ↔ m = m' :=
  value_injective.eq_iff

/-- Whether background job workers may run in this mode. -/
def allowsJobWorkers (m : OperationMode) : Bool := decide (m ≠ maintenance)

end OperationMode

end MediawikiCharm
