import Mathlib.Tactic.Common

/-!
The error type shared by the storage layer.
-/

namespace AkiDB.Common

inductive AkiDbError where
  | vectorNotFound (id : String)
  | vectorAlreadyExists (id : String)
  | vectorAlreadyDeleted (id : String)
  | dimensionMismatch (expected actual : Nat)
  | idReuseForbidden (id : String)
  | indexError (message : String)
  | indexNotReady
  | rebuildInProgress
  | storageError (message : String)
  | serializationError (message : String)
  | gpuError (message : String)
  | gpuOutOfMemory
  | gpuUnavailable
  | shardUnavailable (message : String)
  | coordinatorError (message : String)
  | timeout (milliseconds : Nat)
  | configError (message : String)
  | invalidParameter (message : String)
  | internal (message : String)
  | io (message : String)
  deriving DecidableEq, Repr

/-- The text under which an error is reported. -/
def AkiDbError.display : AkiDbError → String
  | vectorNotFound id => s!"Vector not found: {id}"
  | vectorAlreadyExists id => s!"Vector already exists: {id}"
  | vectorAlreadyDeleted id => s!"Vector already deleted: {id}"
  | dimensionMismatch expected actual =>
    s!"Invalid vector dimensions: expected {expected}, got {actual}"
  | idReuseForbidden id => s!"Vector ID cannot be reused after deletion: {id}"
  | indexError message => s!"Index error: {message}"
  | indexNotReady => "Index not ready"
  | rebuildInProgress => "Index rebuild in progress"
  | storageError message => s!"Storage error: {message}"
  | serializationError message => s!"Serialization error: {message}"
  | gpuError message => s!"GPU error: {message}"
  | gpuOutOfMemory => "GPU out of memory"
  | gpuUnavailable => "GPU unavailable, falling back to CPU"
  | shardUnavailable message => s!"Shard unavailable: {message}"
  | coordinatorError message => s!"Coordinator error: {message}"
  | timeout milliseconds => s!"Timeout after {milliseconds}ms"
  | configError message => s!"Configuration error: {message}"
  | invalidParameter message => s!"Invalid parameter: {message}"
  | internal message => s!"Internal error: {message}"
  | io message => message

end AkiDB.Common
