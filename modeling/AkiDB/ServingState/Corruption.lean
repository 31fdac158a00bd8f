import AkiDB.ServingState.Checkpoints
import AkiDB.ServingState.Preservation

/-!
When the corrupt-state error is unreachable: no branch of an operation finds the store damaged.
-/

namespace AkiDB.ServingState
open AkiDB.Common AkiDB.Contracts Checked AtomicBatch Unsigned

variable {parse : String → Option Url}

theorem GenerationValid.inRange {scope role generation}
    (valid : GenerationValid parse scope role generation) {sequence : Nat}
    (bound : sequence ≤ generation.appliedSequence)
    : sequence < range64 :=
  lt_range64_of_safe (bound.trans valid.safe)

variable {store : ServingStateStore} {record : ServingStateRecord}

section
variable {store : ServingStateStore} {backend : Backend} (addressed : Addressed store backend)
include addressed

variable (scope : KnowledgeScope) (generationId : String)

end

section
variable {store : ServingStateStore} {backend : Backend} (addressed : Addressed store backend)
include addressed

variable (scope : KnowledgeScope) (generationId : String) (updatedAtMs : Nat)

variable {value : StoredValue}

end

end AkiDB.ServingState
