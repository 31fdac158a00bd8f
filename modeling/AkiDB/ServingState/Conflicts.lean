import AkiDB.ServingState.Corruption

/-! When the store blames disk damage: a sealed revision whose tail reaches a marker conflict. -/

namespace AkiDB.ServingState
open AkiDB.Common AkiDB.Contracts Unsigned Checked Utf8Text

/-- The two slots of a mutation do not hold one and the same marker, nor are both free. -/
def Contested (backend : Backend) (scope : KnowledgeScope) (generationId : String)
    (mutation : KnowledgeMutation) : Prop :=
  read backend (.sequence scope generationId mutation.sequence)
    ≠ read backend (.identity scope generationId mutation.mutationId)

/-- The loop over a tail comes to a contested mutation at its place, all before it accepted. -/
inductive MeetsContested (store : ServingStateStore) (backend : Backend)
    (scope : KnowledgeScope) (generationId : String) (baseSequence currentSequence : Nat)
    : Nat → List KnowledgeMutation → Prop where
  | here {offset : Nat} {mutation : KnowledgeMutation} {rest : List KnowledgeMutation}
      (placed : TailPlaced store scope generationId baseSequence offset mutation)
      (contested : Contested backend scope generationId mutation)
      : MeetsContested store backend scope generationId baseSequence currentSequence offset
          (mutation :: rest)
  | later {offset : Nat} {mutation : KnowledgeMutation} {rest : List KnowledgeMutation}
      (entry : TailEntry store backend scope generationId baseSequence currentSequence offset
        mutation)
      (meets : MeetsContested store backend scope generationId baseSequence currentSequence
        (offset + 1) rest)
      : MeetsContested store backend scope generationId baseSequence currentSequence offset
          (mutation :: rest)

variable {store : ServingStateStore} {backend : Backend}

variable {currentSequence : Nat} {mutation : KnowledgeMutation}

section
variable {store : ServingStateStore} {backend : Backend} (addressed : Addressed store backend)
include addressed

variable {scope : KnowledgeScope} {generationId : String}

variable {currentSequence : Nat}

variable {mutations : List KnowledgeMutation}

end

/-- The call is a sealed revision whose tail meets a contested mutation. -/
def Operation.MeetsContested (store : ServingStateStore) (backend : Backend)
    : Operation → Prop
  | .commitGenerationRevision scope generationId manifestSha256 targetSequence mutations
      updatedAtMs =>
      ∃ record role generation,
        RevisionOpened store backend scope generationId manifestSha256 targetSequence
          mutations updatedAtMs record role generation
        ∧ ServingState.MeetsContested store backend scope generationId
            generation.manifest.targetSequence generation.appliedSequence 0 mutations
  | _ => False

variable {operation : Operation}

end AkiDB.ServingState
