import AkiDB.Vectors.Interleaving

/-!
What is known of the id of a request at each of its phases; steps for other ids do not disturb it.
-/

namespace AkiDB.Vectors
open AkiDB.Common AtomicBatch Checked KeyedMaps Phase IdMapping

namespace VectorService

variable (service : VectorService) (id : String)

/-- What is exposed of an id is what the mapping holds; a deleted id has no text left. -/
structure Settled : Prop where
  exposed : ∀ held, service.index.Exposes id held
    → service.idMapping.getInternalId id = some held
  lexical : service.idMapping.isDeleted id = true → service.lexical.contains id = false
  documents : service.idMapping.isDeleted id = true → service.documents[id]? = none

/-- The id is not exposed under another internal id. -/
def ExposedOnly (internalId : Nat) : Prop :=
  ∀ held, service.index.Exposes id held → held = internalId

/-- The mapping holds the id, and nothing else is exposed of it. -/
structure Stored (internalId : Nat) : Prop where
  live : service.idMapping.getInternalId id = some internalId
  exposed : service.ExposedOnly id internalId

/-- The id is tombstoned and not exposed. -/
structure Hidden : Prop where
  deleted : service.idMapping.isDeleted id = true
  unexposed : ∀ held, ¬service.index.Exposes id held

/-- A write for the id, whose replaced internal id is allocated. -/
structure Writing (write : PendingWrite) : Prop where
  same : write.id = id
  replaced : ∀ oldId, write.oldInternalId = some oldId → oldId < service.index.nextId

end VectorService

/-- What holds of an id before a step of its request. -/
def Phase.Holds (service : VectorService) (id : String) : Phase → Prop
  | insertIndex write => service.Writing id write ∧ service.Settled id
      ∧ service.idMapping.isDeleted id = false
  | persist write internalId => service.Writing id write
      ∧ service.idMapping.isDeleted id = false ∧ service.ExposedOnly id internalId
      ∧ internalId < service.index.nextId
  | rollBack _ internalId => service.idMapping.isDeleted id = false
      ∧ service.ExposedOnly id internalId ∧ internalId < service.index.nextId
  | removeReplaced write internalId => service.Writing id write ∧ service.Stored id internalId
  | syncLexical _ internalId _ | syncDocuments _ internalId _ | projectGraph _ internalId
  | mirrorSql _ internalId => service.Stored id internalId
  | unproject _ | tombstone => service.Settled id
  | deleteIndex internalId => service.idMapping.isDeleted id = true
      ∧ service.ExposedOnly id internalId ∧ internalId < service.index.nextId
  | dropLexical => service.Hidden id
  | dropDocuments => service.Hidden id ∧ service.lexical.contains id = false
  | dropSql => service.Hidden id ∧ service.lexical.contains id = false
      ∧ service.documents[id]? = none

/-- What holds of an id, whether or not a request for it is in flight. -/
def HoldsAt (service : VectorService) (id : String) : Option Phase → Prop
  | some phase => phase.Holds service id
  | none => service.Settled id

def Phase.isQuiet : Phase → Bool
  | unproject _ | tombstone => true
  | _ => false

/-- The steps of a request after which nothing is exposed by mistake. -/
def Phase.Guarded (faults : WriteFaults) (service : VectorService) (id : String)
    : Phase → Prop
  | insertIndex _ => faults.usearch.addFails = none ∨ service.index.idMapping[id]? = none
  | rollBack .. => faults.rollback = none
  | deleteIndex _ => faults.deletion = none
  | _ => True

instance (faults : WriteFaults) (service : VectorService) (id : String)
    : (phase : Phase) → Decidable (phase.Guarded faults service id)
  | .insertIndex _ => inferInstanceAs (Decidable (_ ∨ _))
  | .rollBack .. => inferInstanceAs (Decidable (faults.rollback = none))
  | .deleteIndex _ => inferInstanceAs (Decidable (faults.deletion = none))
  | .persist .. | .removeReplaced .. | .syncLexical .. | .syncDocuments .. | .projectGraph ..
  | .mirrorSql .. | .unproject _ | .tombstone | .dropLexical | .dropDocuments | .dropSql =>
    .isTrue trivial

/-! Steps that do not disturb an id -/

/-- Nothing was exposed of the id, its rows and text are the same, no internal id was given back. -/
structure Undisturbed (before after : VectorService) (id : String) : Prop where
  exposed : ∀ held, after.index.Exposes id held → before.index.Exposes id held
  entry : after.idMapping.get id = before.idMapping.get id
  lexical : after.lexical.contains id = before.lexical.contains id
  documents : after.documents[id]? = before.documents[id]?
  nextId : before.index.nextId ≤ after.index.nextId

namespace Undisturbed

variable {before after : VectorService} {id : String} {internalId : Nat}

theorem of_reprojected {other} (reprojected : before.Reprojected other after)
    : Undisturbed before after id where
  exposed := by rw [reprojected.index]; exact fun _ exposed => exposed
  entry := by rw [reprojected.idMapping]
  lexical := by rw [reprojected.lexical]
  documents := by rw [reprojected.documents]
  nextId := by rw [reprojected.index]

theorem refl : Undisturbed before before id :=
  of_reprojected (VectorService.Reprojected.graph : before.Reprojected id before)

theorem of_index {index} (exposed : ∀ held, index.Exposes id held → before.index.Exposes id held)
    (nextId : before.index.nextId ≤ index.nextId)
    : Undisturbed before { before with index := index } id :=
  ⟨exposed, rfl, rfl, rfl, nextId⟩

theorem of_mapping {mapping} (entry : mapping.get id = before.idMapping.get id)
    : Undisturbed before { before with idMapping := mapping } id :=
  ⟨fun _ exposed => exposed, entry, rfl, rfl, Nat.le_refl _⟩

theorem deleteQuietly {fault}
    : Undisturbed before (before.deleteQuietly fault internalId) id :=
  .of_index (fun _ exposed => exposed.of_delete) (by cases fault <;> exact Nat.le_refl _)

variable {faults : WriteFaults} {write : PendingWrite} {config : ServiceConfig}

theorem removeReplaced
    : Undisturbed before (before.removeReplaced faults write internalId) id := by
  rcases @VectorService.removeReplaced_cases before faults write internalId with
    same | ⟨oldId, _, same⟩
  · rw [same]
    exact refl
  · rw [same]
    exact .deleteQuietly

variable (undisturbed : Undisturbed before after id)
include undisturbed

theorem isDeleted : after.idMapping.isDeleted id = before.idMapping.isDeleted id := by
  simp only [IdMapping.isDeleted, undisturbed.entry]

theorem getInternalId
    : after.idMapping.getInternalId id = before.idMapping.getInternalId id := by
  simp only [IdMapping.getInternalId, undisturbed.entry]

theorem settled (settled : before.Settled id)
    : after.Settled id where
  exposed := fun held exposed =>
    undisturbed.getInternalId ▸ settled.exposed held (undisturbed.exposed held exposed)
  lexical := by rw [undisturbed.isDeleted, undisturbed.lexical]; exact settled.lexical
  documents := by rw [undisturbed.isDeleted, undisturbed.documents]; exact settled.documents

theorem exposedOnly (only : before.ExposedOnly id internalId) : after.ExposedOnly id internalId :=
  fun held exposed => only held (undisturbed.exposed held exposed)

theorem stored (stored : before.Stored id internalId) : after.Stored id internalId :=
  ⟨undisturbed.getInternalId ▸ stored.live, undisturbed.exposedOnly stored.exposed⟩

theorem hidden (hidden : before.Hidden id)
    : after.Hidden id :=
  ⟨undisturbed.isDeleted ▸ hidden.deleted,
    fun held exposed => hidden.unexposed held (undisturbed.exposed held exposed)⟩

theorem writing (writing : before.Writing id write)
    : after.Writing id write :=
  ⟨writing.same, fun oldId old => Nat.lt_of_lt_of_le (writing.replaced oldId old)
    undisturbed.nextId⟩

theorem holds {phase : Phase} (holds : phase.Holds before id) : phase.Holds after id := by
  have deleted := undisturbed.isDeleted
  have grown : ∀ held, held < before.index.nextId → held < after.index.nextId :=
    fun held used => Nat.lt_of_lt_of_le used undisturbed.nextId
  cases phase with
  | insertIndex =>
    exact ⟨undisturbed.writing holds.1, undisturbed.settled holds.2.1, deleted ▸ holds.2.2⟩
  | persist =>
    obtain ⟨writing, live, only, used⟩ := holds
    exact ⟨undisturbed.writing writing, deleted ▸ live, undisturbed.exposedOnly only, grown _ used⟩
  | rollBack | deleteIndex =>
    obtain ⟨kept, only, used⟩ := holds
    exact ⟨deleted ▸ kept, undisturbed.exposedOnly only, grown _ used⟩
  | removeReplaced => exact ⟨undisturbed.writing holds.1, undisturbed.stored holds.2⟩
  | syncLexical | syncDocuments | projectGraph | mirrorSql => exact undisturbed.stored holds
  | unproject | tombstone => exact undisturbed.settled holds
  | dropLexical => exact undisturbed.hidden holds
  | dropDocuments => exact ⟨undisturbed.hidden holds.1, undisturbed.lexical ▸ holds.2⟩
  | dropSql =>
    exact ⟨undisturbed.hidden holds.1, undisturbed.lexical ▸ holds.2.1,
      undisturbed.documents ▸ holds.2.2⟩

theorem holdsAt {phase} (holds : HoldsAt before id phase) : HoldsAt after id phase := by
  cases phase with
  | none => exact undisturbed.settled holds
  | some => exact undisturbed.holds holds

end Undisturbed

namespace VectorService

variable {service : VectorService} {id : String} {internalId : Nat}

variable {mapping : IdMapping}

theorem not_isDeleted_of_live (live : mapping.getInternalId id = some internalId)
    : mapping.isDeleted id = false := by
  simp [IdMapping.isDeleted, getInternalId_eq_some.mp live]

theorem getInternalId_of_isDeleted (deleted : mapping.isDeleted id = true)
    : mapping.getInternalId id = none := by
  obtain ⟨held, entry⟩ := isDeleted_eq_true.mp deleted
  simp [IdMapping.getInternalId, entry]

theorem Stored.settled (stored : service.Stored id internalId) : service.Settled id where
  exposed := fun held exposed => stored.exposed held exposed ▸ stored.live
  lexical := by simp [not_isDeleted_of_live stored.live]
  documents := by simp [not_isDeleted_of_live stored.live]

theorem Settled.hidden (settled : service.Settled id)
    (deleted : service.idMapping.isDeleted id = true) : service.Hidden id where
  deleted := deleted
  unexposed := by
    intro held exposed
    have live := settled.exposed held exposed
    rw [getInternalId_of_isDeleted deleted] at live
    cases live

end VectorService

/-! What one step of a request does -/

/-- A step keeps the service coherent, disturbs no other id, and leaves what the next one needs. -/
structure Advanced (before : VectorService) (id : String) (phase : Phase)
    (after : VectorService) (outcome : Phase ⊕ Answer) : Prop where
  coherent : after.Coherent
  others : ∀ other, other ≠ id → Undisturbed before after other
  continues : ∀ following, outcome = .inl following → following.Holds after id
  settles : ∀ answer, outcome = .inr answer → after.Settled id
  acknowledged : ∀ answer, outcome = .inr answer → answer.acknowledges = true
    → after.idMapping.isDeleted id = true
  quiet : phase.isQuiet = true → before.idMapping.isDeleted id = true
    → after.idMapping.isDeleted id = true
      ∧ ∀ following, outcome = .inl following → following.isQuiet = true

namespace Advanced

variable {before after : VectorService} {id : String} {phase following : Phase}

theorem next (loud : phase.isQuiet = false) (coherent : after.Coherent)
    (others : ∀ other, other ≠ id → Undisturbed before after other)
    (holds : following.Holds after id) : Advanced before id phase after (.inl following) where
  coherent := coherent
  others := others
  continues := by rintro _ ⟨⟩; exact holds
  settles := by simp
  acknowledged := by simp
  quiet := by simp [loud]

/-- The last step of a request that acknowledges no deletion. -/
theorem last {answer} (loud : phase.isQuiet = false) (coherent : after.Coherent)
    (others : ∀ other, other ≠ id → Undisturbed before after other) (settled : after.Settled id)
    (silent : answer.acknowledges = false)
    : Advanced before id phase after (.inr answer) where
  coherent := coherent
  others := others
  continues := by simp
  settles := fun _ _ => settled
  acknowledged := by rintro _ ⟨⟩ told; simp [silent] at told
  quiet := by simp [loud]

theorem ends {answer} (coherent : before.Coherent) (settled : before.Settled id)
    (told : answer.acknowledges = true → before.idMapping.isDeleted id = true)
    : Advanced before id phase before (.inr answer) where
  coherent := coherent
  others := fun _ _ => .refl
  continues := by simp
  settles := fun _ _ => settled
  acknowledged := by rintro _ ⟨⟩; exact told
  quiet := fun _ deleted => ⟨deleted, by simp⟩

theorem idles (coherent : after.Coherent) (undisturbed : ∀ other, Undisturbed before after other)
    (holds : following.Holds after id) (quiet : following.isQuiet = true)
    : Advanced before id phase after (.inl following) where
  coherent := coherent
  others := fun other _ => undisturbed other
  continues := by rintro _ ⟨⟩; exact holds
  settles := by simp
  acknowledged := by simp
  quiet := by
    intro _ deleted
    refine ⟨(undisturbed id).isDeleted ▸ deleted, ?_⟩
    rintro _ ⟨⟩
    exact quiet

end Advanced

/-- The step of a phase advances its request. -/
def Phase.Advances (config : ServiceConfig) (faults : WriteFaults) (id : String)
    (service : VectorService) (phase : Phase) : Prop :=
  Advanced service id phase (phase.advance config faults id service).1
    (phase.advance config faults id service).2

section Steps

variable {config : ServiceConfig} {faults : WriteFaults} {service : VectorService}
  {id : String} {write : PendingWrite} {internalId : Nat}

section
variable (coherent : service.Coherent)
include coherent

theorem advanced_insertIndex
    (holds : (insertIndex write).Holds service id)
    (guarded : faults.usearch.addFails = none ∨ service.index.idMapping[id]? = none)
    : (insertIndex write).Advances config faults id service := by
  obtain ⟨⟨rfl, replaced⟩, settled, live⟩ := holds
  have kind := service.index.insertion config.hnsw faults.usearch write.id write.vector
  simp only [Phase.Advances, advance, VectorService.insertIndex]
  generalize inserted : service.index.insert config.hnsw faults.usearch write.id write.vector
    = outcome at kind ⊢
  obtain ⟨answer, index⟩ := outcome
  have kept := coherent.insertion kind
  obtain ⟨grown, answered⟩ := coherent.wellFormed.nextId_of_insertion kind
  have others : ∀ other, other ≠ write.id
      → Undisturbed service { service with index := index } other := fun other different =>
    .of_index (fun held => HnswIndex.exposes_of_insertion coherent.wellFormed kind different) grown
  cases answer with
  | error error =>
    have same : Undisturbed service { service with index := index } write.id :=
      .of_index (fun held => HnswIndex.exposes_of_failed_insert guarded inserted) grown
    exact .last rfl kept others (same.settled settled) rfl
  | ok internalId =>
    refine .next rfl kept others ⟨⟨rfl, ?_⟩, live, ?_, answered internalId rfl⟩
    · exact fun oldId old => Nat.lt_of_lt_of_le (replaced oldId old) grown
    · exact fun held exposed => exposed.eq (coherent.wellFormed.insertion kind)
        (HnswIndex.idMapping_of_insertion kind)

theorem advanced_persist
    (holds : (persist write internalId).Holds service id)
    : (persist write internalId).Advances config faults id service := by
  obtain ⟨⟨rfl, replaced⟩, live, only, used⟩ := holds
  simp only [Phase.Advances, advance]
  cases persisted : service.persist faults write internalId with
  | error =>
    exact .next rfl coherent (fun _ _ => .refl) ⟨live, only, used⟩
  | ok next =>
    obtain ⟨mapping, accepted, rfl⟩ := map_eq_ok.mp persisted
    obtain ⟨_, _, rfl⟩ := upsertWithVectorAndText_eq_ok.mp accepted
    refine .next rfl (coherent.upserted used write) (fun other different => .of_mapping ?_)
      ⟨⟨rfl, replaced⟩, ?_, only⟩
    · rw [get_upserted, if_neg (Ne.symm different)]
    · exact (getInternalId_upserted ..).trans (if_pos rfl)

theorem advanced_rollBack
    (holds : (rollBack write internalId).Holds service id)
    (guarded : faults.rollback = none)
    : (rollBack write internalId).Advances config faults id service := by
  obtain ⟨live, only, used⟩ := holds
  simp only [Phase.Advances, advance, guarded]
  refine .last rfl (coherent.deleteQuietly used _) (fun _ _ => .deleteQuietly) ⟨?_, ?_, ?_⟩ rfl
  · intro held exposed
    exact absurd (only held exposed.of_delete) exposed.ne_of_delete
  · intro deleted
    cases live.symm.trans deleted
  · intro deleted
    cases live.symm.trans deleted

theorem advanced_removeReplaced
    (holds : (removeReplaced write internalId).Holds service id)
    : (removeReplaced write internalId).Advances config faults id service := by
  obtain ⟨writing, stored⟩ := holds
  have undisturbed : ∀ other,
      Undisturbed service (service.removeReplaced faults write internalId) other :=
    fun _ => .removeReplaced
  have kept := (undisturbed id).stored stored
  simp only [Phase.Advances, advance]
  split <;>
    exact .next rfl (coherent.removeReplaced writing.replaced) (fun _ _ => undisturbed _) kept

end

theorem contains_insert_of_ne (unicode : UnicodeText) (lexical : Bm25Index) {other}
    (different : other ≠ id) (text : String)
    : (lexical.insert unicode id text).contains other = lexical.contains other := by
  unfold Bm25Index.insert Bm25Index.contains Bm25Index.remove
  dsimp only
  split <;> simp [Std.ExtTreeMap.contains_insert, Std.ExtTreeMap.contains_erase, Ne.symm different]

theorem contains_remove (lexical : Bm25Index) (other : String)
    : (lexical.remove id).contains other = (lexical.contains other && decide (id ≠ other)) := by
  unfold Bm25Index.remove Bm25Index.contains
  by_cases same : id = other <;> simp [Std.ExtTreeMap.contains_erase, same]

section
variable (coherent : service.Coherent)
include coherent

theorem advanced_syncLexical {text} (holds : (syncLexical write internalId text).Holds service id)
    : Advanced service id (.syncLexical write internalId text)
        (service.syncLexical config id text) (.inl (.syncDocuments write internalId text)) := by
  refine .next rfl (coherent.of_sameCore ⟨rfl, rfl⟩) (fun other different => ?_)
    ⟨holds.live, holds.exposed⟩
  refine ⟨fun _ exposed => exposed, rfl, ?_, rfl, Nat.le_refl _⟩
  unfold VectorService.syncLexical
  split
  · simp [contains_remove, Ne.symm different]
  · exact contains_insert_of_ne _ _ different _

theorem advanced_syncDocuments {text}
    (holds : (syncDocuments write internalId text).Holds service id)
    : Advanced service id (.syncDocuments write internalId text)
        (service.syncDocuments id text) (.inl (.projectGraph write internalId)) := by
  refine .next rfl (coherent.of_sameCore ⟨rfl, rfl⟩) (fun other different => ?_)
    ⟨holds.live, holds.exposed⟩
  refine ⟨fun _ exposed => exposed, rfl, rfl, ?_, Nat.le_refl _⟩
  unfold VectorService.syncDocuments
  split
  · rw [lookup_erase, if_neg (Ne.symm different)]
  · rw [lookup_insert, if_neg (Ne.symm different)]

theorem advanced_projectGraph
    (holds : (projectGraph write internalId).Holds service id)
    : (projectGraph write internalId).Advances config faults id service := by
  simp only [Phase.Advances, advance]
  cases projected : service.projectGraph config faults write with
  | error => exact .ends coherent holds.settled (by simp [Answer.acknowledges])
  | ok next =>
    have reprojected : service.Reprojected id next := .projectGraph projected
    have undisturbed : ∀ other, Undisturbed service next other :=
      fun _ => .of_reprojected reprojected
    have kept := coherent.of_sameCore reprojected.toSameCore
    have stored := (undisturbed id).stored holds
    dsimp only
    split
    · exact .next rfl kept (fun _ _ => undisturbed _) stored
    · exact .last rfl kept (fun _ _ => undisturbed _) stored.settled rfl

theorem advanced_mirrorSql
    (holds : (mirrorSql write internalId).Holds service id)
    : (mirrorSql write internalId).Advances config faults id service := by
  have reprojected :=
    (@VectorService.Reprojected.indexSqlMetadata config service faults write internalId).1
  have undisturbed : ∀ other,
      Undisturbed service (service.indexSqlMetadata config faults write internalId) other :=
    fun _ => .of_reprojected reprojected
  have kept := coherent.of_sameCore reprojected.toSameCore
  have stored := (undisturbed id).stored holds
  simp only [Phase.Advances, advance]
  split
  · exact .last rfl kept (fun _ _ => undisturbed _) stored.settled rfl
  · exact .next rfl kept (fun _ _ => undisturbed _) stored

theorem advanced_unproject {metadata} (holds : (unproject metadata).Holds service id)
    : (unproject metadata).Advances config faults id service := by
  simp only [Phase.Advances, advance]
  cases unprojected : service.unprojectGraph config faults id metadata with
  | error => exact .ends coherent holds (by simp [Answer.acknowledges])
  | ok next =>
    have reprojected : service.Reprojected id next := .unprojectGraph unprojected
    have undisturbed : ∀ other, Undisturbed service next other :=
      fun _ => .of_reprojected reprojected
    exact .idles (coherent.of_sameCore reprojected.toSameCore) undisturbed
      ((undisturbed id).settled holds) rfl

theorem advanced_tombstone (settled : service.Settled id)
    : tombstone.Advances config faults id service := by
  simp only [Phase.Advances, advance]
  cases marked : service.markDeleted faults id with
  | error => exact .ends coherent settled (by simp [Answer.acknowledges])
  | ok outcome =>
    obtain ⟨⟨found, mapping⟩, accepted, rfl⟩ := map_eq_ok.mp marked
    rcases markDeleted_eq_ok.mp accepted with
      ⟨absent, rfl, rfl⟩ | ⟨internalId, live, _, rfl, rfl⟩
    · refine .ends coherent settled fun told => ?_
      -- an entry that is not undeleted is deleted
      cases entry : service.idMapping.get id with
      | none => simp [IdMapping.exists, entry, Answer.acknowledges] at told
      | some row =>
        have deleted : row.deleted = true := by
          simpa [IdMapping.getInternalId, entry] using absent
        simp [IdMapping.isDeleted, entry, deleted]
    · have only : service.ExposedOnly id internalId := fun held exposed =>
        Option.some.inj ((settled.exposed held exposed).symm.trans live)
      refine ⟨coherent.tombstoned live, fun other different => .of_mapping ?_, ?_, by simp,
        by simp, ?_⟩
      · rw [get_tombstoned, if_neg (Ne.symm different)]
      · rintro _ ⟨⟩
        refine ⟨?_, only, coherent.allocated id internalId live⟩
        simp [IdMapping.isDeleted, get_tombstoned]
      · intro _ deleted
        rw [VectorService.not_isDeleted_of_live live] at deleted
        cases deleted

theorem advanced_deleteIndex
    (holds : (deleteIndex internalId).Holds service id)
    (guarded : faults.deletion = none)
    : (deleteIndex internalId).Advances config faults id service := by
  obtain ⟨deleted, only, used⟩ := holds
  have quietly : service.deleteIndex faults internalId
      = .ok (service.deleteQuietly none internalId) := by
    simp [VectorService.deleteIndex, VectorService.deleteQuietly, HnswIndex.delete, guarded]
  simp only [Phase.Advances, advance, quietly]
  refine .next rfl (coherent.deleteQuietly used none) (fun _ _ => .deleteQuietly)
    ⟨deleted, fun held exposed => ?_⟩
  exact absurd (only held exposed.of_delete) exposed.ne_of_delete

theorem advanced_dropLexical (hidden : service.Hidden id)
    : Advanced service id .dropLexical (service.dropLexical id) (.inl .dropDocuments) := by
  refine .next rfl (coherent.of_sameCore ⟨rfl, rfl⟩)
    (fun other different => ⟨fun _ exposed => exposed, rfl, ?_, rfl, Nat.le_refl _⟩)
    ⟨⟨hidden.deleted, hidden.unexposed⟩, ?_⟩
  · simp [VectorService.dropLexical, contains_remove, Ne.symm different]
  · simp [VectorService.dropLexical, contains_remove]

theorem advanced_dropDocuments
    (holds : dropDocuments.Holds service id)
    : Advanced service id .dropDocuments (service.dropDocuments id) (.inl .dropSql) := by
  obtain ⟨hidden, lexical⟩ := holds
  refine .next rfl (coherent.of_sameCore ⟨rfl, rfl⟩)
    (fun other different => ⟨fun _ exposed => exposed, rfl, rfl, ?_, Nat.le_refl _⟩)
    ⟨⟨hidden.deleted, hidden.unexposed⟩, lexical, ?_⟩
  · exact (lookup_erase ..).trans (if_neg (Ne.symm different))
  · exact (lookup_erase ..).trans (if_pos rfl)

theorem advanced_dropSql (holds : dropSql.Holds service id)
    : Advanced service id .dropSql (service.deleteSqlMetadata faults id)
        (.inr (.deleted .deleted)) := by
  have reprojected := (@VectorService.Reprojected.deleteSqlMetadata service faults id).1
  have undisturbed : ∀ other, Undisturbed service (service.deleteSqlMetadata faults id) other :=
    fun _ => .of_reprojected reprojected
  obtain ⟨hidden, lexical, documents⟩ := (undisturbed id).holds holds
  refine ⟨coherent.of_sameCore reprojected.toSameCore,
    fun _ _ => undisturbed _, by simp, ?_, fun _ _ _ => hidden.deleted, by simp [isQuiet]⟩
  exact fun _ _ => ⟨fun held exposed => absurd exposed (hidden.unexposed held),
    fun _ => lexical, fun _ => documents⟩

/-- Every guarded step of a request advances it.
Witness: one lemma for each phase.
-/
theorem Phase.advanced {phase : Phase} (holds : phase.Holds service id)
    (guarded : phase.Guarded faults service id)
    : phase.Advances config faults id service := by
  cases phase with
  | insertIndex => exact advanced_insertIndex coherent holds guarded
  | persist => exact advanced_persist coherent holds
  | rollBack => exact advanced_rollBack coherent holds guarded
  | removeReplaced => exact advanced_removeReplaced coherent holds
  | syncLexical => exact advanced_syncLexical coherent holds
  | syncDocuments => exact advanced_syncDocuments coherent holds
  | projectGraph => exact advanced_projectGraph coherent holds
  | mirrorSql => exact advanced_mirrorSql coherent holds
  | unproject => exact advanced_unproject coherent holds
  | tombstone => exact advanced_tombstone coherent holds
  | deleteIndex => exact advanced_deleteIndex coherent holds guarded
  | dropLexical => exact advanced_dropLexical coherent holds
  | dropDocuments => exact advanced_dropDocuments coherent holds
  | dropSql => exact advanced_dropSql coherent holds

end

end Steps

end AkiDB.Vectors
