import AkiDB.Vectors.Deletions

/-! What search structures hold beyond the durable mapping, as long as no deletion in them fails. -/

namespace AkiDB.Vectors
open AkiDB.Common AtomicBatch Checked KeyedMaps

namespace VectorService

/-- Index, lexical index and mirror hold the id only for its undeleted vector. -/
structure Owned (service : VectorService) (id : String) : Prop where
  exposed : ∀ held, service.index.Exposes id held
    → service.idMapping.getInternalId id = some held
  lexical : service.lexical.contains id = true
    → (service.idMapping.getInternalId id).isSome = true
  mirror : service.mirrored id = true → (service.idMapping.getInternalId id).isSome = true

/-- No search structure outlives the vectors it was filled from. -/
def Aligned (service : VectorService) : Prop :=
  ∀ id, service.Owned id

end VectorService

/-! Steps that do not touch an id -/

/-- A step leaves the id alone, its row in the mirror included. -/
structure Untouched (before after : VectorService) (id : String) : Prop
    extends Undisturbed before after id where
  mirror : after.mirrored id = before.mirrored id

namespace Untouched

variable {before middle after : VectorService} {id other : String}

theorem of_reprojected (reprojected : before.Reprojected other after) (different : id ≠ other)
    : Untouched before after id where
  toUndisturbed := .of_reprojected reprojected
  mirror := reprojected.mirror id different

theorem graph {graph}
    : Untouched before { before with graphIndex := graph } id :=
  ⟨.of_reprojected (.graph : before.Reprojected id _), rfl⟩

theorem trans (left : Untouched before middle id) (right : Untouched middle after id)
    : Untouched before after id where
  exposed held exposed := left.exposed held (right.exposed held exposed)
  entry := right.entry.trans left.entry
  lexical := right.toUndisturbed.lexical.trans left.toUndisturbed.lexical
  documents := right.documents.trans left.documents
  nextId := Nat.le_trans left.nextId right.nextId
  mirror := right.mirror.trans left.mirror

theorem owned (untouched : Untouched before after id) (owned : before.Owned id)
    : after.Owned id where
  exposed held exposed :=
    untouched.getInternalId ▸ owned.exposed held (untouched.exposed held exposed)
  lexical := by
    rw [untouched.toUndisturbed.lexical, untouched.getInternalId]
    exact owned.lexical
  mirror := by
    rw [untouched.mirror, untouched.getInternalId]
    exact owned.mirror

end Untouched

namespace VectorService

section Steps

variable {config : ServiceConfig} {faults : WriteFaults} {service next : VectorService}
  {id other : String} {internalId : Nat} {write : PendingWrite}

theorem untouched_insertion (wellFormed : service.index.WellFormed) {index answer}
    (kind : HnswIndex.Insertion config.hnsw faults.usearch service.index write.id write.vector
      answer index) (different : other ≠ write.id)
    : Untouched service { service with index := index } other :=
  ⟨.of_index (fun _ exposed => HnswIndex.exposes_of_insertion wellFormed kind different exposed)
    (wellFormed.nextId_of_insertion kind).1, rfl⟩

theorem untouched_syncText (different : other ≠ write.id)
    : Untouched service (service.syncText config write) other := by
  unfold syncText
  split
  · refine ⟨⟨fun _ exposed => exposed, rfl, ?_, ?_, Nat.le_refl _⟩, rfl⟩
    · unfold syncSourceText syncLexical syncDocuments
      split
      · simp [contains_remove, Ne.symm different]
      · exact contains_insert_of_ne _ _ different _
    · unfold syncSourceText syncLexical syncDocuments
      split
      · rw [lookup_erase, if_neg (Ne.symm different)]
      · rw [lookup_insert, if_neg (Ne.symm different)]
  · exact .graph

theorem untouched_removeReplaced
    : Untouched service (service.removeReplaced faults write internalId) other := by
  refine ⟨.removeReplaced, ?_⟩
  rcases @removeReplaced_cases service faults write internalId with same | ⟨_, _, same⟩
  · rw [same]
  · rw [same]
    rfl

theorem untouched_writeVector (wellFormed : service.index.WellFormed) (different : other ≠ write.id)
    : Untouched service (service.writeVector config faults write).2 other := by
  have written := written_writeVector config faults write service
  generalize service.writeVector config faults write = outcome at written ⊢
  cases written with
  | refused inserted =>
    have kind := service.index.insertion config.hnsw faults.usearch write.id write.vector
    rw [inserted] at kind
    exact untouched_insertion wellFormed kind different
  | undone kind =>
    exact (untouched_insertion wellFormed kind different).trans ⟨.deleteQuietly, rfl⟩
  | @stored internalId index _ kind finished =>
    have persisted : Untouched { service with index := index }
        { service with
          index := index
          idMapping := service.idMapping.upserted write.id internalId write.vector
            write.metadata write.text } other := by
      refine ⟨.of_mapping ?_, rfl⟩
      rw [IdMapping.get_upserted, if_neg (Ne.symm different)]
    exact ((((untouched_insertion wellFormed kind different).trans persisted).trans
      untouched_removeReplaced).trans (untouched_syncText different)).trans
      (.of_reprojected finished.reprojected different)

theorem untouched_deleteVector {metadata} (different : other ≠ id)
    : Untouched service (service.deleteVector config faults id metadata).2 other := by
  have cleans : ∀ cleaned, service.unprojectGraph config faults id metadata = .ok cleaned
      → Untouched service cleaned other := fun cleaned unprojected =>
    .of_reprojected (.unprojectGraph unprojected) different
  have entry : ∀ (cleaned : VectorService) internalId, Untouched cleaned { cleaned with
      idMapping := cleaned.idMapping.tombstoned id ⟨internalId, false⟩ } other := by
    intro cleaned internalId
    refine ⟨.of_mapping ?_, rfl⟩
    rw [IdMapping.get_tombstoned, if_neg (Ne.symm different)]
  have deleted := deleted_deleteVector config faults id metadata service
  generalize service.deleteVector config faults id metadata = outcome at deleted ⊢
  cases deleted with
  | refused => exact .graph
  | unmarked unprojected | absent unprojected => exact cleans _ unprojected
  | tombstoned _ unprojected => exact (cleans _ unprojected).trans (entry _ _)
  | @dropped cleaned internalId unprojected =>
    refine Untouched.trans ?_ (.of_reprojected Reprojected.deleteSqlMetadata.1 different)
    refine (((cleans _ unprojected).trans (entry _ internalId)).trans
      ⟨@Undisturbed.deleteQuietly _ _ internalId none, rfl⟩).trans ?_
    refine ⟨⟨fun _ exposed => exposed, rfl, ?_, ?_, Nat.le_refl _⟩, rfl⟩
    · simp [dropLexical, dropDocuments, contains_remove, Ne.symm different]
    · simp only [dropLexical, dropDocuments, lookup_erase, if_neg (Ne.symm different)]

end Steps

section Own

variable {config : ServiceConfig} {faults : WriteFaults} {service : VectorService}
  {id : String} {write : PendingWrite}

theorem Stored.owned {internalId : Nat} (stored : service.Stored id internalId)
    : service.Owned id where
  exposed held exposed := stored.exposed held exposed ▸ stored.live
  lexical _ := by rw [stored.live]; rfl
  mirror _ := by rw [stored.live]; rfl

theorem owned_writeVector (coherent : service.Coherent) (owned : service.Owned write.id)
    (adds : faults.usearch.addFails = none ∨ service.index.idMapping[write.id]? = none)
    (rollsBack : faults.rollback = none)
    : (service.writeVector config faults write).2.Owned write.id := by
  have written := written_writeVector config faults write service
  generalize service.writeVector config faults write = outcome at written ⊢
  cases written with
  | refused inserted =>
    exact ⟨fun held exposed => owned.exposed held
      (HnswIndex.exposes_of_failed_insert adds inserted exposed), owned.lexical,
      owned.mirror⟩
  | @undone internalId index _ kind =>
    refine ⟨fun held exposed => ?_, owned.lexical, owned.mirror⟩
    change ((index.delete internalId faults.rollback).2).Exposes write.id held at exposed
    rw [rollsBack] at exposed
    exact absurd (exposed.of_delete.eq (coherent.wellFormed.insertion kind)
      (HnswIndex.idMapping_of_insertion kind)) exposed.ne_of_delete
  | @stored internalId index _ kind finished =>
    have core := finished.reprojected.toSameCore
    refine @Stored.owned _ _ internalId ⟨?_, fun held exposed => ?_⟩
    · rw [core.idMapping, idMapping_removeReplaced.1, IdMapping.getInternalId_upserted, if_pos rfl]
    · rw [core.index, sameCore_syncText.index] at exposed
      exact (Undisturbed.removeReplaced.exposed held exposed).eq
        (coherent.wellFormed.insertion kind) (HnswIndex.idMapping_of_insertion kind)

theorem mirrored_deleteSqlMetadata (mirrors : faults.sql = false)
    : (service.deleteSqlMetadata faults id).mirrored id = false := by
  unfold deleteSqlMetadata mirrored
  cases service.metadataSqlIndex <;> simp [mirrors]

theorem owned_deleteVector (owned : service.Owned id) {metadata} (deletes : faults.deletion = none)
    (mirrors : faults.sql = false)
    : (service.deleteVector config faults id metadata).2.Owned id := by
  have cleans : ∀ cleaned, service.unprojectGraph config faults id metadata = .ok cleaned
      → cleaned.Owned id := by
    intro cleaned unprojected
    obtain ⟨graph, rfl⟩ := graph_of_unprojectGraph unprojected
    exact Untouched.graph.owned owned
  have deleted := deleted_deleteVector config faults id metadata service
  generalize service.deleteVector config faults id metadata = outcome at deleted ⊢
  cases deleted with
  | refused => exact owned
  | unmarked unprojected | absent unprojected => exact cleans _ unprojected
  | tombstoned fails => exact absurd deletes fails
  | @dropped cleaned internalId unprojected live =>
    refine ⟨fun held exposed => ?_, fun contained => ?_, fun row => ?_⟩
    · rw [Reprojected.deleteSqlMetadata.1.index] at exposed
      change (cleaned.index.delete internalId none).2.Exposes id held at exposed
      have same := (cleans _ unprojected).exposed held exposed.of_delete
      rw [live, Option.some.injEq] at same
      exact absurd same.symm exposed.ne_of_delete
    · unfold deleteSqlMetadata at contained
      rw [mirrors] at contained
      simp [dropLexical, dropDocuments, contains_remove] at contained
    · rw [mirrored_deleteSqlMetadata mirrors] at row
      cases row

end Own

section Maintenance

variable {config : ServiceConfig} {faults : MaintenanceFaults} {service next : VectorService}

/-- Reloading keeps undeleted ids undeleted. -/
theorem live_of_reloadHnsw {vectors index nextIndex mapping nextMapping id}
    (reloaded : reloadHnsw config faults vectors index mapping = .ok (nextIndex, nextMapping))
    (live : (mapping.getInternalId id).isSome = true)
    : (nextMapping.getInternalId id).isSome = true := by
  induction vectors generalizing index mapping with
  | nil => cases reloaded; exact live
  | cons stored rest ih =>
    obtain ⟨internalId, next, _, _, reloaded⟩ := reloadHnsw_cons reloaded
    refine ih reloaded ?_
    rw [IdMapping.getInternalId_upserted]
    split
    · rfl
    · exact live

theorem live_of_rebuildLexicalIndex {id}
    (contained : (service.rebuildLexicalIndex config).lexical.contains id = true)
    : (service.idMapping.getInternalId id).isSome = true := by
  by_contra gone
  refine absurd contained (Bool.not_eq_true _ ▸ ?_)
  refine List.foldlRecOn (motive := fun lexical : Bm25Index => lexical.contains id = false)
    service.liveTexts _ (by simp [Bm25Index.contains, Bm25Index.empty]) ?_
  intro lexical absent row member
  have other : id ≠ row.1 := by
    rintro rfl
    exact gone (List.mem_filter.mp member).2
  rwa [contains_insert_of_ne _ _ other]

theorem live_of_rebuildSqlMetadataIndex (consistent : service.idMapping.Consistent) {id}
    (held : (service.rebuildSqlMetadataIndex config faults).mirrored id = true)
    : service.mirrored id = true ∨ (service.idMapping.getInternalId id).isSome = true := by
  unfold rebuildSqlMetadataIndex at held
  split at held
  · exact .inl held
  · refine .inr ?_
    by_contra gone
    refine absurd held (Bool.not_eq_true _ ▸ ?_)
    unfold mirrored
    cases service.metadataSqlIndex with
    | none => rfl
    | some rows =>
      dsimp only [Option.map_some, Option.any_some]
      refine List.foldlRecOn
        (motive := fun rows : KeyValueMap String SqlMetadataRecord => rows.contains id = false)
        service.idMapping.loadActiveVectors _ (by simp) ?_
      intro rows absent stored member
      have other : stored.externalId ≠ id := by
        rintro rfl
        obtain ⟨found, kept⟩ := consistent.mem_loadActiveVectors.mp member
        obtain ⟨_, entry⟩ := consistent.entry found
        rw [kept] at entry
        exact gone (by rw [IdMapping.getInternalId_eq_some.mpr entry]; rfl)
      split
      · exact absent
      · simpa [Std.ExtTreeMap.contains_insert, other] using absent

theorem untouched_reconcileProjections {repairGraph id}
    : Untouched service (service.reconcileProjections config faults repairGraph).2 id := by
  rcases (@reconcileProjections_cases config faults service repairGraph).2 with same | same
  · rw [same]
    exact .graph
  · rw [same, rebuildGraphIndex_eq]
    exact .graph

/-- A restarted service is aligned if it was before. -/
theorem Aligned.restart (aligned : service.Aligned) (coherent : service.Coherent)
    (started : service.restart config faults = some next) : next.Aligned := by
  intro id
  have exposed := (settled_restart started id).1.exposed
  have consistent := (coherent.restart started).consistent
  have reloaded := restart_eq_some started
  unfold VectorService.restart at started
  rw [reloaded] at started
  obtain ⟨projected, same, ⟨_, mapping⟩, rows, _⟩ := rebuildProjections_eq_some started
  refine ⟨exposed, fun contained => ?_, fun held => ?_⟩
  · rw [same] at contained
    exact mapping ▸ live_of_rebuildLexicalIndex contained
  · have held : projected.mirrored id = true := by rw [same] at held; exact held
    rw [rows] at held
    have rebuilt := @live_of_rebuildSqlMetadataIndex config faults
      { service with index := next.index, idMapping := next.idMapping } consistent id held
    rcases rebuilt with kept | live
    · exact live_of_reloadHnsw reloaded ((aligned id).mirror kept)
    · exact live

end Maintenance

end VectorService

/-! Runs -/

/-- Index additions and rollback succeed, or a deletion does in index and mirror, if it gets
there. -/
def Request.KeepsAligned (faults : WriteFaults) (service : VectorService) : Request → Prop
  | .delete _ => faults.deletion = none ∧ faults.sql = false
  | request => faults.rollback = none
      ∧ (faults.usearch.addFails = none ∨ service.index.idMapping[request.id]? = none)

theorem Request.KeepsAligned.of_write {config ctx faults service} {request : Request} {write}
    (keeps : request.KeepsAligned faults service)
    (admitted : request.accepts config ctx faults service = .ok (.write write))
    : faults.rollback = none
      ∧ (faults.usearch.addFails = none ∨ service.index.idMapping[request.id]? = none) := by
  cases request with
  | delete =>
    obtain ⟨_, _, deletion⟩ := map_eq_ok.mp admitted
    cases deletion
  | insert | batchItem | update => exact keeps

theorem Request.KeepsAligned.of_deletion {config ctx faults service} {request : Request}
    {id : String} {metadata} (keeps : request.KeepsAligned faults service)
    (admitted : request.accepts config ctx faults service = .ok (.deletion id metadata))
    : faults.deletion = none ∧ faults.sql = false := by
  cases request with
  | delete => exact keeps
  | insert | batchItem | update =>
    obtain ⟨_, _, write⟩ := map_eq_ok.mp admitted
    cases write

def Operation.KeepsAligned (service : VectorService) : Operation → Prop
  | request _ faults asked => asked.KeepsAligned faults service
  | _ => True

/-- In every run without failing index deletions nothing outlives its vector. -/
theorem ReachableWhere.aligned {config service}
    (reachable : ReachableWhere config (fun before operation => operation.KeepsAligned before)
      service)
    : service.Aligned := by
  induction reachable with
  | blank graph sql =>
    intro id
    refine ⟨?_, ?_, ?_⟩
    · simp [VectorService.blank, HnswIndex.Exposes, HnswIndex.empty]
    · simp [VectorService.blank, Bm25Index.contains, Bm25Index.empty]
    · cases sql <;> simp [VectorService.blank, VectorService.mirrored]
  | @step before after operation earlier permitted performed ih =>
    have coherent := earlier.coherent
    cases operation with
    | request ctx faults asked =>
      cases performed
      refine Request.preserves coherent.consistent ih ?_ ?_
      · intro write admitted named accepted other
        by_cases same : other = write.id
        · subst same
          obtain ⟨rollsBack, adds⟩ := Request.KeepsAligned.of_write permitted accepted
          exact VectorService.owned_writeVector coherent (ih _) (named ▸ adds) rollsBack
        · exact Untouched.owned
            (VectorService.untouched_writeVector coherent.wellFormed same) (ih other)
      · intro metadata known accepted other
        by_cases same : other = asked.id
        · subst same
          obtain ⟨deletes, mirrors⟩ := Request.KeepsAligned.of_deletion permitted accepted
          exact VectorService.owned_deleteVector (ih _) deletes mirrors
        · exact Untouched.owned (VectorService.untouched_deleteVector same) (ih other)
    | compact removeFails =>
      cases performed
      intro id
      exact ⟨fun held exposed => (ih id).exposed held exposed.of_triggerRebuild,
        (ih id).lexical, (ih id).mirror⟩
    | reconcile faults repairGraph =>
      cases performed
      exact fun id => VectorService.untouched_reconcileProjections.owned (ih id)
    | restart faults => exact ih.restart coherent performed

end AkiDB.Vectors
