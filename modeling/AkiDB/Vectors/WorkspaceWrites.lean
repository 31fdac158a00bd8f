import AkiDB.Vectors.PackScope

/-!
Writes under workspace enforcement: what is stored for one workspace is out of reach of callers
from others.
-/

namespace AkiDB.Vectors
open AkiDB.Common AtomicBatch Checked KeyedMaps VectorService

/-- What the mapping holds of an id: its entry, its payload and its text. -/
def IdMapping.rows (mapping : IdMapping) (id : String)
    : Option IdMappingEntry × Option StoredVectorEntry × Option String :=
  (mapping.entries[id]?, mapping.vectors[id]?, mapping.texts[id]?)

/-- Requests one after another, each with its caller and its failures. -/
def performAll (config : ServiceConfig) (service : VectorService)
    (calls : List (AuthContext × WriteFaults × Request)) : VectorService :=
  calls.foldl (fun service (ctx, faults, request) => request.perform config ctx faults service)
    service

section

variable {config : ServiceConfig} {ctx : AuthContext} {faults : WriteFaults}
  {service : VectorService} {request : Request} {id other : String} {stored : StoredVectorEntry}

theorem rows_upserted (mapping : IdMapping) (different : other ≠ id) (internalId : Nat)
    (vector : List Score) (metadata : List UInt8) (text : Option String)
    : (mapping.upserted other internalId vector metadata text).rows id = mapping.rows id := by
  unfold IdMapping.upserted IdMapping.rows
  split <;> simp [lookup_insert, lookup_erase, different]

theorem rows_tombstoned (mapping : IdMapping) (different : other ≠ id) (entry : IdMappingEntry)
    : (mapping.tombstoned other entry).rows id = mapping.rows id := by
  unfold IdMapping.tombstoned IdMapping.rows
  split <;> simp [lookup_insert, lookup_erase, different]

theorem rows_writeVector {write : PendingWrite} (different : write.id ≠ id)
    : (service.writeVector config faults write).2.idMapping.rows id
      = service.idMapping.rows id := by
  have written := written_writeVector config faults write service
  generalize service.writeVector config faults write = outcome at written ⊢
  cases written with
  | refused | undone => rfl
  | stored _ finished =>
    rw [finished.reprojected.idMapping.trans idMapping_removeReplaced.1]
    exact rows_upserted _ different ..

theorem rows_deleteVector (different : other ≠ id) {metadata}
    : (service.deleteVector config faults other metadata).2.idMapping.rows id
      = service.idMapping.rows id := by
  have cleans : ∀ cleaned, service.unprojectGraph config faults other metadata = .ok cleaned
      → cleaned.idMapping = service.idMapping := by
    intro cleaned unprojected
    obtain ⟨graph, rfl⟩ := graph_of_unprojectGraph unprojected
    rfl
  have deleted := deleted_deleteVector config faults other metadata service
  generalize service.deleteVector config faults other metadata = outcome at deleted ⊢
  cases deleted with
  | refused => rfl
  | unmarked unprojected | absent unprojected => rw [cleans _ unprojected]
  | tombstoned _ unprojected =>
    rw [← cleans _ unprojected]
    exact rows_tombstoned _ different _
  | dropped unprojected =>
    rw [Reprojected.deleteSqlMetadata.1.idMapping, ← cleans _ unprojected]
    exact rows_tombstoned _ different _

/-- A request that is let in for a stored id comes from the workspace of its metadata. -/
theorem Request.accessible {admission}
    (accepted : request.accepts config ctx faults service = .ok admission)
    (held : service.idMapping.getVectorIncludingDeleted request.id = some stored)
    : config.metadataInAuthWorkspace stored.metadata ctx = true := by
  -- Each kind of request looks at the stored metadata before anything else of its id.
  cases request <;>
    simp only [accepts, map_eq_ok, admitInsertRequest, admitBatchItem, admitUpdateRequest,
      admitDeleteRequest, admitInsert, admitUpdate, admitDelete, ensureExistingVectorAccess,
      ensureInsertDoesNotCrossWorkspace, bind_eq_ok, pure_eq_ok, exists_unit, rejectIf_eq_ok,
      Request.id] at accepted held <;>
    grind

/-- Requests from outside the workspace of a stored vector leave its rows alone.
Witness: a request for its id is turned away, and others write to their own ids.
-/
theorem foreign_rows_kept (reachable : Reachable config service)
    (held : service.idMapping.vectors[id]? = some stored)
    (calls : List (AuthContext × WriteFaults × Request))
    (foreign : ∀ call ∈ calls, config.metadataInAuthWorkspace stored.metadata call.1 = false)
    : (performAll config service calls).idMapping.rows id = service.idMapping.rows id := by
  induction calls generalizing service with
  | nil => rfl
  | cons call rest ih =>
    obtain ⟨ctx, faults, request⟩ := call
    obtain ⟨outside, later⟩ := List.forall_mem_cons.mp foreign
    have different {admission}
        (accepted : request.accepts config ctx faults service = .ok admission)
        : request.id ≠ id := by
      rintro rfl
      exact Bool.false_ne_true (outside.symm.trans (Request.accessible accepted held))
    have kept : (request.perform config ctx faults service).idMapping.rows id
        = service.idMapping.rows id := by
      refine @Request.preserves _ _ (·.idMapping.rows id = service.idMapping.rows id) _ _ _
        reachable.coherent.consistent rfl ?_ ?_
      · intro write _ same accepted
        exact rows_writeVector (same ▸ different accepted)
      · intro metadata _ accepted
        exact rows_deleteVector (different accepted)
    have next := ReachableWhere.step reachable trivial
      (rfl : Operation.perform config (.request ctx faults request) service = _)
    exact (ih next ((congrArg (·.2.1) kept).trans held) later).trans kept

end

/-- Another workspace deletes and overwrites the record in vain. -/
theorem foreign_rows_kept_sample
    : (performAll packConfig (packService "a") [(⟨"b", none⟩, {}, .delete ⟨"c", "p"⟩),
        (⟨"b", none⟩, {}, documentRequest)]).idMapping.rows "p"
      = (packService "a").idMapping.rows "p" :=
  @foreign_rows_kept _ _ _ ⟨"p", 0, [.finite 1], [0], false⟩ (reachable_packService "a")
    (by decide +kernel) _ (by decide +kernel)

end AkiDB.Vectors
