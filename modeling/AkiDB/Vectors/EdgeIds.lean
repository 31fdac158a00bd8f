import AkiDB.Vectors.GraphIds

/-!
Ids of automatic edges. The ids of both ends are joined by the separator that they may contain
themselves, so only edges from ids without separators are told apart.
-/

namespace AkiDB.Vectors
open List GraphNodeId SizedKeys

/-- The kinds whose edge ids are made of vector ids, not of node ids. -/
def legacyKinds : List EdgeKind :=
  [.parentOf, .childOf, .relatedTo]

/-- An edge that is made from metadata, with the kind and the id that either end is built from. -/
structure AutomaticEdge where
  workspaceId : String
  kind : EdgeKind
  source : NodeKind × String
  target : NodeKind × String
  legacy_chunks : kind ∈ legacyKinds → source.1 = .chunk ∧ target.1 = .chunk

def AutomaticEdge.id (edge : AutomaticEdge) : String :=
  -- The older kinds are scoped as a whole, the others by the node ids of their ends.
  if edge.kind ∈ legacyKinds then
    scopedLegacyEdgeId edge.workspaceId (graphEdgeId edge.kind edge.source.2 edge.target.2)
  else
    graphEdgeId edge.kind (graphNodeId edge.workspaceId edge.source.1 edge.source.2)
      (graphNodeId edge.workspaceId edge.target.1 edge.target.2)

theorem toList_graphEdgeId (kind : EdgeKind) (source target : String)
    : (graphEdgeId kind source target).toList
      = "auto:".toList ++ (kind.asKey.toList ++ ':' :: (source ++ ":" ++ target).toList) := by
  change ("auto:" ++ kind.asKey ++ ":" ++ source ++ ":" ++ target).toList = _
  simp [String.toList_append]

variable {kind otherKind : EdgeKind} {source target other otherTarget : String}

theorem graphEdgeId_inj
    (same : graphEdgeId kind source target = graphEdgeId otherKind other otherTarget)
    : kind = otherKind ∧ source ++ ":" ++ target = other ++ ":" ++ otherTarget := by
  have keys (kind : EdgeKind) : ':' ∉ kind.asKey.toList := by cases kind <;> decide
  have chars := congrArg String.toList same
  rw [toList_graphEdgeId, toList_graphEdgeId] at chars
  obtain ⟨kinds, ends⟩ := append_separator_inj (keys _) (keys _) (append_cancel_left chars)
  refine ⟨?_, String.toList_inj.mp ends⟩
  have key := String.toList_inj.mp kinds
  revert key
  cases kind <;> cases otherKind <;> decide

theorem ends_inj (absent : ':' ∉ source.toList) (absentOther : ':' ∉ other.toList)
    (same : source ++ ":" ++ target = other ++ ":" ++ otherTarget)
    : source = other ∧ target = otherTarget := by
  have chars := congrArg String.toList same
  simp only [String.toList_append, append_assoc] at chars
  obtain ⟨sources, targets⟩ := append_separator_inj absent absentOther chars
  exact ⟨String.toList_inj.mp sources, String.toList_inj.mp targets⟩

theorem graphNodeId_append (workspaceId : String) (kind : NodeKind) (id text : String)
    : graphNodeId workspaceId kind id ++ text = graphNodeId workspaceId kind (id ++ text) := by
  apply String.toList_inj.mp
  change (scopedGraphNodeId _ (localNodeId ..) ++ text).toList
    = (scopedGraphNodeId _ (localNodeId ..)).toList
  unfold scopedGraphNodeId
  split <;> simp [toList_localNodeId, toList_scopedId, String.toList_append]

theorem scopedId_ne_graphEdgeId (workspaceId localId : String)
    : scopedId workspaceId localId ≠ graphEdgeId kind source target := by
  intro same
  have chars := congrArg String.toList same
  rw [toList_scopedId, toList_graphEdgeId] at chars
  simp at chars

variable {workspaceId otherWorkspace : String}

theorem scopedLegacyEdgeId_inj
    (same : scopedLegacyEdgeId workspaceId (graphEdgeId kind source target)
      = scopedLegacyEdgeId otherWorkspace (graphEdgeId otherKind other otherTarget))
    : workspaceId = otherWorkspace
      ∧ graphEdgeId kind source target = graphEdgeId otherKind other otherTarget := by
  unfold scopedLegacyEdgeId at same
  split at same <;> split at same
  · next default otherDefault => exact ⟨default.trans otherDefault.symm, same⟩
  · exact (scopedId_ne_graphEdgeId _ _ same.symm).elim
  · exact (scopedId_ne_graphEdgeId _ _ same).elim
  · exact scopedId_inj same

theorem kind_of_scopedLegacyEdgeId
    (same : scopedLegacyEdgeId workspaceId (graphEdgeId kind source target)
      = graphEdgeId otherKind other otherTarget)
    : kind = otherKind := by
  unfold scopedLegacyEdgeId at same
  split at same
  · exact (graphEdgeId_inj same).1
  · exact (scopedId_ne_graphEdgeId _ _ same).elim

/-- Edges from ids without separators have different ids.
Witness: a scoped id gives its parts back, and the first separator ends the source.
-/
theorem automaticEdge_ids_differ
    (edge other : { edge : AutomaticEdge // ':' ∉ edge.source.2.toList })
    : edge.1.id = other.1.id ↔ edge = other := by
  refine ⟨fun same => ?_, fun same => by rw [same]⟩
  obtain ⟨⟨workspaceId, kind, ⟨sourceKind, source⟩, ⟨targetKind, target⟩, chunks⟩, absent⟩ := edge
  obtain ⟨⟨otherWorkspace, otherKind, ⟨otherSource, other⟩, ⟨otherTarget, last⟩, otherChunks⟩,
    absentOther⟩ := other
  simp only [AutomaticEdge.id] at same
  split at same <;> split at same
  · next legacy _ =>
      obtain ⟨rfl, ids⟩ := scopedLegacyEdgeId_inj same
      obtain ⟨rfl, ends⟩ := graphEdgeId_inj ids
      obtain ⟨rfl, rfl⟩ := ends_inj absent absentOther ends
      obtain ⟨rfl, rfl⟩ := chunks legacy
      obtain ⟨rfl, rfl⟩ := otherChunks legacy
      rfl
  · next legacy typed => exact absurd (kind_of_scopedLegacyEdgeId same ▸ legacy) typed
  · next typed legacy => exact absurd (kind_of_scopedLegacyEdgeId same.symm ▸ legacy) typed
  · obtain ⟨rfl, ends⟩ := graphEdgeId_inj same
    -- A node id ends with the id of its node, so the target can be taken as a part of that.
    rw [graphNodeId_append, graphNodeId_append, graphNodeId_append, graphNodeId_append] at ends
    obtain ⟨rfl, rfl, joined⟩ := graphNodeId_inj ends
    obtain ⟨rfl, targets⟩ := ends_inj absent absentOther joined
    obtain ⟨_, rfl, rfl⟩ := graphNodeId_inj targets
    rfl

theorem separated_target_tells_apart
    : (⟨"default", .calls, (.chunk, "a"), (.chunk, "b:chunk:c"), by decide⟩ : AutomaticEdge).id
      ≠ (⟨"default", .calls, (.chunk, "a"), (.chunk, "c"), by decide⟩ : AutomaticEdge).id := by
  intro same
  have equal := (automaticEdge_ids_differ ⟨_, by decide⟩ ⟨_, by decide⟩).mp same
  simp at equal

/-- An entity whose id contains a separator, and a chunk whose id does. -/
theorem different_edges_share_id
    : let edge : AutomaticEdge :=
        ⟨"default", .calls, (.chunk, "a"), (.chunk, "b:chunk:c"), by decide⟩
      let other : AutomaticEdge :=
        ⟨"default", .calls, (.chunk, "a:chunk:b"), (.chunk, "c"), by decide⟩
      edge.source ≠ other.source ∧ edge.target ≠ other.target ∧ edge.id = other.id := by
  decide

end AkiDB.Vectors
