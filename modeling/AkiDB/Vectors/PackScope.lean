import AkiDB.Vectors.SearchResults

/-!
What a context pack may contain under workspace enforcement. Parents are read without a check.
-/

namespace AkiDB.Vectors
open AkiDB.Common AtomicBatch Checked List VectorService Option

/-- A live vector of the caller's workspace that passes the request's own filter. -/
structure InScope (config : ServiceConfig) (service : VectorService) (ctx : AuthContext)
    (request : TextSearchRequest) (id : String) : Prop where
  live : (service.idMapping.getVector id).isSome = true
  passes : ∃ metadata, service.loadMetadataValue config id = some metadata
    ∧ metadataInWorkspace metadata ctx.workspaceId = true
    ∧ ∀ own, MetadataFilter.build config.codec request.filter request.tagFilter = .ok own
      → own.all (·.matches config.codec metadata) = true

/-- A passage with the stored text and the citation of a vector in scope. -/
structure PassageInScope (config : ServiceConfig) (service : VectorService) (ctx : AuthContext)
    (request : TextSearchRequest) (passage : Passage) : Prop where
  scope : InScope config service ctx request passage.id
  text : service.documents[passage.id]? = some passage.text
  citation : passage.citation = service.citationForVector config passage.id

/-- A pack whose items, and whose text, are made of passages in scope. -/
structure PackInScope (config : ServiceConfig) (service : VectorService) (ctx : AuthContext)
    (request : TextSearchRequest) (pack : ContextPackV1) : Prop where
  items : ∀ item ∈ pack.items, InScope config service ctx request item.chunkId
    ∧ service.documents[item.chunkId]? = some item.text
    ∧ item.citation = service.retrievalCitationForVector config item.chunkId
  text : ∃ passages : List Passage,
    pack.text = "\n\n".intercalate (passages.map (render · .citation))
      ∧ ∀ passage ∈ passages, PassageInScope config service ctx request passage

/-- Wherever the metadata of a vector in scope names a parent with a text, that one is in scope. -/
def ParentsInScope (config : ServiceConfig) (service : VectorService) (ctx : AuthContext)
    (request : TextSearchRequest) : Prop :=
  ∀ id, InScope config service ctx request id
    → ∀ parent, parentIdFromMetadata config.codec (service.loadMetadata id) = some parent
    → ∀ text, service.documents[parent]? = some text → isBlank text = false
    → InScope config service ctx request parent

section Packs

variable {config : ServiceConfig} {service : VectorService} {ctx : AuthContext}
  {request : TextSearchRequest}

/-- A result is in scope and shows its stored metadata. -/
def HitInScope (config : ServiceConfig) (service : VectorService) (ctx : AuthContext)
    (request : TextSearchRequest) (hit : SearchHit) : Prop :=
  InScope config service ctx request hit.id ∧ hit.metadata = service.loadMetadata hit.id

theorem inScope_of_answers (enforced : config.acl.enforceWorkspace = true) {filter}
    (compiled : compileSearchFilter config request.filter request.tagFilter ctx = .ok filter) {id}
    (answers : service.Answers config filter id)
    : InScope config service ctx request id := by
  simp only [compileSearchFilter, bind_eq_ok, pure_eq_ok] at compiled
  obtain ⟨own, built, rfl⟩ := compiled
  obtain ⟨given, applied⟩ :=
    isSome_iff_exists.mp (@isSome_applyWorkspaceScope own ctx config.acl enforced)
  have matched := answers.2 given applied
  unfold metadataMatchesFilter at matched
  cases loaded : service.loadMetadataValue config id with
  | none => simp [loaded] at matched
  | some metadata =>
    rw [loaded] at matched
    obtain ⟨inWorkspace, ownPasses⟩ := matches_applyWorkspaceScope enforced applied matched
    refine ⟨answers.1, metadata, loaded, inWorkspace, fun other same => ?_⟩
    rw [mapError_eq_ok.mp built] at same
    cases same
    exact ownPasses

theorem resolveMatch_inScope (parents : ParentsInScope config service ctx request) {hit}
    (scope : HitInScope config service ctx request hit) {id text} (worded : text ≠ "")
    (resolved : (id, text) = resolveMatch (fun parent => service.documents[parent]?)
      (service.matchedChunk config hit))
    : InScope config service ctx request id ∧ service.documents[id]? = some text := by
  obtain ⟨inScope, stored⟩ := scope
  unfold resolveMatch at resolved
  split at resolved
  · next parent found =>
      obtain ⟨name, named, expanded⟩ := bind_eq_some_iff.mp found
      obtain ⟨content, kept, rfl⟩ := map_eq_some_iff.mp expanded
      obtain ⟨present, worded⟩ := filter_eq_some_iff.mp kept
      cases resolved
      refine ⟨parents _ inScope id ?_ text present (by simpa using worded), present⟩
      rw [← stored]
      exact named
  · cases resolved
    refine ⟨inScope, ?_⟩
    simp only [matchedChunk] at worded ⊢
    cases present : service.documents[hit.id]? with
    | none => simp [present] at worded
    | some => rfl

theorem mem_packPassages_inScope (parents : ParentsInScope config service ctx request) {results}
    (scope : ∀ hit ∈ results, HitInScope config service ctx request hit) {passage}
    (member : passage ∈ service.packPassages config results)
    : PassageInScope config service ctx request passage := by
  obtain ⟨bare, listed, rfl⟩ := mem_map.mp member
  obtain ⟨expanded, worded⟩ := mem_filter.mp listed
  obtain ⟨chunk, matched, resolved⟩ := mem_expandToParents expanded
  obtain ⟨hit, found, rfl⟩ := mem_map.mp matched
  obtain ⟨inScope, text⟩ :=
    resolveMatch_inScope parents (scope hit found) (by simpa using worded) resolved
  exact ⟨inScope, text, rfl⟩

theorem buildContextPack_inScope (parents : ParentsInScope config service ctx request) {results}
    (scope : ∀ hit ∈ results, HitInScope config service ctx request hit)
    (expandedIds : Option (List String)) (budget : Nat) (candidateLimited : Bool)
    : PackInScope config service ctx request
        (service.buildContextPack config results expandedIds budget candidateLimited) := by
  have passages : ∀ passage ∈ service.packPassages config results,
      PassageInScope config service ctx request passage :=
    fun _ => mem_packPassages_inScope parents scope
  refine ⟨fun item member => ?_, _, rfl, fun passage taken => ?_⟩
  · obtain ⟨id, _, built⟩ := mem_filterMap.mp member
    obtain ⟨passage, found, rfl⟩ := map_eq_some_iff.mp built
    have own : passage.id = id := by simpa using find?_some found
    obtain ⟨inScope, text, _⟩ := passages passage (mem_of_find?_eq_some found)
    exact ⟨own ▸ inScope, own ▸ text, rfl⟩
  · exact passages passage ((packPassages_sound _ _).1 passage taken)

/-- Every text search under enforcement packs only what is in scope, if the named parents are.
Witness: every mode packs results that pass the compiled filter.
-/
theorem pack_in_scope (enforced : config.acl.enforceWorkspace = true)
    (reachable : Reachable config service) {backends : SearchBackends}
    (sound : backends.usearch.Sound service.index.contents)
    (parents : ParentsInScope config service ctx request) {response : TextSearchResponse}
    (answered : service.textSearchInner config backends ctx request = .ok response)
    {pack : ContextPackV1} (packed : response.contextPack = some pack)
    : PackInScope config service ctx request pack := by
  simp only [textSearchInner, bind_eq_ok] at answered
  obtain ⟨plan, planned, answered⟩ := answered
  simp only [planTextSearch, bind_eq_ok, pure_eq_ok] at planned
  obtain ⟨_, _, _, _, _, _, _, _, filter, compiled, mode, _, rfl⟩ := planned
  have scope : ∀ {id}, service.Answers config filter id
      → InScope config service ctx request id := inScope_of_answers enforced compiled
  -- Under enforcement there is always a filter, at least that of the caller's workspace.
  have filtered : filter ≠ none := by
    simp only [compileSearchFilter, bind_eq_ok, pure_eq_ok] at compiled
    obtain ⟨own, _, rfl⟩ := compiled
    exact isSome_iff_ne_none.mp (isSome_applyWorkspaceScope enforced)
  split at answered
  · simp only [sqlMetadataTextSearch, bind_eq_ok, pure_eq_ok] at answered
    obtain ⟨_, _, _, _, _, _, ids, _, rfl⟩ := answered
    simp only [ite_none_right_eq_some, some.injEq] at packed
    obtain ⟨_, rfl⟩ := packed
    refine buildContextPack_inScope parents (fun hit member => ?_) _ _ _
    obtain ⟨id, listed, rfl⟩ := mem_map.mp (mem_of_mem_take member)
    have answers := answers_of_passes (mem_filter.mp listed).2
      fun missing => absurd missing filtered
    exact ⟨scope answers, rfl⟩
  · simp only [rankedTextSearch, bind_eq_ok, pure_eq_ok] at answered
    obtain ⟨dense, searched, rfl⟩ := answered
    simp only [ite_none_right_eq_some, some.injEq] at packed
    obtain ⟨wanted, rfl⟩ := packed
    rw [if_pos wanted]
    refine buildContextPack_inScope parents (fun hit member => ?_) _ _ _
    have expanded := ranked_expansion config backends _ request service ctx
      reachable.coherent sound (fun missing => absurd missing filtered) searched
    have listed := mem_of_mem_filter ((applyScoreAndGroup_sublist ..).subset member)
    have answers := (ranked_rankedHits config _ request service expanded).2 hit listed
    obtain ⟨item, _, rfl⟩ := mem_map.mp listed
    exact ⟨scope answers, rfl⟩

end Packs

def packConfig : ServiceConfig :=
  .small true [.object [("workspace_id", .string "a")], .object [("workspace_id", .string "b")],
      .object [("parent_id", .string "p"), ("workspace_id", .string "b")]]

def documentRequest : Request := .insert ⟨"c", "p", [.finite 1], [], "secret"⟩

def passageRequest : Request := .insert ⟨"c", "c", [.finite 1], [2], "x"⟩

def packService (owner : String) : VectorService :=
  passageRequest.perform packConfig ⟨"b", none⟩ {}
    (documentRequest.perform packConfig ⟨owner, none⟩ {} (.blank true true))

theorem reachable_packService (owner : String) : Reachable packConfig (packService owner) :=
  @ReachableWhere.step _ _ _ _ (.request ⟨"b", none⟩ {} passageRequest)
    (@ReachableWhere.step _ _ _ _ (.request ⟨owner, none⟩ {} documentRequest)
      (.blank true true) trivial rfl) trivial rfl

def packSearch : TextSearchRequest where
  collection := "c"
  text := "x"
  topK := 10
  retrievalMode := "bm25"
  pack := true

def packedTexts (config : ServiceConfig) (backends : SearchBackends) (ctx : AuthContext)
    (request : TextSearchRequest) (service : VectorService) : Option (List (String × String)) :=
  ((service.textSearchInner config backends ctx request).toOption.bind (·.contextPack)).map
    (·.items.map fun item => (item.chunkId, item.text))

theorem pack_of_packedTexts {config backends ctx request service texts}
    (evaluated : packedTexts config backends ctx request service = some texts)
    : ∃ response pack, service.textSearchInner config backends ctx request = .ok response
      ∧ response.contextPack = some pack
      ∧ pack.items.map (fun item => (item.chunkId, item.text)) = texts := by
  obtain ⟨pack, found, listed⟩ := map_eq_some_iff.mp evaluated
  obtain ⟨response, answered, packed⟩ := bind_eq_some_iff.mp found
  refine ⟨response, pack, ?_, packed, listed⟩
  cases outcome : service.textSearchInner config backends ctx request with
  | error => simp [outcome, Except.toOption] at answered
  | ok other => simpa [outcome, Except.toOption] using answered

/-- The pack of the second workspace shows the text of the first one. -/
theorem foreign_parent_packed
    : packConfig.acl.enforceWorkspace = true ∧ Reachable packConfig (packService "a")
      ∧ mentionBackends.usearch.Sound (packService "a").index.contents
      ∧ ∃ response pack, (packService "a").textSearchInner packConfig mentionBackends
          ⟨"b", none⟩ packSearch = .ok response
        ∧ response.contextPack = some pack
        ∧ pack.items.map (fun item => (item.chunkId, item.text)) = [("p", "secret")]
        ∧ ¬PackInScope packConfig (packService "a") ⟨"b", none⟩ packSearch pack := by
  have evaluated : packedTexts packConfig mentionBackends ⟨"b", none⟩ packSearch
      (packService "a") = some [("p", "secret")] := by decide +kernel
  obtain ⟨response, pack, answered, packed, listed⟩ := pack_of_packedTexts evaluated
  refine ⟨rfl, reachable_packService "a", sound_findFirst (by decide +kernel), response, pack,
    answered, packed, listed, fun inScope => ?_⟩
  have member : ("p", "secret") ∈ pack.items.map fun item => (item.chunkId, item.text) := by
    rw [listed]
    exact mem_cons_self
  obtain ⟨item, present, named⟩ := mem_map.mp member
  obtain ⟨scope, _, _⟩ := inScope.items item present
  obtain ⟨metadata, loaded, inWorkspace, _⟩ := scope.passes
  rw [(Prod.mk.inj named).1] at loaded
  have foreign : ((packService "a").loadMetadataValue packConfig "p").any
      (metadataInWorkspace · "b") = false := by decide +kernel
  rw [loaded] at foreign
  exact absurd (inWorkspace.symm.trans foreign) (by decide)

/-- A parent of the caller's own workspace is packed, in scope. -/
theorem own_parent_packed
    : ∃ response pack, (packService "b").textSearchInner packConfig mentionBackends
        ⟨"b", none⟩ packSearch = .ok response
      ∧ response.contextPack = some pack
      ∧ pack.items.map (fun item => (item.chunkId, item.text)) = [("p", "secret")]
      ∧ PackInScope packConfig (packService "b") ⟨"b", none⟩ packSearch pack := by
  have evaluated : packedTexts packConfig mentionBackends ⟨"b", none⟩ packSearch
      (packService "b") = some [("p", "secret")] := by decide +kernel
  obtain ⟨response, pack, answered, packed, listed⟩ := pack_of_packedTexts evaluated
  refine ⟨response, pack, answered, packed, listed, pack_in_scope rfl
    (reachable_packService "b") (sound_findFirst (by decide +kernel)) ?_ answered packed⟩
  intro id _ parent _ text present _
  have documents : (packService "b").documents.toList = [("c", "x"), ("p", "secret")] := by
    decide +kernel
  have stored := Std.ExtTreeMap.mem_toList_iff_getElem?_eq_some.mpr present
  rw [documents] at stored
  have own : ∀ entry ∈ [("c", "x"), ("p", "secret")],
      (packService "b").metadataMatchesFilter packConfig entry.1
        (.fields none none (some "b")) = true := by decide +kernel
  have compiled : compileSearchFilter packConfig packSearch.filter packSearch.tagFilter
      ⟨"b", none⟩ = .ok (some (.fields none none (some "b"))) := rfl
  have answers : (packService "b").Answers packConfig (some (.fields none none (some "b")))
      parent := answers_of_matches (own (parent, text) stored)
  exact inScope_of_answers rfl compiled answers

end AkiDB.Vectors
