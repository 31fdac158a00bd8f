import AkiDB.Vectors.InFlight

/-! Acknowledged deletions under interleaving hold where no update is let in for a deleted id. -/

namespace AkiDB.Vectors
open AkiDB.Common AtomicBatch Checked KeyedMaps List HnswIndex

/-- No search returns the id, and lexical index and document store do not hold it. -/
structure Gone (config : ServiceConfig) (service : VectorService) (id : String) : Prop where
  window : ∀ query params found, ∀ result ∈ service.index.windowResults config.floats
    config.hnsw query params found, result.id ≠ id
  search : ∀ usearch ctx request response,
    service.searchInner config usearch ctx request = .ok response
    → ∀ hit ∈ response.results, hit.id ≠ id
  lexical : service.lexical.contains id = false
  documents : service.documents[id]? = none

theorem Gone.of_unexposed {config service id} (unexposed : ∀ held, ¬service.index.Exposes id held)
    (lexical : service.lexical.contains id = false) (documents : service.documents[id]? = none)
    : Gone config service id where
  window := by
    rintro query params found result member rfl
    obtain ⟨candidate, _, exposed, _⟩ := mem_windowResults member
    exact unexposed candidate.1 exposed
  search := by
    rintro usearch ctx request response searched hit member rfl
    obtain ⟨_, _, _, _, _, result, listed, rfl⟩ :=
      VectorService.mem_searchInner config searched member
    obtain ⟨candidate, _, exposed, _⟩ := mem_windowResults listed
    exact unexposed candidate.1 exposed
  lexical := lexical
  documents := documents

/-- No update is let in for a deleted id, and the steps of requests expose nothing by mistake. -/
def ConcurrentStep.Guarded (state : ConcurrentState) : ConcurrentStep → Prop
  | begin _ _ (.update request) => state.service.idMapping.isDeleted request.id = false
  | advance id faults => ∀ phase ∈ state.inFlight[id]?, phase.Guarded faults state.service id
  | _ => True

instance (state : ConcurrentState) : (step : ConcurrentStep) → Decidable (step.Guarded state)
  | .begin _ _ (.update _) => inferInstanceAs (Decidable (_ = false))
  | .advance .. => inferInstanceAs (Decidable (∀ phase ∈ _, _))
  | .begin _ _ (.insert _) | .begin _ _ (.batchItem _) | .begin _ _ (.delete _)
  | .compact _ | .restart _ => .isTrue trivial

theorem Request.live_of_admit {config ctx faults state request write}
    (consistent : state.service.idMapping.Consistent)
    (guarded : (ConcurrentStep.begin ctx faults request).Guarded state)
    (admitted : request.accepts config ctx faults state.service = .ok (.write write))
    : state.service.idMapping.isDeleted request.id = false := by
  cases request with
  | insert request =>
    obtain ⟨accepted, checked, ⟨⟩⟩ := map_eq_ok.mp admitted
    simp only [VectorService.admitInsertRequest, bind_eq_ok] at checked
    obtain ⟨_, _, stamped, _, insert⟩ := checked
    obtain ⟨known, same, _, _, text⟩ := VectorService.admitted_insert consistent insert
    have live := known.live (by simp [text])
    rwa [same] at live
  | batchItem item =>
    obtain ⟨accepted, checked, ⟨⟩⟩ := map_eq_ok.mp admitted
    simp only [VectorService.admitBatchItem, bind_eq_ok] at checked
    obtain ⟨stamped, _, insert⟩ := checked
    obtain ⟨known, same, _, _, text⟩ := VectorService.admitted_insert consistent insert
    have live := known.live (by simp [text])
    rwa [same] at live
  | update request => exact guarded
  | delete request =>
    obtain ⟨_, _, absurdity⟩ := map_eq_ok.mp admitted
    cases absurdity

namespace VectorService

variable {config : ServiceConfig} {faults : MaintenanceFaults} {service next : VectorService}

theorem reloadHnsw_exposes {vectors index nextIndex mapping nextMapping id}
    (reloaded : reloadHnsw config faults vectors index mapping = .ok (nextIndex, nextMapping))
    (wellFormed : index.WellFormed)
    (exposed : ∀ held, index.Exposes id held → mapping.getInternalId id = some held)
    : (∀ held, nextIndex.Exposes id held → nextMapping.getInternalId id = some held)
      ∧ (mapping.isDeleted id = true → nextMapping.isDeleted id = true) := by
  induction vectors generalizing index mapping with
  | nil =>
    cases reloaded
    exact ⟨exposed, fun deleted => deleted⟩
  | cons stored rest ih =>
    obtain ⟨internalId, index', kind, kept, reloaded⟩ := reloadHnsw_cons reloaded
    have wellFormedNext := wellFormed.insertion kind
    obtain ⟨later, deletedLater⟩ := ih reloaded wellFormedNext fun held found => by
      rw [IdMapping.getInternalId_upserted]
      split
      · next same =>
          subst same
          rw [found.eq wellFormedNext (idMapping_of_insertion kind)]
      · next different =>
          exact exposed held (exposes_of_insertion wellFormed kind (Ne.symm different) found)
    refine ⟨later, fun deleted => deletedLater ?_⟩
    have different : stored.externalId ≠ id := by
      rintro rfl
      cases kept.symm.trans deleted
    unfold IdMapping.isDeleted at deleted ⊢
    rwa [IdMapping.get_upserted, if_neg different]

/-- A reloaded index serves the vectors it was given, and what it served under other ids. -/
theorem reloadHnsw_serves {vectors index nextIndex mapping nextMapping id served}
    (reloaded : reloadHnsw config faults vectors index mapping = .ok (nextIndex, nextMapping))
    (wellFormed : index.WellFormed) (unique : ∀ left ∈ vectors, ∀ right ∈ vectors,
      left.externalId = right.externalId → left = right)
    : nextIndex.Serves id served
      ↔ (∃ stored ∈ vectors, stored.externalId = id ∧ served = config.hnsw.quantize stored.vector)
        ∨ (∀ stored ∈ vectors, stored.externalId ≠ id) ∧ index.Serves id served := by
  induction vectors generalizing index mapping with
  | nil =>
    cases reloaded
    simp
  | cons stored rest ih =>
    obtain ⟨internalId, index', kind, _, reloaded⟩ := reloadHnsw_cons reloaded
    rw [ih reloaded (wellFormed.insertion kind) (fun left leftIn right rightIn =>
      unique left (mem_cons_of_mem _ leftIn) right (mem_cons_of_mem _ rightIn)),
      serves_of_insertion wellFormed kind]
    grind

theorem rebuildLexicalIndex_of_isDeleted {id} (deleted : service.idMapping.isDeleted id = true)
    : (service.rebuildLexicalIndex config).lexical.contains id = false
      ∧ (service.rebuildLexicalIndex config).documents[id]? = none := by
  have other : ∀ row ∈ service.liveTexts, id ≠ row.1 := by
    rintro row member rfl
    have live := (mem_filter.mp member).2
    rw [getInternalId_of_isDeleted deleted] at live
    cases live
  constructor
  · refine List.foldlRecOn (motive := fun lexical : Bm25Index => lexical.contains id = false)
      _ _ (by simp [Bm25Index.contains, Bm25Index.empty]) ?_
    intro lexical absent row member
    rwa [contains_insert_of_ne _ _ (other row member)]
  · refine List.foldlRecOn
      (motive := fun documents : KeyValueMap String String => documents[id]? = none)
      _ _ (lookup_empty id) ?_
    intro documents absent row member
    rwa [lookup_insert, if_neg (Ne.symm (other row member))]

theorem settled_restart (started : service.restart config faults = some next) (id : String)
    : next.Settled id
      ∧ (service.idMapping.isDeleted id = true → next.idMapping.isDeleted id = true) := by
  obtain ⟨exposed, deleted⟩ := @reloadHnsw_exposes config faults _ _ _ _ _ id
    (restart_eq_some started) wellFormed_empty (by simp [HnswIndex.Exposes, empty])
  refine ⟨?_, deleted⟩
  unfold restart at started
  split at started
  · cases started
  · obtain ⟨projected, rfl, _⟩ := rebuildProjections_eq_some started
    exact ⟨exposed, fun gone => (rebuildLexicalIndex_of_isDeleted gone).1,
      fun gone => (rebuildLexicalIndex_of_isDeleted gone).2⟩

/-- A restarted service serves exactly the active vectors of the mapping it was started from,
whatever the index was like before.
Witness: the index is filled from the mapping, one insertion for each active vector.
-/
theorem restart_serves_durable {allowed} (reachable : ReachableWhere config allowed service)
    (started : service.restart config faults = some next) (id : String) (served : List Score)
    : next.index.Serves id served ↔ ∃ stored, service.idMapping.vectors[id]? = some stored
      ∧ stored.deleted = false ∧ served = config.hnsw.quantize stored.vector := by
  have consistent := reachable.coherent.consistent
  have active {stored} := @consistent.mem_loadActiveVectors _ stored
  rw [reloadHnsw_serves (restart_eq_some started) wellFormed_empty fun _ leftIn _ rightIn same =>
    Option.some.inj ((active.mp leftIn).1.symm.trans (same ▸ (active.mp rightIn).1))]
  constructor
  · rintro (⟨stored, member, rfl, rfl⟩ | ⟨_, _, found, _⟩)
    · exact ⟨stored, (active.mp member).1, (active.mp member).2, rfl⟩
    · simp [empty] at found
  · rintro ⟨stored, found, live, rfl⟩
    have named := (consistent.entry found).1
    exact .inl ⟨stored, active.mpr ⟨named.symm ▸ found, live⟩, named, rfl⟩

end VectorService

/-- Requests in flight find what they rely on, and acknowledged deletions are made and not
undone. -/
structure ConcurrentState.Sound (state : ConcurrentState) : Prop where
  coherent : state.service.Coherent
  phases : ∀ id : String, HoldsAt state.service id state.inFlight[id]?
  deleted : ∀ id ∈ state.acknowledged, state.service.idMapping.isDeleted id = true
  quiet : ∀ id ∈ state.acknowledged, ∀ phase, state.inFlight[id]? = some phase
    → phase.isQuiet = true

namespace ConcurrentState.Sound

variable {config : ServiceConfig} {state next : ConcurrentState}

theorem blank (graph sql : Bool) : (ConcurrentState.blank graph sql).Sound where
  coherent := VectorService.coherent_blank graph sql
  phases := by
    intro id
    have absent : (ConcurrentState.blank graph sql).inFlight[id]? = none := lookup_empty id
    rw [absent]
    exact ⟨by simp [ConcurrentState.blank, VectorService.blank, HnswIndex.Exposes,
      empty], fun _ => by simp [ConcurrentState.blank, VectorService.blank,
      Bm25Index.contains, Bm25Index.empty], fun _ => lookup_empty id⟩
  deleted := by simp [ConcurrentState.blank]
  quiet := by simp [ConcurrentState.blank]

section
variable (sound : state.Sound)
include sound

theorem admits {ctx faults request admission} (free : state.inFlight[request.id]? = none)
    (guarded : (ConcurrentStep.begin ctx faults request).Guarded state)
    (admitted : request.accepts config ctx faults state.service = .ok admission)
    : Sound { state with
        inFlight := state.inFlight.insert request.id admission.firstPhase } := by
  have settled : state.service.Settled request.id := by
    have idle := sound.phases request.id
    rwa [free] at idle
  have known := Request.admit_sound sound.coherent.consistent admitted
  have first : admission.firstPhase.Holds state.service request.id := by
    cases admission with
    | write pending =>
      obtain ⟨checked, same⟩ := known
      refine ⟨⟨same, fun oldId old => ?_⟩, settled,
        Request.live_of_admit sound.coherent.consistent guarded admitted⟩
      exact sound.coherent.allocated pending.id oldId (checked.oldInternalId ▸ old)
    | deletion => exact settled
  refine ⟨sound.coherent, fun id => ?_, sound.deleted, fun id member phase found => ?_⟩
  · dsimp only
    rw [lookup_insert]
    split
    · next same => exact same ▸ first
    · exact sound.phases id
  · dsimp only at found
    rw [lookup_insert] at found
    split at found
    · next same =>
        cases found
        subst same
        cases admission with
        | write pending =>
          have live := Request.live_of_admit sound.coherent.consistent guarded admitted
          cases live.symm.trans (sound.deleted _ member)
        | deletion => rfl
    · exact sound.quiet id member phase found

theorem advances {id phase service outcome} (current : state.inFlight[id]? = some phase)
    (advanced : Advanced state.service id phase service outcome) {inFlight acknowledged}
    (own : inFlight[id]? = outcome.getLeft?)
    (rest : ∀ other : String, other ≠ id → inFlight[other]? = state.inFlight[other]?)
    (told : ∀ other ∈ acknowledged, other ∈ state.acknowledged
      ∨ other = id ∧ ∃ answer, outcome = .inr answer ∧ answer.acknowledges = true)
    : Sound ⟨service, inFlight, acknowledged⟩ := by
  refine ⟨advanced.coherent, fun other => ?_, fun other member => ?_,
    fun other member following found => ?_⟩
  · dsimp only
    by_cases same : other = id
    · subst same
      rw [own]
      cases outcome with
      | inl following => exact advanced.continues following rfl
      | inr answer => exact advanced.settles answer rfl
    · rw [rest other same]
      exact (advanced.others other same).holdsAt (sound.phases other)
  · dsimp only
    rcases told other member with earlier | ⟨rfl, answer, rfl, acknowledges⟩
    · by_cases same : other = id
      · subst same
        exact (advanced.quiet (sound.quiet _ earlier phase current) (sound.deleted _ earlier)).1
      · rw [(advanced.others other same).isDeleted]
        exact sound.deleted other earlier
    · exact advanced.acknowledged answer rfl acknowledges
  · dsimp only at found
    rcases told other member with earlier | ⟨rfl, answer, rfl, _⟩
    · by_cases same : other = id
      · subst same
        rw [own] at found
        cases outcome with
        | inl next =>
          cases found
          exact (advanced.quiet (sound.quiet _ earlier phase current)
            (sound.deleted _ earlier)).2 _ rfl
        | inr answer => cases found
      · rw [rest other same] at found
        exact sound.quiet other earlier following found
    · rw [own] at found
      cases found

theorem compacts (removeFails : Nat → Bool)
    : Sound { state with service := state.service.compactTombstones removeFails } where
  coherent := ⟨sound.coherent.wellFormed.triggerRebuild removeFails,
    sound.coherent.consistent, sound.coherent.allocated⟩
  phases := fun id => Undisturbed.holdsAt
    (.of_index (fun _ exposed => exposed.of_triggerRebuild) (Nat.le_refl _)) (sound.phases id)
  deleted := sound.deleted
  quiet := sound.quiet

theorem restarts {faults service} (started : state.service.restart config faults = some service)
    : Sound { state with service := service, inFlight := ∅ } where
  coherent := sound.coherent.restart started
  phases := fun id => by
    have absent : (∅ : KeyValueMap String Phase)[id]? = none := lookup_empty id
    rw [absent]
    exact (VectorService.settled_restart started id).1
  deleted := fun id member =>
    (VectorService.settled_restart started id).2 (sound.deleted id member)
  quiet := by simp

theorem step {step : ConcurrentStep} (guarded : step.Guarded state)
    (applied : step.apply config state = some next) : next.Sound := by
  cases step with
  | begin ctx faults request =>
    simp only [ConcurrentStep.apply] at applied
    split at applied
    · cases applied; exact sound
    · next unlocked =>
        split at applied
        · cases applied; exact sound
        · next admitted =>
            cases applied
            exact sound.admits (by simpa using unlocked) guarded admitted
  | advance id faults =>
    simp only [ConcurrentStep.apply] at applied
    split at applied
    · cases applied; exact sound
    · next phase current =>
        have holds := sound.phases id
        rw [current] at holds
        have advanced : phase.Advances config faults id state.service :=
          Phase.advanced sound.coherent holds (guarded phase current)
        unfold Phase.Advances at advanced
        generalize phase.advance config faults id state.service = outcome at applied advanced
        obtain ⟨service, following | answer⟩ := outcome
        · cases applied
          refine sound.advances current advanced ?_ ?_ fun _ member => .inl member
          · simp
          · intro other different
            rw [lookup_insert, if_neg (Ne.symm different)]
        · cases applied
          refine sound.advances current advanced ?_ ?_ ?_
          · simp
          · intro other different
            rw [lookup_erase, if_neg (Ne.symm different)]
          · intro other member
            split at member
            · next acknowledges =>
                rcases mem_cons.mp member with rfl | earlier
                · exact .inr ⟨rfl, answer, rfl, acknowledges⟩
                · exact .inl earlier
            · exact .inl member
  | compact removeFails => cases applied; exact sound.compacts removeFails
  | restart faults =>
    obtain ⟨service, started, rfl⟩ := Option.map_eq_some_iff.mp applied
    exact sound.restarts started

theorem gone {id} (acknowledged : id ∈ state.acknowledged)
    : Gone config state.service id := by
  have deleted := sound.deleted id acknowledged
  have settled : state.service.Settled id := by
    have holds := sound.phases id
    cases found : state.inFlight[id]? with
    | none => rwa [found] at holds
    | some phase =>
      have quiet := sound.quiet id acknowledged phase found
      rw [found] at holds
      cases phase <;> first | exact holds | exact absurd quiet (by simp [Phase.isQuiet])
  exact .of_unexposed (settled.hidden deleted).unexposed (settled.lexical deleted)
    (settled.documents deleted)

end

end ConcurrentState.Sound

/-- In every interleaving whose steps are guarded, an id whose deletion was acknowledged is gone.
Witness: the invariant at a quiet phase.
-/
theorem acknowledged_deletion_gone {config : ServiceConfig} {state : ConcurrentState}
    (interleaved : InterleavedWhere config (fun state step => step.Guarded state) state)
    {id : String} (acknowledged : id ∈ state.acknowledged)
    : Gone config state.service id :=
  (interleaved.invariant ConcurrentState.Sound.blank
    (fun _ _ _ sound guarded applied => sound.step guarded applied)).gone acknowledged

def deletionConfig : ServiceConfig := .small false []

def deletionCaller : AuthContext := ⟨"default", none⟩

def insertSteps : List ConcurrentStep :=
  .begin deletionCaller {} (.insert ⟨"c", "a", [.finite 1], [], "text"⟩)
    :: List.replicate 7 (.advance "a" {})

def deleteSteps (faults : WriteFaults) : List ConcurrentStep :=
  .begin deletionCaller {} (.delete ⟨"c", "a"⟩) :: List.replicate 6 (.advance "a" faults)

def updateSteps : List ConcurrentStep :=
  [.begin deletionCaller {} (.update ⟨"c", "a", [.finite 1], []⟩), .advance "a" {}]

def findFirst : Usearch := fun _ _ count => .ok ([(0, .finite 0)].take count)

theorem sound_findFirst {contents} (held : 0 ∈ contents)
    : findFirst.Sound contents where
  nodup := by
    rintro query breadth count found ⟨⟩
    exact (take_sublist ..).map _ |>.nodup (by simp)
  held := by
    rintro query breadth count found ⟨⟩ hit member
    have first := mem_of_mem_take member
    simp only [mem_singleton] at first
    exact first ▸ held
  bounded := by
    rintro query breadth count found ⟨⟩
    exact length_take_le ..

def deletionSearch : SearchRequest :=
  { collection := "c"
    query := [.finite 1]
    topK := 1
    nprobe := none
    filter := []
    tagFilter := none
    scoreThreshold := none
    groupBy := ""
    groupSize := none }

def deletionRun (steps : List ConcurrentStep) : Option ConcurrentState :=
  runWhere deletionConfig (fun _ _ => True) steps (.blank false false)

def returnedIds (state : ConcurrentState) : List String :=
  match state.service.searchInner deletionConfig findFirst deletionCaller deletionSearch with
  | .ok response => response.results.map (·.id)
  | .error _ => []

/-- A search returns a deleted vector during its update, and after a retried failed deletion. -/
theorem acknowledged_deletion_returns
    : (∃ state, Interleaved deletionConfig state ∧ "a" ∈ state.acknowledged
        ∧ findFirst.Sound state.service.index.contents ∧ returnedIds state = ["a"]
        ∧ ¬Gone deletionConfig state.service "a")
      ∧ ∃ state, Interleaved deletionConfig state ∧ "a" ∈ state.acknowledged
        ∧ findFirst.Sound state.service.index.contents ∧ returnedIds state = ["a"]
        ∧ state.service.lexical.contains "a" = true
        ∧ state.service.documents["a"]? = some "text" := by
  have first : (deletionRun (insertSteps ++ deleteSteps {} ++ updateSteps)).map
      (fun state => (state.acknowledged, state.service.index.contents.contains 0,
        returnedIds state)) = some (["a"], true, ["a"]) := by
    decide +kernel
  have second : (deletionRun (insertSteps
        ++ deleteSteps { deletion := some (.storageError "tombstone") } ++ deleteSteps {})).map
      (fun state => (state.acknowledged, state.service.index.contents.contains 0,
        returnedIds state, state.service.lexical.contains "a", state.service.documents["a"]?))
      = some (["a"], true, ["a"], true, some "text") := by
    decide +kernel
  obtain ⟨updating, ran, facts⟩ := Option.map_eq_some_iff.mp first
  obtain ⟨retried, ranAgain, factsAgain⟩ := Option.map_eq_some_iff.mp second
  simp only [Prod.mk.injEq] at facts factsAgain
  refine ⟨⟨updating, .run (.blank false false) ran, by simp [facts.1],
    sound_findFirst facts.2.1, facts.2.2, fun gone => ?_⟩,
    retried, .run (.blank false false) ranAgain, by simp [factsAgain.1],
    sound_findFirst factsAgain.2.1, factsAgain.2.2⟩
  have returned := facts.2.2
  unfold returnedIds at returned
  split at returned
  · next response searched =>
      obtain ⟨hit, member, same⟩ := mem_map.mp (returned ▸ mem_singleton_self "a")
      exact gone.search _ _ _ _ searched hit member same
  · cases returned

/-- Without such steps the deleted vector is gone. -/
theorem deleted_vector_gone
    : ∃ state, InterleavedWhere deletionConfig (fun state step => step.Guarded state) state
      ∧ "a" ∈ state.acknowledged ∧ Gone deletionConfig state.service "a" := by
  have ran : (runWhere deletionConfig (fun state step => step.Guarded state)
      (insertSteps ++ deleteSteps {}) (.blank false false)).map (·.acknowledged)
      = some ["a"] := by
    decide +kernel
  obtain ⟨state, reached, told⟩ := Option.map_eq_some_iff.mp ran
  have interleaved := InterleavedWhere.run (.blank false false) reached
  have acknowledged : "a" ∈ state.acknowledged := by simp [told]
  exact ⟨state, interleaved, acknowledged, acknowledged_deletion_gone interleaved acknowledged⟩

def storedService : VectorService :=
  Request.perform deletionConfig deletionCaller {} (.blank false false)
    (.insert ⟨"c", "a", [.finite 1], [], "text"⟩)

theorem restart_serves_durable_sample
    : ∃ next, storedService.restart deletionConfig {} = some next
      ∧ next.index.Serves "a" [.finite 1] := by
  have reachable : Reachable deletionConfig storedService :=
    @ReachableWhere.step _ _ _ _ (.request deletionCaller {} _) (.blank false false) trivial rfl
  obtain ⟨next, started⟩ := Option.isSome_iff_exists.mp
    (by decide +kernel : (storedService.restart deletionConfig {}).isSome)
  exact ⟨next, started, (VectorService.restart_serves_durable reachable started "a" [.finite 1]).mpr
    ⟨⟨"a", 0, [.finite 1], [0], false⟩, by decide +kernel⟩⟩

end AkiDB.Vectors
