import AkiDB.Ingestion.Pipeline
import AkiDB.Library.Runs

/-! Marks against duplicates, and when a mark stands for finished work. -/

namespace AkiDB.Ingestion
open Effects

section Marks

variable (config : PipelineConfig)

/-- What an event's own format makes of its content: the result of a Rust parser, or that of the
Python parser if it is one for that. -/
def Parses (event : UploadEvent) (data : List UInt8) (answer : Except IngestionError ParsedDocument)
    (parsed : ParsedDocument) : Prop :=
  config.parsers.routeParserWithData (config.parsers.detectUploadFormat event) data
      = some (.ok parsed)
    ∨ config.parsers.NeedsPython event data ∧ answer = .ok parsed

/-- The vectors are those of the content, one for each chunk of what was parsed for the event. -/
def InsertedBatch.Complete (batch : InsertedBatch) : Prop :=
  ∃ parsed embeddings, Parses config batch.event batch.data batch.answer parsed
    ∧ embeddings.length = (config.chunk parsed.text).length
    ∧ batch.vectors
      = buildVectors (config.hashContent batch.data) (config.chunk parsed.text) embeddings

/-- All vectors of the content were inserted by one batch that was made for it. -/
def Ingested (state : PipelineState) (data : List UInt8) : Prop :=
  ∃ batch ∈ state.inserted, batch.data = data ∧ batch.Complete config

/-- The marks are left alone and no batch is lost. -/
structure Works (before after : PipelineState) : Prop where
  marks : after.idempotency = before.idempotency
  inserted : before.inserted ⊆ after.inserted

instance : Std.Refl Works := ⟨fun _ => ⟨rfl, List.Subset.refl _⟩⟩

instance : IsTrans PipelineState Works :=
  ⟨fun _ _ _ first second =>
    ⟨second.marks.trans first.marks, List.Subset.trans first.inserted second.inserted⟩⟩

variable {config}

variable {after state : PipelineState} {data : List UInt8} {α : Type} {attempt : Attempt}
  {value : Unit} {contentHash : String}

variable {before : PipelineState}

theorem Ingested.mono (grows : before.inserted ⊆ after.inserted)
    (ingested : Ingested config before data)
    : Ingested config after data := by
  obtain ⟨batch, member, made⟩ := ingested
  exact ⟨batch, grows member, made⟩

/-- The attempt is not cut off behind its mark, is recorded, and can take its mark back. -/
structure Attempt.Unbroken (attempt : Attempt) : Prop where
  uncut : ∀ stage ∈ attempt.crash, stage = .fetch ∨ stage = .mark
  recorded : attempt.recording = none
  unmarked : attempt.unmarking = false

def Stop.IsFailure : Stop → Prop
  | .failed _ => True
  | .crashed => False

/-- Only a failure stops an unbroken attempt. -/
def Attempt.Stops (attempt : Attempt) (stop : Stop) : Prop :=
  attempt.Unbroken → stop.IsFailure

theorem works_liftResult (result : Except IngestionError α)
    : Behaves Works attempt.Stops (liftResult result) := by
  cases result with
  | ok value => exact .pure value
  | error error => exact .throw fun _ => trivial

theorem works_reach {stage : Stage} (later : stage ≠ .fetch) (marked : stage ≠ .mark)
    : Behaves Works attempt.Stops (attempt.reach stage) := by
  unfold Attempt.reach
  split_ifs with crashed
  · exact .throw fun unbroken => ((unbroken.uncut stage crashed).elim later marked).elim
  · exact fun state => ⟨Std.Refl.refl state, by simp [Effects.attempt]⟩

theorem works_modify {change : PipelineState → PipelineState}
    (kept : ∀ state, Works state (change state))
    : Behaves Works attempt.Stops (modify change : PipelineM PUnit) :=
  fun state => ⟨kept state, by simp⟩

theorem works_get : Behaves Works attempt.Stops (get : PipelineM PipelineState) :=
  fun state => ⟨Std.Refl.refl state, by simp⟩

theorem works_updateDocument (contentHash : String) (fault : Option IngestionError)
    (change : DocumentRecord → DocumentRecord)
    : Behaves Works attempt.Stops (updateDocument contentHash fault change) := by
  refine .bind works_get fun state => ?_
  split
  · exact .throw fun _ => trivial
  · exact .throw fun _ => trivial
  · exact works_modify fun _ => ⟨rfl, List.Subset.refl _⟩

theorem works_processDocumentInternal (attempt : Attempt) (contentHash : String) (data : List UInt8)
    : Behaves Works attempt.Stops (processDocumentInternal config attempt contentHash data) := by
  have update := @works_updateDocument attempt contentHash
  have parsing : Behaves Works attempt.Stops (parse config attempt data) :=
    .bind works_get fun _ => .bind (works_modify fun _ => ⟨rfl, List.Subset.refl _⟩) fun _ =>
      works_liftResult _
  have inserting (vectors : List VectorInsert)
      : Behaves Works attempt.Stops (insertVectors attempt data vectors) :=
    .bind (works_liftResult _) fun _ => .bind (works_liftResult _) fun _ =>
      works_modify fun _ => ⟨rfl, List.subset_append_left _ _⟩
  have preparing : Behaves Works attempt.Stops
      (prepareVectors config attempt contentHash data) := by
    refine .bind (works_reach ?_ ?_) fun _ => .bind (update _ _) fun _ =>
      .bind (works_reach ?_ ?_) fun _ => .bind parsing fun _ => .bind (works_reach ?_ ?_) fun _ =>
      .bind (update _ _) fun _ => .bind (works_reach ?_ ?_) fun _ => .bind (update _ _) fun _ =>
      .bind (works_reach ?_ ?_) fun _ => .bind (update _ _) fun _ =>
      .bind (works_reach ?_ ?_) fun _ => .bind (works_liftResult _) fun _ =>
      .bind (works_liftResult _) fun _ => .pure _
    all_goals decide
  refine .bind preparing fun _ => .bind (works_reach ?_ ?_) fun _ => .bind (update _ _) fun _ =>
    .bind (works_reach ?_ ?_) fun _ => .bind (inserting _) fun _ =>
    .bind (works_reach ?_ ?_) fun _ => update _ _
  all_goals decide

/-! A document that is done has its vectors -/

theorem liftResult_eq_ok {result} {value : α}
    : (liftResult result).from state = (.ok value, after)
      ↔ result = .ok value ∧ after = state := by
  cases result <;> simp [liftResult, eq_comm]

theorem parses_of_parse {parsed}
    (done : (parse config attempt data).from state = (.ok parsed, after))
    : Parses config attempt.event data attempt.answer parsed := by
  simp only [parse, bind_eq_ok, liftResult_eq_ok] at done
  obtain ⟨_, _, _, _, _, _, result, _⟩ := done
  unfold parseDocument at result
  dsimp only at result
  cases route : config.parsers.routeParserWithData
      (config.parsers.detectUploadFormat attempt.event) data with
  | some answer =>
    rw [route] at result
    exact .inl (route.trans (congrArg some result))
  | none =>
    rw [route] at result
    dsimp only at result
    split at result
    · next asked =>
      -- only an answer that the breaker let through is a result
      refine .inr ⟨⟨route, asked⟩, ?_⟩
      cases answered : attempt.answer with
      | ok other => grind
      | error error => grind
    · cases result

variable {vectors : List VectorInsert}

theorem insertVectors_eq_ok
    (done : (insertVectors attempt data vectors).from state = (.ok value, after))
    : ⟨attempt.event, data, attempt.answer, vectors⟩ ∈ after.inserted := by
  simp only [insertVectors, bind_eq_ok, from_modify] at done
  obtain ⟨_, _, _, _, _, _, last⟩ := done
  rw [← (Prod.mk.inj last).2]
  exact List.mem_append_right _ List.mem_cons_self

theorem aligned_of_ensureEmbeddingAlignment {chunkCount embeddingCount : Nat}
    (done : ensureEmbeddingAlignment chunkCount embeddingCount = .ok value)
    : embeddingCount = chunkCount := by
  unfold ensureEmbeddingAlignment at done
  split at done
  · cases done
  · next same => exact (not_not.mp same).symm

theorem prepareVectors_eq_ok
    (done : (prepareVectors config attempt contentHash data).from state = (.ok vectors, after))
    : ∃ parsed embeddings, Parses config attempt.event data attempt.answer parsed
      ∧ embeddings.length = (config.chunk parsed.text).length
      ∧ vectors = buildVectors contentHash (config.chunk parsed.text) embeddings := by
  simp only [prepareVectors, bind_eq_ok, liftResult_eq_ok, from_pure, Prod.mk.injEq,
    Except.ok.injEq] at done
  obtain ⟨_, _, _, _, _, _, _, _, _, parsed, _, parsing, _, _, _, _, _, _, _, _, _, _, _, _, _,
    _, _, _, _, _, _, _, _, embeddings, _, _, _, _, ⟨aligned, _⟩, same, _⟩ := done
  exact ⟨parsed, embeddings, parses_of_parse parsing,
    aligned_of_ensureEmbeddingAlignment aligned, same.symm⟩

theorem ingested_of_processDocumentInternal
    (done : (processDocumentInternal config attempt (config.hashContent data) data).from state
      = (.ok value, after))
    : Ingested config after data := by
  simp only [processDocumentInternal, bind_eq_ok] at done
  obtain ⟨vectors, _, prepared, _, _, _, _, _, _, _, _, _, _, inserted, insertion, ending⟩ := done
  obtain ⟨parsed, embeddings, parses, aligned, rfl⟩ := prepareVectors_eq_ok prepared
  have finishing : Behaves Works attempt.Stops (attempt.reach .completed >>= fun _ =>
      updateState attempt (config.hashContent data) .completed) :=
    .bind (works_reach (by decide) (by decide)) fun _ => works_updateDocument _ _ _
  have kept := (finishing inserted).1
  rw [bind_eq_ok.mpr ending] at kept
  exact ⟨_, kept.inserted (insertVectors_eq_ok insertion), rfl, parsed, embeddings, parses, aligned,
    rfl⟩

/-! Attempts that take their mark back -/

theorem from_reach (attempt : Attempt) (stage : Stage) (state : PipelineState)
    : (attempt.reach stage).from state
      = (if attempt.crash = some stage then .error .crashed else .ok (), state) := by
  unfold Attempt.reach Effects.attempt
  split_ifs <;> rfl

variable {attempt : Attempt}

theorem reach_eq_pure (unbroken : attempt.Unbroken) {stage} (later : stage ≠ .fetch)
    (marked : stage ≠ .mark)
    : attempt.reach stage = pure () := by
  have uncut : attempt.crash ≠ some stage := fun crashed =>
    (unbroken.uncut stage crashed).elim later marked
  unfold Attempt.reach
  rw [if_neg uncut]
  rfl

theorem from_rollBack (unbroken : attempt.Unbroken) (contentHash : String)
    (error : IngestionError) (state : PipelineState)
    : ∃ after, (rollBack attempt contentHash error).from state = (.error (.failed error), after)
      ∧ after.idempotency = state.idempotency.unmarkHash contentHash false
      ∧ after.inserted = state.inserted := by
  unfold rollBack
  rw [reach_eq_pure unbroken (by decide) (by decide),
    reach_eq_pure unbroken (by decide) (by decide), unbroken.unmarked]
  refine ⟨_, rfl, ?_, ?_⟩
  all_goals
    dsimp only [modify, modifyGet]
    split <;> rfl

/-! Runs -/

variable (config)

/-- The content behind a hash has its vectors. -/
def HashIngested (state : PipelineState) (contentHash : String) : Prop :=
  ∃ data, config.hashContent data = contentHash ∧ Ingested config state data

/-- Every mark, in memory or in the table, stands for finished work. -/
def Sound (state : PipelineState) : Prop :=
  ∀ contentHash, state.idempotency.Remembers contentHash → HashIngested config state contentHash

/-- Marks stand for finished work afterwards too, and no batch is lost. -/
structure Continues (before after : PipelineState) : Prop where
  sound : Sound config after
  inserted : before.inserted ⊆ after.inserted

variable {config}

theorem HashIngested.mono (grows : before.inserted ⊆ after.inserted)
    (ingested : HashIngested config before contentHash)
    : HashIngested config after contentHash := by
  obtain ⟨data, same, ingested⟩ := ingested
  exact ⟨data, same, ingested.mono grows⟩

theorem Continues.refl (sound : Sound config state)
    : Continues config state state :=
  ⟨sound, List.Subset.refl _⟩

theorem Continues.trans {first second third} (earlier : Continues config first second)
    (later : Continues config second third)
    : Continues config first third :=
  ⟨later.sound, List.Subset.trans earlier.inserted later.inserted⟩

theorem from_checkAndMark (contentHash : String) (state : PipelineState)
    : (checkAndMark attempt contentHash).from state
      = (.ok (state.idempotency.checkAndMark contentHash attempt.now attempt.marking).1,
        { state with idempotency :=
          (state.idempotency.checkAndMark contentHash attempt.now attempt.marking).2 }) :=
  rfl

theorem Sound.duplicate (sound : Sound config state) {now : Nat} {faults}
    (marked : (state.idempotency.checkAndMark contentHash now faults).1 = true)
    : (state.idempotency.checkAndMark contentHash now faults).2 = state.idempotency
      ∧ HashIngested config state contentHash := by
  unfold IdempotencyChecker.checkAndMark at marked ⊢
  split at marked
  · next found =>
    exact ⟨by rw [if_pos found], sound _ (.inl (List.contains_iff_mem.mp found))⟩
  · cases marked

variable {result : Except Stop Unit}

theorem from_processMarked (unbroken : attempt.Unbroken) {marked} (sound : Sound config state)
    (inserted : marked.inserted = state.inserted)
    (marks : ∀ contentHash, marked.idempotency.Remembers contentHash →
      contentHash = config.hashContent data ∨ state.idempotency.Remembers contentHash)
    (ran : (processMarked config attempt data).from marked = (result, after))
    : Continues config state after
      ∧ (result = .ok () → HashIngested config after (config.hashContent data)) := by
  unfold processMarked at ran
  rw [from_tryCatch] at ran
  cases document : (processDocumentInternal config attempt (config.hashContent data) data).from
      marked with
  | mk outcome worked =>
    have behaves := @works_processDocumentInternal config attempt (config.hashContent data) data
      marked
    rw [document] at behaves
    obtain ⟨works, stops⟩ := behaves
    have grows : state.inserted ⊆ worked.inserted := inserted ▸ works.inserted
    rw [document] at ran
    cases outcome with
    | ok value =>
      obtain ⟨rfl, rfl⟩ := Prod.mk.inj ran
      have ingested := ingested_of_processDocumentInternal document
      refine ⟨⟨fun contentHash remembers => ?_, grows⟩, fun _ => ⟨data, rfl, ingested⟩⟩
      rw [works.marks] at remembers
      rcases marks contentHash remembers with rfl | before
      · exact ⟨data, rfl, ingested⟩
      · exact (sound _ before).mono grows
    | error stop =>
      cases stop with
      | crashed => exact (stops _ rfl unbroken).elim
      | failed error =>
        obtain ⟨last, rolled, unmarked, same⟩ :=
          from_rollBack unbroken (config.hashContent data) error worked
        obtain ⟨rfl, rfl⟩ := Prod.mk.inj (rolled.symm.trans ran)
        have kept : state.inserted ⊆ last.inserted := same ▸ grows
        refine ⟨⟨fun contentHash remembers => ?_, kept⟩, by simp⟩
        rw [unmarked, works.marks] at remembers
        obtain ⟨other, before⟩ :=
          IdempotencyChecker.remembers_unmarkHash remembers
        exact (sound _ ((marks _ before).resolve_left other)).mono kept

theorem from_processEvent (unbroken : attempt.Unbroken) (sound : Sound config state)
    (ran : (processEvent config attempt).from state = (result, after))
    : Continues config state after
      ∧ (result = .ok () → ∃ data, attempt.fetched = .ok data
        ∧ HashIngested config after (config.hashContent data)) := by
  have unchanged {stop : Stop} (stopped : (Except.error stop, state) = (result, after))
      : Continues config state after ∧ (result = .ok () → ∃ data, attempt.fetched = .ok data
        ∧ HashIngested config after (config.hashContent data)) := by
    obtain ⟨rfl, rfl⟩ := Prod.mk.inj stopped
    exact ⟨.refl sound, by simp⟩
  unfold processEvent at ran
  rw [from_bind, from_reach] at ran
  split_ifs at ran with crashed
  · exact unchanged ran
  cases fetched : attempt.fetched with
  | error error =>
    dsimp only at ran
    rw [fetched, from_bind_error (by rfl)] at ran
    exact fetched ▸ unchanged ran
  | ok data =>
    dsimp only at ran
    rw [fetched, from_bind_ok (by rfl), from_bind, from_reach] at ran
    split_ifs at ran with crashed
    · exact fetched ▸ unchanged ran
    dsimp only at ran
    rw [from_bind_ok (from_checkAndMark _ _)] at ran
    split at ran
    · next duplicate =>
      obtain ⟨same, ingested⟩ := sound.duplicate duplicate
      rw [same] at ran
      obtain ⟨rfl, rfl⟩ := Prod.mk.inj ran
      exact ⟨.refl sound, fun _ => ⟨data, rfl, ingested⟩⟩
    · rw [reach_eq_pure unbroken (by decide) (by decide), unbroken.recorded,
        from_bind_ok (by rfl), from_bind_ok (by rfl)] at ran
      have marks (contentHash : String) := @IdempotencyChecker.remembers_checkAndMark contentHash
        state.idempotency (config.hashContent data) attempt.now attempt.marking
      obtain ⟨continues, done⟩ := from_processMarked unbroken sound (by rfl) marks ran
      exact ⟨continues, fun succeeded => ⟨data, rfl, done succeeded⟩⟩

theorem processEvents_continues {attempts} (unbroken : ∀ attempt ∈ attempts, attempt.Unbroken)
    (sound : Sound config state)
    : Continues config state (processEvents config attempts state).2
      ∧ ∀ outcomes ∈ (processEvents config attempts state).1, eventErrors outcomes = [] →
        ∀ attempt ∈ attempts, ∃ data, attempt.fetched = .ok data
          ∧ HashIngested config (processEvents config attempts state).2
            (config.hashContent data) := by
  induction attempts generalizing state with
  | nil => exact ⟨.refl sound, by simp⟩
  | cons attempt rest ih =>
    obtain ⟨first, later⟩ := List.forall_mem_cons.mp unbroken
    cases ran : (processEvent config attempt).from state with
    | mk result between =>
      obtain ⟨continues, done⟩ := from_processEvent first sound ran
      obtain ⟨remaining, others⟩ := ih later continues.sound
      unfold processEvents
      rw [ran]
      cases result with
      | ok value =>
        refine ⟨continues.trans remaining, fun outcomes found succeeded => ?_⟩
        obtain ⟨tail, tailFound, rfl⟩ := Option.mem_map.mp found
        obtain ⟨data, fetched, ingested⟩ := done rfl
        refine List.forall_mem_cons.mpr ⟨⟨data, fetched, ?_⟩, ?_⟩
        · exact ingested.mono remaining.inserted
        · exact others tail tailFound succeeded
      | error stop =>
        cases stop with
        | crashed => exact ⟨continues, by simp⟩
        | failed error =>
          refine ⟨continues.trans remaining, fun outcomes found succeeded => ?_⟩
          obtain ⟨tail, _, rfl⟩ := Option.mem_map.mp found
          simp [eventErrors] at succeeded

theorem Sound.restart (sound : Sound config state)
    : Sound config (state.restart config) := fun contentHash remembers =>
  sound contentHash (.inr (IdempotencyChecker.remembers_newPersistent remembers))

def Message.attempts (message : Message) : List Attempt :=
  match message.events with
  | .ok attempts => attempts
  | .error _ => []

theorem deliver_continues {message} (unbroken : ∀ attempt ∈ message.attempts, attempt.Unbroken)
    (sound : Sound config state)
    : Sound config (deliver config message state).2
      ∧ (.ack ∈ (deliver config message state).1.map (·.1) →
        ∀ attempt ∈ message.attempts, ∃ data, attempt.fetched = .ok data
          ∧ HashIngested config (deliver config message state).2 (config.hashContent data)) := by
  unfold deliver Message.attempts at *
  cases events : message.events with
  | error error => exact ⟨sound, by simp⟩
  | ok attempts =>
    rw [events] at unbroken
    obtain ⟨continues, done⟩ := processEvents_continues unbroken sound
    dsimp only at *
    revert continues done
    cases processEvents config attempts state with
    | mk outcomes after =>
      intro continues done
      cases outcomes with
      | none => exact ⟨continues.sound.restart, by simp⟩
      | some outcomes =>
        refine ⟨continues.sound, fun acknowledged => done outcomes rfl ?_⟩
        rcases @processMessage_ok outcomes with ⟨succeeded, _⟩ | ⟨failed, reason, result⟩
        · exact List.map_eq_nil_iff.mp succeeded
        · dsimp only at acknowledged
          rw [result] at acknowledged
          cases outcome : decideFailureOutcome (.other reason) message.delivery.attempt with
          | redeliver => simp [settle_redeliver outcome] at acknowledged
          | deadLetter => simp [settle_deadLetter outcome] at acknowledged

/-- Attempts of a delivered message are not cut off after their mark, are recorded, and can take it
back. -/
def PipelineAction.Unbroken : PipelineAction → Prop
  | .deliver message => ∀ attempt ∈ message.attempts, attempt.Unbroken
  | .restart => True

/-- Along every run of unbroken attempts, an acknowledged message has the vectors of what its events
fetched.
Witness: marks stand for finished work after every action.
-/
theorem acknowledged_ingested (collisionFree : Function.Injective config.hashContent)
    {actions : List PipelineAction}
    (unbroken : Runs.Along (PipelineAction.perform config) (fun _ => PipelineAction.Unbroken)
      (.blank config) actions)
    : let state := actions.foldl (PipelineAction.perform config) (.blank config)
      (∀ message : Message, (PipelineAction.deliver message).Unbroken →
        .ack ∈ (deliver config message state).1.map (·.1) →
          ∀ attempt ∈ message.attempts, ∃ data, attempt.fetched = .ok data
            ∧ Ingested config (deliver config message state).2 data)
      ∧ ∀ data, config.hashContent data ∈ state.idempotency.processed →
          Ingested config state data := by
  have contents {state : PipelineState} {data : List UInt8}
      (ingested : HashIngested config state (config.hashContent data))
      : Ingested config state data := by
    obtain ⟨other, same, ingested⟩ := ingested
    exact collisionFree same ▸ ingested
  have sound : Sound config (actions.foldl (PipelineAction.perform config) (.blank config)) := by
    refine unbroken.invariant (fun state action sound unbroken => ?_) ?_
    · cases action with
      | deliver message => exact (deliver_continues unbroken sound).1
      | restart => exact sound.restart
    · intro contentHash remembers
      cases IdempotencyChecker.remembers_newPersistent remembers
  refine ⟨fun message allowed acknowledged attempt member => ?_, fun data marked => ?_⟩
  · obtain ⟨data, fetched, ingested⟩ :=
      (deliver_continues allowed sound).2 acknowledged attempt member
    exact ⟨data, fetched, contents ingested⟩
  · exact contents (sound _ (.inl marked))

end Marks

/-! Samples -/

def textConfig : PipelineConfig where
  parsers := ⟨fun _ => .txt, fun _ _ => some (.ok ⟨"hello", .txt⟩)⟩
  chunk := fun text => [text]
  hashContent := fun data => String.ofList (data.map fun byte => Char.ofNat byte.toNat)
  breaker := ⟨5, 30, 1⟩
  maxEntries := 10

def textUpload (crash : Option Stage) : Message where
  delivery := ⟨[], 1⟩
  events := .ok [{
    event := ⟨"documents", "hello.txt", none⟩
    fetched := .ok [104]
    now := 0
    marking := ⟨fun _ => false, false⟩
    recording := none
    updating := fun _ => none
    counting := none
    askedAt := 0
    answeredAt := 0
    answer := .error .circuitBreakerOpen
    embedded := .ok [[1]]
    response := .ok ⟨true, 1, []⟩
    unmarking := false
    crash }]
  broker := {}

/-- The process ends right after the mark; the message comes again and is skipped as a duplicate. -/
theorem interrupted_upload_lost
    : let interrupted := (deliver textConfig (textUpload (some .record)) (.blank textConfig)).2
      (deliver textConfig (textUpload none) interrupted).1 = [(.ack, true)]
      ∧ (deliver textConfig (textUpload none) interrupted).2.inserted = [] := by
  decide +kernel

theorem textConfig_collisionFree : Function.Injective textConfig.hashContent := by
  have spelled : ∀ code < 256, (Char.ofNat code).toNat = code := by decide +kernel
  have characters : Function.Injective fun byte : UInt8 => Char.ofNat byte.toNat := by
    intro left right same
    have codes := congrArg Char.toNat same
    rw [spelled _ left.toNat_lt, spelled _ right.toNat_lt] at codes
    exact UInt8.toNat_inj.mp codes
  exact fun left right same => List.map_injective_iff.mpr characters (String.ofList_inj.mp same)

/-- An upload that nothing interrupts, after a restart: acknowledged, with its vector. -/
theorem uninterrupted_upload_ingested
    : ∃ data, Ingested textConfig (deliver textConfig (textUpload none)
        ([PipelineAction.restart].foldl (PipelineAction.perform textConfig)
          (.blank textConfig))).2 data := by
  have unbroken : (PipelineAction.deliver (textUpload none)).Unbroken := by
    intro attempt member
    obtain rfl := List.mem_singleton.mp member
    exact ⟨by simp, rfl, rfl⟩
  obtain ⟨data, _, ingested⟩ := (@acknowledged_ingested textConfig textConfig_collisionFree
    [.restart] ⟨trivial, trivial⟩).1 (textUpload none) unbroken (by decide +kernel) _
    List.mem_cons_self
  exact ⟨data, ingested⟩

end AkiDB.Ingestion
