import AkiDB.Vectors.Service

/-!
The metadata mirror as a structured query reads it. How the database evaluates a condition is a
parameter.
-/

namespace AkiDB.Vectors
open AkiDB.Common AtomicBatch Checked Utf8Text List

inductive MetadataPredicate where
  | eq (field : String) (value : Json)
  | exists (field : String)

structure MetadataQuery where
  collection : String
  predicates : List MetadataPredicate
  limit : Nat

inductive SqlValue where
  | text (value : String)
  | integer (value : Int)
  | real (value : Score)
  | null

/-- A condition on the JSON text of a row, as the query spells it. -/
inductive SqlCondition where
  | typeIsNull (path : String)
  | extractEquals (path : String) (value : SqlValue)
  | typeExists (path : String)

/-- The database: how it evaluates a condition, and whether a query fails. -/
structure SqlBackend where
  accepts : SqlCondition → Json → Bool
  fault : Option String

def jsonPath (field : String) : Except String String := do
  rejectIf (trimmed field = []) "invalid metadata query: metadata field cannot be empty"
  let parts := field.toList.splitOn '.'
  rejectIf (parts.any fun part => part = [] || !part.all fun char =>
      char.isAlphanum || char = '_')
    s!"invalid metadata query: unsupported metadata field path '{field}'"
  pure s!"$.{field}"

variable (codec : JsonCodec)

def sqlValue : Json → Except String SqlValue
  | .string value => .ok (.text value)
  | .bool value => .ok (.integer (if value then 1 else 0))
  | .number (.posInt value) =>
    if value < 2 ^ 63 then .ok (.integer value)
    else .error ("invalid metadata query: "
      ++ s!"numeric metadata value {value} exceeds SQLite integer range")
  | .number (.negInt value) => .ok (.integer value)
  | .number value => .ok (.real (codec.asF64 value))
  | .null => .ok .null
  | .array _ | .object _ =>
    .error ("invalid metadata query: "
      ++ "metadata equality only supports scalar JSON values")

def sqlCondition : MetadataPredicate → Except String SqlCondition
  | .eq field value => do
    let path ← jsonPath field
    if value.isNull then pure (.typeIsNull path)
    else pure (.extractEquals path (← sqlValue codec value))
  | .exists field => do
    let path ← jsonPath field
    pure (.typeExists path)

/-- The latest rows first, then by id. -/
def rowBefore (left right : String × SqlMetadataRecord) : Prop :=
  ((compare right.2.updatedAtMs left.2.updatedAtMs).then (compare left.1 right.1)) ≠ .gt

instance (left right : String × SqlMetadataRecord) : Decidable (rowBefore left right) :=
  inferInstanceAs (Decidable (_ ≠ _))

def queryIds (backend : SqlBackend) (query : MetadataQuery)
    (rows : KeyValueMap String SqlMetadataRecord) : Except String (List String) := do
  rejectIf (trimmed query.collection = []) "invalid metadata query: collection cannot be empty"
  if query.limit = 0 then pure []
  else
    let conditions ← query.predicates.mapM (sqlCondition codec)
    match backend.fault with
    | some error => .error s!"sqlite metadata error: {error}"
    | none =>
      let found := rows.toList.filter fun row =>
        conditions.all (backend.accepts · row.2.metadata)
      pure (((found.insertionSort rowBefore).take query.limit).map Prod.fst)

theorem queryIds_sound {codec : JsonCodec} {backend : SqlBackend} {query rows ids}
    (answered : queryIds codec backend query rows = .ok ids)
    : ids.Nodup ∧ ids.length ≤ query.limit ∧ ∀ id ∈ ids, rows[id]?.isSome := by
  simp only [queryIds, bind_eq_ok] at answered
  obtain ⟨_, _, answered⟩ := answered
  split at answered
  · cases answered
    simp
  · simp only [bind_eq_ok] at answered
    obtain ⟨conditions, _, answered⟩ := answered
    split at answered
    · cases answered
    · cases answered
      have perm := rows.toList.filter (fun row =>
        conditions.all (backend.accepts · row.2.metadata)) |>.perm_insertionSort rowBefore
      refine ⟨?_, by simp, fun id member => ?_⟩
      · refine Nodup.sublist ((take_sublist ..).map _) ?_
        refine (perm.map Prod.fst).nodup_iff.mpr ?_
        refine Nodup.sublist (filter_sublist.map _) ?_
        exact pairwise_map.mpr (rows.distinct_keys_toList.imp fun apart => by simpa using apart)
      · obtain ⟨row, taken, rfl⟩ := mem_map.mp member
        have listed := (mem_filter.mp (perm.mem_iff.mp (take_subset _ _ taken))).1
        rw [Std.ExtTreeMap.mem_toList_iff_getElem?_eq_some.mp listed]
        rfl

def holdsDot (key : String) : Bool :=
  key.toList.contains '.'

mutual

/-- The predicates of one filter field; a key with a dot is not a path. -/
def addSqlLegacyPredicate (field : String) (canPushdownAsPath : Bool)
    : Json → List MetadataPredicate
  | .object [] => if canPushdownAsPath then [.exists field] else []
  | .object fields => if canPushdownAsPath then addSqlLegacyFields field fields else []
  | .array _ => if canPushdownAsPath then [.exists field] else []
  | value => if canPushdownAsPath then [.eq field value] else []

def addSqlLegacyFields (field : String) : List (String × Json) → List MetadataPredicate
  | [] => []
  | (key, value) :: rest =>
    addSqlLegacyPredicate s!"{field}.{key}" (!holdsDot key) value
      ++ addSqlLegacyFields field rest

end

/-- The fields of a legacy filter; an empty one has none. -/
def legacyFilterFields (filter : List UInt8)
    : Except Status (List (String × Json)) :=
  if filter = [] then .ok []
  else do
    let value ← (codec.parse filter).mapError fun error =>
      ⟨.invalidArgument, s!"invalid SQL metadata filter: {error}"⟩
    match value with
    | .object fields => pure fields
    | _ => .error ⟨.invalidArgument, "SQL metadata filter must be a JSON object"⟩

def sqlQueryFromLegacyFilter (collection : String) (filter : List UInt8)
    (limit : Nat) : Except Status MetadataQuery := do
  let fields ← legacyFilterFields codec filter
  pure
    { collection := collection
      predicates := fields.flatMap fun field =>
        addSqlLegacyPredicate field.1 (!holdsDot field.1) field.2
      limit := limit }

mutual

def valueNeedsPostFilter : Json → Bool
  | .object fields => fields.isEmpty || fieldsNeedPostFilter fields
  | .array _ => true
  | _ => false

def fieldsNeedPostFilter : List (String × Json) → Bool
  | [] => false
  | (key, value) :: rest =>
    holdsDot key || valueNeedsPostFilter value || fieldsNeedPostFilter rest

end

def legacyFilterNeedsPostFilter (filter : List UInt8)
    : Except Status Bool := do
  let fields ← legacyFilterFields codec filter
  pure (fieldsNeedPostFilter fields)

end AkiDB.Vectors
