import AkiDB.Common.SearchResult
import AkiDB.Library.Checked
import AkiDB.Library.Utf8Text
import Mathlib

/-! The JSON metadata of a vector: how writes stamp it, and the filters that searches evaluate. -/

namespace AkiDB.Vectors
open AkiDB.Common Checked Utf8Text

inductive JsonNumber where
  | posInt (value : Nat)
  | negInt (value : Int)
  | float (value : Score)
  deriving DecidableEq

/-- A JSON value. The fields of an object are sorted by key, each key once. -/
inductive Json where
  | null
  | bool (value : Bool)
  | number (value : JsonNumber)
  | string (value : String)
  | array (items : List Json)
  | object (fields : List (String × Json))

namespace Json

mutual

def equal : Json → Json → Bool
  | .null, .null => true
  | .bool left, .bool right => left == right
  | .number left, .number right => left == right
  | .string left, .string right => left == right
  | .array left, .array right => equalItems left right
  | .object left, .object right => equalFields left right
  | _, _ => false

def equalItems : List Json → List Json → Bool
  | [], [] => true
  | left :: lefts, right :: rights => equal left right && equalItems lefts rights
  | _, _ => false

def equalFields : List (String × Json) → List (String × Json) → Bool
  | [], [] => true
  | (key, left) :: lefts, (other, right) :: rights =>
    key == other && equal left right && equalFields lefts rights
  | _, _ => false

end

def get (value : Json) (key : String) : Option Json :=
  match value with
  | .object fields => fields.lookup key
  | _ => none

def isNull : Json → Bool
  | .null => true
  | _ => false

def asStr : Json → Option String
  | .string value => some value
  | _ => none

def asBool : Json → Option Bool
  | .bool value => some value
  | _ => none

def asArray : Json → Option (List Json)
  | .array items => some items
  | _ => none

def insertField (fields : List (String × Json)) (key : String) (value : Json)
    : List (String × Json) :=
  match fields with
  | [] => [(key, value)]
  | (other, old) :: rest =>
    if key < other then (key, value) :: (other, old) :: rest
    else if key = other then (key, value) :: rest
    else (other, old) :: insertField rest key value

def orInsertField (fields : List (String × Json)) (key : String) (value : Json)
    : List (String × Json) :=
  if (fields.lookup key).isSome then fields else insertField fields key value

end Json

/-- JSON text as the library `serde_json` reads and writes it, and its numbers as floats. -/
structure JsonCodec where
  parse : List UInt8 → Except String Json
  print : Json → List UInt8
  asF64 : JsonNumber → Score

structure AuthContext where
  workspaceId : String
  agentId : Option String

structure AclConfig where
  enforceWorkspace : Bool

def workspaceKey : String := "workspace_id"

def agentKey : String := "agent_id"

def embeddingModelKey : String := "embedding_model_id"

def stampWriteMetadata (codec : JsonCodec) (metadata : List UInt8) (ctx : AuthContext)
    (acl : AclConfig) (embeddingModelId : Option String) : Except String (List UInt8) := do
  let fields ←
    if metadata = [] then pure []
    else do
      let value ← (codec.parse metadata).mapError fun error =>
        s!"metadata is not valid JSON: {error}"
      match value with
      | .object fields => pure fields
      | .null => pure []
      | _ => .error "metadata must be a JSON object"
  let fields ←
    match (fields.lookup workspaceKey).bind Json.asStr with
    | some existing => do
      rejectIf (existing ≠ ctx.workspaceId ∧ acl.enforceWorkspace)
        s!"workspace_id '{existing}' does not match caller workspace '{ctx.workspaceId}'"
      pure fields
    | none => pure (Json.insertField fields workspaceKey (.string ctx.workspaceId))
  let fields := match ctx.agentId with
    | some agent => Json.orInsertField fields agentKey (.string agent)
    | none => fields
  let fields := match embeddingModelId with
    | some model => Json.orInsertField fields embeddingModelKey (.string model)
    | none => fields
  pure (codec.print (.object fields))

/-- Vectors without workspace belong to the default one. -/
def metadataInWorkspace (metadata : Json) (workspaceId : String) : Bool :=
  match metadata.get workspaceKey with
  | none | some .null => workspaceId == "default"
  | some (.string workspace) => workspace == workspaceId
  | some _ => false

inductive TagOperator where
  | eq
  | gt
  | lt
  | gte
  | lte
  | contains
  | exists
  deriving DecidableEq

def TagOperator.ofWire : Int → Option TagOperator
  | 0 => some .eq
  | 1 => some .gt
  | 2 => some .lt
  | 3 => some .gte
  | 4 => some .lte
  | 5 => some .contains
  | 6 => some .exists
  | _ => none

inductive TagValue where
  | text (value : String)
  | number (value : Score)
  | boolean (value : Bool)
  | textList (values : List String)

structure TagCondition where
  key : String
  value : Option TagValue
  op : Int

inductive TagFilter where
  | and (filters : List TagFilter)
  | or (filters : List TagFilter)
  | not (filter : Option TagFilter)
  | condition (condition : TagCondition)
  | empty

def metadataField (metadata : Json) (key : String) : Option Json :=
  match metadata.get key with
  | some value => some value
  | none =>
    (key.toList.splitOn '.').foldl (fun current part => match current with
      | some value => if part = [] then none else value.get (String.ofList part)
      | none => none) (some metadata)

section Conditions

variable (codec : JsonCodec)

def Json.asNumber : Json → Option Score
  | .number value => some (codec.asF64 value)
  | _ => none

def sortedDistinct (values : List String) : List String :=
  (values.insertionSort (· ≤ ·)).dedup

def valueEquals (field : Json) : TagValue → Bool
  | .text value => field.asStr = some value
  | .number value => match field.asNumber codec with
      | some number => number.eq value
      | none => false
  | .boolean value => field.asBool = some value
  | .textList values => match field.asArray.bind (·.mapM Json.asStr) with
      | some items => sortedDistinct items = sortedDistinct values
      | none => false

def compareValue (field : Json) : TagValue → Option Ordering
  | .number value => (field.asNumber codec).bind (·.partialCmp value)
  | .text value => field.asStr.map (compare · value)
  | _ => none

def valueContains (field : Json) (value : TagValue) : Bool :=
  match field.asStr, field.asArray with
  | some text, _ => match value with
      | .text needle => needle.toList <:+: text.toList
      | .textList needles => needles.any fun needle => needle.toList <:+: text.toList
      | _ => false
  | none, some items => match value with
      | .textList values => (items.filterMap Json.asStr).any (values.contains ·)
      | scalar => items.any (valueEquals codec · scalar)
  | none, none => false

def conditionMatches (metadata : Json) (condition : TagCondition) : Bool :=
  match TagOperator.ofWire condition.op with
  | none => false
  | some op =>
    let field := metadataField metadata condition.key
    if op = .exists then field.any (!·.isNull)
    else match field, condition.value with
      | some field, some value =>
        !field.isNull && match op with
          | .eq => valueEquals codec field value
          | .gt => compareValue codec field value = some .gt
          | .lt => compareValue codec field value = some .lt
          | .gte => compareValue codec field value = some .gt
              ∨ compareValue codec field value = some .eq
          | .lte => compareValue codec field value = some .lt
              ∨ compareValue codec field value = some .eq
          | .contains => valueContains codec field value
          | .exists => true
      | _, _ => false

mutual

def tagFilterMatches (metadata : Json) : TagFilter → Bool
  | .and filters => allTagFiltersMatch metadata filters
  | .or filters => anyTagFilterMatches metadata filters
  | .not filter => noTagFilterMatches metadata filter
  | .condition condition => conditionMatches codec metadata condition
  | .empty => true

def allTagFiltersMatch (metadata : Json) : List TagFilter → Bool
  | [] => true
  | filter :: rest => tagFilterMatches metadata filter && allTagFiltersMatch metadata rest

def anyTagFilterMatches (metadata : Json) : List TagFilter → Bool
  | [] => false
  | filter :: rest => tagFilterMatches metadata filter || anyTagFilterMatches metadata rest

def noTagFilterMatches (metadata : Json) : Option TagFilter → Bool
  | none => true
  | some filter => !tagFilterMatches metadata filter

end

end Conditions

mutual

def validateTagFilter : TagFilter → Except String Unit
  | .and filters | .or filters => validateTagFilters filters
  | .not none => .ok ()
  | .not (some filter) => validateTagFilter filter
  | .condition condition =>
    rejectIf (TagOperator.ofWire condition.op = none) s!"unknown tag operator: {condition.op}"
  | .empty => .ok ()

def validateTagFilters : List TagFilter → Except String Unit
  | [] => .ok ()
  | filter :: rest => do
    validateTagFilter filter
    validateTagFilters rest

end

mutual

/-- Every expected field is there with a matching value; other values are compared. -/
def valueSubsetMatches : Json → Json → Bool
  | .object expected, .object actual => fieldsSubsetMatch expected actual
  | expected, actual => actual.equal expected

def fieldsSubsetMatch : List (String × Json) → List (String × Json) → Bool
  | [], _ => true
  | (key, expected) :: rest, actual =>
    (match actual.lookup key with
      | some value => valueSubsetMatches expected value
      | none => false) && fieldsSubsetMatch rest actual

end

/-- A compiled filter: subset match, tag filter and workspace scope, or a conjunction. -/
inductive MetadataFilter where
  | fields (legacy : Option (List (String × Json))) (tag : Option TagFilter)
      (workspaceScope : Option String)
  | and (left right : MetadataFilter)

namespace MetadataFilter

/-- The filter of a request, if it has any. -/
def build (codec : JsonCodec) (filterBytes : List UInt8) (tagFilter : Option TagFilter)
    : Except String (Option MetadataFilter) := do
  let legacy ←
    if filterBytes = [] then pure none
    else do
      let parsed ← (codec.parse filterBytes).mapError fun error =>
        s!"legacy `filter` is not valid JSON: {error}"
      match parsed with
      | .object entries => pure (some entries)
      | _ => .error "legacy `filter` must be a JSON object"
  let tag := tagFilter.filter fun filter => match filter with
    | .empty => false
    | _ => true
  match tag with
  | some filter => validateTagFilter filter
  | none => pure ()
  pure (if legacy.isNone ∧ tag.isNone then none else some (.fields legacy tag none))

def «matches» (codec : JsonCodec) (metadata : Json) : MetadataFilter → Bool
  | .and left right => left.matches codec metadata && right.matches codec metadata
  | .fields legacy tag workspaceScope =>
    workspaceScope.all (metadataInWorkspace metadata ·)
      && legacy.all (fun entries => entries.all fun field =>
        match metadata.get field.1 with
        | some actual => valueSubsetMatches field.2 actual
        | none => false)
      && tag.all (tagFilterMatches codec metadata ·)

end MetadataFilter

def applyWorkspaceScope (existing : Option MetadataFilter) (ctx : AuthContext)
    (acl : AclConfig) : Option MetadataFilter :=
  if acl.enforceWorkspace then
    let scope := MetadataFilter.fields none none (some ctx.workspaceId)
    some (match existing with
      | none => scope
      | some filter => .and filter scope)
  else existing

variable {existing : Option MetadataFilter} {ctx : AuthContext} {acl : AclConfig}

/-- What passes a scoped filter is in the caller's workspace and passes the request's own
filter. -/
theorem matches_applyWorkspaceScope {codec} (enforced : acl.enforceWorkspace = true) {filter}
    (applied : applyWorkspaceScope existing ctx acl = some filter) {metadata}
    (passes : filter.matches codec metadata = true)
    : metadataInWorkspace metadata ctx.workspaceId = true
      ∧ existing.all (·.matches codec metadata) = true := by
  simp only [applyWorkspaceScope, enforced, if_true, Option.some.injEq] at applied
  subst applied
  cases existing with
  | none => simpa [MetadataFilter.matches] using passes
  | some own =>
    simp only [MetadataFilter.matches, Bool.and_eq_true] at passes
    simpa [and_comm] using passes

theorem isSome_applyWorkspaceScope {existing ctx acl} (enforced : acl.enforceWorkspace = true)
    : (applyWorkspaceScope existing ctx acl).isSome := by
  simp [applyWorkspaceScope, enforced]

end AkiDB.Vectors
