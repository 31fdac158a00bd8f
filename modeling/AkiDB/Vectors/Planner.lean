import AkiDB.Vectors.Graph
import AkiDB.Vectors.Lexical

/-! The retrieval planner: without a requested mode the words of the query decide. -/

namespace AkiDB.Vectors
open AkiDB.Common Utf8Text

inductive RetrievalMode where
  | auto
  | vector
  | bm25
  | hybrid
  | graph
  | graphHybrid
  | structuredSql
  deriving DecidableEq

def RetrievalMode.name : RetrievalMode → String
  | auto => "auto"
  | vector => "vector"
  | bm25 => "bm25"
  | hybrid => "hybrid"
  | graph => "graph"
  | graphHybrid => "graph_hybrid"
  | structuredSql => "structured_sql"

structure PlannerInput where
  queryText : String
  requestedMode : Option RetrievalMode
  hasMetadataFilter : Bool
  pack : Bool

structure PlannerTrace where
  mode : RetrievalMode
  vectorWeight : Score
  lexicalWeight : Score
  graphEnabled : Bool
  graphDepth : Nat
  reasons : List String

def traceForMode (mode : RetrievalMode) (reasons : List String) : PlannerTrace :=
  match mode with
  | .auto | .hybrid => ⟨mode, .finite 1, .finite 1, false, 0, reasons⟩
  | .vector => ⟨mode, .finite 1, .zero, false, 0, reasons⟩
  | .bm25 => ⟨mode, .zero, .finite 1, false, 0, reasons⟩
  | .graph => ⟨mode, .zero, .finite (1 / 2), true, 1, reasons⟩
  | .graphHybrid => ⟨mode, .finite 1, .finite 1, true, 1, reasons⟩
  | .structuredSql => ⟨mode, .zero, .zero, false, 0, reasons⟩

def trimMatches (strip : Char → Bool) (text : List Char) : List Char :=
  ((text.dropWhile strip).reverse.dropWhile strip).reverse

def splitWhitespace (text : List Char) : List (List Char) :=
  (text.splitOnP isWhitespace).filter (· ≠ [])

def containsText (text : List Char) (needle : String) : Bool :=
  needle.toList <:+: text

def containsAny (text : List Char) (needles : List String) : Bool :=
  needles.any (containsText text)

def endsWithText (text : List Char) (ending : String) : Bool :=
  ending.toList <:+ text

section Words

variable (unicode : UnicodeText)

def startsWithPhrase (text : List Char) (phrase : String) : Bool :=
  match stripLeading phrase.toList text with
  | none => false
  | some [] => true
  | some (next :: _) => !unicode.isAlphanumeric next && next ≠ '_'

def startsWithAny (text : List Char) (phrases : List String) : Bool :=
  phrases.any (startsWithPhrase unicode text)

def looksLikeIdentifier (token : List Char) : Bool :=
  let text := trimMatches (fun char =>
    !unicode.isAlphanumeric char && !(['_', ':', '.'].contains char)) token
  containsText text "::" || text.contains '_' || text.any Char.isUpper
    || endsWithText text "()"

def looksLikePath (token : List Char) : Bool :=
  let text := trimMatches [',', ';', ':', ')', '('].contains token
  text.contains '/'
    || [".rs", ".py", ".ts", ".tsx", ".js", ".md"].any (endsWithText text)

def whereRelationship (lower : List Char) : Bool :=
  startsWithAny unicode lower ["where is", "where are"]
    && containsAny lower [" called", " used", " imported", " referenced", " defined",
      " modified", " changed", " updated"]

def doesRelationship (lower : List Char) : Bool :=
  startsWithAny unicode lower ["what does", "what do", "which file does", "which files does",
      "which module does", "which modules does", "who does"]
    && containsAny lower [" call", " calls", " import", " imports", " use", " uses",
      " reference", " references", " depend on", " depends on"]

def codeRelationship (lower : List Char) : Bool :=
  whereRelationship unicode lower || doesRelationship unicode lower
    || startsWithAny unicode lower ["what calls", "who calls", "what depends", "what imports",
      "what uses", "who imports", "who uses", "which imports", "which uses",
      "what files import", "what files use", "which files import", "which files use",
      "which modules import", "which modules use", "who owns", "what owns", "who maintains",
      "what maintains", "owner of", "owners of", "maintainer of", "maintainers of",
      "show call", "show calls", "show caller", "show callers", "show callee",
      "show callees", "show dependency", "show dependencies", "show import", "show imports",
      "show uses", "list call", "list calls", "list caller", "list callers", "list callee",
      "list callees", "list dependency", "list dependencies", "list import", "list imports",
      "list uses", "find call", "find calls", "find caller", "find callers", "find callee",
      "find callees", "find dependency", "find dependencies", "find import", "find imports",
      "find uses", "who changed", "what changed", "who modified", "what modified",
      "who updated", "what updated", "who edited", "what edited", "dependency",
      "dependencies"]
    || containsAny lower [" depends on", " depend on", " imported by", " used by",
      " called by", " callers of", " caller of", " callees of", " callee of", " calls to",
      " uses of", " use of", " owned by", " maintained by", " owner of", " owners of",
      " maintainer of", " maintainers of", " responsible for"]

def enterpriseRelationship (lower : List Char) : Bool :=
  (startsWithAny unicode lower ["which email", "what email", "who sent", "who received",
      "which ticket", "what ticket", "which contract", "what contract", "which invoice",
      "what invoice"]
    && containsAny lower [" attach", " thread", " sent", " create", " resolve", " assign",
      " reference", " belong", " correspond", " relate"])
    || containsAny lower [" attached to ", " part of the thread", " part of thread",
      " sent by ", " sent to ", " created from ", " resolved by ", " assigned to ",
      " supersedes ", " evidence for "]

def cjkRelationship (text : List Char) : Bool :=
  containsAny text ["哪封 Email 附帶", "哪一封 Email 附帶", "哪份 PDF 是", "哪一份 PDF 是",
    "屬於哪個 thread", "屬於哪一個 thread", "由誰寄出", "寄給誰", "由誰解決", "由誰負責",
    "對應哪份合約", "對應哪一份合約", "被哪些 ticket 引用", "由哪封 Email 建立",
    "由哪一封 Email 建立"]

def explanatory (lower : List Char) : Bool :=
  startsWithAny unicode lower ["explain", "how does", "how do", "why", "summarize", "describe"]

/-- The mode for a query without a requested one, with its reason. -/
def modeForQuery (text : List Char) : RetrievalMode × String :=
  let lower := text.map Char.toLower
  let hasIdentifier := (splitWhitespace text).any fun token =>
    looksLikeIdentifier unicode token || looksLikePath token
  -- double and single quotation marks
  let quoted := text.any fun char => char.toNat = 0x22 || char.toNat = 0x27
  if codeRelationship unicode lower || enterpriseRelationship unicode lower
      || cjkRelationship text then (.graphHybrid, "relationship query detected")
  else if hasIdentifier || quoted then
    (.hybrid, "identifier/path/exact term signal detected")
  else if explanatory unicode lower then (.hybrid, "explanatory query detected")
  else (.hybrid, "default hybrid retrieval")

def planQuery (input : PlannerInput) : PlannerTrace :=
  match input.requestedMode.filter (· ≠ .auto) with
  | some mode => traceForMode mode ["explicit retrieval mode requested"]
  | none =>
    let decided := modeForQuery unicode (trimmed input.queryText)
    traceForMode decided.1 ([decided.2]
      ++ (if input.hasMetadataFilter then ["metadata filter present"] else [])
      ++ if input.pack then ["context packing requested"] else [])

end Words

end AkiDB.Vectors
