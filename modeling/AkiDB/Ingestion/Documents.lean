import Mathlib.Tactic.Common

/-! Upload events, formats and parsed documents, with the errors that their processing reports. -/

namespace AkiDB.Ingestion

inductive IngestionError where
  | nats (reason : String)
  | parse (reason : String)
  | pythonParser (reason : String)
  | circuitBreakerOpen
  | backpressureActive
  | memoryPressure (used : String)
  | embedding (reason : String)
  | storage (reason : String)
  | state (reason : String)
  | manifest (reason : String)
  | scheduler (reason : String)
  | config (reason : String)
  | io (reason : String)
  | http (reason : String)
  | json (reason : String)
  | sqlite (reason : String)
  | other (reason : String)
deriving DecidableEq

namespace IngestionError

/-- The text of an error. -/
def display : IngestionError → String
  | nats reason => "NATS error: " ++ reason
  | parse reason => "Parse error: " ++ reason
  | pythonParser reason => "Python parser error: " ++ reason
  | circuitBreakerOpen => "Circuit breaker open"
  | backpressureActive => "Backpressure active"
  | memoryPressure used => "Memory pressure: " ++ used ++ "% used"
  | embedding reason => "Embedding error: " ++ reason
  | storage reason => "Storage error: " ++ reason
  | state reason => "State tracking error: " ++ reason
  | manifest reason => "Manifest error: " ++ reason
  | scheduler reason => "Scheduler error: " ++ reason
  | config reason => "Configuration error: " ++ reason
  | io reason => "IO error: " ++ reason
  | http reason => "HTTP error: " ++ reason
  | json reason => "JSON error: " ++ reason
  | sqlite reason => "SQLite error: " ++ reason
  | other reason => "Other error: " ++ reason

def isPermanent : IngestionError → Bool
  | parse _ | json _ => true
  | _ => false

end IngestionError

inductive DocumentFormat where
  | json | csv | tsv | html | xml | xlsx | pdf | enl | docx | txt | unknown
deriving DecidableEq

def DocumentFormat.debug : DocumentFormat → String
  | json => "Json" | csv => "Csv" | tsv => "Tsv" | html => "Html" | xml => "Xml"
  | xlsx => "Xlsx" | pdf => "Pdf" | enl => "Enl" | docx => "Docx" | txt => "Txt"
  | unknown => "Unknown"

def DocumentFormat.requiresPython : DocumentFormat → Bool
  | pdf | enl => true
  | _ => false

structure UploadEvent where
  bucket : String
  key : String
  contentType : Option String
deriving DecidableEq

structure ParsedDocument where
  text : String
  format : DocumentFormat
deriving DecidableEq

/-- Routing of documents. A parser takes the data, with its answer, or leaves it to others. -/
structure Parsers where
  detectUploadFormat : UploadEvent → DocumentFormat
  routeParserWithData : DocumentFormat → List UInt8 → Option (Except IngestionError ParsedDocument)

/-- The Python parser takes what its format asks for, and a DOCX that no Rust parser takes. -/
def Parsers.shouldUsePythonParser (parsers : Parsers) (format : DocumentFormat)
    (data : List UInt8) : Bool :=
  format.requiresPython
    || (format = .docx && (parsers.routeParserWithData format data).isNone)

end AkiDB.Ingestion
