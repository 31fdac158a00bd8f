import AkiDB.Ingestion.Documents
import Mathlib.Data.List.Infix

/-!
The circuit breaker in front of the Python parser. The pipeline never asks an open breaker, so it
stays open.
-/

namespace AkiDB.Ingestion
open List

inductive CircuitState where
  | closed | opened | halfOpen
deriving DecidableEq

structure CircuitBreakerConfig where
  failureThreshold : Nat
  resetTimeoutSecs : Nat
  halfOpenMaxCalls : Nat
deriving DecidableEq

def CircuitBreakerConfig.normalize (config : CircuitBreakerConfig) : CircuitBreakerConfig :=
  { config with
    failureThreshold := max config.failureThreshold 1
    halfOpenMaxCalls := max config.halfOpenMaxCalls 1 }

structure CircuitBreaker where
  state : CircuitState
  failureCount : Nat
  successCount : Nat
  lastFailureTime : Nat
  config : CircuitBreakerConfig
deriving DecidableEq

namespace CircuitBreaker

def new (config : CircuitBreakerConfig) : CircuitBreaker where
  state := .closed
  failureCount := 0
  successCount := 0
  lastFailureTime := 0
  config := config.normalize

/-- Time past the reset timeout makes an open breaker half-open, with this request as its first. -/
def allowRequest (now : Nat) (breaker : CircuitBreaker) : Bool × CircuitBreaker :=
  match breaker.state with
  | .closed => (true, breaker)
  | .opened =>
    if breaker.config.resetTimeoutSecs ≤ now - breaker.lastFailureTime then
      (true, { breaker with state := .halfOpen, successCount := 1 })
    else (false, breaker)
  | .halfOpen =>
    if breaker.config.halfOpenMaxCalls ≤ breaker.successCount then (false, breaker)
    else (true, { breaker with successCount := breaker.successCount + 1 })

def recordSuccess (breaker : CircuitBreaker) : CircuitBreaker :=
  match breaker.state with
  | .closed => { breaker with failureCount := 0 }
  | .halfOpen =>
    if breaker.config.halfOpenMaxCalls ≤ breaker.successCount then
      { breaker with state := .closed, failureCount := 0 }
    else breaker
  | .opened => { breaker with state := .closed }

def recordFailure (now : Nat) (breaker : CircuitBreaker) : CircuitBreaker :=
  let counted :=
    { breaker with failureCount := breaker.failureCount + 1, lastFailureTime := now }
  match breaker.state with
  | .closed =>
    if breaker.config.failureThreshold ≤ counted.failureCount then
      { counted with state := .opened }
    else counted
  | .halfOpen => { counted with state := .opened }
  | .opened => counted

theorem recordSuccess_closed {breaker : CircuitBreaker} (closed : breaker.state = .closed)
    : breaker.recordSuccess = { breaker with failureCount := 0 } := by
  unfold recordSuccess
  rw [closed]

theorem recordFailure_closed {breaker : CircuitBreaker} (closed : breaker.state = .closed)
    (now : Nat)
    : breaker.recordFailure now
      = { breaker with
          failureCount := breaker.failureCount + 1
          lastFailureTime := now
          state := if breaker.config.failureThreshold ≤ breaker.failureCount + 1 then .opened
            else .closed } := by
  unfold recordFailure
  dsimp only
  rw [closed]
  dsimp only
  split <;> rfl

end CircuitBreaker

/-- A document to parse, the times the breaker is asked and told, and the Python parser's answer. -/
structure ParseCall where
  event : UploadEvent
  data : List UInt8
  askedAt : Nat
  answeredAt : Nat
  answer : Except IngestionError ParsedDocument

structure ParseResult where
  parsed : Except IngestionError ParsedDocument
  sent : Bool

variable (parsers : Parsers)

/-- No Rust parser takes the document, and it is one for the Python parser. -/
def Parsers.NeedsPython (event : UploadEvent) (data : List UInt8) : Prop :=
  parsers.routeParserWithData (parsers.detectUploadFormat event) data = none
    ∧ parsers.shouldUsePythonParser (parsers.detectUploadFormat event) data = true

instance (event : UploadEvent) (data : List UInt8)
    : Decidable (parsers.NeedsPython event data) :=
  inferInstanceAs (Decidable (_ ∧ _))

def parseDocument (breaker : CircuitBreaker) (call : ParseCall)
    : ParseResult × CircuitBreaker :=
  let format := parsers.detectUploadFormat call.event
  match parsers.routeParserWithData format call.data with
  | some parsed => (⟨parsed, false⟩, breaker)
  | none =>
    if parsers.shouldUsePythonParser format call.data then
      if breaker.state = .opened then (⟨.error .circuitBreakerOpen, false⟩, breaker)
      else match breaker.allowRequest call.askedAt with
        | (false, breaker) => (⟨.error .circuitBreakerOpen, false⟩, breaker)
        | (true, breaker) => match call.answer with
          | .ok parsed => (⟨.ok parsed, true⟩, breaker.recordSuccess)
          | .error error => (⟨.error error, true⟩, breaker.recordFailure call.answeredAt)
    else (⟨.error (.parse ("Unsupported format: " ++ format.debug)), false⟩, breaker)

def parseAll (config : CircuitBreakerConfig) (calls : List ParseCall) : CircuitBreaker :=
  calls.foldl (fun breaker call => (parseDocument parsers breaker call).2) (.new config)

/-- An open breaker whose timeout has passed lets the next Python document through and can be
left. -/
structure Recovers (breaker : CircuitBreaker) : Prop where
  sends : breaker.state = .opened → ∀ call : ParseCall, parsers.NeedsPython call.event call.data →
    breaker.config.resetTimeoutSecs ≤ call.askedAt - breaker.lastFailureTime →
      (parseDocument parsers breaker call).1.sent = true
  leaves : breaker.state = .opened → ∃ later : List ParseCall,
    (later.foldl (fun breaker call => (parseDocument parsers breaker call).2) breaker).state
      ≠ .opened

def answers (calls : List ParseCall) : List Bool :=
  (calls.filter (fun call => parsers.NeedsPython call.event call.data)).map (·.answer.toBool)

variable {breaker : CircuitBreaker} {call : ParseCall} {answered : List Bool}

theorem parseDocument_other (other : ¬parsers.NeedsPython call.event call.data)
    : (parseDocument parsers breaker call).2 = breaker := by
  unfold parseDocument
  dsimp only
  cases route : parsers.routeParserWithData (parsers.detectUploadFormat call.event) call.data with
  | some parsed => rfl
  | none =>
    have unused : ¬parsers.shouldUsePythonParser (parsers.detectUploadFormat call.event)
        call.data = true := fun asks => other ⟨route, asks⟩
    dsimp only
    rw [if_neg unused]

theorem parseDocument_opened (needs : parsers.NeedsPython call.event call.data)
    (opened : breaker.state = .opened)
    : parseDocument parsers breaker call = (⟨.error .circuitBreakerOpen, false⟩, breaker) := by
  unfold parseDocument
  dsimp only
  rw [needs.1]
  dsimp only
  rw [if_pos needs.2, if_pos opened]

theorem foldl_opened (opened : breaker.state = .opened) (later : List ParseCall)
    : later.foldl (fun breaker call => (parseDocument parsers breaker call).2) breaker
      = breaker := by
  induction later with
  | nil => rfl
  | cons call rest ih =>
    have same : (parseDocument parsers breaker call).2 = breaker := by
      by_cases needs : parsers.NeedsPython call.event call.data
      · rw [parseDocument_opened parsers needs opened]
      · exact parseDocument_other parsers needs
    rw [foldl_cons, same, ih]

theorem parseDocument_closed (needs : parsers.NeedsPython call.event call.data)
    (closed : breaker.state = .closed)
    : (parseDocument parsers breaker call).2
      = if call.answer.toBool then breaker.recordSuccess
        else breaker.recordFailure call.answeredAt := by
  have unopened : ¬breaker.state = .opened := by simp [closed]
  unfold parseDocument CircuitBreaker.allowRequest
  dsimp only
  rw [needs.1]
  dsimp only
  rw [if_pos needs.2, if_neg unopened, closed]
  cases call.answer <;> rfl

/-- A closed breaker counts the failures since the last success; an open one has seen enough. -/
inductive Counts (config : CircuitBreakerConfig) (answered : List Bool)
    (breaker : CircuitBreaker) : Prop where
  | closed (state : breaker.state = .closed) (same : breaker.config = config.normalize)
      (counted : ∀ count, List.replicate count false <:+ answered ↔ count ≤ breaker.failureCount)
      (below : breaker.failureCount < max config.failureThreshold 1)
      (calm : ¬List.replicate (max config.failureThreshold 1) false <:+: answered)
  | opened (state : breaker.state = .opened)
      (outage : List.replicate (max config.failureThreshold 1) false <:+: answered)

theorem replicate_suffix_failure {last : Nat}
    (counted : ∀ count, List.replicate count false <:+ answered ↔ count ≤ last) (count : Nat)
    : List.replicate count false <:+ answered ++ [false] ↔ count ≤ last + 1 := by
  cases count with
  | zero => simp
  | succ count =>
    rw [replicate_succ', suffix_concat_iff]
    simp [counted]

theorem replicate_suffix_success (count : Nat)
    : List.replicate count false <:+ answered ++ [true] ↔ count ≤ 0 := by
  cases count with
  | zero => simp
  | succ count =>
    rw [replicate_succ', suffix_concat_iff]
    simp

theorem Counts.parse {config : CircuitBreakerConfig} (counts : Counts config answered breaker)
    (needs : parsers.NeedsPython call.event call.data)
    : Counts config (answered ++ [call.answer.toBool]) (parseDocument parsers breaker call).2 := by
  cases counts with
  | opened state outage =>
    rw [parseDocument_opened parsers needs state]
    exact .opened state (outage.trans (infix_append' [] answered _))
  | closed state same counted below calm =>
    rw [parseDocument_closed parsers needs state]
    cases call.answer.toBool with
    | true =>
      rw [if_pos rfl, CircuitBreaker.recordSuccess_closed state]
      refine .closed state same replicate_suffix_success (by dsimp only; omega) ?_
      rw [infix_concat_iff, replicate_suffix_success]
      exact not_or.mpr ⟨by omega, calm⟩
    | false =>
      have suffix := replicate_suffix_failure counted
      rw [if_neg Bool.false_ne_true, CircuitBreaker.recordFailure_closed state, same]
      by_cases reached : max config.failureThreshold 1 ≤ breaker.failureCount + 1
      · exact .opened (if_pos reached) ((suffix _).mpr reached).isInfix
      · refine .closed (if_neg reached) rfl suffix (Nat.lt_of_not_le reached) ?_
        rw [infix_concat_iff, suffix]
        exact not_or.mpr ⟨reached, calm⟩

/-- The breaker counts along every run. -/
theorem counts_parseAll (config : CircuitBreakerConfig) (calls : List ParseCall)
    : Counts config (answers parsers calls) (parseAll parsers config calls) := by
  induction calls using List.reverseRecOn with
  | nil =>
    refine .closed rfl rfl (fun count => ?_) (Nat.one_pos.trans_le (le_max_right _ _)) ?_
    · cases count <;> simp [answers, parseAll, CircuitBreaker.new, replicate_succ]
    · simp [answers]
  | append_singleton calls call ih =>
    unfold answers parseAll at *
    rw [foldl_concat, filter_append, map_append]
    by_cases needs : parsers.NeedsPython call.event call.data
    · simpa [needs] using ih.parse parsers needs
    · rw [parseDocument_other parsers needs]
      simpa [needs] using ih

/-- The breaker recovers exactly when the parser never fails as often in a row as the threshold.
Witness: an open breaker sends nothing.
-/
theorem recovers_iff_no_outage (config : CircuitBreakerConfig)
    (calls : List ParseCall) {event : UploadEvent} {data : List UInt8}
    (pythonOnly : parsers.NeedsPython event data)
    : (∀ reached, reached <+: calls → Recovers parsers (parseAll parsers config reached))
      ↔ ¬List.replicate (max config.failureThreshold 1) false <:+: answers parsers calls := by
  constructor
  · intro recovers outage
    cases counts_parseAll parsers config calls with
    | closed _ _ _ _ calm => exact calm outage
    | opened state _ =>
      have reached := recovers calls prefix_rfl
      let late := (parseAll parsers config calls).config.resetTimeoutSecs
        + (parseAll parsers config calls).lastFailureTime
      let next : ParseCall := ⟨event, data, late, late, .error .circuitBreakerOpen⟩
      have sent := reached.sends state next pythonOnly (by simp [next, late])
      have turned : parseDocument parsers (parseAll parsers config calls) next = _ :=
        parseDocument_opened parsers pythonOnly state
      rw [turned] at sent
      cases sent
  · intro calm reached earlier
    have before : answers parsers reached <+: answers parsers calls :=
      (earlier.filter _).map _
    cases counts_parseAll parsers config reached with
    | closed state _ _ _ _ => exact ⟨by simp [state], by simp [state]⟩
    | opened _ outage => exact absurd (outage.trans before.isInfix) calm

/-- A breaker that opens at the first failure, and PDF documents for it. -/
def fragileConfig : CircuitBreakerConfig := ⟨1, 30, 1⟩

def pdfParsers : Parsers := ⟨fun _ => .pdf, fun _ _ => none⟩

def pdfCall (now : Nat) (answer : Except IngestionError ParsedDocument) : ParseCall :=
  ⟨⟨"documents", "report.pdf", none⟩, [37], now, now, answer⟩

/-- After one failed call the breaker is open, and no later call closes it. -/
theorem outage_never_ends
    : let breaker := parseAll pdfParsers fragileConfig [pdfCall 10 (.error (.pythonParser "down"))]
      breaker.state = .opened
      ∧ breaker.config.resetTimeoutSecs ≤ 70 - breaker.lastFailureTime
      ∧ (∀ answer, (parseDocument pdfParsers breaker (pdfCall 70 answer)).1.sent = false)
      ∧ ∀ later : List ParseCall,
        (later.foldl (fun breaker call => (parseDocument pdfParsers breaker call).2) breaker).state
          = .opened := by
  have opened : (parseAll pdfParsers fragileConfig
      [pdfCall 10 (.error (.pythonParser "down"))]).state = .opened := by decide
  refine ⟨opened, by decide, fun _ => rfl, fun later => ?_⟩
  rw [foldl_opened pdfParsers opened later, opened]

/-- A breaker that tolerates one failure recovers along a run with one. -/
theorem recovers_after_one_failure
    : pdfParsers.NeedsPython ⟨"documents", "report.pdf", none⟩ [37]
      ∧ Recovers pdfParsers (parseAll pdfParsers ⟨2, 30, 1⟩
          [pdfCall 10 (.error (.pythonParser "down"))]) :=
  have needs : pdfParsers.NeedsPython ⟨"documents", "report.pdf", none⟩ [37] := by decide
  ⟨needs, (recovers_iff_no_outage pdfParsers ⟨2, 30, 1⟩ _ needs).mpr (by decide) _ prefix_rfl⟩

end AkiDB.Ingestion
