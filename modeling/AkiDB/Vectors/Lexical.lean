import AkiDB.Vectors.Index
import Mathlib

/-!
The in-memory BM25 index over source texts. Posting lists and lengths are read off the
tokens of each document.
-/

namespace AkiDB.Vectors
open AkiDB.Common AtomicBatch

structure UnicodeText where
  isAlphanumeric : Char → Bool
  isUppercase : Char → Bool
  isLowercase : Char → Bool
  isNumeric : Char → Bool
  toLowercase : String → String

section Tokens

variable (unicode : UnicodeText)

def isTokenChar (char : Char) : Bool :=
  unicode.isAlphanumeric char || ['_', '-', '+', '#', ':'].contains char

def trimTokenPunctuation (token : List Char) : List Char :=
  ((token.dropWhile (· = ':')).reverse.dropWhile (· = ':')).reverse

def isCamelBoundary (previous current : Char) (next : Option Char) : Bool :=
  (unicode.isUppercase current && (unicode.isLowercase previous || unicode.isNumeric previous
        || (unicode.isUppercase previous && next.any unicode.isLowercase)))
    || (unicode.isNumeric current && !unicode.isNumeric previous)
    || (!unicode.isNumeric current && unicode.isNumeric previous)

/-- The parts of the rest of an identifier, after a part that ends with `previous`. -/
def splitCamelCaseFrom (previous : Char) (part : List Char) : List Char → List (List Char)
  | [] => [part]
  | current :: rest =>
    if isCamelBoundary unicode previous current rest.head? then
      part :: splitCamelCaseFrom current [current] rest
    else splitCamelCaseFrom current (part ++ [current]) rest

def splitCamelCase : List Char → List (List Char)
  | [] => []
  | first :: rest => splitCamelCaseFrom unicode first [first] rest

def identifierSubterms (raw : List Char) : List (List Char) :=
  ((raw.splitOnP fun char => ['_', '-', '+', '#', ':'].contains char).filter
    (· ≠ [])).flatMap (splitCamelCase unicode)

/-- The lower-case terms of a text: each identifier and, after it, its different parts. -/
def tokenize (text : String) : List String :=
  let raws := ((text.toList.splitOnP (!isTokenChar unicode ·)).map
    trimTokenPunctuation).filter (·.any unicode.isAlphanumeric)
  raws.flatMap fun raw =>
    let token := unicode.toLowercase (String.ofList raw)
    token :: ((identifierSubterms unicode raw).map fun part =>
      unicode.toLowercase (String.ofList part)).filter fun part => part ≠ token ∧ part ≠ ""

end Tokens

structure Bm25Index where
  documents : KeyValueMap String (List String)

namespace Bm25Index

def empty : Bm25Index where
  documents := ∅

def len (index : Bm25Index) : Nat :=
  index.documents.size

def contains (index : Bm25Index) (id : String) : Bool :=
  index.documents.contains id

def remove (index : Bm25Index) (id : String) : Bm25Index where
  documents := index.documents.erase id

/-- Insert or replace a text; one without tokens leaves no document. -/
def insert (unicode : UnicodeText) (index : Bm25Index) (id : String) (text : String)
    : Bm25Index :=
  let tokens := tokenize unicode text
  if tokens = [] then index.remove id
  else { documents := index.documents.insert id tokens }

section Scores

variable (floats : Floats)

def defaultK1 : Score :=
  floats.single.ofRat (12 / 10)

def defaultB : Score :=
  floats.single.ofRat (3 / 4)

variable (index : Bm25Index)

def totalLen : Nat :=
  (index.documents.toList.map fun row => row.2.length).sum

def avgdl : Score :=
  if index.len = 0 then .zero
  else floats.single.div (floats.single.ofNat index.totalLen) (floats.single.ofNat index.len)

def documentFrequency (term : String) : Nat :=
  (index.documents.toList.filter fun row => row.2.contains term).length

def idf (documentFrequency : Nat) : Score :=
  let double := floats.double
  let count := double.ofNat index.len
  let frequency := double.ofNat documentFrequency
  double.ln (double.add (.finite 1)
    (double.div (double.add (double.sub count frequency) (.finite (1 / 2)))
      (double.add frequency (.finite (1 / 2)))))

/-- What one query term adds to a document. -/
def contribution (tokens : List String) (term : String)
    : Option Score :=
  if !tokens.contains term then none
  else
    let double := floats.double
    let k1 := defaultK1 floats
    let b := defaultB floats
    let frequency := double.ofNat (tokens.count term)
    let length := double.ofNat tokens.length
    let denominator := double.add frequency (double.mul k1
      (double.add (double.sub (.finite 1) b)
        (double.div (double.mul b length) (index.avgdl floats))))
    let value := double.div
      (double.mul (index.idf floats (index.documentFrequency term))
        (double.mul frequency (double.add k1 (.finite 1)))) denominator
    if value.isFinite then some value else none

def precedes (left right : ScoredId) : Prop :=
  (((right.score.partialCmp left.score).getD .eq).then (compare left.id right.id)) ≠ .gt

instance (left right : ScoredId) : Decidable (precedes left right) :=
  inferInstanceAs (Decidable (_ ≠ _))

def scoreDocument (queryTerms : List String)
    (row : String × List String) : Option ScoredId :=
  match queryTerms.filterMap (index.contribution floats row.2) with
  | [] => none
  | values => some ⟨row.1, floats.finiteF32 (floats.double.sum values)⟩

def search (unicode : UnicodeText) (index : Bm25Index) (query : String) (topK : Nat)
    : List ScoredId :=
  let queryTerms := tokenize unicode query
  ((index.documents.toList.filterMap (index.scoreDocument floats queryTerms)).insertionSort
    precedes).take topK

end Scores

end Bm25Index

end AkiDB.Vectors
