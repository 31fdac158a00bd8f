import AkiDB.Common.Arithmetic
import AkiDB.Library.Utf8Text
import Mathlib

/-!
Source-grounded context packs: chunks are expanded to parents that fill a token budget in rank
order.
-/

namespace AkiDB.Vectors
open AkiDB.Common Utf8Text List

structure Citation where
  sourceUri : String
  span : Option (Nat × Nat)
  version : Option String
  deriving DecidableEq

namespace Citation

def new (sourceUri : String) : Citation where
  sourceUri := sourceUri
  span := none
  version := none

variable (citation : Citation)

def withSpan (first last : Nat) : Citation :=
  { citation with span := some (if first ≤ last then (first, last) else (last, first)) }

def withVersion (version : String) : Citation :=
  { citation with version := some version }

/-- A compact marker such as `file.rs@v2#10:42`. -/
def marker : String :=
  citation.sourceUri ++ (citation.version.elim "" ("@" ++ ·))
    ++ citation.span.elim "" fun span => s!"#{span.1}:{span.2}"

end Citation

structure Passage where
  id : String
  text : String
  score : Score
  citation : Citation
  deriving DecidableEq

/-- A passage; a score that is not finite becomes zero. -/
def Passage.new (id text : String) (score : Score) (citation : Citation) : Passage where
  id := id
  text := text
  score := if score.isFinite then score else .zero
  citation := citation

structure MatchedChunk where
  id : String
  parentId : Option String
  text : String
  score : Score

def isBlank (text : String) : Bool :=
  trimmed text = []

/-- What a match contributes: its parent, if that has a text, or else itself. -/
def resolveMatch (parentText : String → Option String) (chunk : MatchedChunk)
    : String × String :=
  match chunk.parentId.bind fun parent =>
      ((parentText parent).filter (!isBlank ·)).map (parent, ·) with
  | some parent => parent
  | none => (chunk.id, chunk.text)

/-- One more match: a passage that is there already keeps the better score. -/
def expandMatch (parentText : String → Option String) (passages : List Passage)
    (chunk : MatchedChunk) : List Passage :=
  let resolved := resolveMatch parentText chunk
  if passages.any (·.id = resolved.1) then
    passages.map fun existing =>
      if existing.id = resolved.1 ∧ chunk.score.gt existing.score then
        { existing with score := chunk.score }
      else existing
  else passages ++ [.new resolved.1 resolved.2 chunk.score (.new resolved.1)]

def expandToParents (matched : List MatchedChunk) (parentText : String → Option String)
    : List Passage :=
  matched.foldl (expandMatch parentText) []

/-- Every passage is what one of the matches contributes. -/
theorem mem_expandToParents {matched} {parentText : String → Option String} {passage : Passage}
    (member : passage ∈ expandToParents matched parentText)
    : ∃ chunk ∈ matched, (passage.id, passage.text) = resolveMatch parentText chunk := by
  revert passage
  refine List.foldlRecOn (motive := fun passages : List Passage => ∀ {passage}, passage ∈ passages
      → ∃ chunk ∈ matched, (passage.id, passage.text) = resolveMatch parentText chunk)
    matched (expandMatch parentText) (b := []) (by simp) ?_
  intro passages sound chunk listed passage member
  unfold expandMatch at member
  dsimp only at member
  split at member
  · obtain ⟨existing, old, rfl⟩ := mem_map.mp member
    obtain ⟨source, listed, same⟩ := sound old
    refine ⟨source, listed, same ▸ ?_⟩
    split <;> rfl
  · rcases mem_append.mp member with old | new
    · exact sound old
    · cases mem_singleton.mp new
      exact ⟨chunk, listed, rfl⟩

def isAsciiWhitespace (char : Char) : Bool :=
  [0x09, 0x0A, 0x0C, 0x0D, 0x20].contains char.toNat

def asciiRunTokens (run : Nat) : Nat :=
  if run = 0 then 0 else max ((run + 3) / 4) 1

def estimateTokensFrom (run : Nat) : List Char → Nat
  | [] => asciiRunTokens run
  | char :: rest =>
    if isAsciiWhitespace char then asciiRunTokens run + estimateTokensFrom 0 rest
    else if char.toNat < 128 then estimateTokensFrom (run + 1) rest
    else asciiRunTokens run + 2 + estimateTokensFrom 0 rest

def estimateTokens (text : String) : Nat :=
  estimateTokensFrom 0 text.toList

inductive PackStrategy where
  | citation
  | compact
  | full
  deriving DecidableEq

structure PackerConfig where
  tokenBudget : Nat
  strategy : PackStrategy
  separator : String

def PackerConfig.new (tokenBudget : Nat) : PackerConfig where
  tokenBudget := tokenBudget
  strategy := .citation
  separator := "\n\n"

structure ContextPack where
  text : String
  citations : List Citation
  included : List String
  dropped : List String
  usedTokens : Nat

def render (passage : Passage) : PackStrategy → String
  | .compact => passage.text
  | .citation => s!"[{passage.citation.marker}] {passage.text}"
  | .full => passage.text ++ "\n— source: " ++ passage.citation.sourceUri
      ++ (passage.citation.version.elim "" fun version => s!" ({version})")
      ++ passage.citation.span.elim "" fun span => s!" [{span.1}:{span.2}]"

structure Packing where
  taken : List Passage
  dropped : List Passage
  usedTokens : Nat

variable (config : PackerConfig)

/-- What a passage costs; the separator counts only between passages. -/
def addedTokens (packing : Packing) (passage : Passage) : Nat :=
  let tokens := estimateTokens (render passage config.strategy)
  if packing.taken = [] then tokens else tokens + estimateTokens config.separator

def packPassage (packing : Packing) (passage : Passage) : Packing :=
  let added := addedTokens config packing passage
  if isBlank passage.text then { packing with dropped := packing.dropped ++ [passage] }
  else if packing.usedTokens + added ≤ config.tokenBudget then
    { packing with
      taken := packing.taken ++ [passage]
      usedTokens := packing.usedTokens + added }
  else { packing with dropped := packing.dropped ++ [passage] }

variable (passages : List Passage)

def packPassages : Packing :=
  passages.foldl (packPassage config) ⟨[], [], 0⟩

def pack (config : PackerConfig) : ContextPack :=
  let packing := packPassages config passages
  { text := config.separator.intercalate (packing.taken.map (render · config.strategy))
    citations := packing.taken.map (·.citation)
    included := packing.taken.map (·.id)
    dropped := packing.dropped.map (·.id)
    usedTokens := packing.usedTokens }

theorem asciiRunTokens_add (left right : Nat)
    : asciiRunTokens (left + right) ≤ asciiRunTokens left + asciiRunTokens right := by
  unfold asciiRunTokens
  split <;> split <;> split <;> omega

theorem estimateTokensFrom_add (left right : Nat) (text : List Char)
    : estimateTokensFrom (left + right) text
      ≤ asciiRunTokens left + estimateTokensFrom right text := by
  have merged := asciiRunTokens_add left right
  induction text generalizing right with
  | nil => exact merged
  | cons char rest ih =>
    unfold estimateTokensFrom
    split
    · omega
    · split
      · exact ih (right + 1) (asciiRunTokens_add left (right + 1))
      · omega

theorem estimateTokensFrom_append (run : Nat) (left right : List Char)
    : estimateTokensFrom run (left ++ right)
      ≤ estimateTokensFrom run left + estimateTokensFrom 0 right := by
  induction left generalizing run with
  | nil => exact estimateTokensFrom_add run 0 right
  | cons char rest ih =>
    simp only [cons_append, estimateTokensFrom]
    have zero := ih 0
    have next := ih (run + 1)
    split
    · omega
    · split <;> omega

theorem estimateTokens_append (left right : String)
    : estimateTokens (left ++ right) ≤ estimateTokens left + estimateTokens right := by
  simpa [estimateTokens] using estimateTokensFrom_append 0 left.toList right.toList

def countedTokens (taken : List Passage) : Nat :=
  (taken.map fun passage => estimateTokens (render passage config.strategy)).sum
    + (taken.length - 1) * estimateTokens config.separator

theorem countedTokens_concat (packing : Packing) (passage : Passage)
    : countedTokens config (packing.taken ++ [passage])
      = countedTokens config packing.taken + addedTokens config packing passage := by
  unfold countedTokens addedTokens
  rcases packing.taken.eq_nil_or_concat with none_taken | ⟨earlier, last, some_taken⟩
  · simp [none_taken]
  · simp [some_taken]
    ring

theorem estimateTokens_intercalate (separator : String) (parts : List String)
    : estimateTokens (separator.intercalate parts)
      ≤ (parts.map estimateTokens).sum + (parts.length - 1) * estimateTokens separator := by
  induction parts with
  | nil => simp; rfl
  | cons part rest ih =>
    cases rest with
    | nil =>
      have alone : separator.intercalate [part] = part := by
        apply String.toList_injective
        simp
      simp [alone]
    | cons next others =>
      have split : separator.intercalate (part :: next :: others)
          = part ++ (separator ++ separator.intercalate (next :: others)) := by
        apply String.toList_injective
        simp [String.toList_intercalate, List.intercalate]
      have first := estimateTokens_append part (separator ++ separator.intercalate (next :: others))
      have second := estimateTokens_append separator (separator.intercalate (next :: others))
      rw [split]
      simp only [map_cons, sum_cons, length_cons, Nat.add_sub_cancel] at ih ⊢
      rw [Nat.succ_mul]
      omega

/-- The packing after passages of which each was decided to be taken or not. -/
structure Decided (decisions : List (Passage × Bool))
    (packing : Packing) : Prop where
  taken : packing.taken = (decisions.filter (·.2)).map (·.1)
  dropped : packing.dropped = (decisions.filter (!·.2)).map (·.1)
  used : packing.usedTokens = countedTokens config packing.taken
  budget : packing.usedTokens ≤ config.tokenBudget
  needed : ∀ before passage after, decisions = before ++ (passage, false) :: after →
    isBlank passage.text = false →
    config.tokenBudget
      < countedTokens config ((before.filter (·.2)).map (·.1) ++ [passage])

theorem Decided.packPassage {config decisions} {packing : Packing}
    (decided : Decided config decisions packing) (passage : Passage)
    : ∃ kept, Decided config (decisions ++ [(passage, kept)])
        (packPassage config packing passage) := by
  have counted := countedTokens_concat config packing passage
  have earlier {kept : Bool} (last : kept = false → isBlank passage.text = false →
      config.tokenBudget < countedTokens config (packing.taken ++ [passage]))
      : ∀ before other after, decisions ++ [(passage, kept)] = before ++ (other, false) :: after →
        isBlank other.text = false → config.tokenBudget
          < countedTokens config ((before.filter (·.2)).map (·.1) ++ [other]) := by
    intro before other after split
    rcases after.eq_nil_or_concat with rfl | ⟨between, end_, rfl⟩
    · obtain ⟨rfl, same⟩ := append_inj' split rfl
      obtain ⟨rfl, rfl⟩ := Prod.mk.inj (singleton_inj.mp same)
      rw [← decided.taken]
      exact last rfl
    · rw [concat_eq_append, ← cons_append, ← append_assoc] at split
      exact decided.needed before other between (append_inj' split rfl).1
  unfold AkiDB.Vectors.packPassage
  dsimp only
  split
  · next blank =>
      exact ⟨false, by simpa using decided.taken, by simp [decided.dropped], decided.used,
        decided.budget, earlier fun _ other => by simp [other] at blank⟩
  · split
    · next fits =>
        refine ⟨true, by simp [decided.taken], by simp [decided.dropped], ?_, fits,
          earlier fun never => absurd never (by decide)⟩
        rw [counted, decided.used]
    · next full =>
        refine ⟨false, by simpa using decided.taken, by simp [decided.dropped], decided.used,
          decided.budget, earlier fun _ _ => ?_⟩
        rw [counted, ← decided.used]
        omega

theorem decided_packPassages : ∃ decisions : List (Passage × Bool), decisions.map (·.1) = passages
        ∧ Decided config decisions (packPassages config passages) := by
  induction passages using List.reverseRecOn with
  | nil => exact ⟨[], rfl, rfl, rfl, by simp [packPassages, countedTokens], Nat.zero_le _, by simp⟩
  | append_singleton passages passage ih =>
    obtain ⟨decisions, same, decided⟩ := ih
    obtain ⟨kept, next⟩ := decided.packPassage passage
    refine ⟨decisions ++ [(passage, kept)], by simp [same], ?_⟩
    rw [packPassages, foldl_concat]
    exact next

theorem packPassages_sound : (∀ passage ∈ (packPassages config passages).taken, passage ∈ passages)
      ∧ (packPassages config passages).usedTokens ≤ config.tokenBudget := by
  obtain ⟨decisions, same, decided⟩ := decided_packPassages config passages
  refine ⟨fun passage member => ?_, decided.budget⟩
  rw [decided.taken] at member
  exact same ▸ (filter_sublist.map _).subset member

/-- Packs keep the budget, split the passages and drop only what does not fit.
Witness: joining costs no more than counted.
-/
theorem pack_splits_within_budget (passages : List Passage) (config : PackerConfig)
    : let packed := pack passages config
      estimateTokens packed.text ≤ packed.usedTokens
        ∧ packed.usedTokens ≤ config.tokenBudget
        ∧ ∃ decisions : List (Passage × Bool), decisions.map (·.1) = passages
          ∧ packed.included = (decisions.filter (·.2)).map (·.1.id)
          ∧ packed.citations = (decisions.filter (·.2)).map (·.1.citation)
          ∧ packed.dropped = (decisions.filter (!·.2)).map (·.1.id)
          ∧ packed.usedTokens = countedTokens config ((decisions.filter (·.2)).map (·.1))
          ∧ ∀ before passage after, decisions = before ++ (passage, false) :: after →
            isBlank passage.text = false →
            config.tokenBudget
              < countedTokens config ((before.filter (·.2)).map (·.1) ++ [passage]) := by
  obtain ⟨decisions, same, decided⟩ := decided_packPassages config passages
  have joined := estimateTokens_intercalate config.separator
    ((packPassages config passages).taken.map (render · config.strategy))
  rw [map_map, length_map] at joined
  refine ⟨joined.trans_eq decided.used.symm, decided.budget, decisions, same, ?_, ?_, ?_, ?_,
    decided.needed⟩
  · simp [pack, decided.taken]
  · simp [pack, decided.taken]
  · simp [pack, decided.dropped]
  · simp [pack, decided.used, decided.taken]

end AkiDB.Vectors
