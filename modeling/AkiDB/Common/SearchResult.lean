import Mathlib.Data.Rat.Defs
import Mathlib.Algebra.Order.Ring.Rat
import Mathlib.Data.String.Basic

/-!
Search results as shards report them. Scores are 32-bit floats of which the code compares
values only.
-/

namespace AkiDB.Common

/-- A float: the finite ones are the rationals they stand for, so that both zeros are one. -/
inductive Score where
  | nan
  | infinite (negative : Bool)
  | finite (value : ℚ)
  deriving DecidableEq, Repr

namespace Score

def isNan : Score → Bool
  | nan => true
  | _ => false

def isFinite : Score → Bool
  | finite _ => true
  | _ => false

/-- The IEEE comparison: NaN is unordered. -/
def partialCmp : Score → Score → Option Ordering
  | nan, _ => none
  | _, nan => none
  | infinite left, infinite right => some (compare right left)
  | infinite negative, finite _ => some (if negative then .lt else .gt)
  | finite _, infinite negative => some (if negative then .gt else .lt)
  | finite left, finite right => some (compare left right)

def gt (left right : Score) : Bool :=
  left.partialCmp right = some .gt

def ge (left right : Score) : Bool :=
  left.partialCmp right = some .gt ∨ left.partialCmp right = some .eq

def eq (left right : Score) : Bool :=
  left.partialCmp right = some .eq

def value : Score → ℚ
  | finite value => value
  | _ => 0

theorem partialCmp_of_isFinite {left right : Score} (leftFinite : left.isFinite)
    (rightFinite : right.isFinite)
    : left.partialCmp right = some (compare left.value right.value) := by
  cases left <;> cases right <;> simp_all [isFinite, partialCmp, value]

theorem eq_of_value {left right : Score} (leftFinite : left.isFinite)
    (rightFinite : right.isFinite) (same : left.value = right.value)
    : left = right := by
  cases left <;> cases right <;> simp_all [isFinite, value]

theorem isNan_of_isFinite {score : Score} (isFinite : score.isFinite) : score.isNan = false := by
  cases score <;> simp_all [Score.isFinite, isNan]

end Score

structure SearchResult (Metadata : Type) where
  id : String
  score : Score
  metadata : Option Metadata

end AkiDB.Common
