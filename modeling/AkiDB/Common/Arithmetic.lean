import AkiDB.Common.SearchResult

/-! Floating-point arithmetic as the code uses it. What rounding does to a value is left open. -/

namespace AkiDB.Common

namespace Score

/-- The total order of floats: NaN comes after everything. -/
def totalCmp : Score → Score → Ordering
  | nan, nan => .eq
  | nan, _ => .gt
  | _, nan => .lt
  | left, right => (left.partialCmp right).getD .eq

def totalLe (left right : Score) : Prop :=
  left.totalCmp right ≠ .gt

instance (left right : Score) : Decidable (left.totalLe right) :=
  inferInstanceAs (Decidable (_ ≠ _))

def zero : Score := .finite 0

/-- The greater of two floats; NaN gives way to the other. -/
def max (left right : Score) : Score :=
  if left.isNan then right
  else if right.isNan then left
  else if right.gt left then right else left

end Score

/-- The operations of one float format. -/
structure FloatArithmetic where
  /-- The float nearest to a number. -/
  ofRat : ℚ → Score
  add : Score → Score → Score
  sub : Score → Score → Score
  mul : Score → Score → Score
  div : Score → Score → Score
  sqrt : Score → Score
  ln : Score → Score

namespace FloatArithmetic

def ofNat (arithmetic : FloatArithmetic) (value : Nat) : Score :=
  arithmetic.ofRat value

def sum (arithmetic : FloatArithmetic) (values : List Score) : Score :=
  values.foldl arithmetic.add .zero

end FloatArithmetic

/-- Arithmetic without rounding, with roots and logarithms left as they are. -/
def FloatArithmetic.exact : FloatArithmetic where
  ofRat := .finite
  add left right := .finite (left.value + right.value)
  sub left right := .finite (left.value - right.value)
  mul left right := .finite (left.value * right.value)
  div left right := .finite (left.value / right.value)
  sqrt value := value
  ln value := value

/-- The two formats. Widening a single keeps its value. -/
structure Floats where
  single : FloatArithmetic
  double : FloatArithmetic
  narrow : Score → Score

def singleMax : Score :=
  .finite ((2 ^ 24 - 1) * 2 ^ 104)

/-- A double as a single: not a number or infinite becomes zero, too large the maximum. -/
def Floats.finiteF32 (floats : Floats) (score : Score) : Score :=
  if !score.isFinite then .zero
  else if score.gt singleMax then singleMax
  else floats.narrow score

end AkiDB.Common
