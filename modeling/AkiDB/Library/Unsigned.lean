import Mathlib.Tactic.Common

/-! Unsigned 64-bit arithmetic on natural numbers that notices overflow. -/

namespace Unsigned

def range64 : Nat := 18446744073709551616

/-- The sum, unless it leaves the 64-bit range. -/
def checkedAdd64 (left right : Nat) : Option Nat :=
  if left + right < range64 then some (left + right) else none

def saturatingAdd64 (left right : Nat) : Nat :=
  min (left + right) (range64 - 1)

def saturatingMul64 (left right : Nat) : Nat :=
  min (left * right) (range64 - 1)

@[simp]
theorem checkedAdd64_eq_some {left right sum : Nat}
    : checkedAdd64 left right = some sum ↔ left + right < range64 ∧ left + right = sum := by
  simp [checkedAdd64]

/-- The sum of two words, unless it leaves the 64-bit range. -/
def checkedAddWord (left right : UInt64) : Option UInt64 :=
  if left.toNat + right.toNat < range64 then some (left + right) else none

/-- The sum of two words, capped at the largest one. -/
def saturatingAddWord (left right : UInt64) : UInt64 :=
  if left.toNat + right.toNat < range64 then left + right else UInt64.ofNat (range64 - 1)

theorem toNat_add_of_lt {left right : UInt64} (bound : left.toNat + right.toNat < range64)
    : (left + right).toNat = left.toNat + right.toNat := by
  have small : left.toNat + right.toNat < 2 ^ 64 := bound
  rw [UInt64.toNat_add, Nat.mod_eq_of_lt small]

theorem saturatingAddWord_toNat (left right : UInt64)
    : (saturatingAddWord left right).toNat = min (left.toNat + right.toNat) (range64 - 1) := by
  unfold saturatingAddWord
  split
  next bound =>
    rw [toNat_add_of_lt bound]
    omega
  next large =>
    have last : (UInt64.ofNat (range64 - 1)).toNat = range64 - 1 := by decide
    omega

end Unsigned
