import Mathlib.Tactic.Ring
import Mathlib.Tactic.NormNum
import Mathlib.Data.List.Basic

/-! Fixed-width numbers and length-prefixed framing: a framed list determines its components. -/

namespace ByteFraming
open List

abbrev Bytes := List UInt8

/-- The low `width` bytes of `value`, least significant byte first. -/
def leBytes : Nat → Nat → Bytes
  | 0, _ => []
  | width + 1, value => UInt8.ofNat (value % 256) :: leBytes width (value / 256)

def leValue : Bytes → Nat
  | [] => 0
  | byte :: rest => byte.toNat + 256 * leValue rest

def beBytes (width value : Nat) : Bytes :=
  (leBytes width value).reverse

@[simp]
theorem leBytes_length (width value : Nat) : (leBytes width value).length = width := by
  induction width generalizing value with
  | zero => rfl
  | succ width ih => simp [leBytes, ih]

@[simp]
theorem beBytes_length (width value : Nat) : (beBytes width value).length = width := by
  simp [beBytes]

theorem leValue_leBytes {width value : Nat} (bound : value < 256 ^ width)
    : leValue (leBytes width value) = value := by
  induction width generalizing value with
  | zero =>
    have zero : value = 0 := by simpa using bound
    simp [leBytes, leValue, zero]
  | succ width ih =>
    have rest : value / 256 < 256 ^ width := by
      rw [Nat.div_lt_iff_lt_mul (by norm_num)]
      simpa [pow_succ] using bound
    have low : (UInt8.ofNat (value % 256)).toNat = value % 256 := by
      simp
    rw [leBytes, leValue, ih rest, low]
    omega

theorem leValue_lt (bytes : Bytes) : leValue bytes < 256 ^ bytes.length := by
  induction bytes with
  | nil => simp [leValue]
  | cons byte rest ih =>
    have small := byte.toNat_lt
    simp only [leValue, length_cons, pow_succ]
    omega

theorem leBytes_leValue (bytes : Bytes) : leBytes bytes.length (leValue bytes) = bytes := by
  induction bytes with
  | nil => rfl
  | cons byte rest ih =>
    have small := byte.toNat_lt
    have low : (byte.toNat + 256 * leValue rest) % 256 = byte.toNat := by omega
    have high : (byte.toNat + 256 * leValue rest) / 256 = leValue rest := by omega
    simp only [length_cons, leBytes, leValue, low, high, ih, UInt8.ofNat_toNat]

theorem beBytes_inj {width left right : Nat} (leftBound : left < 256 ^ width)
    (rightBound : right < 256 ^ width) (same : beBytes width left = beBytes width right)
    : left = right := by
  have reversed : leBytes width left = leBytes width right := reverse_injective same
  rw [← leValue_leBytes leftBound, ← leValue_leBytes rightBound, reversed]

def component (value : Bytes) : Bytes :=
  beBytes 4 value.length ++ value

def frame (components : List Bytes) : Bytes :=
  components.flatMap component

@[simp]
theorem frame_nil : frame [] = [] := rfl

@[simp]
theorem frame_cons (head : Bytes) (rest : List Bytes)
    : frame (head :: rest) = component head ++ frame rest := rfl

@[simp]
theorem component_length (value : Bytes) : (component value).length = 4 + value.length := by
  simp [component]

theorem component_append_inj {left right leftRest rightRest : Bytes}
    (same : component left ++ leftRest = component right ++ rightRest)
    (leftBound : left.length < 256 ^ 4) (rightBound : right.length < 256 ^ 4)
    : left = right ∧ leftRest = rightRest := by
  simp only [component, append_assoc] at same
  obtain ⟨lengths, bodies⟩ := append_inj same (by simp)
  exact append_inj bodies (beBytes_inj leftBound rightBound lengths)

/-- Equal framings have equal components as soon as one of them fits in the length field. -/
theorem frame_inj {left right : List Bytes} (same : frame left = frame right)
    (bound : (frame right).length < 256 ^ 4)
    : left = right := by
  induction left generalizing right with
  | nil =>
    cases right with
    | nil => rfl
    | cons head rest =>
      have lengths := congrArg List.length same
      simp only [frame_nil, frame_cons, length_nil, length_append, component_length] at lengths
      omega
  | cons head rest ih =>
    cases right with
    | nil =>
      have lengths := congrArg List.length same
      simp at lengths
    | cons head' rest' =>
      have lengths := congrArg List.length same
      simp only [frame_cons, length_append, component_length] at lengths bound
      obtain ⟨heads, rests⟩ :=
        component_append_inj same (by omega) (by omega)
      rw [heads, ih rests (by omega)]

end ByteFraming
