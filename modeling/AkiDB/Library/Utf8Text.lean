import Mathlib.Tactic.Common

/-! Trimming by Unicode white space, control characters, UTF-8 bytes and hexadecimal digits. -/

namespace Utf8Text
open List

/-- Unicode `White_Space`. -/
def isWhitespace (c : Char) : Bool :=
  let n := c.toNat
  (0x09 ≤ n && n ≤ 0x0D) || n == 0x20 || n == 0x85 || n == 0xA0 || n == 0x1680
    || (0x2000 ≤ n && n ≤ 0x200A) || n == 0x2028 || n == 0x2029 || n == 0x202F
    || n == 0x205F || n == 0x3000

def isControl (c : Char) : Bool :=
  c.toNat < 0x20 || (0x7F ≤ c.toNat && c.toNat < 0xA0)

/-- The characters left after stripping white space from both ends. -/
def trimmed (text : String) : List Char :=
  ((text.toList.dropWhile isWhitespace).reverse.dropWhile isWhitespace).reverse

def bytes (text : String) : List UInt8 :=
  text.toByteArray.data.toList

theorem bytes_inj {left right : String} (same : bytes left = bytes right) : left = right := by
  have arrays : left.toByteArray.data = right.toByteArray.data := Array.toList_inj.mp same
  exact String.toByteArray_inj.mp (ByteArray.ext arrays)

@[simp]
theorem bytes_length (text : String) : (bytes text).length = text.utf8ByteSize := by
  rfl

theorem bytes_ofList (chars : List Char)
    : bytes (String.ofList chars) = chars.flatMap String.utf8EncodeChar := by
  simp [bytes, List.utf8Encode]

def isLowerHex (byte : UInt8) : Bool :=
  (48 ≤ byte && byte ≤ 57) || (97 ≤ byte && byte ≤ 102)

/-- The lowercase digit of a nibble. -/
def hexDigit (nibble : Nat) : Char :=
  if nibble < 10 then Char.ofNat (48 + nibble) else Char.ofNat (87 + nibble)

/-- Two lowercase hexadecimal digits per byte. -/
def hex (digest : List UInt8) : String :=
  String.ofList (digest.flatMap fun byte =>
    [hexDigit (byte.toNat / 16), hexDigit (byte.toNat % 16)])

theorem hexDigit_encoding (nibble : Nat) (bound : nibble < 16)
    : (String.utf8EncodeChar (hexDigit nibble)).length = 1
      ∧ (String.utf8EncodeChar (hexDigit nibble)).all isLowerHex := by
  have everyNibble : ∀ n : Fin 16, (String.utf8EncodeChar (hexDigit n)).length = 1
      ∧ (String.utf8EncodeChar (hexDigit n)).all isLowerHex := by
    decide
  exact everyNibble ⟨nibble, bound⟩

theorem hex_wellFormed (digest : List UInt8)
    : (hex digest).utf8ByteSize = 2 * digest.length
      ∧ (bytes (hex digest)).all isLowerHex := by
  rw [← bytes_length, hex, bytes_ofList]
  induction digest with
  | nil => exact ⟨rfl, rfl⟩
  | cons byte rest ih =>
    have byteBound := byte.toNat_lt
    obtain ⟨highLength, highHex⟩ := hexDigit_encoding (byte.toNat / 16) (by omega)
    obtain ⟨lowLength, lowHex⟩ := hexDigit_encoding (byte.toNat % 16) (by omega)
    obtain ⟨restLength, restHex⟩ := ih
    simp only [flatMap_cons, cons_append, nil_append, length_append,
      all_append, length_cons, highLength, lowLength, restLength, highHex, lowHex,
      restHex, Bool.and_self, and_true]
    omega

end Utf8Text
