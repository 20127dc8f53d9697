/-
The base32 encoding (RFC 4648), without padding signs.

The bytes are one number; zero bits make it a whole number of digits of
five bits (`zeroBits`), and its digits are spelled in the alphabet.
-/
import RemoteDesk.Lib.BigEndian

namespace RemoteDesk.Lib

def base32Alphabet : List Nat := codes "ABCDEFGHIJKLMNOPQRSTUVWXYZ234567"

/-- The number of digits `n` bytes take. -/
def base32Length (n : Nat) : Nat := (8 * n + 4) / 5

/-- The zero bits behind `n` bytes. -/
def zeroBits (n : Nat) : Nat := 5 * base32Length n - 8 * n

def base32Digits (bytes : List UInt8) : List Nat :=
  fixedDigits 32 (base32Length bytes.length)
    (beNat bytes * 2 ^ zeroBits bytes.length)

def base32 (bytes : List UInt8) : List Nat :=
  (base32Digits bytes).map fun d => base32Alphabet.getD d 0

theorem zeroBits_lt (n : Nat) : zeroBits n < 5 := by
  unfold zeroBits base32Length
  omega

theorem zeroBits_add (n : Nat) :
    5 * base32Length n = 8 * n + zeroBits n := by
  unfold zeroBits base32Length
  omega

/-- The digits spell the whole number. -/
theorem digitsValue_base32Digits (bytes : List UInt8) :
    digitsValue 32 (base32Digits bytes)
      = beNat bytes * 2 ^ zeroBits bytes.length := by
  rw [base32Digits, digitsValue_fixedDigits, Nat.mod_eq_of_lt]
  have hpow : 32 ^ base32Length bytes.length
      = 256 ^ bytes.length * 2 ^ zeroBits bytes.length := by
    rw [show (32 : Nat) = 2 ^ 5 by norm_num, show (256 : Nat) = 2 ^ 8 by
      norm_num, ← Nat.pow_mul, ← Nat.pow_mul, ← Nat.pow_add, zeroBits_add]
  rw [hpow]
  exact Nat.mul_lt_mul_of_pos_right (beNat_lt bytes) (Nat.two_pow_pos _)

/-- The small letters as capitals. -/
def upperCode (u : Nat) : Nat := if 97 ≤ u ∧ u ≤ 122 then u - 32 else u

/-- A text that spells bytes in letters of either case, with spaces, hyphens
and padding signs between them. -/
def Base32Spelling (text : List Nat) (bytes : List UInt8) : Prop :=
  (text.filter fun u => u ≠ 32 ∧ u ≠ 45 ∧ u ≠ 61).map upperCode = base32 bytes

instance (text : List Nat) (bytes : List UInt8) :
    Decidable (Base32Spelling text bytes) :=
  inferInstanceAs (Decidable (_ = _))

example : base32 [0x66, 0x6f, 0x6f, 0x62] = codes "MZXW6YQ" := by
  decide +kernel

end RemoteDesk.Lib
