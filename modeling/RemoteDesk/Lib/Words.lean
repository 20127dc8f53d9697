/-
Bit operations on numbers that are not words.

A script language does its bit operations on the low 32 bits of a number
and gives a number back: signed (`bitAnd`, `shiftLeft`), or unsigned for
the zero-filling shift (`shiftRight`). `toWord` is the word such a number
stands for. Every operation, and the exact sum of numbers, is an operation
of words under it, so a computation that only mixes these is a computation
of words however its numbers are signed in between.

Numbers below 2^31 are themselves: there the operations are those of
naturals (`shiftLeft_natCast`, `bitOr_natCast`, `bitAnd_mask`).
-/
import Mathlib

namespace RemoteDesk.Lib

abbrev Word := BitVec 32

/-- The low 32 bits of a number. -/
def toWord (x : Int) : Word := BitVec.ofInt 32 x

-- ============================== operations

def bitAnd (x y : Int) : Int := (toWord x &&& toWord y).toInt

def bitOr (x y : Int) : Int := (toWord x ||| toWord y).toInt

def bitXor (x y : Int) : Int := (toWord x ^^^ toWord y).toInt

def bitNot (x : Int) : Int := (~~~toWord x).toInt

/-- The low five bits of a count count. -/
def shiftLeft (x n : Int) : Int := (toWord x <<< (n % 32).toNat).toInt

/-- Zeros are shifted in, and the result is unsigned. -/
def shiftRight (x n : Int) : Int := (toWord x >>> (n % 32).toNat).toNat

@[simp] theorem toWord_add (x y : Int) :
    toWord (x + y) = toWord x + toWord y :=
  BitVec.ofInt_add x y

@[simp] theorem toWord_bitAnd (x y : Int) :
    toWord (bitAnd x y) = toWord x &&& toWord y :=
  BitVec.ofInt_toInt

@[simp] theorem toWord_bitOr (x y : Int) :
    toWord (bitOr x y) = toWord x ||| toWord y :=
  BitVec.ofInt_toInt

@[simp] theorem toWord_bitXor (x y : Int) :
    toWord (bitXor x y) = toWord x ^^^ toWord y :=
  BitVec.ofInt_toInt

@[simp] theorem toWord_bitNot (x : Int) :
    toWord (bitNot x) = ~~~toWord x :=
  BitVec.ofInt_toInt

@[simp] theorem toWord_shiftLeft (x n : Int) :
    toWord (shiftLeft x n) = toWord x <<< (n % 32).toNat :=
  BitVec.ofInt_toInt

theorem toWord_toNat (w : Word) : toWord w.toNat = w := by
  rw [toWord, BitVec.ofInt_natCast, BitVec.ofNat_toNat, BitVec.setWidth_eq]

@[simp] theorem toWord_shiftRight (x n : Int) :
    toWord (shiftRight x n) = toWord x >>> (n % 32).toNat :=
  toWord_toNat _

@[simp] theorem toWord_unsigned (x : Int) :
    toWord (shiftRight x 0) = toWord x := by
  rw [toWord_shiftRight]
  simp

-- ========================== small naturals

theorem toWord_natCast (n : Nat) : toWord n = BitVec.ofNat 32 n :=
  BitVec.ofInt_natCast 32 n

theorem toInt_ofNat {n : Nat} (h : n < 2 ^ 31) :
    (BitVec.ofNat 32 n).toInt = n := by
  rw [BitVec.toInt_eq_toNat_of_lt, BitVec.toNat_ofNat, Nat.mod_eq_of_lt]
  · omega
  · rw [BitVec.toNat_ofNat]
    omega

theorem shiftLeft_natCast {n k : Nat} (hk : k < 32) (h : n * 2 ^ k < 2 ^ 31) :
    shiftLeft n k = (n * 2 ^ k : Nat) := by
  have hcount : ((k : Int) % 32).toNat = k := by omega
  rw [shiftLeft, hcount, toWord_natCast, ← toInt_ofNat h]
  congr 1
  apply BitVec.eq_of_toNat_eq
  rw [BitVec.toNat_shiftLeft, BitVec.toNat_ofNat, BitVec.toNat_ofNat,
    Nat.shiftLeft_eq, Nat.mod_mul_mod]

theorem shiftRight_natCast {n k : Nat} (hk : k < 32) (h : n < 2 ^ 32) :
    shiftRight n k = (n / 2 ^ k : Nat) := by
  have hcount : ((k : Int) % 32).toNat = k := by omega
  rw [shiftRight, hcount, toWord_natCast, BitVec.toNat_ushiftRight,
    BitVec.toNat_ofNat, Nat.mod_eq_of_lt h, Nat.shiftRight_eq_div_pow]

theorem bitOr_natCast {m n : Nat} (hm : m < 2 ^ 31) (hn : n < 2 ^ 31) :
    bitOr m n = (m ||| n : Nat) := by
  rw [bitOr, toWord_natCast, toWord_natCast,
    ← toInt_ofNat (Nat.or_lt_two_pow hm hn)]
  congr 1
  apply BitVec.eq_of_toNat_eq
  rw [BitVec.toNat_or]
  simp only [BitVec.toNat_ofNat]
  rw [Nat.mod_eq_of_lt (by omega), Nat.mod_eq_of_lt (by omega),
    Nat.mod_eq_of_lt (Nat.or_lt_two_pow hm hn |>.trans (by norm_num))]

/-- An empty low part takes a small number as a sum does. -/
theorem bitOr_shifted {m n k : Nat} (hk : n < 2 ^ k)
    (h : m * 2 ^ k + n < 2 ^ 31) :
    bitOr (m * 2 ^ k : Nat) n = (m * 2 ^ k + n : Nat) := by
  rw [bitOr_natCast (by omega) (by omega), ← Nat.shiftLeft_eq,
    Nat.shiftLeft_add_eq_or_of_lt hk]

theorem toNat_toWord_mod (x : Int) {k : Nat} (hk : k ≤ 32) :
    (((toWord x).toNat % 2 ^ k : Nat) : Int) = x % 2 ^ k := by
  have hdvd : ((2 ^ k : Nat) : Int) ∣ ((2 ^ 32 : Nat) : Int) :=
    Int.natCast_dvd_natCast.mpr (Nat.pow_dvd_pow 2 hk)
  have hmod := Int.emod_emod_of_dvd x hdvd
  have hnonneg : 0 ≤ x % ((2 ^ 32 : Nat) : Int) :=
    Int.emod_nonneg x (by norm_num)
  rw [toWord, BitVec.toNat_ofInt, Int.natCast_emod,
    Int.toNat_of_nonneg hnonneg, hmod]
  norm_num

/-- The low bits of a number. -/
theorem bitAnd_mask (x : Int) {k : Nat} (hk : k ≤ 31) :
    bitAnd x ((2 ^ k - 1 : Nat) : Int) = x % 2 ^ k := by
  have hpow : 2 ^ k ≤ 2 ^ 31 := Nat.pow_le_pow_right (by norm_num) hk
  have hpos : 0 < 2 ^ k := Nat.two_pow_pos k
  have hlt : (toWord x).toNat % 2 ^ k < 2 ^ 31 :=
    (Nat.mod_lt _ hpos).trans_le hpow
  rw [← toNat_toWord_mod x (hk.trans (by norm_num)), ← toInt_ofNat hlt,
    bitAnd]
  congr 1
  apply BitVec.eq_of_toNat_eq
  rw [BitVec.toNat_and, toWord_natCast, BitVec.toNat_ofNat,
    BitVec.toNat_ofNat, Nat.mod_eq_of_lt (by omega : 2 ^ k - 1 < 2 ^ 32),
    Nat.and_two_pow_sub_one_eq_mod,
    Nat.mod_eq_of_lt (hlt.trans (by norm_num))]

end RemoteDesk.Lib
