/-
Little-endian byte strings as numbers.

`leNat` reads a byte string, `leBytes k` writes a number in `k` bytes
(dropping what does not fit, as a cast does). They are inverse to each
other up to that loss (`leNat_leBytes`, `leBytes_leNat`), so `leBytes k`
is injective on the numbers that fit (`leBytes_injOn`). Code that builds
the number with shifts and ors reads the same value (`leNat_cons_or`).
`byteAt` reads a buffer that is written in place with `List.set`.
-/
import Mathlib

namespace RemoteDesk.Lib

/-- The number a byte string spells, least significant byte first. -/
def leNat : List UInt8 → Nat
  | [] => 0
  | b :: bs => b.toNat + 256 * leNat bs

/-- The low `k` bytes of a number, least significant first. -/
def leBytes : Nat → Nat → List UInt8
  | 0, _ => []
  | k + 1, n => UInt8.ofNat n :: leBytes k (n / 256)

@[simp] theorem leNat_nil : leNat [] = 0 := rfl

@[simp] theorem leNat_cons (b : UInt8) (bs : List UInt8) :
    leNat (b :: bs) = b.toNat + 256 * leNat bs := rfl

@[simp] theorem leBytes_zero (n : Nat) : leBytes 0 n = [] := rfl

theorem leBytes_succ (k n : Nat) :
    leBytes (k + 1) n = UInt8.ofNat n :: leBytes k (n / 256) := rfl

@[simp] theorem length_leBytes (k n : Nat) : (leBytes k n).length = k := by
  induction k generalizing n with
  | zero => rfl
  | succ k ih => rw [leBytes_succ, List.length_cons, ih]

theorem leNat_lt (bs : List UInt8) : leNat bs < 256 ^ bs.length := by
  induction bs with
  | nil => exact Nat.one_pos
  | cons b bs ih =>
    have hb := b.toNat_lt
    rw [leNat_cons, List.length_cons, Nat.pow_succ]
    omega

theorem leNat_leBytes (k n : Nat) : leNat (leBytes k n) = n % 256 ^ k := by
  induction k generalizing n with
  | zero => rw [Nat.pow_zero, Nat.mod_one]; rfl
  | succ k ih =>
    have hpow : 256 ^ (k + 1) = 256 * 256 ^ k := Nat.pow_succ'
    rw [leBytes_succ, leNat_cons, ih, UInt8.toNat_ofNat', hpow,
      Nat.mod_mul (x := n) (a := 256)]

theorem leNat_leBytes_of_lt {k n : Nat} (h : n < 256 ^ k) :
    leNat (leBytes k n) = n := by
  rw [leNat_leBytes, Nat.mod_eq_of_lt h]

theorem leBytes_leNat (bs : List UInt8) :
    leBytes bs.length (leNat bs) = bs := by
  induction bs with
  | nil => rfl
  | cons b bs ih =>
    have hb := b.toNat_lt
    have hdiv : (b.toNat + 256 * leNat bs) / 256 = leNat bs := by omega
    rw [List.length_cons, leBytes_succ, leNat_cons, hdiv, ih]
    congr 1
    apply UInt8.toNat.inj
    rw [UInt8.toNat_ofNat']
    omega

/-- Numbers that fit are told apart by their bytes. -/
theorem leBytes_injOn {k m n : Nat} (hm : m < 256 ^ k) (hn : n < 256 ^ k)
    (h : leBytes k m = leBytes k n) : m = n := by
  rw [← leNat_leBytes_of_lt hm, h, leNat_leBytes_of_lt hn]

/-- Shift-and-or reads the same number. -/
theorem leNat_cons_or (b : UInt8) (bs : List UInt8) :
    b.toNat ||| leNat bs <<< 8 = leNat (b :: bs) := by
  have hb : b.toNat < 2 ^ 8 := b.toNat_lt
  rw [Nat.or_comm, ← Nat.shiftLeft_add_eq_or_of_lt hb, Nat.shiftLeft_eq,
    leNat_cons]
  omega

-- ========================== bytes in place

/-- The byte at `i`, zero past the end. -/
def byteAt (data : List UInt8) (i : Nat) : UInt8 := data.getD i 0

theorem byteAt_set (b : List UInt8) (i j : Nat) (a : UInt8) :
    byteAt (b.set i a) j
      = if i = j ∧ i < b.length then a else byteAt b j := by
  unfold byteAt
  rw [List.getD_eq_getElem?_getD, List.getD_eq_getElem?_getD,
    List.getElem?_set]
  by_cases hij : i = j
  · by_cases hlt : i < b.length
    · simp [hij, hij ▸ hlt]
    · have hout : ¬ j < b.length := hij ▸ hlt
      simp [hij, hout]
  · simp [hij]

theorem byteAt_set_other {b : List UInt8} {i j : Nat} {a : UInt8}
    (h : i ≠ j) : byteAt (b.set i a) j = byteAt b j := by
  rw [byteAt_set, if_neg (fun hc => h hc.1)]

theorem byteAt_set_same {b : List UInt8} {i : Nat} {a : UInt8}
    (h : i < b.length) : byteAt (b.set i a) i = a := by
  rw [byteAt_set, if_pos ⟨rfl, h⟩]

theorem byteAt_replicate (n i : Nat) : byteAt (List.replicate n 0) i = 0 := by
  unfold byteAt
  rw [List.getD_eq_getElem?_getD, List.getElem?_replicate]
  split <;> rfl

theorem eq_of_byteAt {a b : List UInt8} (hlen : a.length = b.length)
    (h : ∀ i < a.length, byteAt a i = byteAt b i) : a = b := by
  apply List.ext_getElem hlen
  intro i hi hi'
  have hbyte := h i hi
  unfold byteAt at hbyte
  rwa [List.getD_eq_getElem _ _ hi, List.getD_eq_getElem _ _ hi'] at hbyte

end RemoteDesk.Lib
