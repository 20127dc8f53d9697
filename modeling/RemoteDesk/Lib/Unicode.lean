/-
UTF-8 and UTF-16 as lists of bytes and of units.

`utf8` and `utf16` write a list of characters; `utf8Char_of_lt` and its
siblings say what one character's bytes are, length by length, in the
arithmetic a hand-written codec is compared with. `charOf` is the
character of a scalar value.

Masks and shifts on numbers below a power of two are divisions and
remainders (`mask_low`, `shift_or`): code that takes a code unit apart
with them is put back into arithmetic here.
-/
import RemoteDesk.Lib.LittleEndian

namespace RemoteDesk.Lib

-- ================================= scalars

/-- A Unicode scalar value: any code point but a surrogate. -/
abbrev IsScalar (n : Nat) : Prop := n.isValidChar

theorem isScalar_iff {n : Nat} :
    IsScalar n ↔ n < 0xD800 ∨ 0xDFFF < n ∧ n < 0x110000 := Iff.rfl

/-- The character of a scalar value. -/
def charOf (n : Nat) (h : IsScalar n) : Char :=
  ⟨n.toUInt32, by
    have hn : n.toUInt32.toNat = n := by
      rcases h with h | h <;>
        exact Nat.mod_eq_of_lt (by omega)
    show n.toUInt32.toNat.isValidChar
    rwa [hn]⟩

@[simp] theorem toNat_charOf {n : Nat} (h : IsScalar n) :
    (charOf n h).toNat = n := by
  show n.toUInt32.toNat = n
  rcases h with h | h <;> exact Nat.mod_eq_of_lt (by omega)

theorem isScalar_toNat (c : Char) : IsScalar c.toNat := c.valid

theorem char_ext {c d : Char} (h : c.toNat = d.toNat) : c = d :=
  Char.ext (UInt32.toNat.inj h)

-- ==================================== bits

theorem mask_low (n k : Nat) : n &&& (2 ^ k - 1) = n % 2 ^ k :=
  Nat.and_two_pow_sub_one_eq_mod n k

theorem shift_or {a b k : Nat} (h : b < 2 ^ k) :
    a <<< k ||| b = 2 ^ k * a + b := by
  rw [← Nat.shiftLeft_add_eq_or_of_lt h, Nat.shiftLeft_eq, Nat.mul_comm]

theorem shift_down (n k : Nat) : n >>> k = n / 2 ^ k :=
  Nat.shiftRight_eq_div_pow n k

-- =================================== UTF-8

/-- The UTF-8 bytes of a text. -/
def utf8 (cs : List Char) : List UInt8 := cs.flatMap String.utf8EncodeChar

@[simp] theorem utf8_nil : utf8 [] = [] := rfl

@[simp] theorem utf8_cons (c : Char) (cs : List Char) :
    utf8 (c :: cs) = String.utf8EncodeChar c ++ utf8 cs := rfl

theorem utf8_append (cs ds : List Char) :
    utf8 (cs ++ ds) = utf8 cs ++ utf8 ds := List.flatMap_append

section OneChar

variable {c : Char}

theorem utf8Char_one (h : c.toNat < 0x80) :
    String.utf8EncodeChar c = [UInt8.ofNat c.toNat] := by
  unfold String.utf8EncodeChar
  exact if_pos (by change c.toNat ≤ _; omega)

theorem utf8Char_two (hlo : 0x80 ≤ c.toNat) (hhi : c.toNat < 0x800) :
    String.utf8EncodeChar c = [UInt8.ofNat (c.toNat / 64 + 0xC0),
      UInt8.ofNat (c.toNat % 64 + 0x80)] := by
  have hdiv : c.toNat / 64 % 0x20 = c.toNat / 64 := by omega
  unfold String.utf8EncodeChar
  dsimp only
  rw [if_neg (by change ¬ c.toNat ≤ _; omega),
    if_pos (by change c.toNat ≤ _; omega)]
  change [UInt8.ofNat (c.toNat / 64 % 0x20 + 0xC0), _] = _
  rw [hdiv]
  rfl

theorem utf8Char_three (hlo : 0x800 ≤ c.toNat) (hhi : c.toNat < 0x10000) :
    String.utf8EncodeChar c = [UInt8.ofNat (c.toNat / 4096 + 0xE0),
      UInt8.ofNat (c.toNat / 64 % 64 + 0x80),
      UInt8.ofNat (c.toNat % 64 + 0x80)] := by
  have hdiv : c.toNat / 4096 % 0x10 = c.toNat / 4096 := by omega
  unfold String.utf8EncodeChar
  dsimp only
  rw [if_neg (by change ¬ c.toNat ≤ _; omega),
    if_neg (by change ¬ c.toNat ≤ _; omega),
    if_pos (by change c.toNat ≤ _; omega)]
  change [UInt8.ofNat (c.toNat / 4096 % 0x10 + 0xE0), _, _] = _
  rw [hdiv]
  rfl

theorem utf8Char_four (hlo : 0x10000 ≤ c.toNat) :
    String.utf8EncodeChar c = [UInt8.ofNat (c.toNat / 262144 + 0xF0),
      UInt8.ofNat (c.toNat / 4096 % 64 + 0x80),
      UInt8.ofNat (c.toNat / 64 % 64 + 0x80),
      UInt8.ofNat (c.toNat % 64 + 0x80)] := by
  have hvalid := isScalar_iff.mp (isScalar_toNat c)
  have hdiv : c.toNat / 262144 % 0x08 = c.toNat / 262144 := by omega
  unfold String.utf8EncodeChar
  dsimp only
  rw [if_neg (by change ¬ c.toNat ≤ _; omega),
    if_neg (by change ¬ c.toNat ≤ _; omega),
    if_neg (by change ¬ c.toNat ≤ _; omega)]
  change [UInt8.ofNat (c.toNat / 262144 % 0x08 + 0xF0), _, _, _] = _
  rw [hdiv]
  rfl

end OneChar

/-- The bytes of an ASCII literal. -/
def ascii (s : String) : List UInt8 :=
  s.toList.map fun c => UInt8.ofNat c.toNat

/-- Bytes below 128 are characters of their own. -/
theorem exists_utf8_of_ascii {bytes : List UInt8}
    (h : ∀ b ∈ bytes, b.toNat < 128) : ∃ cs, bytes = utf8 cs := by
  induction bytes with
  | nil => exact ⟨[], rfl⟩
  | cons b bytes ih =>
    obtain ⟨hb, hrest⟩ := List.forall_mem_cons.mp h
    obtain ⟨cs, hcs⟩ := ih hrest
    have hscalar : IsScalar b.toNat := isScalar_iff.mpr (by omega)
    refine ⟨charOf _ hscalar :: cs, ?_⟩
    rw [utf8_cons, utf8Char_one (by rwa [toNat_charOf]), toNat_charOf,
      UInt8.ofNat_toNat, hcs]
    rfl

-- ================================== UTF-16

/-- The UTF-16 units of a character. -/
def utf16Char (c : Char) : List Nat :=
  if c.toNat < 0x10000 then [c.toNat]
  else [0xD800 + (c.toNat - 0x10000) / 1024,
    0xDC00 + (c.toNat - 0x10000) % 1024]

/-- The UTF-16 units of a text. -/
def utf16 (cs : List Char) : List Nat := cs.flatMap utf16Char

@[simp] theorem utf16_nil : utf16 [] = [] := rfl

@[simp] theorem utf16_cons (c : Char) (cs : List Char) :
    utf16 (c :: cs) = utf16Char c ++ utf16 cs := rfl

theorem utf16Char_one {c : Char} (h : c.toNat < 0x10000) :
    utf16Char c = [c.toNat] := if_pos h

theorem utf16Char_two {c : Char} (h : 0x10000 ≤ c.toNat) :
    utf16Char c = [0xD800 + (c.toNat - 0x10000) / 1024,
      0xDC00 + (c.toNat - 0x10000) % 1024] := if_neg (by omega)

/-- The bytes of a list of units, least significant byte first. -/
def unitBytes (units : List Nat) : List UInt8 := units.flatMap (leBytes 2)

@[simp] theorem unitBytes_nil : unitBytes [] = [] := rfl

@[simp] theorem unitBytes_cons (u : Nat) (us : List Nat) :
    unitBytes (u :: us) = leBytes 2 u ++ unitBytes us := rfl

theorem unitBytes_append (us vs : List Nat) :
    unitBytes (us ++ vs) = unitBytes us ++ unitBytes vs :=
  List.flatMap_append

theorem length_unitBytes (us : List Nat) :
    (unitBytes us).length = 2 * us.length := by
  induction us with
  | nil => rfl
  | cons u us ih =>
    rw [unitBytes_cons, List.length_append, length_leBytes, ih,
      List.length_cons]
    omega

/-- A character takes at most as many units as bytes. -/
theorem length_utf16Char_le (c : Char) :
    (utf16Char c).length ≤ (String.utf8EncodeChar c).length := by
  by_cases h : c.toNat < 0x10000
  · rw [utf16Char_one h]
    unfold String.utf8EncodeChar
    dsimp only
    split
    · simp
    · split
      · simp
      · split <;> simp
  · rw [utf16Char_two (by omega), utf8Char_four (by omega)]
    simp

theorem length_utf16_le (cs : List Char) :
    (utf16 cs).length ≤ (utf8 cs).length := by
  induction cs with
  | nil => exact Nat.le_refl _
  | cons c cs ih =>
    rw [utf16_cons, utf8_cons, List.length_append, List.length_append]
    exact Nat.add_le_add (length_utf16Char_le c) ih

end RemoteDesk.Lib
