/-
The SHA-1 and SHA-256 of the TOTP engine are those of the standard.

The numbers of a round stand for the words of a step (`toWord`), signed or
not, so each function of the engine is the standard's function under that
map, and the loops follow step by step (`foldl_hom_of_mem`).
-/
import RemoteDesk.Lib.SecureHash
import RemoteDesk.Totp.Engine

namespace RemoteDesk.Totp

open Lib

-- =================================== loops

/-- A map that each round commutes with commutes with the loop. -/
theorem foldl_hom_of_mem {α β ι : Type*} (g : α → β) {f : α → ι → α}
    {f' : β → ι → β} {l : List ι}
    (h : ∀ s, ∀ i ∈ l, g (f s i) = f' (g s) i) (s : α) :
    g (l.foldl f s) = l.foldl f' (g s) := by
  induction l generalizing s with
  | nil => rfl
  | cons i l ih =>
    rw [List.foldl_cons, List.foldl_cons,
      ih (fun s j hj => h s j (List.mem_cons_of_mem _ hj)),
      h s i List.mem_cons_self]

/-- A schedule that is made longer word by word. -/
theorem schedule_loop {W : Nat → Word} {next : List Int → Nat → Int}
    {first : List Int} (hlen : first.length = 16)
    (hfirst : ∀ t < 16, toWord (word first t) = W t)
    (hnext : ∀ w n, w.length = 16 + n →
      (∀ t < 16 + n, toWord (word w t) = W t) →
      toWord (next w n) = W (16 + n)) (n : Nat) :
    ((List.range n).foldl (fun w n => w ++ [next w n]) first).length = 16 + n
      ∧ ∀ t < 16 + n, toWord (word
        ((List.range n).foldl (fun w n => w ++ [next w n]) first) t) = W t := by
  induction n with
  | zero => exact ⟨hlen, hfirst⟩
  | succ n ih =>
    obtain ⟨hlen, hwords⟩ := ih
    rw [List.range_succ, List.foldl_append, List.foldl_cons, List.foldl_nil]
    generalize (List.range n).foldl (fun w n => w ++ [next w n]) first = w
      at hlen hwords
    refine ⟨by rw [List.length_append, hlen]; rfl, fun t ht => ?_⟩
    by_cases hold : t < 16 + n
    · rw [word, List.getD_append _ _ _ _ (by omega)]
      exact hwords t hold
    · obtain rfl : t = 16 + n := by omega
      rw [word, List.getD_append_right _ _ _ _ (by omega), hlen,
        Nat.sub_self]
      exact hnext w n hlen hwords

-- =================================== bytes

theorem beBytes_succ_cons (k n : Nat) :
    beBytes (k + 1) n = UInt8.ofNat (n / 256 ^ k) :: beBytes k n := by
  induction k generalizing n with
  | zero =>
    rw [beBytes_succ, Nat.pow_zero, Nat.div_one]
    rfl
  | succ k ih =>
    rw [beBytes_succ, ih, beBytes_succ k n, Nat.div_div_eq_div_mul,
      ← Nat.pow_succ']
    rfl

theorem toByte_mask (x : Int) : toByte (bitAnd x 0xff) = toByte x := by
  have hmask := bitAnd_mask x (k := 8) (by norm_num)
  have hff : (0xff : Int) = ((2 ^ 8 - 1 : Nat) : Int) := by norm_num
  rw [hff, hmask]
  unfold toByte
  congr 1
  apply BitVec.eq_of_toInt_eq
  rw [BitVec.toInt_ofInt, BitVec.toInt_ofInt]
  exact Int.emod_bmod x (2 ^ 8)

theorem toByte_natCast (n : Nat) : toByte n = UInt8.ofNat n := by
  unfold toByte
  rw [BitVec.ofInt_natCast]
  rfl

variable {bytes data : List UInt8} {i block : Nat}

/-- The length is written from the end of the array. -/
theorem foldl_set_tail (n : Nat) {k : Nat} (hk : k ≤ bytes.length) :
    (List.range k).foldl (fun bs i => bs.set (bytes.length - 1 - i)
        (toByte (bitAnd (n / 2 ^ (i * 8) : Nat) 0xff))) bytes
      = bytes.take (bytes.length - k) ++ beBytes k n := by
  induction k with
  | zero => simp [beBytes, fixedDigits]
  | succ k ih =>
    have hpos : bytes.length - (k + 1) < bytes.length := by omega
    have hsplit : bytes.take (bytes.length - k)
        = bytes.take (bytes.length - (k + 1))
          ++ [bytes[bytes.length - (k + 1)]] := by
      rw [List.take_append_getElem]
      congr 1
      omega
    have hfront : (bytes.take (bytes.length - (k + 1))).length
        = bytes.length - 1 - k := by
      rw [List.length_take]
      omega
    rw [List.range_succ, List.foldl_append, List.foldl_cons, List.foldl_nil,
      ih (by omega), hsplit, List.append_assoc, toByte_mask, toByte_natCast,
      List.set_append_right _ _ hfront.le, hfront, Nat.sub_self,
      beBytes_succ_cons, Nat.mul_comm k 8, Nat.pow_mul]
    rfl

theorem setBytes_zeros (data : List UInt8) (n : Nat) :
    setBytes (List.replicate n 0) data 0
      = data ++ List.replicate (n - data.length) 0 := by
  rw [setBytes, List.take_zero, List.nil_append, Nat.zero_add,
    List.drop_replicate]

/-- Both functions pad as the standard does. -/
theorem padded_eq (data : List UInt8) :
    padded data = data ++ padding data.length
      ∧ (padded data).length = totalBlocks data * 64 := by
  have htotal : data.length + 9 ≤ totalBlocks data * 64 := by
    unfold totalBlocks
    omega
  have hzeros : totalBlocks data * 64 - data.length
      = (119 - data.length % 64) % 64 + 9 := by
    unfold totalBlocks
    omega
  have hset : (setBytes (List.replicate (totalBlocks data * 64) 0) data 0).set
      data.length 0x80
      = data ++ 0x80 :: List.replicate ((119 - data.length % 64) % 64 + 8)
        0 := by
    rw [setBytes_zeros, hzeros,
      List.set_append_right _ _ (Nat.le_refl _), Nat.sub_self,
      List.replicate_succ]
    rfl
  have hlen : (data ++ 0x80 :: List.replicate
      ((119 - data.length % 64) % 64 + 8) (0 : UInt8)).length
      = totalBlocks data * 64 := by
    rw [List.length_append, List.length_cons, List.length_replicate]
    omega
  have heq : padded data = data ++ padding data.length := by
    have htail := foldl_set_tail (data.length * 8) (k := 8)
      (hlen.symm ▸ (by omega : 8 ≤ totalBlocks data * 64))
    rw [hlen] at htail
    unfold padded
    dsimp only
    change List.foldl _ ((setBytes (List.replicate (totalBlocks data * 64) 0)
      data 0).set data.length 0x80) _ = _
    rw [hset]
    refine htail.trans ?_
    have htake : (data ++ 0x80 :: List.replicate
        ((119 - data.length % 64) % 64 + 8) (0 : UInt8)).take
          (totalBlocks data * 64 - 8)
        = data ++ 0x80 :: List.replicate ((119 - data.length % 64) % 64) 0 := by
      rw [List.replicate_add, ← List.cons_append, ← List.append_assoc,
        List.take_append_of_le_length, List.take_of_length_le]
      · rw [List.length_append, List.length_cons, List.length_replicate]
        omega
      · rw [List.length_append, List.length_cons, List.length_replicate]
        omega
    rw [htake, padding, List.append_assoc, Nat.mul_comm data.length]
  refine ⟨heq, ?_⟩
  rw [heq, List.length_append, padding, List.length_append, List.length_cons,
    List.length_replicate, length_beBytes]
  omega

-- =================================== words

theorem toWord_byte (b : UInt8) (k : Nat) :
    (toWord ((b.toNat : Nat) : Int) <<< k).toNat = b.toNat * 2 ^ k % 2 ^ 32 := by
  rw [toWord_natCast, BitVec.toNat_shiftLeft, BitVec.toNat_ofNat,
    Nat.shiftLeft_eq, Nat.mod_mul_mod]

/-- Shifted bytes are put together as their number. -/
theorem toWord_bytes (a b c d : UInt8) :
    toWord (bitOr (bitOr (bitOr (shiftLeft a.toNat 24) (shiftLeft b.toNat 16))
        (shiftLeft c.toNat 8)) d.toNat)
      = BitVec.ofNat 32 (beNat [a, b, c, d]) := by
  have ha := a.toNat_lt
  have hb := b.toNat_lt
  have hc := c.toNat_lt
  have hd := d.toNat_lt
  have hvalue : beNat [a, b, c, d]
      = a.toNat * 2 ^ 24 + (b.toNat * 2 ^ 16 + (c.toNat * 2 ^ 8 + d.toNat)) := by
    simp only [beNat, digitsValue, List.map_cons, List.map_nil,
      List.foldl_cons, List.foldl_nil]
    omega
  have hor : ∀ x y k : Nat, y < 2 ^ k → x * 2 ^ k ||| y = x * 2 ^ k + y := by
    intro x y k hy
    rw [← Nat.shiftLeft_eq, Nat.shiftLeft_add_eq_or_of_lt hy]
  simp only [toWord_bitOr, toWord_shiftLeft]
  apply BitVec.eq_of_toNat_eq
  simp only [BitVec.toNat_or]
  have h24 := toWord_byte a 24
  have h16 := toWord_byte b 16
  have h8 := toWord_byte c 8
  have h0 : (toWord ((d.toNat : Nat) : Int)).toNat = d.toNat := by
    rw [toWord_natCast, BitVec.toNat_ofNat, Nat.mod_eq_of_lt (by omega)]
  rw [Nat.mod_eq_of_lt (by omega)] at h24 h16 h8
  change (toWord _ <<< 24).toNat ||| (toWord _ <<< 16).toNat
    ||| (toWord _ <<< 8).toNat ||| _ = _
  rw [h24, h16, h8, h0, hvalue, BitVec.toNat_ofNat, Nat.or_assoc, Nat.or_assoc,
    hor _ _ 8 (by omega), hor _ _ 16 (by omega), hor _ _ 24 (by omega),
    Nat.mod_eq_of_lt (by omega)]

theorem take_four {n : Nat} (h : n + 4 ≤ bytes.length) :
    (bytes.drop n).take 4 = [byteAt bytes n, byteAt bytes (n + 1),
      byteAt bytes (n + 2), byteAt bytes (n + 3)] := by
  have hcons : ∀ j < 4, bytes.drop (n + j)
      = byteAt bytes (n + j) :: bytes.drop (n + j + 1) := by
    intro j hj
    have hlt : n + j < bytes.length := by omega
    rw [List.drop_eq_getElem_cons hlt, byteAt, List.getD_eq_getElem _ _ hlt]
  have h0 := hcons 0 (by norm_num)
  have h1 := hcons 1 (by norm_num)
  have h2 := hcons 2 (by norm_num)
  have h3 := hcons 3 (by norm_num)
  rw [Nat.add_zero] at h0
  rw [h0, h1, h2, h3]
  rfl

theorem toWord_wordAt (h : 4 * i + 4 ≤ bytes.length) :
    toWord (wordAt bytes (4 * i)) = blockWord bytes i := by
  rw [blockWord, take_four h]
  exact toWord_bytes _ _ _ _

theorem toWord_leftRotate (x : Int) {n : Nat} (hpos : 0 < n) (hn : n < 32) :
    toWord (_leftRotate x n) = (toWord x).rotateLeft n := by
  have hcount : ((n : Int) % 32).toNat = n := by omega
  have hcount' : ((32 - (n : Int)) % 32).toNat = 32 - n := by omega
  rw [_leftRotate, toWord_unsigned, toWord_bitOr, toWord_shiftLeft,
    toWord_shiftRight, hcount, hcount', BitVec.rotateLeft_def,
    Nat.mod_eq_of_lt hn]

theorem toWord_rightRotate (x : Int) {n : Nat} (hpos : 0 < n) (hn : n < 32) :
    toWord (_rightRotate x n) = (toWord x).rotateRight n := by
  have hcount : ((n : Int) % 32).toNat = n := by omega
  have hcount' : ((32 - (n : Int)) % 32).toNat = 32 - n := by omega
  rw [_rightRotate, toWord_unsigned, toWord_bitOr, toWord_shiftLeft,
    toWord_shiftRight, hcount, hcount', BitVec.rotateRight_def,
    Nat.mod_eq_of_lt hn]

/-- The result of a word, byte by byte. -/
theorem resultBytes_eq (h : Int) : resultBytes h = wordBytes (toWord h) := by
  have hbyte : ∀ k : Nat, k < 32 → toByte (bitAnd (shiftRight h k) 0xff)
      = UInt8.ofNat ((toWord h).toNat / 2 ^ k) := by
    intro k hk
    have hcount : ((k : Int) % 32).toNat = k := by omega
    rw [toByte_mask, shiftRight, hcount, toByte_natCast,
      BitVec.toNat_ushiftRight, Nat.shiftRight_eq_div_pow]
  have hlow : toByte (bitAnd h 0xff) = UInt8.ofNat (toWord h).toNat := by
    have hmod := toNat_toWord_mod h (k := 8) (by norm_num)
    rw [toByte_mask, ← toByte_natCast]
    unfold toByte
    congr 1
    apply BitVec.eq_of_toNat_eq
    rw [BitVec.toNat_ofInt, BitVec.toNat_ofInt]
    norm_num at hmod ⊢
    rw [hmod]
  rw [wordBytes, resultBytes, hlow]
  have h24 := hbyte 24 (by norm_num)
  have h16 := hbyte 16 (by norm_num)
  have h8 := hbyte 8 (by norm_num)
  simp only [Nat.cast_ofNat] at h24 h16 h8
  rw [h24, h16, h8, beBytes_succ_cons, beBytes_succ_cons, beBytes_succ_cons,
    beBytes_succ_cons]
  simp [beBytes, fixedDigits]

-- ================================== blocks

/-- What a block reads lies inside the padded message. -/
theorem blockWord_padded (data : List UInt8) {t : Nat}
    (hblock : block < totalBlocks data) (ht : t < 16) :
    toWord (wordAt (padded data) (block * 64 + t * 4))
      = blockWord (padded data) (16 * block + t) := by
  have hlen := (padded_eq data).2
  have hoffset : block * 64 + t * 4 = 4 * (16 * block + t) := by omega
  rw [hoffset]
  refine toWord_wordAt ?_
  rw [hlen]
  omega

theorem word_first (bytes : List UInt8) (offset : Nat) {t : Nat}
    (ht : t < 16) :
    word ((List.range 16).map fun i => wordAt bytes (offset + i * 4)) t
      = wordAt bytes (offset + t * 4) := by
  have hlt : t < ((List.range 16).map
      fun i => wordAt bytes (offset + i * 4)).length := by simpa using ht
  rw [word, List.getD_eq_getElem _ _ hlt, List.getElem_map, List.getElem_range]

-- =================================== SHA-1

def Sha1Vars.words (v : Sha1Vars) : Sha1State :=
  ⟨toWord v.a, toWord v.b, toWord v.c, toWord v.d, toWord v.e⟩

theorem or_choose (x y z : Word) :
    (x &&& y) ||| (~~~x &&& z) = choose x y z := by
  unfold choose
  ext i
  simp only [BitVec.getElem_or, BitVec.getElem_xor, BitVec.getElem_and,
    BitVec.getElem_not]
  cases x[i] <;> simp

theorem or_majority (x y z : Word) :
    (x &&& y) ||| (x &&& z) ||| (y &&& z) = majority x y z := by
  unfold majority
  ext i
  simp only [BitVec.getElem_or, BitVec.getElem_xor, BitVec.getElem_and]
  cases x[i] <;> cases y[i] <;> simp

theorem toWord_sha1F (i : Nat) (b c d : Int) :
    toWord (sha1F i b c d) = Sha1.f i (toWord b) (toWord c) (toWord d) := by
  unfold sha1F Sha1.f
  split
  · simp only [toWord_bitOr, toWord_bitAnd, toWord_bitNot, or_choose]
  split
  · simp only [toWord_bitXor, parity]
  split
  · simp only [toWord_bitOr, toWord_bitAnd, or_majority]
  · simp only [toWord_bitXor, parity]

theorem toWord_sha1K (i : Nat) : toWord (sha1K i) = Sha1.K i := by
  unfold sha1K Sha1.K
  split
  · rfl
  split
  · rfl
  split
  · rfl
  · rfl

theorem toWord_sha1Words (hblock : block < totalBlocks data) {t : Nat}
    (ht : t < 80) :
    toWord (word (sha1Words (padded data) (block * 64)) t)
      = Sha1.W (fun t => blockWord (padded data) (16 * block + t)) t := by
  refine (schedule_loop (by simp) (fun t ht => ?_) (fun w n hlen hw => ?_)
    64).2 t ht
  · rw [word_first _ _ ht, blockWord_padded data hblock ht,
      Sha1.W_of_lt ht]
  · have hrotate := toWord_leftRotate (bitXor (bitXor (bitXor
      (word w (n + 16 - 3)) (word w (n + 16 - 8))) (word w (n + 16 - 14)))
      (word w (n + 16 - 16))) (n := 1) (by norm_num) (by norm_num)
    rw [Nat.cast_one] at hrotate
    rw [hrotate, toWord_bitXor, toWord_bitXor, toWord_bitXor,
      hw _ (by omega), hw _ (by omega), hw _ (by omega), hw _ (by omega),
      Nat.add_comm n 16,
      Sha1.W_of_ge (Nat.le_add_right 16 n)]

theorem words_sha1Round {w : List Int} {M : Nat → Word}
    (hw : toWord (word w i) = Sha1.W M i) (v : Sha1Vars) :
    (sha1Round w v i).words = Sha1.step M v.words i := by
  have h5 := toWord_leftRotate v.a (n := 5) (by norm_num) (by norm_num)
  have h30 := toWord_leftRotate v.b (n := 30) (by norm_num) (by norm_num)
  rw [Nat.cast_ofNat] at h5 h30
  simp only [sha1Round, Sha1Vars.words, Sha1.step, toWord_unsigned,
    toWord_add, h5, h30, toWord_sha1F, toWord_sha1K, hw]

theorem words_sha1Block (hblock : block < totalBlocks data) (h : Sha1Vars) :
    (sha1Block (padded data) h block).words
      = Sha1.compress h.words
        fun t => blockWord (padded data) (16 * block + t) := by
  have hrounds := foldl_hom_of_mem Sha1Vars.words
    (f := sha1Round (sha1Words (padded data) (block * 64)))
    (l := List.range 80)
    (fun v i hi => words_sha1Round
      (toWord_sha1Words hblock (List.mem_range.mp hi)) v) h
  unfold sha1Block Sha1.compress
  dsimp only
  rw [← hrounds]
  simp only [Sha1Vars.words, toWord_unsigned, toWord_add]

/-- `_sha1` is the SHA-1 of the standard. -/
theorem _sha1_eq (data : List UInt8) : _sha1 data = sha1 data := by
  obtain ⟨hpad, hlen⟩ := padded_eq data
  have hblocks := @foldl_hom_of_mem _ _ _ Sha1Vars.words
    (sha1Block (padded data))
    (fun H block => Sha1.compress H
      fun t => blockWord (padded data) (16 * block + t))
    (List.range (totalBlocks data))
    (fun h block hblock => words_sha1Block (List.mem_range.mp hblock) h)
    ⟨0x67452301, 0xEFCDAB89, 0x98BADCFE, 0x10325476, 0xC3D2E1F0⟩
  have hdiv : (padded data).length / 64 = totalBlocks data := by omega
  unfold _sha1 sha1 hashBlocks
  dsimp only
  rw [← hpad, hdiv]
  have hstart : Sha1Vars.words
      ⟨0x67452301, 0xEFCDAB89, 0x98BADCFE, 0x10325476, 0xC3D2E1F0⟩
      = Sha1.start := rfl
  rw [hstart] at hblocks
  rw [← hblocks]
  simp only [List.flatMap_cons, List.flatMap_nil, resultBytes_eq,
    Sha1Vars.words]

-- ================================= SHA-256

def Sha256Vars.words (v : Sha256Vars) : Sha256State :=
  ⟨toWord v.a, toWord v.b, toWord v.c, toWord v.d, toWord v.e, toWord v.f,
    toWord v.g, toWord v.hh⟩

/-- The table holds the cube roots. -/
theorem toWord_SHA256_K (hi : i < 64) :
    toWord (word SHA256_K i) = Sha256.K i := by
  have htable : SHA256_K.map toWord
      = Sha256.primes.map (Sha256.rootFraction 3) := by decide +kernel
  have hlen : SHA256_K.length = 64 := rfl
  have hlen' : Sha256.primes.length = 64 := by
    rw [← List.length_map, ← htable, List.length_map, hlen]
  have hget := congrArg (·[i]?) htable
  rw [List.getElem?_map, List.getElem?_map,
    List.getElem?_eq_getElem (hlen.symm ▸ hi),
    List.getElem?_eq_getElem (hlen'.symm ▸ hi)] at hget
  rw [word, Sha256.K, List.getD_eq_getElem _ _ (hlen.symm ▸ hi),
    List.getD_eq_getElem _ _ (hlen'.symm ▸ hi)]
  exact Option.some.inj hget

section Sigma

variable (x : Int)

theorem toWord_sigma0 : toWord (_sha256_sigma0 x)
    = Sha256.sigma0 (toWord x) := by
  have h7 := toWord_rightRotate x (n := 7) (by norm_num) (by norm_num)
  have h18 := toWord_rightRotate x (n := 18) (by norm_num) (by norm_num)
  rw [Nat.cast_ofNat] at h7 h18
  rw [_sha256_sigma0, toWord_unsigned]
  simp only [toWord_bitXor, h7, h18, toWord_shiftRight]
  rfl

theorem toWord_sigma1 : toWord (_sha256_sigma1 x)
    = Sha256.sigma1 (toWord x) := by
  have h17 := toWord_rightRotate x (n := 17) (by norm_num) (by norm_num)
  have h19 := toWord_rightRotate x (n := 19) (by norm_num) (by norm_num)
  rw [Nat.cast_ofNat] at h17 h19
  rw [_sha256_sigma1, toWord_unsigned]
  simp only [toWord_bitXor, h17, h19, toWord_shiftRight]
  rfl

theorem toWord_Sigma0 : toWord (_sha256_Sigma0 x)
    = Sha256.bigSigma0 (toWord x) := by
  have h2 := toWord_rightRotate x (n := 2) (by norm_num) (by norm_num)
  have h13 := toWord_rightRotate x (n := 13) (by norm_num) (by norm_num)
  have h22 := toWord_rightRotate x (n := 22) (by norm_num) (by norm_num)
  rw [Nat.cast_ofNat] at h2 h13 h22
  simp only [_sha256_Sigma0, toWord_unsigned, toWord_bitXor, h2, h13, h22,
    Sha256.bigSigma0]

theorem toWord_Sigma1 : toWord (_sha256_Sigma1 x)
    = Sha256.bigSigma1 (toWord x) := by
  have h6 := toWord_rightRotate x (n := 6) (by norm_num) (by norm_num)
  have h11 := toWord_rightRotate x (n := 11) (by norm_num) (by norm_num)
  have h25 := toWord_rightRotate x (n := 25) (by norm_num) (by norm_num)
  rw [Nat.cast_ofNat] at h6 h11 h25
  simp only [_sha256_Sigma1, toWord_unsigned, toWord_bitXor, h6, h11, h25,
    Sha256.bigSigma1]

end Sigma

theorem toWord_sha256Words (hblock : block < totalBlocks data) {t : Nat}
    (ht : t < 64) :
    toWord (word (sha256Words (padded data) (block * 64)) t)
      = Sha256.W (fun t => blockWord (padded data) (16 * block + t)) t := by
  refine (schedule_loop (by simp) (fun t ht => ?_) (fun w n hlen hw => ?_)
    48).2 t ht
  · rw [word_first _ _ ht, blockWord_padded data hblock ht,
      Sha256.W_of_lt ht]
  · rw [toWord_unsigned, toWord_add, toWord_add, toWord_add, toWord_sigma0,
      toWord_sigma1, hw _ (by omega), hw _ (by omega), hw _ (by omega),
      hw _ (by omega), Nat.add_comm n 16,
      Sha256.W_of_ge (Nat.le_add_right 16 n)]

theorem words_sha256Round {w : List Int} {M : Nat → Word} (hi : i < 64)
    (hw : toWord (word w i) = Sha256.W M i) (v : Sha256Vars) :
    (sha256Round w v i).words = Sha256.step M v.words i := by
  simp only [sha256Round, Sha256Vars.words, Sha256.step, toWord_unsigned,
    toWord_add, toWord_Sigma0, toWord_Sigma1, toWord_bitXor, toWord_bitAnd,
    toWord_bitNot, toWord_SHA256_K hi, hw, choose, majority]

theorem words_sha256Block (hblock : block < totalBlocks data) (h : Sha256Vars) :
    (sha256Block (padded data) h block).words
      = Sha256.compress h.words
        fun t => blockWord (padded data) (16 * block + t) := by
  have hrounds := foldl_hom_of_mem Sha256Vars.words
    (f := sha256Round (sha256Words (padded data) (block * 64)))
    (l := List.range 64)
    (fun v i hi => words_sha256Round (List.mem_range.mp hi)
      (toWord_sha256Words hblock (List.mem_range.mp hi)) v) h
  unfold sha256Block Sha256.compress
  dsimp only
  rw [← hrounds]
  simp only [Sha256Vars.words, toWord_unsigned, toWord_add]

/-- `_sha256` is the SHA-256 of the standard. -/
theorem _sha256_eq (data : List UInt8) : _sha256 data = sha256 data := by
  obtain ⟨hpad, hlen⟩ := padded_eq data
  have hblocks := @foldl_hom_of_mem _ _ _ Sha256Vars.words
    (sha256Block (padded data))
    (fun H block => Sha256.compress H
      fun t => blockWord (padded data) (16 * block + t))
    (List.range (totalBlocks data))
    (fun h block hblock => words_sha256Block (List.mem_range.mp hblock) h)
    ⟨0x6A09E667, 0xBB67AE85, 0x3C6EF372, 0xA54FF53A,
     0x510E527F, 0x9B05688C, 0x1F83D9AB, 0x5BE0CD19⟩
  have hdiv : (padded data).length / 64 = totalBlocks data := by omega
  have hstart : Sha256Vars.words
      ⟨0x6A09E667, 0xBB67AE85, 0x3C6EF372, 0xA54FF53A,
       0x510E527F, 0x9B05688C, 0x1F83D9AB, 0x5BE0CD19⟩
      = Sha256.start := by decide +kernel
  rw [hstart] at hblocks
  unfold _sha256 sha256 hashBlocks
  dsimp only
  rw [← hpad, hdiv, ← hblocks]
  simp only [List.flatMap_cons, List.flatMap_nil, resultBytes_eq,
    Sha256Vars.words]

end RemoteDesk.Totp
