/-
The codes of the TOTP engine are those of the standards.

The base32 reader keeps the digits read so far as one number: the bytes it
has put out, and the bits in its buffer (`Base32State.Holds`). The keyed
hash, the counter and the truncation are brought to the standard's one by
one; `totp_codes` puts them together.
-/
import RemoteDesk.Lib.Base32
import RemoteDesk.Lib.OneTime
import RemoteDesk.Totp.Code
import RemoteDesk.Totp.Digests

namespace RemoteDesk.Totp

open Lib

-- ================================== base32

/-- What the reader has made of the digits read so far. -/
structure Base32State.Holds (s : Base32State) (ds : List Nat) : Prop where
  bits : 8 * s.output.length + s.bitsLeft = 5 * ds.length
  small : s.bitsLeft < 8
  value : ∃ rest : Nat, s.buffer = rest ∧ rest < 2 ^ s.bitsLeft
    ∧ beNat s.output * 2 ^ s.bitsLeft + rest = digitsValue 32 ds

variable {s : Base32State} {bytes : List UInt8}

theorem Base32State.Holds.push {ds : List Nat} {d : Nat} (h : s.Holds ds)
    (hd : d < 32) : (s.push d).Holds (ds ++ [d]) := by
  obtain ⟨rest, hbuffer, hrest, hvalue⟩ := h.value
  have hbits := h.bits
  have hsmall := h.small
  have hpow : 2 ^ s.bitsLeft ≤ 2 ^ 7 :=
    Nat.pow_le_pow_right (by norm_num) (by omega)
  have hshift : bitOr (shiftLeft s.buffer 5) d = (rest * 2 ^ 5 + d : Nat) := by
    have h5 := shiftLeft_natCast (n := rest) (k := 5) (by norm_num) (by omega)
    rw [Nat.cast_ofNat] at h5
    rw [hbuffer, h5]
    exact bitOr_shifted (by omega) (by omega)
  have hsum : digitsValue 32 (ds ++ [d])
      = beNat s.output * 2 ^ (s.bitsLeft + 5) + (rest * 2 ^ 5 + d) := by
    rw [digitsValue_concat, ← hvalue, Nat.pow_add]
    ring
  have hlt : rest * 2 ^ 5 + d < 2 ^ (s.bitsLeft + 5) := by
    rw [Nat.pow_add]
    omega
  generalize rest * 2 ^ 5 + d = B at hshift hsum hlt
  unfold Base32State.push
  dsimp only
  rw [hshift]
  split
  · rename_i hfull
    have hexp : s.bitsLeft + 5 = 8 + (s.bitsLeft + 5 - 8) := by omega
    generalize s.bitsLeft + 5 - 8 = k at hexp
    have hk : k < 8 := by omega
    have hB : B < 2 ^ 8 * 2 ^ k := by rwa [hexp, Nat.pow_add] at hlt
    have hkpos : 0 < 2 ^ k := Nat.two_pow_pos k
    have hk8 : 2 ^ k ≤ 2 ^ 7 := Nat.pow_le_pow_right (by norm_num) (by omega)
    have hB32 : B < 2 ^ 32 := by nlinarith
    have hhigh : B / 2 ^ k < 2 ^ 8 := (Nat.div_lt_iff_lt_mul hkpos).mpr hB
    have hbyte : toByte (bitAnd (shiftRight B k) 0xff)
        = UInt8.ofNat (B / 2 ^ k) := by
      rw [toByte_mask, shiftRight_natCast (by omega) hB32, toByte_natCast]
    have hmask : bitAnd (B : Int) (shiftLeft 1 k - 1) = (B % 2 ^ k : Nat) := by
      have hone := shiftLeft_natCast (n := 1) (k := k) (by omega) (by omega)
      rw [Nat.cast_one, Nat.one_mul] at hone
      have hpred : ((2 ^ k : Nat) : Int) - 1 = ((2 ^ k - 1 : Nat) : Int) := by
        omega
      rw [hone, hpred, bitAnd_mask _ (by omega), Int.natCast_emod]
      norm_num
    refine ⟨?_, hk, B % 2 ^ k, hmask, Nat.mod_lt _ hkpos, ?_⟩
    · rw [List.length_append, List.length_append]
      dsimp only [List.length_singleton]
      omega
    · rw [hbyte, beNat_concat, hsum, UInt8.toNat_ofNat',
        Nat.mod_eq_of_lt hhigh, hexp, Nat.pow_add]
      have hsplit := Nat.div_add_mod B (2 ^ k)
      calc (beNat s.output * 256 + B / 2 ^ k) * 2 ^ k + B % 2 ^ k
          = beNat s.output * (2 ^ 8 * 2 ^ k)
            + (2 ^ k * (B / 2 ^ k) + B % 2 ^ k) := by ring
        _ = beNat s.output * (2 ^ 8 * 2 ^ k) + B := by rw [hsplit]
  · refine ⟨?_, by dsimp only; omega, B, rfl, hlt, hsum.symm⟩
    rw [List.length_append]
    dsimp only [List.length_singleton]
    omega

def letter (d : Nat) : Nat := base32Alphabet.getD d 0

theorem idxOf_letter {d : Nat} (hd : d < 32) :
    BASE32_ALPHABET.idxOf? (letter d) = some d ∧ letter d ≠ 61
      ∧ isBase32Code (letter d) = true := by
  have htable : ∀ d ∈ List.range 32,
      BASE32_ALPHABET.idxOf? (letter d) = some d ∧ letter d ≠ 61
        ∧ isBase32Code (letter d) = true := by decide +kernel
  exact htable d (List.mem_range.mpr hd)

/-- The loop reads the digits and stops at the padding. -/
theorem decodeLoop_holds {before ds : List Nat} (n : Nat) (h : s.Holds before)
    (hds : ∀ d ∈ ds, d < 32) :
    (decodeLoop s (ds.map letter ++ List.replicate n 61)).Holds
      (before ++ ds) := by
  induction ds generalizing s before with
  | nil =>
    rw [List.map_nil, List.nil_append, List.append_nil]
    cases n with
    | zero => exact h
    | succ n =>
      rw [List.replicate_succ, decodeLoop, if_pos rfl]
      exact h
  | cons d ds ih =>
    obtain ⟨hd, hrest⟩ := List.forall_mem_cons.mp hds
    obtain ⟨hidx, hne, -⟩ := idxOf_letter hd
    rw [List.map_cons, List.cons_append, decodeLoop, if_neg hne, hidx]
    have hnext := ih (h.push hd) hrest
    rwa [List.append_assoc] at hnext

/-- The number of the digits tells the bytes. -/
theorem output_of_holds
    (h : s.Holds (base32Digits bytes)) : s.output = bytes := by
  obtain ⟨rest, -, hrest, hvalue⟩ := h.value
  have hbits := h.bits
  have hsmall := h.small
  have hlen : (base32Digits bytes).length = base32Length bytes.length :=
    length_fixedDigits _ _
  have hzero := zeroBits_lt bytes.length
  have hadd := zeroBits_add bytes.length
  rw [hlen] at hbits
  have hcount : s.output.length = bytes.length := by omega
  have hleft : s.bitsLeft = zeroBits bytes.length := by omega
  rw [digitsValue_base32Digits, hleft] at hvalue
  rw [hleft] at hrest
  refine beNat_inj hcount ?_
  have hpos : 0 < 2 ^ zeroBits bytes.length := Nat.two_pow_pos _
  have hdiv := congrArg (· / 2 ^ zeroBits bytes.length) hvalue
  rwa [Nat.mul_comm, Nat.mul_add_div hpos, Nat.div_eq_of_lt hrest,
    Nat.add_zero, Nat.mul_div_cancel _ hpos] at hdiv

/-- Upper case and the filter leave the base32 of the bytes. -/
theorem cleaned_eq (beyond : List Nat → List Nat) {text : List Nat}
    (h : Base32Spelling text bytes) :
    (toUpperCase beyond text).filter isBase32Code
      = (base32Digits bytes).map letter := by
  have hmem : ∀ u ∈ text, u ≠ 32 ∧ u ≠ 45 ∧ u ≠ 61 →
      ∃ d < 32, upperCode u = letter d := by
    intro u hu hplain
    have hin : upperCode u ∈ base32 bytes := by
      rw [← h]
      exact List.mem_map_of_mem (List.mem_filter.mpr ⟨hu, by simpa using hplain⟩)
    obtain ⟨d, hd, heq⟩ := List.mem_map.mp hin
    exact ⟨d, mem_fixedDigits (by norm_num) hd, heq.symm⟩
  have hcode : ∀ u ∈ text, isBase32Code (upperCode u)
      = decide (u ≠ 32 ∧ u ≠ 45 ∧ u ≠ 61) := by
    intro u hu
    by_cases hplain : u ≠ 32 ∧ u ≠ 45 ∧ u ≠ 61
    · obtain ⟨d, hd, heq⟩ := hmem u hu hplain
      rw [heq, (idxOf_letter hd).2.2, decide_eq_true hplain]
    · rw [decide_eq_false hplain]
      have hsep : u = 32 ∨ u = 45 ∨ u = 61 := by omega
      rcases hsep with rfl | rfl | rfl <;> rfl
  have hascii : text.all (· < 128) = true := by
    rw [List.all_eq_true]
    intro u hu
    rw [decide_eq_true_eq]
    have hcode := hcode u hu
    by_cases hplain : u ≠ 32 ∧ u ≠ 45 ∧ u ≠ 61
    · rw [decide_eq_true hplain] at hcode
      unfold isBase32Code upperCode at hcode
      split at hcode
      · omega
      · simp only [Bool.or_eq_true, Bool.and_eq_true, decide_eq_true_eq]
          at hcode
        omega
    · omega
  rw [toUpperCase, if_pos hascii]
  change (text.map upperCode).filter isBase32Code = _
  rw [List.filter_map]
  have hfilter : text.filter (isBase32Code ∘ upperCode)
      = text.filter fun u => u ≠ 32 ∧ u ≠ 45 ∧ u ≠ 61 :=
    List.filter_congr hcode
  rw [hfilter]
  exact h

/-- The reader inverts the encoding. -/
theorem decodeBase32_eq (beyond : List Nat → List Nat) {text : List Nat}
    (h : Base32Spelling text bytes) : decodeBase32 beyond text = bytes := by
  unfold decodeBase32
  dsimp only
  rw [cleaned_eq beyond h]
  refine output_of_holds ?_
  have hstart : ({} : Base32State).Holds [] :=
    ⟨rfl, by decide, 0, rfl, by decide, rfl⟩
  have hdigits : ∀ d ∈ base32Digits bytes, d < 32 :=
    fun d hd => mem_fixedDigits (by norm_num) hd
  have hloop := decodeLoop_holds
    ((8 - ((base32Digits bytes).map letter).length % 8) % 8) hstart hdigits
  rwa [List.nil_append] at hloop

-- ==================================== HMAC

theorem toByte_bitXor (b : UInt8) (k : UInt8) :
    toByte (bitXor b.toNat k.toNat) = b ^^^ k := by
  have hb : b.toNat < 2 ^ 31 := b.toNat_lt.trans (by norm_num)
  have hk : k.toNat < 2 ^ 31 := k.toNat_lt.trans (by norm_num)
  have hxor : b.toNat ^^^ k.toNat < 2 ^ 31 := Nat.xor_lt_two_pow hb hk
  have hvalue : bitXor b.toNat k.toNat = (b.toNat ^^^ k.toNat : Nat) := by
    rw [bitXor, toWord_natCast, toWord_natCast, ← toInt_ofNat hxor]
    congr 1
    apply BitVec.eq_of_toNat_eq
    simp only [BitVec.toNat_xor, BitVec.toNat_ofNat]
    rw [Nat.mod_eq_of_lt (hb.trans (by norm_num)),
      Nat.mod_eq_of_lt (hk.trans (by norm_num)),
      Nat.mod_eq_of_lt (hxor.trans (by norm_num))]
  rw [hvalue, toByte_natCast, ← UInt8.toNat_xor, UInt8.ofNat_toNat]

/-- A block and what follows it, written into zeros. -/
theorem setBytes_two {block rest : List UInt8} {n : Nat}
    (hn : n = block.length + rest.length) :
    setBytes (setBytes (List.replicate n 0) block 0) rest block.length
      = block ++ rest := by
  rw [setBytes_zeros, setBytes, List.take_left, hn, Nat.add_sub_cancel_left,
    ← List.drop_drop, List.drop_left, List.drop_replicate, Nat.sub_self,
    List.replicate_zero, List.append_nil]

theorem _hmac_eq {hash : List UInt8 → List UInt8} {blockSize outLen : Nat}
    (hlen : ∀ m, (hash m).length = outLen) (hout : outLen ≤ blockSize)
    (key message : List UInt8) :
    _hmac hash blockSize outLen key message
      = hmac hash blockSize key message := by
  have hshort : (if key.length > blockSize then hash key else key).length
      ≤ blockSize := by
    split
    · rw [hlen]
      exact hout
    · omega
  have hkey : setBytes (List.replicate blockSize 0)
      (if key.length > blockSize then hash key else key) 0
      = blockKey hash blockSize key := setBytes_zeros _ _
  have hblock : (blockKey hash blockSize key).length = blockSize := by
    unfold blockKey
    dsimp only
    rw [List.length_append, List.length_replicate]
    omega
  have hpad : ∀ k : UInt8, (blockKey hash blockSize key).map
      (fun b => toByte (bitXor b.toNat k.toNat))
      = (blockKey hash blockSize key).map (· ^^^ k) := fun k =>
    List.map_congr_left fun b _ => toByte_bitXor b k
  have hwrite : ∀ (k : UInt8) (rest : List UInt8) (n : Nat),
      n = blockSize + rest.length →
      setBytes (setBytes (List.replicate n 0)
        ((blockKey hash blockSize key).map (· ^^^ k)) 0) rest blockSize
        = (blockKey hash blockSize key).map (· ^^^ k) ++ rest := by
    intro k rest n hn
    have htwo := @setBytes_two ((blockKey hash blockSize key).map (· ^^^ k))
      rest n
    rw [List.length_map, hblock] at htwo
    exact htwo hn
  have h5c := hpad 0x5c
  have h36 := hpad 0x36
  unfold _hmac hmac
  dsimp only
  rw [hkey]
  change hash (setBytes (setBytes (List.replicate (blockSize + outLen) 0)
    ((blockKey hash blockSize key).map
      fun b => toByte (bitXor b.toNat (0x5c : UInt8).toNat)) 0)
    (hash (setBytes (setBytes (List.replicate (blockSize + message.length) 0)
      ((blockKey hash blockSize key).map
        fun b => toByte (bitXor b.toNat (0x36 : UInt8).toNat)) 0)
      message blockSize)) blockSize) = _
  rw [h5c, h36, hwrite 0x36 message _ rfl, hwrite 0x5c _ _ (by rw [hlen])]

theorem length_sha1 (data : List UInt8) : (_sha1 data).length = 20 := by
  simp [_sha1, resultBytes]

theorem length_sha256 (data : List UInt8) : (_sha256 data).length = 32 := by
  simp [_sha256, resultBytes]

theorem _hmacSha1_eq (key message : List UInt8) :
    _hmacSha1 key message = hmac sha1 64 key message := by
  rw [_hmacSha1, _hmac_eq length_sha1 (by norm_num), funext _sha1_eq]

theorem _hmacSha256_eq (key message : List UInt8) :
    _hmacSha256 key message = hmac sha256 64 key message := by
  rw [_hmacSha256, _hmac_eq length_sha256 (by norm_num), funext _sha256_eq]

-- ================================ counters

/-- The message is the counter in eight bytes. -/
theorem counterBytes_eq (counter : Nat) :
    counterBytes counter = beBytes 8 counter := by
  have hloop : ∀ k ≤ 8, (List.range k).foldl (fun acc n =>
      (acc.1.set (7 - n) (toByte (bitAnd (acc.2 : Nat) 0xFF)), acc.2 / 256))
      (List.replicate 8 (0 : UInt8), counter)
      = (List.replicate (8 - k) 0 ++ beBytes k counter, counter / 256 ^ k) := by
    intro k
    induction k with
    | zero => simp [beBytes, fixedDigits]
    | succ k ih =>
      intro hk
      have hzeros : List.replicate (8 - k) (0 : UInt8)
          = List.replicate (8 - (k + 1)) 0 ++ [0] := by
        rw [← List.replicate_succ']
        congr 1
        omega
      have hpos : (List.replicate (8 - (k + 1)) (0 : UInt8)).length
          = 7 - k := by
        rw [List.length_replicate]
        omega
      rw [List.range_succ, List.foldl_append, List.foldl_cons,
        List.foldl_nil, ih (by omega)]
      dsimp only
      rw [hzeros, List.append_assoc, List.set_append_right _ _ hpos.le,
        hpos, Nat.sub_self, toByte_mask, toByte_natCast, beBytes_succ_cons,
        Nat.div_div_eq_div_mul, ← Nat.pow_succ]
      rfl
  exact congrArg Prod.fst (hloop 8 le_rfl)

-- ============================== truncation

theorem truncationOffset_eq (hs : List UInt8) :
    truncationOffset hs = (hs.getLastD 0).toNat % 16 := by
  have hlast : byteAt hs (hs.length - 1) = hs.getLastD 0 := by
    rw [byteAt, List.getLastD_eq_getLast?, List.getLast?_eq_getElem?,
      List.getD_eq_getElem?_getD]
  have hmask := bitAnd_mask (numberAt hs (hs.length - 1)) (k := 4)
    (by norm_num)
  have hf : (0x0F : Int) = ((2 ^ 4 - 1 : Nat) : Int) := by norm_num
  rw [truncationOffset, hf, hmask, numberAt, hlast]
  omega

/-- The truncation reads inside every digest. -/
theorem truncationOffset_lt {hs : List UInt8} (h : 19 ≤ hs.length) :
    truncationOffset hs + 3 < hs.length := by
  rw [truncationOffset_eq hs]
  omega

/-- Four bytes put together below the sign bit. -/
theorem bitOr_four {a b c d : Nat} (ha : a < 2 ^ 7) (hb : b < 2 ^ 8)
    (hc : c < 2 ^ 8) (hd : d < 2 ^ 8) :
    bitOr (bitOr (bitOr (shiftLeft a 24) (shiftLeft b 16)) (shiftLeft c 8)) d
      = (((a * 2 ^ 8 + b) * 2 ^ 8 + c) * 2 ^ 8 + d : Nat) := by
  have h24 : shiftLeft a 24 = (a * 2 ^ 24 : Nat) :=
    shiftLeft_natCast (k := 24) (by norm_num) (by omega)
  have h16 : shiftLeft b 16 = (b * 2 ^ 16 : Nat) :=
    shiftLeft_natCast (k := 16) (by norm_num) (by omega)
  have h8 : shiftLeft c 8 = (c * 2 ^ 8 : Nat) :=
    shiftLeft_natCast (k := 8) (by norm_num) (by omega)
  have hfirst : bitOr (a * 2 ^ 24 : Nat) (b * 2 ^ 16 : Nat)
      = ((a * 2 ^ 8 + b) * 2 ^ 16 : Nat) := by
    have hsum : a * 2 ^ 24 + b * 2 ^ 16 = (a * 2 ^ 8 + b) * 2 ^ 16 := by ring
    rw [← hsum]
    exact bitOr_shifted (by omega) (by omega)
  have hsecond : bitOr ((a * 2 ^ 8 + b) * 2 ^ 16 : Nat) (c * 2 ^ 8 : Nat)
      = (((a * 2 ^ 8 + b) * 2 ^ 8 + c) * 2 ^ 8 : Nat) := by
    have hsum : (a * 2 ^ 8 + b) * 2 ^ 16 + c * 2 ^ 8
        = ((a * 2 ^ 8 + b) * 2 ^ 8 + c) * 2 ^ 8 := by ring
    rw [← hsum]
    exact bitOr_shifted (by omega) (by omega)
  rw [h24, h16, h8, hfirst, hsecond]
  exact bitOr_shifted (by omega) (by omega)

theorem truncated_eq {hs : List UInt8} (h : 19 ≤ hs.length) :
    truncated hs = dynamicTruncation hs := by
  have hinside := truncationOffset_lt h
  have hoffset := truncationOffset_eq hs
  have hread := @take_four hs (truncationOffset hs) (by omega)
  unfold dynamicTruncation truncated
  dsimp only
  rw [← hoffset, hread]
  unfold numberAt
  generalize byteAt hs (truncationOffset hs) = a
  generalize byteAt hs (truncationOffset hs + 1) = b
  generalize byteAt hs (truncationOffset hs + 2) = c
  generalize byteAt hs (truncationOffset hs + 3) = d
  have hb := b.toNat_lt
  have hc := c.toNat_lt
  have hd := d.toNat_lt
  have hbyte : ∀ x : UInt8, bitAnd (x.toNat : Int) 0xFF = x.toNat := by
    intro x
    have hmask := bitAnd_mask (x.toNat : Int) (k := 8) (by norm_num)
    have hx := x.toNat_lt
    have hff : (0xFF : Int) = ((2 ^ 8 - 1 : Nat) : Int) := by norm_num
    rw [hff, hmask]
    omega
  have hsign : bitAnd (a.toNat : Int) 0x7F = (a.toNat % 128 : Nat) := by
    have hmask := bitAnd_mask (a.toNat : Int) (k := 7) (by norm_num)
    have h7f : (0x7F : Int) = ((2 ^ 7 - 1 : Nat) : Int) := by norm_num
    rw [h7f, hmask]
    omega
  have ha : a.toNat % 128 < 2 ^ 7 := Nat.mod_lt _ (by norm_num)
  rw [hsign, hbyte b, hbyte c, hbyte d, bitOr_four ha hb hc hd]
  refine congrArg Nat.cast ?_
  simp only [beNat, digitsValue, List.map_cons, List.map_nil, List.foldl_cons,
    List.foldl_nil]
  omega

-- =================================== codes

/-- The keyed hash an algorithm stands for. -/
def standardMac : TotpAlgorithm → Option (List UInt8 → List UInt8 → List UInt8)
  | .SHA1 => some (hmac sha1 64)
  | .SHA256 => some (hmac sha256 64)
  | .SHA512 => none

theorem hmacOf_standard {algorithm : TotpAlgorithm}
    {mac : List UInt8 → List UInt8 → List UInt8}
    (h : standardMac algorithm = some mac) :
    hmacOf algorithm = mac ∧ ∀ key message, 19 ≤ (mac key message).length := by
  cases algorithm with
  | SHA1 =>
    obtain rfl := Option.some.inj h
    refine ⟨funext fun key => funext (_hmacSha1_eq key),
      fun key message => ?_⟩
    rw [← _hmacSha1_eq]
    unfold _hmacSha1 _hmac
    dsimp only
    rw [length_sha1]
    norm_num
  | SHA256 =>
    obtain rfl := Option.some.inj h
    refine ⟨funext fun key => funext (_hmacSha256_eq key),
      fun key message => ?_⟩
    rw [← _hmacSha256_eq]
    unfold _hmacSha256 _hmac
    dsimp only
    rw [length_sha256]
    norm_num
  | SHA512 => cases h

/-- With a hash of the standard, the code is the standard's. -/
theorem generateCodeAt_eq (beyond : List Nat → List Nat) {entry : TotpEntry}
    {mac : List UInt8 → List UInt8 → List UInt8}
    (hmac : standardMac entry.algorithm = some mac) {key : List UInt8}
    (hkey : Base32Spelling entry.secret key) (hdigits : 0 < entry.digits)
    (nowMs : Nat) :
    (generateCodeAt beyond entry nowMs).code
        = totp mac entry.digits entry.period key (nowMs / 1000)
      ∧ (generateCodeAt beyond entry nowMs).counter
        = nowMs / 1000 / entry.period := by
  obtain ⟨hmacOf, hlen⟩ := hmacOf_standard hmac
  have hnow : (max 0 ((nowMs : Int) / 1000)).toNat = nowMs / 1000 := by omega
  refine ⟨?_, congrArg (· / entry.period) hnow⟩
  unfold generateCodeAt _generateCode totp hotp
  dsimp only
  rw [hnow, decodeBase32_eq beyond hkey, hmacOf, counterBytes_eq,
    truncated_eq (hlen _ _), ← Int.ofNat_tmod, Int.toNat_natCast]
  exact fixedDigits_eq_padded hdigits
    (Nat.mod_lt _ (Nat.pow_pos (by norm_num)))

/-- Hashes, keys and codes of the engine are those of the standards, for
SHA-1 and SHA-256. -/
theorem totp_codes (beyond : List Nat → List Nat) :
    (∀ message, _sha1 message = sha1 message
      ∧ _sha256 message = sha256 message)
    ∧ (∀ text key, Base32Spelling text key → decodeBase32 beyond text = key)
    ∧ (∀ key message,
      truncationOffset (_hmacSha1 key message) + 3
          < (_hmacSha1 key message).length
        ∧ truncationOffset (_hmacSha256 key message) + 3
          < (_hmacSha256 key message).length)
    ∧ ∀ (entry : TotpEntry) (mac : List UInt8 → List UInt8 → List UInt8)
      (key : List UInt8) (nowMs : Nat),
      standardMac entry.algorithm = some mac →
      Base32Spelling entry.secret key → 0 < entry.period →
      6 ≤ entry.digits → entry.digits ≤ 9 →
      (generateCodeAt beyond entry nowMs).code
          = totp mac entry.digits entry.period key (nowMs / 1000)
        ∧ (generateCodeAt beyond entry nowMs).counter
          = nowMs / 1000 / entry.period := by
  refine ⟨fun message => ⟨_sha1_eq message, _sha256_eq message⟩,
    fun text key h => decodeBase32_eq beyond h, fun key message => ?_,
    fun entry mac key nowMs hmac hkey _ hdigits _ =>
      generateCodeAt_eq beyond hmac hkey (by omega) nowMs⟩
  obtain ⟨h1, hlen1⟩ := @hmacOf_standard .SHA1 _ rfl
  obtain ⟨h256, hlen256⟩ := @hmacOf_standard .SHA256 _ rfl
  constructor
  · apply truncationOffset_lt
    rw [_hmacSha1_eq]
    exact hlen1 key message
  · apply truncationOffset_lt
    rw [_hmacSha256_eq]
    exact hlen256 key message

/-- Twenty digits as a key, in mixed case with separators, at 59 seconds. -/
theorem totp_codes_at_59 :
    (generateCodeAt id
      { secret := codes "gezd gnbv-GY3TQOJQGEZDGNBVGY3TQOJQ=", digits := 8 }
      59000).code
      = totp (hmac sha1 64) 8 30
        ((codes "12345678901234567890").map UInt8.ofNat) 59 :=
  ((totp_codes id).2.2.2
    { secret := codes "gezd gnbv-GY3TQOJQGEZDGNBVGY3TQOJQ=", digits := 8 }
    (hmac sha1 64) ((codes "12345678901234567890").map UInt8.ofNat) 59000 rfl
    (by decide +kernel) (by decide) (by decide) (by decide)).1

end RemoteDesk.Totp
