/-
The frame codec: what is written is read back, however it arrives.

`frameHeader` is the meaning of a header: how long it is and what
length it announces, once it is there in full. Both readers are read as
functions of it (`tryTakeFrame_eq`, `readFrame_eq`); from there they
agree by cases, and the writer only has to produce the right header
(`writeLen_header`).

The buffered reader never runs ahead: cut the stream anywhere before the
byte that decides, and it reports an incomplete frame and keeps its
buffer (`tryTakeFrame_take`). So the pieces a stream arrives in do not
matter (`readBufferedFrame_spec`).
-/
import RemoteDesk.Wire.Frame

namespace RemoteDesk.Wire

open Lib

-- ============================== the header

/-- The length of the header at the front of a byte string and the
payload length it announces, when the header is there in full. -/
def frameHeader : Bytes → Option (Nat × Nat)
  | [] => none
  | first :: rest =>
    let headLen := headLenOf first
    if (first :: rest).length < headLen then none
    else some (headLen, leNat ((first :: rest).take headLen) / 4)

theorem headLenOf_eq (first : UInt8) :
    headLenOf first = first.toNat % 4 + 1 := by
  have hand : (first &&& 3).toNat = first.toNat % 4 := by
    rw [UInt8.toNat_and]
    exact Nat.and_two_pow_sub_one_eq_mod first.toNat 2
  unfold headLenOf
  rw [UInt8.toNat_add, hand]
  have := Nat.mod_lt first.toNat (show 0 < 4 by decide)
  exact Nat.mod_eq_of_lt (by simp; omega)

theorem headLenOf_pos (first : UInt8) : 0 < headLenOf first := by
  rw [headLenOf_eq]; omega

theorem headLenOf_le (first : UInt8) : headLenOf first ≤ 4 := by
  rw [headLenOf_eq]; omega

variable {k len : Nat} {s payload : Bytes}

/-- The shifted and or-ed header bytes spell their number. -/
theorem decodeFrameLength_eq {head : Bytes} (hpos : 0 < k) (hle : k ≤ 4)
    (hk : k ≤ head.length) :
    decodeFrameLength head k = leNat (head.take k) / 4 := by
  have hquarter : ∀ n : Nat, n >>> 2 = n / 4 := fun n =>
    Nat.shiftRight_eq_div_pow n 2
  have hlast : ∀ a : UInt8, a.toNat = leNat [a] := fun a => rfl
  have htwo : ∀ a b : UInt8, a.toNat ||| b.toNat <<< 8 = leNat [a, b] :=
    fun a b => by rw [hlast b, leNat_cons_or]
  have hthree : ∀ a b c : UInt8,
      (a.toNat ||| b.toNat <<< 8) ||| c.toNat <<< 16 = leNat [a, b, c] := by
    intro a b c
    rw [← leNat_cons_or a, ← htwo b c, Nat.shiftLeft_or_distrib,
      ← Nat.shiftLeft_add, Nat.or_assoc]
  have hfour : ∀ a b c d : UInt8,
      ((a.toNat ||| b.toNat <<< 8) ||| c.toNat <<< 16)
        ||| d.toNat <<< 24 = leNat [a, b, c, d] := by
    intro a b c d
    rw [← leNat_cons_or a, ← hthree b c d, Nat.shiftLeft_or_distrib,
      Nat.shiftLeft_or_distrib, ← Nat.shiftLeft_add, ← Nat.shiftLeft_add,
      Nat.or_assoc, Nat.or_assoc, Nat.or_assoc]
  unfold decodeFrameLength
  rw [hquarter]
  congr 1
  obtain rfl | rfl | rfl | rfl : k = 1 ∨ k = 2 ∨ k = 3 ∨ k = 4 := by omega
  · rcases head with _ | ⟨a, as⟩
    · simp at hk
    · exact hlast a
  · rcases head with _ | ⟨a, _ | ⟨b, as⟩⟩ <;> try simp at hk
    exact htwo a b
  · rcases head with _ | ⟨a, _ | ⟨b, _ | ⟨c, as⟩⟩⟩ <;> try simp at hk
    exact hthree a b c
  · rcases head with _ | ⟨a, _ | ⟨b, _ | ⟨c, _ | ⟨d, as⟩⟩⟩⟩ <;>
      try simp at hk
    exact hfour a b c d

/-- Decoding looks at the header bytes only. -/
theorem decodeFrameLength_congr {head head' : Bytes} (hpos : 0 < k)
    (hle : k ≤ 4) (hk : k ≤ head.length) (hk' : k ≤ head'.length)
    (h : head.take k = head'.take k) :
    decodeFrameLength head k = decodeFrameLength head' k := by
  rw [decodeFrameLength_eq hpos hle hk, decodeFrameLength_eq hpos hle hk',
    h]

theorem frameHeader_pos (h : frameHeader s = some (k, len)) :
    0 < k ∧ k ≤ 4 ∧ k ≤ s.length ∧ len = leNat (s.take k) / 4 := by
  cases s with
  | nil => cases h
  | cons first rest =>
    unfold frameHeader at h
    dsimp only at h
    split at h
    case isTrue => cases h
    case isFalse hlen =>
      cases h
      exact ⟨headLenOf_pos _, headLenOf_le _, by omega, rfl⟩

/-- A header is decided by its own bytes: a longer prefix has the same
header, a shorter one has none. -/
theorem frameHeader_take (h : frameHeader s = some (k, len)) (n : Nat) :
    frameHeader (s.take n) = if n < k then none else some (k, len) := by
  obtain ⟨hpos, -, hlen, -⟩ := frameHeader_pos h
  cases s with
  | nil => cases h
  | cons first rest =>
    cases n with
    | zero => rw [if_pos hpos]; rfl
    | succ n =>
      unfold frameHeader at h ⊢
      rw [List.take_succ_cons]
      dsimp only at h ⊢
      rw [if_neg (by intro hlt; rw [if_pos hlt] at h; cases h)] at h
      cases h
      by_cases hn : n + 1 < headLenOf first
      · rw [if_pos hn, if_pos]
        rw [List.length_cons, List.length_take]; omega
      · rw [if_neg hn, if_neg, ← List.take_succ_cons, List.take_take,
          Nat.min_eq_left (by omega)]
        rw [List.length_cons] at hlen ⊢
        rw [List.length_take]; omega

theorem frameHeader_append (h : frameHeader s = some (k, len)) (t : Bytes) :
    frameHeader (s ++ t) = some (k, len) := by
  obtain ⟨-, -, hlen, -⟩ := frameHeader_pos h
  cases s with
  | nil => cases h
  | cons first rest =>
    unfold frameHeader at h
    dsimp only at h
    split at h
    case isTrue => cases h
    case isFalse hge =>
      cases h
      show (if (first :: (rest ++ t)).length < headLenOf first then none
        else _) = _
      rw [if_neg (by simp at hge ⊢; omega),
        show first :: rest.append t = (first :: rest) ++ t from rfl,
        List.take_append_of_le_length hlen]

-- ============================= the readers

/-- `try_take_frame` by its header. -/
theorem tryTakeFrame_eq (s : Bytes) :
    tryTakeFrame s = match frameHeader s with
      | none => (.ok none, s)
      | some (k, len) =>
        if maxFrameSize < len then
          (.error (frameTooLarge len k (s.take k)), s)
        else if s.length < k + len then (.ok none, s)
        else (.ok (some ((s.drop k).take len)), s.drop (k + len)) := by
  cases s with
  | nil => rfl
  | cons first rest =>
    have hpos := headLenOf_pos first
    have hle := headLenOf_le first
    by_cases hlt : (first :: rest).length < headLenOf first
    · rw [show frameHeader (first :: rest) = none from if_pos hlt]
      exact if_pos hlt
    · rw [show frameHeader (first :: rest) = some (headLenOf first,
          leNat ((first :: rest).take (headLenOf first)) / 4)
        from if_neg hlt,
        ← decodeFrameLength_eq hpos hle (Nat.not_lt.mp hlt)]
      exact if_neg hlt

/-- The message of a refusal shows the header bytes only. -/
theorem frameTooLarge_congr {head head' : Bytes}
    (h : head.take k = head'.take k) :
    frameTooLarge len k head = frameTooLarge len k head' := by
  unfold frameTooLarge headerHex headerAscii
  rw [h]

private theorem take_rightpad (hk : k ≤ s.length) :
    ((s.take k).rightpad 4 0).take k = s.take k := by
  rw [List.rightpad, List.take_append_of_le_length
    (by rw [List.length_take]; omega), List.take_take, Nat.min_self]

theorem readLenWithHeader_eq (s : Bytes) :
    readLenWithHeader s = match frameHeader s with
      | none => (.error eofError, [])
      | some (k, len) =>
        (.ok { len, headLen := k, head := (s.take k).rightpad 4 0 },
          s.drop k) := by
  cases s with
  | nil => rfl
  | cons first rest =>
    have hpos := headLenOf_pos first
    have hle := headLenOf_le first
    have hone : readExact 1 (first :: rest) = (.ok [first], rest) := rfl
    unfold readLenWithHeader
    rw [hone]
    dsimp only [List.headD]
    by_cases hlt : (first :: rest).length < headLenOf first
    · rw [show frameHeader (first :: rest) = none from if_pos hlt]
      rw [List.length_cons] at hlt
      rw [if_pos (by omega), readExact, if_pos (by omega)]
    · rw [show frameHeader (first :: rest) = some (headLenOf first,
          leNat ((first :: rest).take (headLenOf first)) / 4)
        from if_neg hlt]
      have hlen := Nat.not_lt.mp hlt
      rw [← decodeFrameLength_eq hpos hle hlen]
      have htail : (if 1 < headLenOf first
          then readExact (headLenOf first - 1) rest else (.ok [], rest))
          = (.ok (rest.take (headLenOf first - 1)),
            rest.drop (headLenOf first - 1)) := by
        split
        · rw [List.length_cons] at hlen
          exact if_neg (by omega)
        · rw [show headLenOf first - 1 = 0 by omega]; rfl
      rw [htail]
      have htake : [first] ++ rest.take (headLenOf first - 1)
          = (first :: rest).take (headLenOf first) := by
        conv => rhs; rw [show headLenOf first
          = (headLenOf first - 1) + 1 by omega]
        rfl
      have hdrop : rest.drop (headLenOf first - 1)
          = (first :: rest).drop (headLenOf first) := by
        conv => rhs; rw [show headLenOf first
          = (headLenOf first - 1) + 1 by omega]
        rfl
      have hpad := take_rightpad hlen
      dsimp only
      rw [htake, hdrop, decodeFrameLength_congr hpos hle
        (by rw [List.rightpad, List.length_append, List.length_take]
            omega)
        hlen hpad]

/-- `read_frame` by its header: it reads on where `try_take_frame` would
wait, and fails at the end of the stream. -/
theorem readFrame_eq (s : Bytes) :
    readFrame s = match frameHeader s with
      | none => (.error eofError, [])
      | some (k, len) =>
        if maxFrameSize < len then
          (.error (frameTooLarge len k (s.take k)), s.drop k)
        else if s.length < k + len then (.error eofError, [])
        else (.ok ((s.drop k).take len), s.drop (k + len)) := by
  unfold readFrame
  rw [readLenWithHeader_eq]
  cases hh : frameHeader s with
  | none => rfl
  | some header =>
    obtain ⟨k, len⟩ := header
    obtain ⟨-, hle, hk, -⟩ := frameHeader_pos hh
    dsimp only
    by_cases hmax : maxFrameSize < len
    · rw [if_pos hmax, if_pos hmax, frameTooLarge_congr
        ((take_rightpad hk).trans (by rw [List.take_take, Nat.min_self]))]
    · rw [if_neg hmax, if_neg hmax, readExact, List.length_drop,
        List.drop_drop]
      by_cases hlen : s.length < k + len
      · rw [if_pos hlen, if_pos (by omega)]
      · rw [if_neg hlen, if_neg (by omega)]

-- ============================== the writer

/-- A header of `k` little-endian bytes whose number is tagged with
`k - 1` announces that number's upper bits. -/
private theorem frameHeader_leBytes {value : Nat} (hpos : 0 < k) (hle : k ≤ 4)
    (hvalue : value < 256 ^ k) (htag : value % 4 = k - 1) (rest : Bytes) :
    frameHeader (leBytes k value ++ rest) = some (k, value / 4) := by
  obtain ⟨k, rfl⟩ : ∃ k', k = k' + 1 := ⟨k - 1, by omega⟩
  have hlen := length_leBytes (k + 1) value
  have hfirst : headLenOf (UInt8.ofNat value) = k + 1 := by
    rw [headLenOf_eq, UInt8.toNat_ofNat']
    omega
  refine frameHeader_append ?_ rest
  rw [leBytes_succ] at hlen ⊢
  unfold frameHeader
  dsimp only
  rw [hfirst, if_neg (by omega), List.take_of_length_le (by omega),
    ← leBytes_succ, leNat_leBytes_of_lt hvalue]

/-- Tagging a shifted length. -/
private theorem shift_or_tag {tag w : Nat} (htag : tag < 4)
    (hlen : 4 * len < 2 ^ w) : (len <<< 2) % 2 ^ w ||| tag = 4 * len + tag := by
  have hshift : len <<< 2 = 4 * len := by
    rw [Nat.shiftLeft_eq, Nat.mul_comm]
  rw [hshift, Nat.mod_eq_of_lt hlen, ← hshift,
    ← Nat.shiftLeft_add_eq_or_of_lt (i := 2) htag, hshift]

/-- The three bytes masked out one by one. -/
private theorem threeBytes_eq (head : Nat) :
    [UInt8.ofNat (head &&& 0xFF), UInt8.ofNat ((head >>> 8) &&& 0xFF),
      UInt8.ofNat ((head >>> 16) &&& 0xFF)] = leBytes 3 head := by
  have hmask : ∀ n : Nat, UInt8.ofNat (n &&& 0xFF) = UInt8.ofNat n := by
    intro n
    apply UInt8.toNat.inj
    rw [UInt8.toNat_ofNat', UInt8.toNat_ofNat',
      show n &&& 0xFF = n % 256 from Nat.and_two_pow_sub_one_eq_mod n 8]
    omega
  rw [hmask, hmask, hmask, Nat.shiftRight_eq_div_pow,
    Nat.shiftRight_eq_div_pow, leBytes_succ, leBytes_succ, leBytes_succ,
    Nat.div_div_eq_div_mul]
  rfl

/-- The header `write_len` writes is read as the length it was given. -/
theorem writeLen_header (hlen : len ≤ maxFrameSize) :
    ∃ head, writeLen len = .ok head
      ∧ ∀ rest, frameHeader (head ++ rest) = some (head.length, len) := by
  have hmax : len ≤ 16777216 := hlen
  have hbytes : ∀ k tag : Nat, 0 < k → k ≤ 4 → tag = k - 1 →
      4 * len + tag < 256 ^ k → ∀ rest,
        frameHeader (leBytes k (4 * len + tag) ++ rest)
          = some ((leBytes k (4 * len + tag)).length, len) := by
    intro k tag hpos hle htag hlt rest
    rw [frameHeader_leBytes hpos hle hlt (by omega), length_leBytes]
    congr 2
    omega
  unfold writeLen
  by_cases h₁ : len ≤ 0x3F
  · rw [if_pos h₁]
    refine ⟨_, rfl, fun rest => ?_⟩
    rw [show [UInt8.ofNat (len <<< 2)] = leBytes 1 (4 * len + 0) by
      rw [Nat.shiftLeft_eq, Nat.mul_comm]; rfl]
    exact hbytes 1 0 (by decide) (by decide) rfl (by omega) rest
  rw [if_neg h₁]
  by_cases h₂ : len ≤ 0x3FFF
  · rw [if_pos h₂, shift_or_tag (by decide) (by omega)]
    exact ⟨_, rfl, hbytes 2 1 (by decide) (by decide) rfl (by omega)⟩
  rw [if_neg h₂]
  by_cases h₃ : len ≤ 0x3FFFFF
  · rw [if_pos h₃]
    dsimp only
    rw [shift_or_tag (by decide) (by omega), threeBytes_eq]
    exact ⟨_, rfl, hbytes 3 2 (by decide) (by decide) rfl (by omega)⟩
  rw [if_neg h₃]
  rw [if_pos (by omega), shift_or_tag (by decide) (by omega)]
  exact ⟨_, rfl, hbytes 4 3 (by decide) (by decide) rfl (by omega)⟩

/-- A written frame is a header that announces the payload, and the
payload. -/
theorem writeFrame_header (h : payload.length ≤ maxFrameSize) :
    ∃ head, writeFrame payload = .ok (head ++ payload)
      ∧ ∀ rest, frameHeader (head ++ rest)
          = some (head.length, payload.length) := by
  obtain ⟨head, hhead, hread⟩ := writeLen_header h
  refine ⟨head, ?_, hread⟩
  unfold writeFrame
  rw [if_neg (Nat.not_lt.mpr h), hhead]

-- ===================== one frame at a time

/-- A written frame is taken off the front of the buffer. -/
theorem tryTakeFrame_written {encoded : Bytes}
    (h : payload.length ≤ maxFrameSize) (hw : writeFrame payload = .ok encoded)
    (rest : Bytes) :
    tryTakeFrame (encoded ++ rest) = (.ok (some payload), rest) := by
  obtain ⟨head, hhead, hread⟩ := writeFrame_header h
  cases hhead.symm.trans hw
  rw [tryTakeFrame_eq, List.append_assoc, hread]
  dsimp only
  rw [if_neg (Nat.not_lt.mpr h), if_neg (by simp), List.drop_left,
    List.take_left, ← List.drop_drop, List.drop_left, List.drop_left]

/-- A written frame is read off the front of the stream. -/
theorem readFrame_written {encoded : Bytes} (h : payload.length ≤ maxFrameSize)
    (hw : writeFrame payload = .ok encoded) (rest : Bytes) :
    readFrame (encoded ++ rest) = (.ok payload, rest) := by
  obtain ⟨head, hhead, hread⟩ := writeFrame_header h
  cases hhead.symm.trans hw
  rw [readFrame_eq, List.append_assoc, hread]
  dsimp only
  rw [if_neg (Nat.not_lt.mpr h), if_neg (by simp), List.drop_left,
    List.take_left, ← List.drop_drop, List.drop_left, List.drop_left]

/-- How many bytes decide what the front of the stream is: the frame, or
the header of a refused one; more than there are when nothing is
decided. -/
def decidedBy (s : Bytes) : Nat :=
  match frameHeader s with
  | none => s.length + 1
  | some (k, len) => if maxFrameSize < len then k else k + len

theorem frameHeader_take_none (h : frameHeader s = none)
    (n : Nat) : frameHeader (s.take n) = none := by
  cases hn : frameHeader (s.take n) with
  | none => rfl
  | some header =>
    obtain ⟨k, len⟩ := header
    have := frameHeader_append hn (s.drop n)
    rw [List.take_append_drop, h] at this
    cases this

/-- The buffered reader never runs ahead: before the deciding byte the
frame is incomplete and the buffer stays as it is. -/
theorem tryTakeFrame_take {n : Nat} (hn : n < decidedBy s) :
    tryTakeFrame (s.take n) = (.ok none, s.take n) := by
  rw [tryTakeFrame_eq]
  cases hh : frameHeader s with
  | none => rw [frameHeader_take_none hh]
  | some header =>
    obtain ⟨k, len⟩ := header
    rw [decidedBy, hh] at hn
    rw [frameHeader_take hh]
    by_cases hnk : n < k
    · rw [if_pos hnk]
    · rw [if_neg hnk]
      dsimp only at hn ⊢
      by_cases hmax : maxFrameSize < len
      · rw [if_pos hmax] at hn; omega
      · rw [if_neg hmax] at hn
        rw [if_neg hmax, if_pos]
        rw [List.length_take]; omega

/-- From the deciding byte on, more bytes do not change the answer. -/
theorem tryTakeFrame_take_decided {n : Nat} (hn : decidedBy s ≤ n)
    (hs : decidedBy s ≤ s.length) :
    (tryTakeFrame (s.take n)).1 = (tryTakeFrame s).1 := by
  rw [tryTakeFrame_eq, tryTakeFrame_eq]
  cases hh : frameHeader s with
  | none => rw [decidedBy, hh] at hs; dsimp only at hs; omega
  | some header =>
    obtain ⟨k, len⟩ := header
    rw [decidedBy, hh] at hn hs
    rw [frameHeader_take hh]
    dsimp only at hn hs ⊢
    by_cases hmax : maxFrameSize < len
    · rw [if_pos hmax] at hn hs
      rw [if_neg (by omega)]
      dsimp only
      rw [if_pos hmax, if_pos hmax, List.take_take, Nat.min_eq_left hn]
    · rw [if_neg hmax] at hn hs
      rw [if_neg (by omega)]
      dsimp only
      rw [if_neg hmax, if_neg hmax, if_neg (by rw [List.length_take]; omega),
        if_neg (by omega), List.drop_take, List.take_take,
        Nat.min_eq_left (by omega)]

-- ========================= the two readers

/-- What the two readers have in common on a stream `s`. -/
structure ReadersAgree (s : Bytes) : Prop where
  /-- They accept the same frames and leave the same bytes. -/
  accept : ∀ payload rest, tryTakeFrame s = (.ok (some payload), rest)
    ↔ readFrame s = (.ok payload, rest)
  /-- They refuse the same headers, in the same words. -/
  refuse : ∀ e, (tryTakeFrame s).1 = .error e
    ↔ (readFrame s).1 = .error e ∧ e.kind = .invalidData
  /-- What one reports as incomplete the other runs out of. -/
  incomplete : (tryTakeFrame s).1 = .ok none
    ↔ (readFrame s).1 = .error eofError
  /-- An incomplete frame leaves the buffer unchanged. -/
  unchanged : (tryTakeFrame s).1 = .ok none → (tryTakeFrame s).2 = s
  /-- They decide at the same byte, the last one `read_frame` read. -/
  decide : (readFrame s).1 ≠ .error eofError →
    ∀ n, (n < s.length - (readFrame s).2.length →
        tryTakeFrame (s.take n) = (.ok none, s.take n))
      ∧ (s.length - (readFrame s).2.length ≤ n →
        (tryTakeFrame (s.take n)).1 = (tryTakeFrame s).1)

theorem frameTooLarge_ne_eof (len k : Nat) (head : Bytes) :
    frameTooLarge len k head ≠ eofError := by
  intro h
  have := congrArg IoError.kind h
  cases this

/-- `read_frame` stops at the deciding byte. -/
theorem consumed_eq (h : (readFrame s).1 ≠ .error eofError) :
    s.length - (readFrame s).2.length = decidedBy s
      ∧ decidedBy s ≤ s.length := by
  rw [readFrame_eq] at h ⊢
  unfold decidedBy
  cases hh : frameHeader s with
  | none => rw [hh] at h; exact absurd rfl h
  | some header =>
    obtain ⟨k, len⟩ := header
    obtain ⟨-, -, hk, -⟩ := frameHeader_pos hh
    rw [hh] at h
    dsimp only at h ⊢
    by_cases hmax : maxFrameSize < len
    · rw [if_pos hmax, if_pos hmax, List.length_drop]; omega
    · rw [if_neg hmax] at h ⊢
      rw [if_neg hmax]
      by_cases hlen : s.length < k + len
      · rw [if_pos hlen] at h; exact absurd rfl h
      · rw [if_neg hlen, List.length_drop]; omega

theorem readers_agree (s : Bytes) : ReadersAgree s where
  accept := by
    intro payload rest
    rw [tryTakeFrame_eq, readFrame_eq]
    cases frameHeader s with
    | none => simp
    | some header => dsimp only; split <;> [simp; (split <;> simp)]
  refuse := by
    intro e
    rw [tryTakeFrame_eq, readFrame_eq]
    cases frameHeader s with
    | none => simp [eofError]; rintro rfl; simp
    | some header =>
      dsimp only
      split
      · simp; rintro rfl; rfl
      · split
        · simp [eofError]; rintro rfl; simp
        · simp
  incomplete := by
    rw [tryTakeFrame_eq, readFrame_eq]
    cases frameHeader s with
    | none => simp
    | some header =>
      dsimp only
      split
      · simpa using frameTooLarge_ne_eof _ _ _
      · split <;> simp
  unchanged := by
    rw [tryTakeFrame_eq]
    cases frameHeader s with
    | none => simp
    | some header => dsimp only; split <;> [simp; (split <;> simp)]
  decide := by
    intro h n
    obtain ⟨hbyte, hle⟩ := consumed_eq h
    rw [hbyte]
    exact ⟨tryTakeFrame_take, fun hn => tryTakeFrame_take_decided hn hle⟩

-- ================================= arrival

/-- The bytes a run of read results delivers. -/
def arrived : List ReadEvent → Bytes
  | [] => []
  | .data chunk :: events => chunk ++ arrived events
  | _ :: events => arrived events

/-- Nothing goes wrong: data and interrupted calls, no end of input and
no error. -/
def Quiet (events : List ReadEvent) : Prop :=
  ∀ event ∈ events, event = .interrupted
    ∨ ∃ chunk, chunk ≠ [] ∧ event = .data chunk

/-- The buffered reader takes the written frame at the front of what
was buffered and what arrives, in whatever pieces it arrives. -/
theorem readBufferedFrame_written {closed : IoError} {encoded rest : Bytes}
    (h : payload.length ≤ maxFrameSize)
    (hw : writeFrame payload = .ok encoded) :
    ∀ {events : List ReadEvent} {buffer : Bytes}, Quiet events →
      buffer ++ arrived events = encoded ++ rest →
      ∃ buffer' events',
        readBufferedFrame closed events buffer
            = some (.ok payload, buffer', events')
          ∧ Quiet events' ∧ buffer' ++ arrived events' = rest := by
  have hall := tryTakeFrame_written h hw
  have hdecided : decidedBy (encoded ++ rest) = encoded.length := by
    have hread := readFrame_written h hw rest
    have := (consumed_eq (s := encoded ++ rest) (by rw [hread]; simp)).1
    rw [hread, List.length_append] at this
    dsimp only at this
    omega
  intro events
  induction events with
  | nil =>
    intro buffer _ hbuf
    rw [arrived, List.append_nil] at hbuf
    refine ⟨rest, [], ?_, by simp [Quiet], by simp [arrived]⟩
    rw [readBufferedFrame, hbuf, hall rest]
  | cons event events ih =>
    intro buffer hquiet hbuf
    have hrest : Quiet events :=
      fun x hx => hquiet x (List.mem_cons_of_mem _ hx)
    by_cases hlen : encoded.length ≤ buffer.length
    · -- the frame is buffered in full
      obtain ⟨r, rfl⟩ : encoded <+: buffer :=
        List.prefix_of_prefix_length_le ⟨rest, rfl⟩
          ⟨arrived (event :: events), hbuf⟩ hlen
      refine ⟨r, event :: events, ?_, hquiet, ?_⟩
      · rw [readBufferedFrame, hall r]
      · rw [List.append_assoc] at hbuf
        exact List.append_cancel_left hbuf
    · -- the buffer is a proper prefix of it
      have hshort : tryTakeFrame buffer = (.ok none, buffer) := by
        have := tryTakeFrame_take (s := encoded ++ rest)
          (n := buffer.length) (by omega)
        rwa [← hbuf, List.take_left] at this
      rw [readBufferedFrame, hshort]
      rcases hquiet event (List.mem_cons_self ..) with
        rfl | ⟨chunk, hchunk, rfl⟩
      · exact ih hrest hbuf
      · dsimp only
        rw [if_neg hchunk]
        refine ih hrest ?_
        rw [List.append_assoc]
        exact hbuf

/-- Write several frames, one after the other. -/
def writeFrames : List Bytes → Except IoError Bytes
  | [] => .ok []
  | payload :: payloads =>
    match writeFrame payload with
    | .error e => .error e
    | .ok encoded =>
      match writeFrames payloads with
      | .error e => .error e
      | .ok more => .ok (encoded ++ more)

/-- Read `n` frames from a stream. -/
def readFrames : Nat → Bytes → Except IoError (List Bytes) × Bytes
  | 0, stream => (.ok [], stream)
  | n + 1, stream =>
    match readFrame stream with
    | (.error e, stream) => (.error e, stream)
    | (.ok payload, stream) =>
      match readFrames n stream with
      | (.error e, stream) => (.error e, stream)
      | (.ok payloads, stream) => (.ok (payload :: payloads), stream)

/-- Read `n` frames through the receive buffer. -/
def readBufferedFrames (closed : IoError) :
    Nat → List ReadEvent → Bytes →
      Option (Except IoError (List Bytes) × Bytes × List ReadEvent)
  | 0, events, buffer => some (.ok [], buffer, events)
  | n + 1, events, buffer =>
    match readBufferedFrame closed events buffer with
    | none => none
    | some (.error e, buffer, events) => some (.error e, buffer, events)
    | some (.ok payload, buffer, events) =>
      match readBufferedFrames closed n events buffer with
      | none => none
      | some (.error e, buffer, events) =>
        some (.error e, buffer, events)
      | some (.ok payloads, buffer, events) =>
        some (.ok (payload :: payloads), buffer, events)

/-- What `encoded` followed by anything is read as: the payloads, and
the rest left over, by either reader. -/
structure ReadsBack (payloads : List Bytes) (encoded : Bytes) : Prop where
  stream : ∀ rest,
    readFrames payloads.length (encoded ++ rest) = (.ok payloads, rest)
  buffered : ∀ closed rest buffer events, Quiet events →
    buffer ++ arrived events = encoded ++ rest →
    ∃ buffer' events',
      readBufferedFrames closed payloads.length events buffer
          = some (.ok payloads, buffer', events')
        ∧ buffer' ++ arrived events' = rest

theorem writeFrames_readsBack {payloads : List Bytes}
    (h : ∀ payload ∈ payloads, payload.length ≤ maxFrameSize) :
    ∃ encoded, writeFrames payloads = .ok encoded
      ∧ ReadsBack payloads encoded := by
  induction payloads with
  | nil =>
    refine ⟨[], rfl, fun rest => rfl, fun _ rest buffer events _ hbuf => ?_⟩
    exact ⟨buffer, events, rfl, hbuf⟩
  | cons payload payloads ih =>
    have hp := h payload (List.mem_cons_self ..)
    obtain ⟨head, hw, -⟩ := writeFrame_header hp
    obtain ⟨more, hmore, hback⟩ :=
      ih fun x hx => h x (List.mem_cons_of_mem _ hx)
    refine ⟨head ++ payload ++ more, by rw [writeFrames, hw, hmore],
      fun rest => ?_, fun closed rest buffer events hquiet hbuf => ?_⟩
    · rw [List.append_assoc, List.length_cons, readFrames,
        readFrame_written hp hw]
      dsimp only
      rw [hback.stream]
    · rw [List.append_assoc] at hbuf
      obtain ⟨buffer₁, events₁, h₁, hquiet₁, hbuf₁⟩ :=
        readBufferedFrame_written hp hw hquiet hbuf
      obtain ⟨buffer₂, events₂, h₂, hbuf₂⟩ :=
        hback.buffered closed rest buffer₁ events₁ hquiet₁ hbuf₁
      refine ⟨buffer₂, events₂, ?_, hbuf₂⟩
      rw [List.length_cons, readBufferedFrames, h₁]
      dsimp only
      rw [h₂]

-- ============================== the result

/-- Frames are read back as written, in any pieces, and the two readers
decide every stream alike. -/
theorem frame_codec :
    (∀ payloads : List Bytes,
      (∀ payload ∈ payloads, payload.length ≤ maxFrameSize) →
      ∃ encoded, writeFrames payloads = .ok encoded
        ∧ ReadsBack payloads encoded)
    ∧ ∀ s, ReadersAgree s :=
  ⟨fun _ h => writeFrames_readsBack h, readers_agree⟩

/-- Two frames in three pieces, with the first header cut and a byte of
a third frame behind them. -/
example :
    readBufferedFrames eofError 2
        [.data [0x08, 0x61], .interrupted, .data [0x62, 0x04],
          .data [0x63, 0x02]] []
      = some (.ok [[0x61, 0x62], [0x63]], [0x02], []) := by
  decide

end RemoteDesk.Wire
