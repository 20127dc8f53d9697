/-
The text codec of the RDP clipboard (rdp_clipboard_codec.h): UTF-8 in
the application, NUL-terminated little-endian UTF-16 on the wire.

# What is modelled

`appendUtf8`, `decode` and `encode` with their limits. A `std::string`
is its bytes. The loop of `encode` and the loop of `utf8` in
rdp_clipboard_content.cpp read one character the same way
(`takeUtf8`): the lead byte gives the number of continuation bytes and
the least code point that needs them.

# Results

Both directions are read once against the encodings of `Lib.Unicode`
(`takeUtf8_eq_some`, `decode_eq_some`, `encode_eq_some`); the round trips
are then about lists of characters.
-/
import RemoteDesk.Lib.Unicode

namespace RemoteDesk.Clipboard

open Lib

-- ============================== characters

/-- What a lead byte promises: the bits it carries, the continuation
bytes to follow, and the least code point of that length. -/
def utf8Lead (lead : Nat) : Option (Nat × Nat × Nat) :=
  if 0xC2 ≤ lead ∧ lead ≤ 0xDF then some (lead &&& 0x1F, 1, 0x80)
  else if 0xE0 ≤ lead ∧ lead ≤ 0xEF then some (lead &&& 0x0F, 2, 0x800)
  else if 0xF0 ≤ lead ∧ lead ≤ 0xF4 then some (lead &&& 0x07, 3, 0x10000)
  else if 0x80 ≤ lead then none
  else some (lead, 0, 0)

def utf8Continue : Nat → Nat → List UInt8 → Option (Nat × List UInt8)
  | 0, cp, rest => some (cp, rest)
  | _ + 1, _, [] => none
  | count + 1, cp, next :: rest =>
    if next.toNat &&& 0xC0 ≠ 0x80 then none
    else utf8Continue count (cp <<< 6 ||| (next.toNat &&& 0x3F)) rest

/-- One character from the front of a byte string. -/
def takeUtf8 : List UInt8 → Option (Nat × List UInt8)
  | [] => none
  | lead :: rest => do
      let (bits, count, minimum) ← utf8Lead lead.toNat
      let (cp, rest) ← utf8Continue count bits rest
      if cp < minimum ∨ 0x10FFFF < cp ∨ 0xD800 ≤ cp ∧ cp ≤ 0xDFFF then none
      else some (cp, rest)

private theorem continuation_iff :
    ∀ b < 256, b &&& 0xC0 = 0x80 ↔ 128 ≤ b ∧ b < 192 := by
  decide +kernel

variable {bytes rest data text : List UInt8} {c : Char} {cs : List Char}

/-- A continuation byte carries six bits. -/
theorem utf8Continue_succ {count cp cp' : Nat} :
    utf8Continue (count + 1) cp bytes = some (cp', rest) ↔
      ∃ x < 64, ∃ bytes', bytes = UInt8.ofNat (x + 0x80) :: bytes'
        ∧ utf8Continue count (64 * cp + x) bytes' = some (cp', rest) := by
  have hbits := continuation_iff
  have hlow : ∀ n, n &&& 0x3F = n % 64 := fun n => mask_low n 6
  have hor : ∀ x < 64, cp <<< 6 ||| x = 64 * cp + x :=
    fun x hx => shift_or (k := 6) hx
  constructor
  · intro h
    cases bytes with
    | nil => cases h
    | cons next bytes' =>
      rw [utf8Continue] at h
      split at h
      · cases h
      · rename_i hnext
        have hrange := (hbits _ next.toNat_lt).mp (not_not.mp hnext)
        have hx : next.toNat % 64 < 64 := Nat.mod_lt _ (by decide)
        refine ⟨next.toNat % 64, hx, bytes', ?_, ?_⟩
        · congr 1
          apply UInt8.toNat.inj
          rw [UInt8.toNat_ofNat']
          omega
        · rwa [hlow, hor _ hx] at h
  · rintro ⟨x, hx, bytes', rfl, h⟩
    have hnat : (UInt8.ofNat (x + 0x80)).toNat = x + 0x80 := by
      rw [UInt8.toNat_ofNat']
      omega
    have hmod : (x + 0x80) % 64 = x := by omega
    rw [utf8Continue, hnat, if_neg, hlow, hmod, hor x hx]
    · exact h
    · rw [not_not, hbits _ (by omega)]
      omega

/-- The lead byte of each length, and the bits it carries. -/
theorem utf8Lead_eq_some {lead bits count minimum : Nat} :
    utf8Lead lead = some (bits, count, minimum) ↔
      lead < 0x80 ∧ bits = lead ∧ count = 0 ∧ minimum = 0
      ∨ (0xC2 ≤ lead ∧ lead ≤ 0xDF) ∧ bits = lead - 0xC0 ∧ count = 1
        ∧ minimum = 0x80
      ∨ (0xE0 ≤ lead ∧ lead ≤ 0xEF) ∧ bits = lead - 0xE0 ∧ count = 2
        ∧ minimum = 0x800
      ∨ (0xF0 ≤ lead ∧ lead ≤ 0xF4) ∧ bits = lead - 0xF0 ∧ count = 3
        ∧ minimum = 0x10000 := by
  have h5 : lead &&& 0x1F = lead % 32 := mask_low lead 5
  have h4 : lead &&& 0x0F = lead % 16 := mask_low lead 4
  have h3 : lead &&& 0x07 = lead % 8 := mask_low lead 3
  unfold utf8Lead
  rw [h5, h4, h3]
  split
  · have hhigh : lead / 32 = 6 := by omega
    simp only [Option.some.injEq, Prod.mk.injEq]
    refine ⟨fun h => Or.inr (Or.inl (by omega)), ?_⟩
    rintro (h | h | h | h) <;> omega
  · split
    · have hhigh : lead / 16 = 14 := by omega
      simp only [Option.some.injEq, Prod.mk.injEq]
      refine ⟨fun h => Or.inr (Or.inr (Or.inl (by omega))), ?_⟩
      rintro (h | h | h | h) <;> omega
    · split
      · have hhigh : lead / 8 = 30 := by omega
        simp only [Option.some.injEq, Prod.mk.injEq]
        refine ⟨fun h => Or.inr (Or.inr (Or.inr (by omega))), ?_⟩
        rintro (h | h | h | h) <;> omega
      · split
        · simp only [reduceCtorEq, false_iff]
          rintro (h | h | h | h) <;> omega
        · simp only [Option.some.injEq, Prod.mk.injEq]
          refine ⟨fun h => Or.inl (by omega), ?_⟩
          rintro (h | h | h | h) <;> omega

theorem takeUtf8_cons {lead : UInt8} {tail : List UInt8} {cp : Nat} :
    takeUtf8 (lead :: tail) = some (cp, rest) ↔
      ∃ bits count minimum,
        utf8Lead lead.toNat = some (bits, count, minimum)
          ∧ utf8Continue count bits tail = some (cp, rest)
          ∧ minimum ≤ cp ∧ IsScalar cp := by
  have hvalid : ∀ {minimum cp : Nat}, ¬ (cp < minimum ∨ 0x10FFFF < cp
      ∨ 0xD800 ≤ cp ∧ cp ≤ 0xDFFF) ↔ minimum ≤ cp ∧ IsScalar cp := by
    intro minimum cp
    rw [isScalar_iff]
    omega
  unfold takeUtf8
  constructor
  · intro h
    obtain ⟨⟨bits, count, minimum⟩, hlead, h⟩ :=
      Option.bind_eq_some_iff.mp h
    obtain ⟨⟨cp', rest'⟩, hcont, h⟩ := Option.bind_eq_some_iff.mp h
    dsimp only at h
    split at h
    · cases h
    · rename_i hok
      cases h
      exact ⟨bits, count, minimum, hlead, hcont, hvalid.mp hok⟩
  · rintro ⟨bits, count, minimum, hlead, hcont, hok⟩
    dsimp only
    rw [hlead]
    simp only [Option.bind_eq_bind, Option.bind_some, hcont]
    exact if_neg (hvalid.mpr hok)

/-- `takeUtf8` reads exactly the encoding of one character. -/
theorem takeUtf8_eq_some {cp : Nat} :
    takeUtf8 bytes = some (cp, rest) ↔
      ∃ c : Char, cp = c.toNat ∧ bytes = String.utf8EncodeChar c ++ rest := by
  constructor
  · intro h
    cases bytes with
    | nil => cases h
    | cons lead tail =>
      obtain ⟨bits, count, minimum, hlead, hcont, hmin, hscalar⟩ :=
        takeUtf8_cons.mp h
      refine ⟨charOf cp hscalar, (toNat_charOf hscalar).symm, ?_⟩
      have hchar := toNat_charOf hscalar
      have hrange := isScalar_iff.mp hscalar
      rcases utf8Lead_eq_some.mp hlead with
        ⟨hl, hb, hc, hm⟩ | ⟨hl, hb, hc, hm⟩ | ⟨hl, hb, hc, hm⟩
          | ⟨hl, hb, hc, hm⟩ <;> rw [hc] at hcont
      · rw [hb] at hcont
        cases hcont
        have hone := utf8Char_one (hchar.trans_lt hl)
        rw [hchar, UInt8.ofNat_toNat] at hone
        rw [hone]
        rfl
      · obtain ⟨x, hx, t₁, rfl, h₁⟩ := utf8Continue_succ.mp hcont
        cases h₁
        rw [utf8Char_two (by omega) (by omega), hchar]
        have e₁ : (64 * bits + x) / 64 + 0xC0 = lead.toNat := by omega
        have e₂ : (64 * bits + x) % 64 = x := by omega
        rw [e₁, e₂, UInt8.ofNat_toNat]
        rfl
      · obtain ⟨x, hx, t₁, rfl, h₁⟩ := utf8Continue_succ.mp hcont
        obtain ⟨y, hy, t₂, rfl, h₂⟩ := utf8Continue_succ.mp h₁
        cases h₂
        rw [utf8Char_three (by omega) (by omega), hchar]
        generalize hcp : 64 * (64 * bits + x) + y = cp
        have e₁ : cp / 4096 + 0xE0 = lead.toNat := by omega
        have e₂ : cp / 64 % 64 = x := by omega
        have e₃ : cp % 64 = y := by omega
        rw [e₁, e₂, e₃, UInt8.ofNat_toNat]
        rfl
      · obtain ⟨x, hx, t₁, rfl, h₁⟩ := utf8Continue_succ.mp hcont
        obtain ⟨y, hy, t₂, rfl, h₂⟩ := utf8Continue_succ.mp h₁
        obtain ⟨z, hz, t₃, rfl, h₃⟩ := utf8Continue_succ.mp h₂
        cases h₃
        rw [utf8Char_four (by omega), hchar]
        generalize hcp : 64 * (64 * (64 * bits + x) + y) + z = cp
        have e₁ : cp / 262144 + 0xF0 = lead.toNat := by omega
        have e₂ : cp / 4096 % 64 = x := by omega
        have e₃ : cp / 64 % 64 = y := by omega
        have e₄ : cp % 64 = z := by omega
        rw [e₁, e₂, e₃, e₄, UInt8.ofNat_toNat]
        rfl
  · rintro ⟨c, rfl, rfl⟩
    have hrange := isScalar_iff.mp (isScalar_toNat c)
    have hnat : ∀ n < 256, (UInt8.ofNat n).toNat = n :=
      fun n hn => UInt8.toNat_ofNat_of_lt' hn
    by_cases h1 : c.toNat < 0x80
    · rw [utf8Char_one h1, List.singleton_append, takeUtf8_cons]
      refine ⟨c.toNat, 0, 0, ?_, rfl, Nat.zero_le _, isScalar_toNat c⟩
      rw [hnat _ (by omega), utf8Lead_eq_some]
      exact Or.inl ⟨h1, rfl, rfl, rfl⟩
    · by_cases h2 : c.toNat < 0x800
      · rw [utf8Char_two (by omega) h2, List.cons_append, takeUtf8_cons]
        refine ⟨c.toNat / 64, 1, 0x80, ?_, ?_, by omega, isScalar_toNat c⟩
        · rw [hnat _ (by omega), utf8Lead_eq_some]
          omega
        · refine utf8Continue_succ.mpr
            ⟨c.toNat % 64, by omega, _, rfl, ?_⟩
          exact congrArg some (Prod.ext (by dsimp only; omega) rfl)
      · by_cases h3 : c.toNat < 0x10000
        · rw [utf8Char_three (by omega) h3, List.cons_append,
            takeUtf8_cons]
          refine ⟨c.toNat / 4096, 2, 0x800, ?_, ?_, by omega,
            isScalar_toNat c⟩
          · rw [hnat _ (by omega), utf8Lead_eq_some]
            omega
          · refine utf8Continue_succ.mpr
              ⟨c.toNat / 64 % 64, by omega, _, rfl, ?_⟩
            refine utf8Continue_succ.mpr
              ⟨c.toNat % 64, by omega, _, rfl, ?_⟩
            exact congrArg some (Prod.ext (by dsimp only; omega) rfl)
        · rw [utf8Char_four (by omega), List.cons_append, takeUtf8_cons]
          refine ⟨c.toNat / 262144, 3, 0x10000, ?_, ?_, by omega,
            isScalar_toNat c⟩
          · rw [hnat _ (by omega), utf8Lead_eq_some]
            omega
          · refine utf8Continue_succ.mpr
              ⟨c.toNat / 4096 % 64, by omega, _, rfl, ?_⟩
            refine utf8Continue_succ.mpr
              ⟨c.toNat / 64 % 64, by omega, _, rfl, ?_⟩
            refine utf8Continue_succ.mpr
              ⟨c.toNat % 64, by omega, _, rfl, ?_⟩
            exact congrArg some (Prod.ext (by dsimp only; omega) rfl)

-- =================================== codec

def kMaxUtf8Bytes : Nat := 65536
def kMaxWireBytes : Nat := (kMaxUtf8Bytes + 1) * 2

/-- `appendUtf8`; a `static_cast<char>` keeps the low byte. -/
def appendUtf8 (cp : Nat) (out : List UInt8) : Option (List UInt8) :=
  let bytes := if cp < 0x80 then 1 else if cp < 0x800 then 2
    else if cp < 0x10000 then 3 else 4
  if kMaxUtf8Bytes < out.length + bytes then none
  else if bytes = 1 then some (out ++ [UInt8.ofNat cp])
  else
    let out := out ++ [
      if bytes = 2 then UInt8.ofNat (0xC0 ||| cp >>> 6)
      else if bytes = 3 then UInt8.ofNat (0xE0 ||| cp >>> 12)
      else UInt8.ofNat (0xF0 ||| cp >>> 18)]
    let out := if 4 ≤ bytes
      then out ++ [UInt8.ofNat (0x80 ||| (cp >>> 12 &&& 0x3F))] else out
    let out := if 3 ≤ bytes
      then out ++ [UInt8.ofNat (0x80 ||| (cp >>> 6 &&& 0x3F))] else out
    some (out ++ [UInt8.ofNat (0x80 ||| (cp &&& 0x3F))])

/-- The unit at `data[pos]`. -/
def wireUnit (low high : UInt8) : Nat := low.toNat ||| high.toNat <<< 8

def IsHighSurrogate (cp : Nat) : Prop := 0xD800 ≤ cp ∧ cp ≤ 0xDBFF

def IsLowSurrogate (cp : Nat) : Prop := 0xDC00 ≤ cp ∧ cp ≤ 0xDFFF

instance (cp : Nat) : Decidable (IsHighSurrogate cp) :=
  inferInstanceAs (Decidable (_ ∧ _))

instance (cp : Nat) : Decidable (IsLowSurrogate cp) :=
  inferInstanceAs (Decidable (_ ∧ _))

/-- The code point of a surrogate pair, as `decode` computes it. -/
def pairCodePoint (cp low : Nat) : Nat :=
  0x10000 + (cp - 0xD800) <<< 10 + low - 0xDC00

def decodeLoop : List UInt8 → List UInt8 → Option (List UInt8)
  | low :: high :: rest, text =>
    let cp := wireUnit low high
    if cp = 0 then
      -- only NUL padding may follow the terminator
      if rest.all (· == 0) then some text else none
    else if IsHighSurrogate cp then
      match rest with
      | low' :: high' :: rest =>
        let low := wireUnit low' high'
        if ¬ IsLowSurrogate low then none
        else
          (appendUtf8 (pairCodePoint cp low) text).bind
            fun text => decodeLoop rest text
      | _ => none
    else if IsLowSurrogate cp then none
    else
      (appendUtf8 cp text).bind fun text => decodeLoop rest text
  | _, _ => none

/-- `RdpClipboardCodec::decode`; a null pointer is the empty list. -/
def decode (data : List UInt8) : Option (List UInt8) :=
  if data.length < 2 ∨ kMaxWireBytes < data.length ∨ data.length % 2 ≠ 0
    then none
  else decodeLoop data []

/-- What `word` pushes. -/
def wireWord (v : Nat) : List UInt8 := [UInt8.ofNat v, UInt8.ofNat (v >>> 8)]

/-- The loop of `encode`, with fuel for the bytes of `text`. -/
def encodeLoop : Nat → List UInt8 → List UInt8 → Option (List UInt8)
  | _, [], bytes => some bytes
  | 0, _ :: _, _ => none
  | fuel + 1, lead :: tail, bytes =>
    match takeUtf8 (lead :: tail) with
    | none => none
    | some (cp, rest) =>
      if cp = 0 then none
      else if cp < 0x10000 then encodeLoop fuel rest (bytes ++ wireWord cp)
      else
        let cp := cp - 0x10000
        encodeLoop fuel rest (bytes ++ wireWord (0xD800 ||| cp >>> 10)
          ++ wireWord (0xDC00 ||| (cp &&& 0x3FF)))

/-- `RdpClipboardCodec::encode`. -/
def encode (text : List UInt8) : Option (List UInt8) :=
  if kMaxUtf8Bytes < text.length then none
  else (encodeLoop text.length text []).map (· ++ wireWord 0)

-- ============================== the pieces

theorem or_add {a b k : Nat} (h : b < 2 ^ k) :
    2 ^ k * a ||| b = 2 ^ k * a + b :=
  (Nat.two_pow_add_eq_or_of_lt h a).symm

theorem appendUtf8_char (c : Char) (out : List UInt8) :
    appendUtf8 c.toNat out =
      if kMaxUtf8Bytes < out.length + (String.utf8EncodeChar c).length
        then none else some (out ++ String.utf8EncodeChar c) := by
  have hrange := isScalar_iff.mp (isScalar_toNat c)
  have h6 : ∀ n, n &&& 0x3F = n % 64 := fun n => mask_low n 6
  have h80 : ∀ n, 0x80 ||| n % 64 = n % 64 + 0x80 := by
    intro n
    have hn : n % 64 < 2 ^ 6 := Nat.mod_lt n (by decide)
    exact (or_add (a := 2) hn).trans (Nat.add_comm _ _)
  unfold appendUtf8
  dsimp only
  simp only [h6, h80, shift_down]
  by_cases h1 : c.toNat < 0x80
  · simp only [if_pos h1, utf8Char_one h1]
    rfl
  · by_cases h2 : c.toNat < 0x800
    · have hlead : 0xC0 ||| c.toNat / 2 ^ 6 = c.toNat / 64 + 0xC0 := by
        have hb : c.toNat / 64 < 2 ^ 5 := by omega
        exact (or_add (a := 6) hb).trans (Nat.add_comm _ _)
      simp only [if_neg h1, if_pos h2, utf8Char_two (by omega) h2, hlead]
      simp
    · by_cases h3 : c.toNat < 0x10000
      · have hlead : 0xE0 ||| c.toNat / 2 ^ 12 = c.toNat / 4096 + 0xE0 := by
          have hb : c.toNat / 4096 < 2 ^ 4 := by omega
          exact (or_add (a := 14) hb).trans (Nat.add_comm _ _)
        simp only [if_neg h1, if_neg h2, if_pos h3,
          utf8Char_three (by omega) h3, hlead]
        simp
      · have hlead : 0xF0 ||| c.toNat / 2 ^ 18
            = c.toNat / 262144 + 0xF0 := by
          have hb : c.toNat / 262144 < 2 ^ 3 := by omega
          exact (or_add (a := 30) hb).trans (Nat.add_comm _ _)
        simp only [if_neg h1, if_neg h2, if_neg h3,
          utf8Char_four (by omega : 0x10000 ≤ c.toNat), hlead]
        simp

theorem wireUnit_eq (low high : UInt8) :
    wireUnit low high = leNat [low, high] := by
  rw [← leNat_cons_or]
  rfl

theorem wireWord_eq (v : Nat) : wireWord v = leBytes 2 v := by
  unfold wireWord
  rw [shift_down]
  rfl

/-- Two bytes are the bytes of the unit they spell. -/
theorem leBytes_wireUnit (low high : UInt8) :
    leBytes 2 (wireUnit low high) = [low, high] := by
  rw [wireUnit_eq]
  exact leBytes_leNat [low, high]

/-- Any two bytes are the bytes of a unit. -/
theorem exists_unit (low high : UInt8) :
    ∃ u < 65536, wireUnit low high = u ∧ [low, high] = leBytes 2 u := by
  refine ⟨wireUnit low high, ?_, rfl, (leBytes_wireUnit low high).symm⟩
  have hlt := leNat_lt [low, high]
  rw [wireUnit_eq]
  norm_num at hlt ⊢
  exact hlt

theorem leBytes_two (u : Nat) :
    leBytes 2 u = [UInt8.ofNat u, UInt8.ofNat (u / 256)] := rfl

theorem wireUnit_leBytes {u : Nat} (hu : u < 65536) :
    wireUnit (UInt8.ofNat u) (UInt8.ofNat (u / 256)) = u := by
  have h := leNat_leBytes_of_lt (k := 2) (n := u) (by norm_num; exact hu)
  rw [wireUnit_eq]
  exact h

section Loop

variable {acc : List UInt8} {u v : Nat}

theorem decodeLoop_nul :
    decodeLoop (leBytes 2 0 ++ rest) acc
      = if rest.all (· == 0) then some acc else none := by
  have h0 : wireUnit (UInt8.ofNat 0) (UInt8.ofNat (0 / 256)) = 0 :=
    wireUnit_leBytes (by norm_num)
  rw [leBytes_two, List.cons_append, List.cons_append, List.nil_append,
    decodeLoop.eq_def]
  dsimp only
  rw [if_pos h0]

/-- A unit that is no surrogate is a character of its own. -/
theorem decodeLoop_unit (hu : u < 65536) (h0 : u ≠ 0)
    (hhigh : ¬ IsHighSurrogate u) (hlow : ¬ IsLowSurrogate u) :
    decodeLoop (leBytes 2 u ++ rest) acc
      = (appendUtf8 u acc).bind (decodeLoop rest) := by
  rw [leBytes_two, List.cons_append, List.cons_append, List.nil_append,
    decodeLoop.eq_def]
  dsimp only
  rw [wireUnit_leBytes hu, if_neg h0, if_neg hhigh, if_neg hlow]

theorem decodeLoop_pair (hu : IsHighSurrogate u) (hv : IsLowSurrogate v) :
    decodeLoop (leBytes 2 u ++ (leBytes 2 v ++ rest)) acc
      = (appendUtf8 (pairCodePoint u v) acc).bind (decodeLoop rest) := by
  have hu' : u < 65536 := hu.2.trans_lt (by norm_num)
  have hv' : v < 65536 := hv.2.trans_lt (by norm_num)
  have h0 : u ≠ 0 := by
    have hle := hu.1
    omega
  rw [leBytes_two, leBytes_two, List.cons_append, List.cons_append,
    List.nil_append, List.cons_append, List.cons_append, List.nil_append,
    decodeLoop.eq_def]
  dsimp only
  rw [wireUnit_leBytes hu', wireUnit_leBytes hv', if_neg h0, if_pos hu,
    if_neg (not_not.mpr hv)]

/-- Nothing else gets through: what the loop accepts starts with a
terminator, a character of one unit, or a surrogate pair. -/
theorem decodeLoop_inv (h : decodeLoop data acc = some text) :
    ∃ u < 65536, ∃ rest, data = leBytes 2 u ++ rest
      ∧ (u = 0 ∧ rest.all (· == 0) ∧ text = acc
        ∨ u ≠ 0 ∧ ¬ IsHighSurrogate u ∧ ¬ IsLowSurrogate u
        ∨ IsHighSurrogate u ∧ ∃ v, IsLowSurrogate v
          ∧ ∃ rest', rest = leBytes 2 v ++ rest') := by
  rw [decodeLoop.eq_def] at h
  split at h
  · rename_i acc low high rest
    obtain ⟨u, hu, hunit, hbytes⟩ := exists_unit low high
    refine ⟨u, hu, rest, by rw [← hbytes]; rfl, ?_⟩
    dsimp only at h
    rw [hunit] at h
    split at h
    · rename_i h0
      split at h
      · rename_i hall
        cases h
        exact Or.inl ⟨h0, hall, rfl⟩
      · cases h
    · rename_i h0
      split at h
      · rename_i hhigh
        split at h
        · rename_i low' high' rest'
          obtain ⟨v, hv, hunit', hbytes'⟩ := exists_unit low' high'
          rw [hunit'] at h
          split at h
          · cases h
          · rename_i hlow
            refine Or.inr (Or.inr ⟨hhigh, v, not_not.mp hlow, rest', ?_⟩)
            rw [← hbytes']
            rfl
        · cases h
      · rename_i hhigh
        split at h
        · cases h
        · rename_i hlow
          exact Or.inr (Or.inl ⟨h0, hhigh, hlow⟩)
  · cases h

end Loop

/-- A text without a NUL character. -/
def NoNul (cs : List Char) : Prop := ∀ c ∈ cs, c.toNat ≠ 0

theorem noNul_nil : NoNul [] := List.forall_mem_nil _

theorem noNul_cons :
    NoNul (c :: cs) ↔ c.toNat ≠ 0 ∧ NoNul cs := List.forall_mem_cons

/-- The two units of a character outside the basic plane. -/
theorem pair_of_char (h : 0x10000 ≤ c.toNat) :
    ∃ u v, IsHighSurrogate u ∧ IsLowSurrogate v ∧ utf16Char c = [u, v]
      ∧ pairCodePoint u v = c.toNat := by
  have hrange := isScalar_iff.mp (isScalar_toNat c)
  refine ⟨_, _, ?_, ?_, utf16Char_two h, ?_⟩
  · unfold IsHighSurrogate
    omega
  · unfold IsLowSurrogate
    omega
  · unfold pairCodePoint
    rw [Nat.shiftLeft_eq]
    omega

/-- Any pair of surrogates is a character's. -/
theorem char_of_pair {u v : Nat} (hu : IsHighSurrogate u)
    (hv : IsLowSurrogate v) :
    ∃ c : Char, 0x10000 ≤ c.toNat ∧ utf16Char c = [u, v] := by
  have hu₁ := hu.1
  have hu₂ := hu.2
  have hv₁ := hv.1
  have hv₂ := hv.2
  have hscalar : IsScalar (0x10000 + 1024 * (u - 0xD800) + (v - 0xDC00)) :=
    isScalar_iff.mpr (by omega)
  refine ⟨charOf _ hscalar, ?_, ?_⟩
  · rw [toNat_charOf]
    omega
  · have hu' : 0xD800 + (0x10000 + 1024 * (u - 0xD800) + (v - 0xDC00)
        - 0x10000) / 1024 = u := by omega
    have hv' : 0xDC00 + (0x10000 + 1024 * (u - 0xD800) + (v - 0xDC00)
        - 0x10000) % 1024 = v := by omega
    rw [utf16Char_two (by rw [toNat_charOf]; omega), toNat_charOf, hu', hv']

/-- The loop reads one character's units as the character. -/
theorem decodeLoop_char (hc : c.toNat ≠ 0) (rest acc : List UInt8) :
    decodeLoop (unitBytes (utf16Char c) ++ rest) acc
      = (appendUtf8 c.toNat acc).bind (decodeLoop rest) := by
  have hrange := isScalar_iff.mp (isScalar_toNat c)
  by_cases h : c.toNat < 0x10000
  · rw [utf16Char_one h, unitBytes_cons, unitBytes_nil, List.append_nil]
    apply decodeLoop_unit h hc
    · unfold IsHighSurrogate
      omega
    · unfold IsLowSurrogate
      omega
  · obtain ⟨u, v, hu, hv, hunits, hcp⟩ := pair_of_char (c := c) (by omega)
    rw [hunits, unitBytes_cons, unitBytes_cons, unitBytes_nil,
      List.append_nil, List.append_assoc, decodeLoop_pair hu hv, hcp]

/-- One turn of the loop on a character: the text grows by its bytes,
within the limit. -/
theorem decodeLoop_char_eq_some (hc : c.toNat ≠ 0) {acc : List UInt8} :
    decodeLoop (unitBytes (utf16Char c) ++ rest) acc = some text ↔
      (acc ++ String.utf8EncodeChar c).length ≤ kMaxUtf8Bytes
        ∧ decodeLoop rest (acc ++ String.utf8EncodeChar c) = some text := by
  rw [decodeLoop_char hc, appendUtf8_char, List.length_append]
  split
  · rename_i hlong
    constructor
    · intro h
      cases h
    · intro h
      omega
  · rename_i hfits
    rw [Option.bind_some]
    exact ⟨fun h => ⟨not_lt.mp hfits, h⟩, And.right⟩

/-- What the loop accepts begins with the terminator or a character. -/
theorem decodeLoop_front {acc : List UInt8}
    (h : decodeLoop data acc = some text) :
    (∃ rest, data = leBytes 2 0 ++ rest ∧ rest.all (· == 0) ∧ text = acc)
      ∨ ∃ c rest, c.toNat ≠ 0
        ∧ data = unitBytes (utf16Char c) ++ rest := by
  obtain ⟨u, hu, rest, hdata, hcase⟩ := decodeLoop_inv h
  rcases hcase with ⟨h0, hall, htext⟩ | ⟨h0, hhigh, hlow⟩ |
    ⟨hhigh, v, hlow, rest', hrest⟩
  · rw [h0] at hdata
    exact Or.inl ⟨rest, hdata, hall, htext⟩
  · have hscalar : IsScalar u := by
      rw [isScalar_iff]
      unfold IsHighSurrogate at hhigh
      unfold IsLowSurrogate at hlow
      omega
    refine Or.inr ⟨charOf u hscalar, rest, ?_, ?_⟩
    · rwa [toNat_charOf]
    · rw [utf16Char_one (by rwa [toNat_charOf]), toNat_charOf, hdata]
      simp
  · obtain ⟨c, hc, hunits⟩ := char_of_pair hhigh hlow
    refine Or.inr ⟨c, rest', by omega, ?_⟩
    rw [hdata, hrest, hunits]
    simp

theorem unitBytes_replicate (pad : Nat) :
    unitBytes (List.replicate pad 0) = List.replicate (2 * pad) 0 := by
  induction pad with
  | zero => rfl
  | succ pad ih =>
    rw [List.replicate_succ, unitBytes_cons, ih, Nat.mul_succ,
      Nat.add_comm, List.replicate_add]
    rfl

theorem all_zero_iff :
    bytes.all (· == 0) ↔ bytes = List.replicate bytes.length 0 := by
  rw [List.all_eq_true, List.eq_replicate_iff]
  simp

/-- A wire text: the units of `cs`, the terminator, and zero padding. -/
def wireText (cs : List Char) (pad : Nat) : List UInt8 :=
  unitBytes (utf16 cs ++ 0 :: List.replicate pad 0)

@[simp] theorem wireText_nil (pad : Nat) :
    wireText [] pad = leBytes 2 0 ++ List.replicate (2 * pad) 0 := by
  rw [wireText, utf16_nil, List.nil_append, unitBytes_cons,
    unitBytes_replicate]

@[simp] theorem wireText_cons (c : Char) (cs : List Char) (pad : Nat) :
    wireText (c :: cs) pad
      = unitBytes (utf16Char c) ++ wireText cs pad := by
  rw [wireText, utf16_cons, List.append_assoc, unitBytes_append, wireText]

theorem length_wireText (cs : List Char) (pad : Nat) :
    (wireText cs pad).length = 2 * ((utf16 cs).length + pad + 1) := by
  rw [wireText, length_unitBytes, List.length_append, List.length_cons,
    List.length_replicate]
  omega

/-- The loop reads back every wire text that stays within the limit. -/
theorem decodeLoop_wireText (hcs : NoNul cs) (pad : Nat) {acc : List UInt8}
    (hfits : (acc ++ utf8 cs).length ≤ kMaxUtf8Bytes) :
    decodeLoop (wireText cs pad) acc = some (acc ++ utf8 cs) := by
  induction cs generalizing acc with
  | nil =>
    rw [wireText_nil, decodeLoop_nul, utf8_nil, List.append_nil, if_pos]
    rw [all_zero_iff, List.length_replicate]
  | cons c cs ih =>
    rw [utf8_cons, ← List.append_assoc] at hfits
    rw [wireText_cons, decodeLoop_char_eq_some (noNul_cons.mp hcs).1]
    constructor
    · rw [List.length_append] at hfits
      omega
    · rw [ih (noNul_cons.mp hcs).2 hfits, utf8_cons, List.append_assoc]

/-- What the loop accepts is a wire text. -/
theorem decodeLoop_sound {acc : List UInt8} (heven : data.length % 2 = 0)
    (hacc : acc.length ≤ kMaxUtf8Bytes) (h : decodeLoop data acc = some text) :
    ∃ cs pad, NoNul cs ∧ data = wireText cs pad ∧ text = acc ++ utf8 cs
      ∧ text.length ≤ kMaxUtf8Bytes := by
  induction hn : data.length using Nat.strong_induction_on
    generalizing data acc with
  | _ n ih =>
    rcases decodeLoop_front h with ⟨rest, rfl, hall, rfl⟩ |
      ⟨c, rest, hc, rfl⟩
    · refine ⟨[], rest.length / 2, noNul_nil, ?_, ?_, hacc⟩
      · rw [List.length_append, length_leBytes] at heven
        have hlen : 2 * (rest.length / 2) = rest.length := by omega
        rw [wireText_nil, hlen, ← all_zero_iff.mp hall]
      · simp
    · obtain ⟨hfits, hrest⟩ := (decodeLoop_char_eq_some hc).mp h
      have hunits := length_unitBytes (utf16Char c)
      rw [List.length_append] at heven hn
      have hpos : 0 < (utf16Char c).length := by
        unfold utf16Char
        split <;> simp
      obtain ⟨cs, pad, hcs, hdata, htext, hlen⟩ :=
        ih rest.length (by omega) (by omega) hfits hrest rfl
      refine ⟨c :: cs, pad, noNul_cons.mpr ⟨hc, hcs⟩, ?_, ?_, hlen⟩
      · rw [wireText_cons, hdata]
      · rw [htext, utf8_cons, List.append_assoc]

/-- `decode` accepts the wire texts within both limits, and gives their
characters in UTF-8. -/
theorem decode_eq_some :
    decode data = some text ↔
      ∃ cs pad, NoNul cs ∧ data = wireText cs pad ∧ text = utf8 cs
        ∧ text.length ≤ kMaxUtf8Bytes ∧ data.length ≤ kMaxWireBytes := by
  unfold decode
  constructor
  · intro h
    split at h
    · cases h
    · rename_i hsize
      obtain ⟨cs, pad, hcs, hdata, htext, hlen⟩ :=
        decodeLoop_sound (by omega) (Nat.zero_le _) h
      exact ⟨cs, pad, hcs, hdata, htext, hlen, by omega⟩
  · intro h
    obtain ⟨cs, pad, hcs, hdata, htext, hlen, hwire⟩ := h
    have hsize := length_wireText cs pad
    rw [← hdata] at hsize
    rw [if_neg (by omega), hdata, htext]
    rw [htext] at hlen
    exact decodeLoop_wireText hcs pad hlen

-- ================================ encoding

/-- The words `encode` pushes for one character. -/
def charWords (cp : Nat) : List UInt8 :=
  if cp < 0x10000 then wireWord cp
  else wireWord (0xD800 ||| (cp - 0x10000) >>> 10)
    ++ wireWord (0xDC00 ||| ((cp - 0x10000) &&& 0x3FF))

theorem charWords_toNat (c : Char) :
    charWords c.toNat = unitBytes (utf16Char c) := by
  have hrange := isScalar_iff.mp (isScalar_toNat c)
  unfold charWords
  by_cases h : c.toNat < 0x10000
  · rw [if_pos h, utf16Char_one h, wireWord_eq]
    simp
  · have hhigh : 0xD800 ||| (c.toNat - 0x10000) >>> 10
        = 0xD800 + (c.toNat - 0x10000) / 1024 := by
      have hb : (c.toNat - 0x10000) >>> 10 < 2 ^ 10 := by
        rw [shift_down]
        omega
      rw [show (0xD800 : Nat) = 2 ^ 10 * 54 from rfl, or_add hb, shift_down]
      rfl
    have hlow : 0xDC00 ||| ((c.toNat - 0x10000) &&& 0x3FF)
        = 0xDC00 + (c.toNat - 0x10000) % 1024 := by
      have hmask := mask_low (c.toNat - 0x10000) 10
      have hb : (c.toNat - 0x10000) % 2 ^ 10 < 2 ^ 10 :=
        Nat.mod_lt _ (by norm_num)
      rw [show (0x3FF : Nat) = 2 ^ 10 - 1 from rfl, hmask,
        show (0xDC00 : Nat) = 2 ^ 10 * 55 from rfl, or_add hb]
      rfl
    rw [if_neg h, utf16Char_two (by omega), wireWord_eq, wireWord_eq, hhigh,
      hlow]
    simp

theorem encodeLoop_succ {fuel cp : Nat} (h : takeUtf8 text = some (cp, rest)) :
    encodeLoop (fuel + 1) text bytes
      = if cp = 0 then none
        else encodeLoop fuel rest (bytes ++ charWords cp) := by
  cases text with
  | nil => cases h
  | cons lead tail =>
    rw [encodeLoop, h]
    dsimp only
    unfold charWords
    split
    · rfl
    · split
      · rfl
      · rw [List.append_assoc]

theorem utf8EncodeChar_ne_nil (c : Char) : String.utf8EncodeChar c ≠ [] := by
  intro h
  have hlen := c.utf8Size_pos
  rw [← String.length_utf8EncodeChar, h] at hlen
  cases hlen

/-- The loop of `encode` writes the units of the characters it reads. -/
theorem encodeLoop_utf8 (hcs : NoNul cs) {fuel : Nat}
    (hfuel : (utf8 cs).length ≤ fuel) (bytes : List UInt8) :
    encodeLoop fuel (utf8 cs) bytes
      = some (bytes ++ unitBytes (utf16 cs)) := by
  induction cs generalizing fuel bytes with
  | nil =>
    rw [utf8_nil, encodeLoop]
    simp
  | cons c cs ih =>
    have htake : takeUtf8 (utf8 (c :: cs)) = some (c.toNat, utf8 cs) :=
      takeUtf8_eq_some.mpr ⟨c, rfl, rfl⟩
    have hpos := List.length_pos_of_ne_nil (utf8EncodeChar_ne_nil c)
    rw [utf8_cons, List.length_append] at hfuel
    obtain ⟨fuel, rfl⟩ : ∃ n, fuel = n + 1 := ⟨fuel - 1, by omega⟩
    rw [encodeLoop_succ htake, if_neg (noNul_cons.mp hcs).1,
      charWords_toNat, ih (noNul_cons.mp hcs).2 (by omega), utf16_cons,
      unitBytes_append, List.append_assoc]

/-- What the loop of `encode` accepts is the UTF-8 of some characters. -/
theorem encodeLoop_sound {fuel : Nat} {out : List UInt8}
    (h : encodeLoop fuel text bytes = some out) :
    ∃ cs, NoNul cs ∧ text = utf8 cs := by
  induction fuel generalizing text bytes with
  | zero =>
    cases text with
    | nil => exact ⟨[], noNul_nil, rfl⟩
    | cons lead tail => cases h
  | succ fuel ih =>
    cases text with
    | nil => exact ⟨[], noNul_nil, rfl⟩
    | cons lead tail =>
      cases htake : takeUtf8 (lead :: tail) with
      | none =>
        rw [encodeLoop, htake] at h
        cases h
      | some found =>
        obtain ⟨cp, rest⟩ := found
        obtain ⟨c, rfl, hbytes⟩ := takeUtf8_eq_some.mp htake
        rw [encodeLoop_succ htake] at h
        split at h
        · cases h
        · rename_i hc
          obtain ⟨cs, hcs, hrest⟩ := ih h
          refine ⟨c :: cs, noNul_cons.mpr ⟨hc, hcs⟩, ?_⟩
          rw [hbytes, hrest, utf8_cons]

/-- `encode` accepts the UTF-8 texts without NUL within the limit. -/
theorem encode_eq_some :
    encode text = some bytes ↔
      ∃ cs, NoNul cs ∧ text = utf8 cs ∧ text.length ≤ kMaxUtf8Bytes
        ∧ bytes = wireText cs 0 := by
  unfold encode
  constructor
  · intro h
    split at h
    · cases h
    · rename_i hlen
      obtain ⟨out, hloop, hout⟩ := Option.map_eq_some_iff.mp h
      obtain ⟨cs, hcs, htext⟩ := encodeLoop_sound hloop
      rw [htext, encodeLoop_utf8 hcs (Nat.le_refl _)] at hloop
      cases hloop
      refine ⟨cs, hcs, htext, by omega, ?_⟩
      rw [← hout, wireText, unitBytes_append, wireWord_eq]
      rfl
  · intro h
    obtain ⟨cs, hcs, htext, hlen, hbytes⟩ := h
    rw [if_neg (by omega), htext, encodeLoop_utf8 hcs (Nat.le_refl _),
      hbytes, wireText, unitBytes_append, Option.map_some, wireWord_eq]
    rfl

/-- Two texts with the same bytes are the same text. -/
theorem utf8_inj {ds : List Char} (h : utf8 cs = utf8 ds) : cs = ds := by
  induction cs generalizing ds with
  | nil =>
    cases ds with
    | nil => rfl
    | cons d ds =>
      exact absurd (List.append_eq_nil_iff.mp h.symm).1
        (utf8EncodeChar_ne_nil d)
  | cons c cs ih =>
    have htake : takeUtf8 (utf8 (c :: cs)) = some (c.toNat, utf8 cs) :=
      takeUtf8_eq_some.mpr ⟨c, rfl, rfl⟩
    cases ds with
    | nil =>
      exact absurd (List.append_eq_nil_iff.mp h).1
        (utf8EncodeChar_ne_nil c)
    | cons d ds =>
      have htake' : takeUtf8 (utf8 (d :: ds))
          = some (d.toNat, utf8 ds) :=
        takeUtf8_eq_some.mpr ⟨d, rfl, rfl⟩
      obtain ⟨hc, hrest⟩ := Prod.mk.inj (Option.some.inj
        (htake.symm.trans (h ▸ htake')))
      rw [char_ext hc, ih hrest]

-- ============================= round trips

theorem decode_encode
    (h : encode text = some bytes) : decode bytes = some text := by
  obtain ⟨cs, hcs, htext, hlen, hbytes⟩ := encode_eq_some.mp h
  apply decode_eq_some.mpr
  refine ⟨cs, 0, hcs, hbytes, htext, hlen, ?_⟩
  have hunits := length_utf16_le cs
  have hwire : kMaxWireBytes = (kMaxUtf8Bytes + 1) * 2 := rfl
  rw [htext] at hlen
  rw [hbytes, length_wireText]
  omega

/-- Decoding loses nothing but the padding. -/
theorem encode_decode (h : decode data = some text) :
    ∃ bytes pad, encode text = some bytes
      ∧ data = bytes ++ List.replicate (2 * pad) 0 := by
  obtain ⟨cs, pad, hcs, hdata, htext, hlen, -⟩ := decode_eq_some.mp h
  refine ⟨wireText cs 0, pad, ?_, ?_⟩
  · exact encode_eq_some.mpr ⟨cs, hcs, htext, hlen, rfl⟩
  · rw [hdata, wireText, wireText, unitBytes_append, unitBytes_append,
      unitBytes_cons, unitBytes_cons, unitBytes_replicate]
    simp

end RemoteDesk.Clipboard
