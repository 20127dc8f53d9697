/-
The negotiated true-colour pixel format, its compact wire form, and the
decoder from one to the four bytes of an output pixel
(`vnc_pixel_format.h`, `vnc_rfb_protocol.cpp`).

# Compact pixels

A 32-bit format of depth 24 or less sends three of its four bytes, the
low or the high ones; `compactPixelBytes` says how many bytes a pixel
takes on the wire, and is 0 for a format that is refused. For one and
two bytes the decoder looks the output pixel up in a table.

# Size arithmetic

`size_t` is 64 bits wide. The sizes of a rectangle come from the peer,
so they are computed with `checkedMultiply` and `checkedAdd`, which the
model keeps together with the wraparound they guard against.
-/
import RemoteDesk.Lib.Parser

namespace RemoteDesk.Vnc

open Lib (Parser)

abbrev Bytes := List UInt8

-- ========================= size arithmetic

/-- The values of a `size_t`. -/
def sizeLimit : Nat := 2 ^ 64

/-- `checkedMultiply`: the product, unless it leaves `size_t`. -/
def checkedMultiply (left right : Nat) : Option Nat :=
  if left ≠ 0 ∧ right > (sizeLimit - 1) / left then none
  else some (left * right % sizeLimit)

/-- `checkedAdd`: the sum, unless it leaves `size_t`. -/
def checkedAdd (left right : Nat) : Option Nat :=
  if right > sizeLimit - 1 - left then none
  else some ((left + right) % sizeLimit)

/-- A checked product is the product, and fits. -/
theorem checkedMultiply_eq {left right n : Nat}
    (h : checkedMultiply left right = some n) :
    n = left * right ∧ left * right < sizeLimit := by
  unfold checkedMultiply at h
  by_cases hbig : left ≠ 0 ∧ right > (sizeLimit - 1) / left
  · rw [if_pos hbig] at h
    cases h
  · rw [if_neg hbig] at h
    have hlt : left * right < sizeLimit := by
      by_cases hzero : left = 0
      · rw [hzero, Nat.zero_mul]; decide
      · have hle : right ≤ (sizeLimit - 1) / left := by
          by_contra hgt
          exact hbig ⟨hzero, by omega⟩
        have := (Nat.le_div_iff_mul_le (Nat.pos_of_ne_zero hzero)).mp hle
        have hpos : 0 < sizeLimit := by decide
        rw [Nat.mul_comm]
        omega
    rw [Nat.mod_eq_of_lt hlt] at h
    cases h
    exact ⟨rfl, hlt⟩

/-- Factors whose product fits pass the check. -/
theorem checkedMultiply_of_lt {left right : Nat}
    (h : left * right < sizeLimit) :
    checkedMultiply left right = some (left * right) := by
  unfold checkedMultiply
  rw [if_neg, Nat.mod_eq_of_lt h]
  rintro ⟨hzero, hgt⟩
  have := (Nat.div_lt_iff_lt_mul (Nat.pos_of_ne_zero hzero)).mp hgt
  rw [Nat.mul_comm] at this
  omega

/-- A checked sum is the sum, and fits. -/
theorem checkedAdd_eq {left right n : Nat} (hleft : left < sizeLimit)
    (h : checkedAdd left right = some n) :
    n = left + right ∧ left + right < sizeLimit := by
  unfold checkedAdd at h
  by_cases hbig : right > sizeLimit - 1 - left
  · rw [if_pos hbig] at h
    cases h
  · rw [if_neg hbig, Nat.mod_eq_of_lt (by omega)] at h
    cases h
    exact ⟨rfl, by omega⟩

-- ================================= formats

/-- A true-colour pixel format as negotiated. -/
structure PixelFormat where
  bitsPerPixel : UInt8 := 32
  depth : UInt8 := 24
  bigEndian : Bool := false
  trueColor : Bool := true
  redMax : UInt16 := 255
  greenMax : UInt16 := 255
  blueMax : UInt16 := 255
  redShift : UInt8 := 16
  greenShift : UInt8 := 8
  blueShift : UInt8 := 0
deriving DecidableEq, Repr

/-- The loop of `valueBits`; sixteen rounds clear any 16-bit value. -/
def valueBitsFrom : Nat → UInt16 → Nat
  | 0, _ => 0
  | fuel + 1, value =>
    if value = 0 then 0 else valueBitsFrom fuel (value >>> 1) + 1

/-- Bits a component value needs. -/
def valueBits (value : UInt16) : Nat := valueBitsFrom 16 value

namespace PixelFormat

variable (format : PixelFormat)

def redEnd : Nat := format.redShift.toNat + valueBits format.redMax
def greenEnd : Nat := format.greenShift.toNat + valueBits format.greenMax
def blueEnd : Nat := format.blueShift.toNat + valueBits format.blueMax

/-- `validPixelFormat`: true colour, a supported width, and every
component inside the pixel. -/
def validPixelFormat : Bool :=
  !(!format.trueColor
    || (format.bitsPerPixel != 8 && format.bitsPerPixel != 16
      && format.bitsPerPixel != 32)
    || format.redMax == 0 || format.greenMax == 0
    || format.blueMax == 0)
  && decide (format.redEnd ≤ format.bitsPerPixel.toNat)
  && decide (format.greenEnd ≤ format.bitsPerPixel.toNat)
  && decide (format.blueEnd ≤ format.bitsPerPixel.toNat)

/-- `compactUsesHighBytes`: the byte left out is the lowest one. -/
def compactUsesHighBytes : Bool :=
  format.bitsPerPixel == 32 && decide (format.depth ≤ 24)
    && decide (8 ≤ format.redShift) && decide (8 ≤ format.greenShift)
    && decide (8 ≤ format.blueShift)

/-- Bytes of one compact pixel, 0 for a refused format. -/
def compactPixelBytes : Nat :=
  if !format.validPixelFormat then 0
  else if format.bitsPerPixel != 32 || decide (24 < format.depth) then
    format.bitsPerPixel.toNat / 8
  else
    let lowThree := decide (format.redEnd ≤ 24)
      && decide (format.greenEnd ≤ 24) && decide (format.blueEnd ≤ 24)
    let highThree := decide (8 ≤ format.redShift)
      && decide (8 ≤ format.greenShift) && decide (8 ≤ format.blueShift)
      && decide (format.redEnd ≤ 32) && decide (format.greenEnd ≤ 32)
      && decide (format.blueEnd ≤ 32)
    if lowThree || highThree then 3 else 4

/-- What a valid format satisfies. -/
theorem validPixelFormat_iff :
    format.validPixelFormat = true
      ↔ format.trueColor = true
        ∧ (format.bitsPerPixel = 8 ∨ format.bitsPerPixel = 16
          ∨ format.bitsPerPixel = 32)
        ∧ format.redMax ≠ 0 ∧ format.greenMax ≠ 0
        ∧ format.blueMax ≠ 0
        ∧ format.redEnd ≤ format.bitsPerPixel.toNat
        ∧ format.greenEnd ≤ format.bitsPerPixel.toNat
        ∧ format.blueEnd ≤ format.bitsPerPixel.toNat := by
  unfold validPixelFormat
  simp only [Bool.and_eq_true, Bool.not_eq_true', Bool.or_eq_false_iff,
    Bool.and_eq_false_iff, Bool.not_eq_false', bne_eq_false_iff_eq,
    beq_eq_false_iff_ne, decide_eq_true_eq, ne_eq]
  tauto

/-- A supported format takes one to four bytes a pixel. -/
theorem compactPixelBytes_bounds
    (h : format.validPixelFormat = true) :
    1 ≤ format.compactPixelBytes ∧ format.compactPixelBytes ≤ 4 := by
  have hbits := ((validPixelFormat_iff format).mp h).2.1
  unfold compactPixelBytes
  rw [h]
  simp only [Bool.not_true, Bool.false_eq_true, if_false]
  by_cases hwide :
      (format.bitsPerPixel != 32 || decide (24 < format.depth)) = true
  · rw [if_pos hwide]
    rcases hbits with h8 | h16 | h32
    · rw [h8]; decide
    · rw [h16]; decide
    · rw [h32]; decide
  · rw [if_neg hwide]
    split <;> decide

end PixelFormat

-- =========================== pixel decoder

/-- A component scaled to a byte. -/
def scale (value : UInt32) (maximum : UInt16) : UInt32 :=
  value * 255 / maximum.toUInt32

/-- `CompactPixelDecoder`: the format, the bytes of a compact pixel, the
output order, and for up to two bytes the table of every output pixel. -/
structure CompactPixelDecoder where
  format : PixelFormat
  bytes : Nat
  blueFirst : Bool
  packedPixels : List UInt32

namespace CompactPixelDecoder

/-- The components of the pixel value `value`. -/
def components (format : PixelFormat) (value : UInt32) :
    UInt32 × UInt32 × UInt32 :=
  ((value >>> format.redShift.toUInt32) &&& format.redMax.toUInt32,
    (value >>> format.greenShift.toUInt32) &&& format.greenMax.toUInt32,
    (value >>> format.blueShift.toUInt32) &&& format.blueMax.toUInt32)

/-- `pack`: the output pixel, lowest byte first. -/
def pack (format : PixelFormat) (blueFirst : Bool) :
    UInt32 × UInt32 × UInt32 → UInt32
  | (red, green, blue) =>
    let r := scale red format.redMax
    let g := scale green format.greenMax
    let b := scale blue format.blueMax
    if blueFirst then
      b ||| (g <<< 8) ||| (r <<< 16) ||| 0xFF000000
    else r ||| (g <<< 8) ||| (b <<< 16) ||| 0xFF000000

/-- The constructor. -/
def new (format : PixelFormat) (blueFirst : Bool) :
    CompactPixelDecoder where
  format := format
  bytes := format.compactPixelBytes
  blueFirst := blueFirst
  packedPixels :=
    if format.compactPixelBytes ≤ 2 then
      (List.range (2 ^ (format.compactPixelBytes * 8))).map fun value =>
        pack format blueFirst (components format (UInt32.ofNat value))
    else []

variable (decoder : CompactPixelDecoder)

/-- The pixel value in the wire bytes `source`. -/
def wireValue (source : Bytes) : UInt32 :=
  if decoder.bytes = 2 then
    let s₀ := (source.getD 0 0).toUInt32
    let s₁ := (source.getD 1 0).toUInt32
    if decoder.format.bigEndian then (s₀ <<< 8) ||| s₁
    else s₀ ||| (s₁ <<< 8)
  else
    let value : UInt32 :=
      if decoder.format.bigEndian then
        source.foldl (fun value b => (value <<< 8) ||| b.toUInt32) 0
      else
        source.zipIdx.foldl (fun value x =>
          value ||| (x.1.toUInt32 <<< UInt32.ofNat (x.2 * 8))) 0
    if decoder.bytes = 3 ∧ decoder.format.compactUsesHighBytes then
      value <<< 8
    else value

/-- The output pixel of a pixel value: looked up for short pixels. -/
def outputPixel (value : UInt32) : UInt32 :=
  if decoder.bytes ≤ 2 then decoder.packedPixels.getD value.toNat 0
  else pack decoder.format decoder.blueFirst
    (components decoder.format value)

/-- `readPacked`, with the caller's error for input that runs out. -/
def readPacked (error : String) : Parser UInt8 String UInt32 :=
  if decoder.bytes = 0 then Parser.fail error
  else Parser.block decoder.bytes error fun source =>
    .ok (decoder.outputPixel (decoder.wireValue source))

end CompactPixelDecoder

/-- `writePixel`: the four bytes of an output pixel. -/
def writePixel (pixel : UInt32) : Bytes :=
  [(pixel &&& 0xFF).toUInt8, ((pixel >>> 8) &&& 0xFF).toUInt8,
    ((pixel >>> 16) &&& 0xFF).toUInt8, ((pixel >>> 24) &&& 0xFF).toUInt8]

@[simp] theorem length_writePixel (pixel : UInt32) :
    (writePixel pixel).length = 4 := rfl

-- ============================ output order

/-- The scaled components of a pixel value, as bytes. -/
def channels (format : PixelFormat) (value : UInt32) :
    UInt8 × UInt8 × UInt8 :=
  let (red, green, blue) := CompactPixelDecoder.components format value
  ((scale red format.redMax).toUInt8,
    (scale green format.greenMax).toUInt8,
    (scale blue format.blueMax).toUInt8)

/-- A masked component scales to at most 255. -/
private theorem scale_lt {maximum : UInt16} (h : maximum ≠ 0)
    (value : UInt32) :
    (scale (value &&& maximum.toUInt32) maximum).toNat < 256 := by
  have hpos : maximum.toNat ≠ 0 := fun h' => h (UInt16.toNat_inj.mp h')
  have hmax : maximum.toNat < 2 ^ 16 := maximum.toNat_lt
  have hle : (value &&& maximum.toUInt32).toNat ≤ maximum.toNat := by
    rw [UInt32.toNat_and, UInt16.toNat_toUInt32]
    exact Nat.and_le_right
  rw [scale, UInt32.toNat_div, UInt32.toNat_mul, UInt16.toNat_toUInt32]
  show (value &&& maximum.toUInt32).toNat * 255 % 2 ^ 32
    / maximum.toNat < 256
  rw [Nat.mod_eq_of_lt (by omega), Nat.div_lt_iff_lt_mul (by omega)]
  omega

/-- Three bytes and an opaque alpha, as one number. -/
private theorem toNat_pixel {c₀ c₁ c₂ : UInt32} (h₀ : c₀.toNat < 256)
    (h₁ : c₁.toNat < 256) (h₂ : c₂.toNat < 256) :
    (c₀ ||| (c₁ <<< 8) ||| (c₂ <<< 16) ||| 0xFF000000).toNat
      = c₀.toNat + 256 * c₁.toNat + 65536 * c₂.toNat + 0xFF000000 := by
  have h₁₈ : (c₁ <<< 8).toNat = 2 ^ 8 * c₁.toNat := by
    rw [UInt32.toNat_shiftLeft]
    show c₁.toNat <<< 8 % 2 ^ 32 = _
    rw [Nat.shiftLeft_eq]
    omega
  have h₂₁₆ : (c₂ <<< 16).toNat = 2 ^ 16 * c₂.toNat := by
    rw [UInt32.toNat_shiftLeft]
    show c₂.toNat <<< 16 % 2 ^ 32 = _
    rw [Nat.shiftLeft_eq]
    omega
  rw [UInt32.toNat_or, UInt32.toNat_or, UInt32.toNat_or, h₁₈, h₂₁₆,
    Nat.lor_comm c₀.toNat, ← Nat.two_pow_add_eq_or_of_lt (by omega),
    Nat.lor_comm _ (2 ^ 16 * _), ← Nat.two_pow_add_eq_or_of_lt (by omega),
    Nat.lor_comm]
  show 2 ^ 24 * 255 ||| _ = _
  rw [← Nat.two_pow_add_eq_or_of_lt (by omega)]
  omega

/-- `writePixel` stores the three bytes in order, then the alpha. -/
private theorem writePixel_pixel {c₀ c₁ c₂ : UInt32}
    (h₀ : c₀.toNat < 256) (h₁ : c₁.toNat < 256) (h₂ : c₂.toNat < 256) :
    writePixel (c₀ ||| (c₁ <<< 8) ||| (c₂ <<< 16) ||| 0xFF000000)
      = [c₀.toUInt8, c₁.toUInt8, c₂.toUInt8, 255] := by
  have h := toNat_pixel h₀ h₁ h₂
  generalize c₀ ||| (c₁ <<< 8) ||| (c₂ <<< 16) ||| 0xFF000000 = p at *
  have hbyte : ∀ k : UInt32, ((p >>> k) &&& 0xFF).toUInt8.toNat
      = p.toNat / 2 ^ (k.toNat % 32) % 256 := by
    intro k
    rw [UInt32.toNat_toUInt8, UInt32.toNat_and, UInt32.toNat_shiftRight]
    show (p.toNat >>> (k.toNat % 32) &&& (2 ^ 8 - 1)) % 2 ^ 8 = _
    rw [Nat.and_two_pow_sub_one_eq_mod, Nat.mod_mod,
      Nat.shiftRight_eq_div_pow]
  have hzero : p >>> 0 = p := UInt32.shiftRight_zero
  unfold writePixel
  rw [← hzero]
  refine congrArg₂ _ ?_ (congrArg₂ _ ?_
    (congrArg₂ _ ?_ (congrArg₂ _ ?_ rfl)))
  · refine UInt8.toNat_inj.mp ?_
    rw [hbyte, UInt32.toNat_toUInt8]
    show p.toNat / 2 ^ 0 % 256 = _
    omega
  · refine UInt8.toNat_inj.mp ?_
    rw [hzero, hbyte, UInt32.toNat_toUInt8]
    show p.toNat / 2 ^ 8 % 256 = _
    omega
  · refine UInt8.toNat_inj.mp ?_
    rw [hzero, hbyte, UInt32.toNat_toUInt8]
    show p.toNat / 2 ^ 16 % 256 = _
    omega
  · refine UInt8.toNat_inj.mp ?_
    rw [hzero, hbyte]
    show p.toNat / 2 ^ 24 % 256 = 255
    omega

/-- The bytes of an output pixel: red, green, blue for RGBA and the
reverse when blue comes first, then an opaque alpha. -/
theorem writePixel_pack {format : PixelFormat}
    (h : format.validPixelFormat = true) (blueFirst : Bool)
    (value : UInt32) :
    writePixel (CompactPixelDecoder.pack format blueFirst
        (CompactPixelDecoder.components format value))
      = if blueFirst then
          [(channels format value).2.2, (channels format value).2.1,
            (channels format value).1, 255]
        else [(channels format value).1, (channels format value).2.1,
            (channels format value).2.2, 255] := by
  obtain ⟨-, -, hred, hgreen, hblue, -⟩ :=
    (PixelFormat.validPixelFormat_iff format).mp h
  have hr := scale_lt hred (value >>> format.redShift.toUInt32)
  have hg := scale_lt hgreen (value >>> format.greenShift.toUInt32)
  have hb := scale_lt hblue (value >>> format.blueShift.toUInt32)
  cases blueFirst with
  | false => exact writePixel_pixel hr hg hb
  | true => exact writePixel_pixel hb hg hr

-- ============================ lookup table

namespace CompactPixelDecoder

/-- The table holds the packed pixel of every short pixel value. -/
theorem outputPixel_new (format : PixelFormat) (blueFirst : Bool)
    {value : UInt32} (h : format.compactPixelBytes ≤ 2 →
      value.toNat < 2 ^ (format.compactPixelBytes * 8)) :
    (new format blueFirst).outputPixel value
      = pack format blueFirst (components format value) := by
  unfold outputPixel
  by_cases hshort : format.compactPixelBytes ≤ 2
  · have hbytes : (new format blueFirst).bytes ≤ 2 := hshort
    rw [if_pos hbytes]
    unfold new
    dsimp only
    rw [if_pos hshort, List.getD_eq_getElem?_getD, List.getElem?_map,
      List.getElem?_range (h hshort), Option.map_some, Option.getD_some,
      UInt32.ofNat_toNat]
  · have hbytes : ¬ (new format blueFirst).bytes ≤ 2 := hshort
    rw [if_neg hbytes]
    rfl

/-- A one- or two-byte pixel value indexes the table. -/
theorem wireValue_lt {decoder : CompactPixelDecoder} {source : Bytes}
    (hpos : 1 ≤ decoder.bytes) (hshort : decoder.bytes ≤ 2)
    (hlen : source.length = decoder.bytes) :
    (decoder.wireValue source).toNat < 2 ^ (decoder.bytes * 8) := by
  have htwo : ∀ a b : UInt8,
      ((a.toUInt32 <<< 8) ||| b.toUInt32).toNat < 2 ^ 16 := by
    intro a b
    have ha : (a.toUInt32 <<< 8).toNat < 2 ^ 16 := by
      have := a.toNat_lt
      rw [UInt32.toNat_shiftLeft]
      show a.toNat <<< 8 % 2 ^ 32 < _
      rw [Nat.shiftLeft_eq]
      omega
    have hb : b.toUInt32.toNat < 2 ^ 16 := by
      have := b.toNat_lt
      rw [UInt8.toNat_toUInt32]
      omega
    rw [UInt32.toNat_or]
    exact Nat.or_lt_two_pow ha hb
  obtain h1 | h2 : decoder.bytes = 1 ∨ decoder.bytes = 2 := by omega
  · obtain ⟨b, rfl⟩ := List.length_eq_one_iff.mp (hlen.trans h1)
    have hb : decoder.wireValue [b] = b.toUInt32 := by
      unfold wireValue
      rw [h1, if_neg (by decide), if_neg (by rintro ⟨h, -⟩; cases h)]
      split <;> simp
    rw [hb, h1]
    exact b.toNat_lt
  · obtain ⟨b₀, b₁, rfl⟩ := List.length_eq_two.mp (hlen.trans h2)
    unfold wireValue
    rw [if_pos h2, h2]
    split
    · exact htwo b₀ b₁
    · rw [UInt32.or_comm]
      exact htwo b₁ b₀

/-- `readPacked` yields the packed pixel of the value it reads. -/
theorem outputPixel_wireValue {format : PixelFormat}
    (h : format.validPixelFormat = true) (blueFirst : Bool)
    {source : Bytes} (hlen : source.length = format.compactPixelBytes) :
    (new format blueFirst).outputPixel
        ((new format blueFirst).wireValue source)
      = pack format blueFirst (components format
        ((new format blueFirst).wireValue source)) :=
  outputPixel_new format blueFirst fun hshort =>
    wireValue_lt (PixelFormat.compactPixelBytes_bounds format h).1
      hshort hlen

/-- The value read does not depend on the output order. -/
theorem wireValue_blueFirst (format : PixelFormat) (blueFirst : Bool)
    (source : Bytes) :
    (new format blueFirst).wireValue source
      = (new format false).wireValue source := rfl

end CompactPixelDecoder

end RemoteDesk.Vnc
