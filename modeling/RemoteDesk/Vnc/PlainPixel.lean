/-
The decoder of compact pixels against the plain one (`vnc_rfb_protocol.cpp`).

`decodePixel` divides for every pixel, by the maximum of each component.
`CompactPixelDecoder` looks short pixels up in a table it filled once, and reads
two bytes without the loop. `readPacked_decodePixel` is that it yields the same
colours from the same bytes.
-/
import RemoteDesk.Vnc.TileAgreement

namespace RemoteDesk.Vnc

open Lib (Parser)

/-- The number in the bytes of a pixel. -/
def pixelValue (format : PixelFormat) (source : Bytes) : UInt32 :=
  if format.bigEndian then
    source.foldl (fun value b => (value <<< 8) ||| b.toUInt32) 0
  else
    source.zipIdx.foldl (fun value x =>
      value ||| (x.1.toUInt32 <<< UInt32.ofNat (x.2 * 8))) 0

/-- `decodePixel`: red, green, blue and alpha of the pixel `data` starts with. -/
def decodePixel (format : PixelFormat) (data : Bytes) (compact : Bool) :
    Option Bytes :=
  let pixelBytes :=
    if compact then format.compactPixelBytes else format.bitsPerPixel.toNat / 8
  if !format.validPixelFormat then none
  else if pixelBytes = 0 ∨ data.length < pixelBytes then none
  else
    let read := pixelValue format (data.take pixelBytes)
    let value :=
      if compact ∧ pixelBytes = 3 ∧ format.compactUsesHighBytes then read <<< 8
      else read
    let red := (value >>> format.redShift.toUInt32) &&& format.redMax.toUInt32
    let green := (value >>> format.greenShift.toUInt32) &&& format.greenMax.toUInt32
    let blue := (value >>> format.blueShift.toUInt32) &&& format.blueMax.toUInt32
    some [(red * 255 / format.redMax.toUInt32).toUInt8,
      (green * 255 / format.greenMax.toUInt32).toUInt8,
      (blue * 255 / format.blueMax.toUInt32).toUInt8, 255]

/-- The colours as the decoder stores them. -/
def colourOrder (blueFirst : Bool) : Bytes → Bytes
  | [red, green, blue, alpha] =>
    if blueFirst then [blue, green, red, alpha] else [red, green, blue, alpha]
  | rgba => rgba

/-- Two bytes are read as the loop reads them. -/
theorem pixelValue_two (format : PixelFormat) (first second : UInt8) :
    pixelValue format [first, second]
      = if format.bigEndian then (first.toUInt32 <<< 8) ||| second.toUInt32
        else first.toUInt32 ||| (second.toUInt32 <<< 8) := by
  rw [pixelValue]
  split
  · simp
  · simp

/-- What the decoder reads is the number in the bytes, moved up where the byte left
out is the lowest. -/
theorem wireValue_pixelValue (format : PixelFormat) (blueFirst : Bool)
    {source : Bytes} (hlength : source.length = format.compactPixelBytes) :
    (CompactPixelDecoder.new format blueFirst).wireValue source
      = if format.compactPixelBytes = 3 ∧ format.compactUsesHighBytes then
          pixelValue format source <<< 8
        else pixelValue format source := by
  unfold CompactPixelDecoder.wireValue
  show (if format.compactPixelBytes = 2 then _ else _) = _
  by_cases htwo : format.compactPixelBytes = 2
  · obtain ⟨first, second, rfl⟩ := List.length_eq_two.1 (hlength.trans htwo)
    have hthree : ¬ (format.compactPixelBytes = 3
        ∧ format.compactUsesHighBytes = true) := by omega
    rw [if_pos htwo, if_neg hthree, pixelValue_two]
    rfl
  · rw [if_neg htwo]
    rfl

/-- The colours of a plain pixel that fits. -/
theorem decodePixel_compact {format : PixelFormat}
    (hvalid : format.validPixelFormat = true) (blueFirst : Bool) {data : Bytes}
    (hroom : format.compactPixelBytes ≤ data.length) :
    decodePixel format data true
      = some [(channels format ((CompactPixelDecoder.new format blueFirst).wireValue
            (data.take format.compactPixelBytes))).1,
          (channels format ((CompactPixelDecoder.new format blueFirst).wireValue
            (data.take format.compactPixelBytes))).2.1,
          (channels format ((CompactPixelDecoder.new format blueFirst).wireValue
            (data.take format.compactPixelBytes))).2.2, 255] := by
  have hpos := (format.compactPixelBytes_bounds hvalid).1
  have hlength : (data.take format.compactPixelBytes).length
      = format.compactPixelBytes := List.length_take_of_le hroom
  have htest : ¬ ((!format.validPixelFormat) = true) := by
    rw [hvalid]
    exact Bool.false_ne_true
  rw [wireValue_pixelValue format blueFirst hlength, decodePixel]
  simp only [if_true, true_and]
  rw [if_neg htest, if_neg (by omega)]
  rfl

theorem readPacked_of_room {format : PixelFormat}
    (hvalid : format.validPixelFormat = true) (blueFirst : Bool) (error : String)
    {data : Bytes} (hroom : format.compactPixelBytes ≤ data.length) :
    (CompactPixelDecoder.new format blueFirst).readPacked error data
      = .ok ((CompactPixelDecoder.new format blueFirst).outputPixel
          ((CompactPixelDecoder.new format blueFirst).wireValue
            (data.take format.compactPixelBytes)),
        data.drop format.compactPixelBytes) := by
  rw [readPacked_new hvalid]
  exact Parser.block_ok.2 ⟨hroom, rfl, rfl⟩

/-- For every format that is accepted and all bytes, the decoder refuses what the
plain one refuses; and where that finds a pixel it finds the same colours, and goes
on behind the bytes of that pixel. -/
theorem readPacked_decodePixel (format : PixelFormat)
    (hvalid : format.validPixelFormat = true) (blueFirst : Bool) (error : String)
    (data : Bytes) :
    ((CompactPixelDecoder.new format blueFirst).readPacked error data = .error error
        ↔ decodePixel format data true = none)
      ∧ ∀ rgba, decodePixel format data true = some rgba →
        ∃ pixel, (CompactPixelDecoder.new format blueFirst).readPacked error data
            = .ok (pixel, data.drop format.compactPixelBytes)
          ∧ writePixel pixel = colourOrder blueFirst rgba := by
  by_cases hroom : format.compactPixelBytes ≤ data.length
  · have hlength : (data.take format.compactPixelBytes).length
        = format.compactPixelBytes := List.length_take_of_le hroom
    rw [readPacked_of_room hvalid blueFirst error hroom,
      decodePixel_compact hvalid blueFirst hroom]
    refine ⟨⟨fun h => (by cases h), fun h => (by cases h)⟩, fun rgba hrgba => ?_⟩
    cases hrgba
    refine ⟨_, rfl, ?_⟩
    rw [CompactPixelDecoder.outputPixel_wireValue hvalid blueFirst hlength,
      writePixel_pack hvalid]
    cases blueFirst
    · rfl
    · rfl
  · have hshort : (Parser.readBytes format.compactPixelBytes error data
        : Except String (Bytes × Bytes)) = .error error := by
      rw [Parser.readBytes, if_pos (Nat.lt_of_not_le hroom)]
    have hnone : decodePixel format data true = none := by
      rw [decodePixel]
      simp only [if_true]
      split
      · rfl
      · exact if_pos (.inr (Nat.lt_of_not_le hroom))
    rw [readPacked_new hvalid, Parser.block, Parser.bind_of_error hshort, hnone]
    exact ⟨⟨fun _ => rfl, fun _ => rfl⟩, fun rgba hrgba => (by cases hrgba)⟩

/-- The common format of two bytes, the high one first. -/
def rgb565 : PixelFormat where
  bitsPerPixel := 16
  depth := 16
  bigEndian := true
  redMax := 31
  greenMax := 63
  blueMax := 31
  redShift := 11
  greenShift := 5

theorem readPacked_red :
    ∃ pixel, (CompactPixelDecoder.new rgb565 false).readPacked "short" [0xF8, 0, 7]
        = .ok (pixel, [7])
      ∧ writePixel pixel = [255, 0, 0, 255] :=
  (readPacked_decodePixel rgb565 (by decide) false "short" [0xF8, 0, 7]).2
    [255, 0, 0, 255] (by decide)

end RemoteDesk.Vnc
