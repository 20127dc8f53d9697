/-
The two passes over a decompressed ZRLE rectangle
(`vnc_rfb_protocol.cpp`).

# Two parsers

`scanZrleTile` finds where a tile ends without decoding it, so that the
tiles of a rectangle can be handed to several decoders;
`decodeZrleTile` produces the pixels. Both are written out by hand, one
case per subencoding, and both are kept that way here. A tile's output
is the list of its bytes in the order `writePixel` stores them.

# Jobs

`buildZrleTileJobs` walks the rectangle in rows of 64 by 64 tiles, the
last ones ragged, and records the byte range `scanZrleTile` found for
each.
-/
import RemoteDesk.Vnc.PixelFormat

namespace RemoteDesk.Vnc

open Lib (Parser)

/-- A parser of ZRLE bytes. -/
abbrev Zrle (α : Type) := Parser UInt8 String α

-- ============================= run lengths

/-- The loop of `readRunLength`: bytes are added up to the first that is
not 255, and none may run past the tile. -/
def readRunLengthFrom (error : String) (remainingPixels : Nat) :
    Bytes → Nat → Except String (Nat × Bytes)
  | [], _ => .error error
  | value :: reader, runLength =>
    if value.toNat > remainingPixels - runLength then .error error
    else if value ≠ 255 then .ok (runLength + value.toNat, reader)
    else readRunLengthFrom error remainingPixels reader
      (runLength + value.toNat)

/-- `readRunLength`, with the caller's error. -/
def readRunLength (error : String) (remainingPixels : Nat) : Zrle Nat :=
  fun reader => readRunLengthFrom error remainingPixels reader 1

/-- A run covers at least one pixel, never more than remain, and sends
no more length bytes than it covers pixels. -/
theorem readRunLengthFrom_bounds {error : String}
    {remainingPixels : Nat} {s r : Bytes} {runLength n : Nat}
    (hle : runLength ≤ remainingPixels)
    (h : readRunLengthFrom error remainingPixels s runLength
      = .ok (n, r)) :
    runLength ≤ n ∧ n ≤ remainingPixels
      ∧ s.length + runLength ≤ r.length + n + 1 := by
  induction s generalizing runLength with
  | nil => cases h
  | cons value s ih =>
    rw [readRunLengthFrom] at h
    by_cases hlong : value.toNat > remainingPixels - runLength
    · rw [if_pos hlong] at h
      cases h
    rw [if_neg hlong] at h
    by_cases hlast : value ≠ 255
    · rw [if_pos hlast] at h
      cases h
      rw [List.length_cons]
      omega
    · rw [if_neg hlast] at h
      have hvalue : value.toNat = 255 := by
        rw [not_ne_iff.mp hlast]
        rfl
      have := ih (by omega) h
      rw [List.length_cons]
      omega

theorem readRunLength_bounds {error : String} {remainingPixels : Nat}
    {s r : Bytes} {n : Nat} (hpos : 1 ≤ remainingPixels)
    (h : readRunLength error remainingPixels s = .ok (n, r)) :
    1 ≤ n ∧ n ≤ remainingPixels ∧ s.length ≤ r.length + n := by
  have := readRunLengthFrom_bounds hpos h
  omega

-- ========================== packed indexes

/-- Bits of one index into a packed palette. -/
def bitsPerIndex (paletteSize : Nat) : Nat :=
  if paletteSize = 2 then 1 else if paletteSize ≤ 4 then 2 else 4

/-- Bytes of one row of packed indexes, padded to a byte. -/
def packedRowBytes (tileWidth paletteSize : Nat) : Nat :=
  (tileWidth * bitsPerIndex paletteSize + 7) / 8

/-- The index at `column` of a row, high bits first. -/
def packedIndex (paletteSize : Nat) (packed : Bytes) (column : Nat) :
    Nat :=
  let bitOffset := column * bitsPerIndex paletteSize
  let shift := 8 - bitsPerIndex paletteSize - bitOffset % 8
  let mask := 2 ^ bitsPerIndex paletteSize - 1
  ((packed.getD (bitOffset / 8) 0).toNat >>> shift) &&& mask

-- ================================ decoding

/-- The bytes of `count` copies of a pixel. -/
def pixelRun (count : Nat) (pixel : UInt32) : Bytes :=
  (List.replicate count pixel).flatMap writePixel

section Decode

variable (decoder : CompactPixelDecoder) (tileWidth tileHeight : Nat)

/-- Subencoding 0. -/
def decodeRaw : Zrle Bytes := do
  let pixels ← Parser.times
    (decoder.readPacked "VNC ZRLE raw tile is truncated")
    (tileWidth * tileHeight)
  pure (pixels.flatMap writePixel)

/-- Subencoding 1. -/
def decodeSolid : Zrle Bytes := do
  let pixel ← decoder.readPacked "VNC ZRLE solid tile is truncated"
  pure (pixelRun (tileWidth * tileHeight) pixel)

/-- The pixel at `column` of a row of packed indexes. -/
def decodePackedPixel (palette : List UInt32) (packed : Bytes)
    (column : Nat) : Except String Bytes :=
  match palette[packedIndex palette.length packed column]? with
  | none => .error "VNC ZRLE packed palette index is out of range"
  | some pixel => .ok (writePixel pixel)

/-- One row of packed indexes. -/
def decodePackedRow (palette : List UInt32) (packed : Bytes) :
    Except String Bytes :=
  ((List.range tileWidth).mapM (decodePackedPixel palette packed)).map
    List.flatten

/-- Subencodings 2 to 16. -/
def decodePackedPalette (paletteSize : Nat) : Zrle Bytes := do
  let palette ← Parser.times
    (decoder.readPacked "VNC ZRLE packed palette is truncated")
    paletteSize
  let rows ← Parser.times
    (Parser.block (packedRowBytes tileWidth paletteSize)
      "VNC ZRLE packed palette indexes are truncated"
      (decodePackedRow tileWidth palette))
    tileHeight
  pure rows.flatten

/-- One run of a plain RLE tile. -/
def decodePlainRun (remainingPixels : Nat) : Zrle (Nat × Bytes) := do
  let pixel ← decoder.readPacked "VNC ZRLE plain RLE pixel is truncated"
  let runLength ← readRunLength "VNC ZRLE plain RLE length is invalid"
    remainingPixels
  pure (runLength, pixelRun runLength pixel)

/-- Subencoding 128. -/
def decodePlainRle : Zrle Bytes := do
  let runs ← Parser.fill (decodePlainRun decoder)
    (tileWidth * tileHeight) (tileWidth * tileHeight)
  pure runs.flatten

/-- The length of a palette run; without the high bit it is a single
pixel and no length is sent. -/
def paletteRunLength (encodedIndex : UInt8) (remainingPixels : Nat) :
    Zrle Nat :=
  if encodedIndex &&& 0x80 ≠ 0 then
    readRunLength "VNC ZRLE palette RLE length is invalid"
      remainingPixels
  else pure 1

/-- One run of a palette RLE tile. -/
def decodePaletteRun (palette : List UInt32) (remainingPixels : Nat) :
    Zrle (Nat × Bytes) := do
  let encodedIndex ← Parser.readOne
    "VNC ZRLE palette RLE index is truncated"
  match palette[(encodedIndex &&& 0x7F).toNat]? with
  | none => Parser.fail "VNC ZRLE palette RLE index is out of range"
  | some pixel => do
      let runLength ← paletteRunLength encodedIndex remainingPixels
      pure (runLength, pixelRun runLength pixel)

/-- Subencodings 130 to 255. -/
def decodePaletteRle (paletteSize : Nat) : Zrle Bytes := do
  let palette ← Parser.times
    (decoder.readPacked "VNC ZRLE palette RLE palette is truncated")
    paletteSize
  let runs ← Parser.fill (decodePaletteRun palette)
    (tileWidth * tileHeight) (tileWidth * tileHeight)
  pure runs.flatten

/-- `decodeZrleTile` after the subencoding byte. -/
def decodeSubencoding (subencoding : UInt8) : Zrle Bytes :=
  if (17 ≤ subencoding ∧ subencoding ≤ 127) ∨ subencoding = 129 then
    Parser.fail
      "VNC ZRLE tile uses an invalid or palette-reuse subencoding"
  else if subencoding = 0 then decodeRaw decoder tileWidth tileHeight
  else if subencoding = 1 then decodeSolid decoder tileWidth tileHeight
  else if 2 ≤ subencoding ∧ subencoding ≤ 16 then
    decodePackedPalette decoder tileWidth tileHeight subencoding.toNat
  else if subencoding = 128 then
    decodePlainRle decoder tileWidth tileHeight
  else if subencoding.toNat - 128 < 2 ∨ 127 < subencoding.toNat - 128 then
    Parser.fail "VNC ZRLE palette RLE size is invalid"
  else
    decodePaletteRle decoder tileWidth tileHeight
      (subencoding.toNat - 128)

/-- `decodeZrleTile`: the bytes of the tile's pixels. -/
def decodeZrleTile : Zrle Bytes := do
  let subencoding ← Parser.readOne
    "VNC ZRLE tile is missing its subencoding"
  decodeSubencoding decoder tileWidth tileHeight subencoding

theorem decodeZrleTile_cons (subencoding : UInt8) (reader : Bytes) :
    decodeZrleTile decoder tileWidth tileHeight (subencoding :: reader)
      = decodeSubencoding decoder tileWidth tileHeight subencoding
        reader := rfl

end Decode

-- ================================ scanning

/-- `ByteReader::skip`. -/
def skip (count : Nat) (error : String) : Zrle Unit := do
  let _ ← Parser.readBytes count error
  pure ()

/-- Skip `count` items of `size` bytes, the product checked first. -/
def skipItems (count size : Nat) (error : String) : Zrle Unit :=
  match checkedMultiply count size with
  | none => Parser.fail error
  | some bytes => skip bytes error

section Scan

variable (compactBytes tileWidth tileHeight : Nat)

def scanRaw : Zrle Unit :=
  skipItems (tileWidth * tileHeight) compactBytes
    "VNC ZRLE raw tile is truncated"

def scanSolid : Zrle Unit :=
  skip compactBytes "VNC ZRLE solid tile is truncated"

def scanPackedPalette (paletteSize : Nat) : Zrle Unit := do
  skipItems paletteSize compactBytes
    "VNC ZRLE packed palette is truncated"
  skipItems (packedRowBytes tileWidth paletteSize) tileHeight
    "VNC ZRLE packed palette indexes are truncated"

def scanPlainRun (remainingPixels : Nat) : Zrle (Nat × Unit) := do
  skip compactBytes "VNC ZRLE plain RLE pixel is truncated"
  let runLength ← readRunLength "VNC ZRLE plain RLE length is invalid"
    remainingPixels
  pure (runLength, ())

def scanPlainRle : Zrle Unit := do
  let _ ← Parser.fill (scanPlainRun compactBytes)
    (tileWidth * tileHeight) (tileWidth * tileHeight)
  pure ()

/-- One run of a palette RLE tile, with the index it uses. -/
def scanPaletteRun (paletteSize remainingPixels : Nat) :
    Zrle (Nat × Nat) := do
  let encodedIndex ← Parser.readOne
    "VNC ZRLE palette RLE index is truncated"
  if (encodedIndex &&& 0x7F).toNat ≥ paletteSize then
    Parser.fail "VNC ZRLE palette RLE index is out of range"
  else do
    let runLength ← paletteRunLength encodedIndex remainingPixels
    pure (runLength, (encodedIndex &&& 0x7F).toNat)

def scanPaletteRle (paletteSize : Nat) : Zrle Unit := do
  skipItems paletteSize compactBytes
    "VNC ZRLE palette RLE palette is truncated"
  let _ ← Parser.fill (scanPaletteRun paletteSize)
    (tileWidth * tileHeight) (tileWidth * tileHeight)
  pure ()

/-- `scanZrleTile` after the subencoding byte. -/
def scanSubencoding (subencoding : UInt8) : Zrle Unit :=
  if (17 ≤ subencoding ∧ subencoding ≤ 127) ∨ subencoding = 129 then
    Parser.fail
      "VNC ZRLE tile uses an invalid or palette-reuse subencoding"
  else if subencoding = 0 then scanRaw compactBytes tileWidth tileHeight
  else if subencoding = 1 then scanSolid compactBytes
  else if 2 ≤ subencoding ∧ subencoding ≤ 16 then
    scanPackedPalette compactBytes tileWidth tileHeight
      subencoding.toNat
  else if subencoding = 128 then
    scanPlainRle compactBytes tileWidth tileHeight
  else if subencoding.toNat - 128 < 2 ∨ 127 < subencoding.toNat - 128 then
    Parser.fail "VNC ZRLE palette RLE size is invalid"
  else
    scanPaletteRle compactBytes tileWidth tileHeight
      (subencoding.toNat - 128)

/-- `scanZrleTile`: consumes a tile without decoding it. -/
def scanZrleTile : Zrle Unit := do
  let subencoding ← Parser.readOne
    "VNC ZRLE tile is missing its subencoding"
  scanSubencoding compactBytes tileWidth tileHeight subencoding

theorem scanZrleTile_cons (subencoding : UInt8) (reader : Bytes) :
    scanZrleTile compactBytes tileWidth tileHeight (subencoding :: reader)
      = scanSubencoding compactBytes tileWidth tileHeight subencoding
        reader := rfl

end Scan

-- ==================================== jobs

/-- Where a tile lies in its rectangle. -/
structure TileRect where
  x : Nat
  y : Nat
  width : Nat
  height : Nat
deriving DecidableEq, Repr

/-- `ZrleTileJob`: a tile and the byte range it was scanned in. -/
structure ZrleTileJob where
  rect : TileRect
  offset : Nat
  size : Nat
deriving DecidableEq, Repr

/-- `for (start = 0; start < length; start += 64)`. -/
def tileStarts (length : Nat) : List Nat :=
  (List.range ((length + 63) / 64)).map (64 * ·)

/-- The tiles of a rectangle, row by row; the last ones are ragged. -/
def tileRects (width height : Nat) : List TileRect :=
  (tileStarts height).flatMap fun tileY =>
    (tileStarts width).map fun tileX =>
      ⟨tileX, tileY, min 64 (width - tileX), min 64 (height - tileY)⟩

/-- The nested loops of `buildZrleTileJobs`: `size` bytes were there at
the start, so the reader's position is what it has used up of them. -/
def scanTiles (compactBytes size : Nat) :
    List TileRect → Zrle (List ZrleTileJob)
  | [] => pure []
  | rect :: rects => do
      let start := fun reader : Bytes => size - reader.length
      let before ← get
      scanZrleTile compactBytes rect.width rect.height
      let after ← get
      let jobs ← scanTiles compactBytes size rects
      pure (⟨rect, start before, start after - start before⟩ :: jobs)

/-- `buildZrleTileJobs`; `reserved` says whether the job vector could be
allocated. -/
def buildZrleTileJobs (reserved : Bool) (width height compactBytes : Nat)
    (data : Bytes) : Except String (List ZrleTileJob) :=
  match checkedMultiply ((width + 63) / 64) ((height + 63) / 64) with
  | none => .error "VNC ZRLE tile count overflows"
  | some _ =>
    if !reserved then .error "VNC ZRLE tile index allocation failed"
    else match scanTiles compactBytes data.length
        (tileRects width height) data with
      | .error error => .error error
      | .ok (jobs, reader) =>
        if reader.length ≠ 0 then .error
          "VNC ZRLE rectangle has trailing decompressed data"
        else .ok jobs

end RemoteDesk.Vnc
