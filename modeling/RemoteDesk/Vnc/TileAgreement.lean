/-
The scanning pass and the decoding pass agree byte for byte.

# One tile

Every subencoding but the packed palette is a lockstep pair: both
passes read the same bytes and fail with the same error. In a packed
tile the decoder also looks each index up, so it succeeds where the
scanner does and every index met is below the palette size
(`consumes_decode_iff`).

# A rectangle

The scanner is local, so what it found in the whole stream it finds in
the byte range of a job alone; hence a tile decoder given that range
reads it to the end (`jobs_decode`).
-/
import RemoteDesk.Vnc.Zrle

namespace RemoteDesk.Vnc

open Lib (Parser)
open Lib.Parser (Lockstep Local Leaves Consumes blockAt)

variable {format : PixelFormat} {blueFirst : Bool}

-- ============================ single reads

/-- `readPacked` of a supported format reads one block. -/
theorem readPacked_new (hvalid : format.validPixelFormat = true)
    (error : String) :
    (CompactPixelDecoder.new format blueFirst).readPacked error
      = Parser.block format.compactPixelBytes error fun source =>
          .ok ((CompactPixelDecoder.new format blueFirst).outputPixel
            ((CompactPixelDecoder.new format blueFirst).wireValue
              source)) := by
  have hpos := (PixelFormat.compactPixelBytes_bounds format hvalid).1
  have hne : (CompactPixelDecoder.new format blueFirst).bytes ≠ 0 := by
    show format.compactPixelBytes ≠ 0
    omega
  unfold CompactPixelDecoder.readPacked
  rw [if_neg hne]
  rfl

variable {count tileWidth tileHeight compactBytes : Nat} {packed data : Bytes}
variable {palette : List UInt32} {error : String} {subencoding : UInt8}
variable {rect : TileRect}

theorem skipItems_eq {size : Nat} (error : String)
    (h : count * size < sizeLimit) :
    skipItems count size error = skip (count * size) error := by
  unfold skipItems
  rw [checkedMultiply_of_lt h]

/-- Reading pixels one by one, against skipping over all of them. -/
private theorem lockstep_pixels (hvalid : format.validPixelFormat = true)
    (hcount : count ≤ 4096) (error : String) :
    Lockstep (fun pixels _ => pixels.length = count)
      (Parser.times ((CompactPixelDecoder.new format blueFirst).readPacked
        error) count)
      (skipItems count format.compactPixelBytes error) := by
  have hle := (PixelFormat.compactPixelBytes_bounds format hvalid).2
  have hfits : count * format.compactPixelBytes < sizeLimit :=
    calc count * format.compactPixelBytes
        ≤ 4096 * 4 := Nat.mul_le_mul hcount hle
      _ < sizeLimit := by decide
  rw [readPacked_new hvalid, skipItems_eq error hfits]
  exact (Lockstep.times_readBytes _ _ count _).map_right fun _ => ()

private theorem lockstep_pixel (hvalid : format.validPixelFormat = true)
    (error : String) :
    Lockstep (fun _ _ => True)
      ((CompactPixelDecoder.new format blueFirst).readPacked error)
      (skip format.compactPixelBytes error) := by
  rw [readPacked_new hvalid]
  exact (Lockstep.refl (Parser.readBytes format.compactPixelBytes
    error)).map _ fun _ => ()

-- ============================ subencodings

section Subencodings

variable (hvalid : format.validPixelFormat = true)
include hvalid

private theorem lockstep_raw (hcount : tileWidth * tileHeight ≤ 4096) :
    Lockstep (fun _ _ => True)
      (decodeRaw (.new format blueFirst) tileWidth tileHeight)
      (scanRaw format.compactPixelBytes tileWidth tileHeight) :=
  (lockstep_pixels hvalid hcount _).map_left _

private theorem lockstep_solid :
    Lockstep (fun _ _ => True)
      (decodeSolid (.new format blueFirst) tileWidth tileHeight)
      (scanSolid format.compactPixelBytes) :=
  (lockstep_pixel hvalid _).map_left _

private theorem lockstep_plainRun (remainingPixels : Nat) :
    Lockstep (fun x y => x.1 = y.1 ∧ True)
      (decodePlainRun (.new format blueFirst) remainingPixels)
      (scanPlainRun format.compactPixelBytes remainingPixels) := by
  refine (lockstep_pixel hvalid _).bind fun pixel _ _ => ?_
  refine (Lockstep.refl _).bind fun runLength runLength' h => ?_
  exact Lockstep.pure ⟨h, trivial⟩

private theorem lockstep_plainRle :
    Lockstep (fun _ _ => True)
      (decodePlainRle (.new format blueFirst) tileWidth tileHeight)
      (scanPlainRle format.compactPixelBytes tileWidth tileHeight) :=
  (Lockstep.fill (R := fun _ _ => True) (lockstep_plainRun hvalid)
    _ _).map _ _

omit hvalid in
private theorem lockstep_paletteRun (palette : List UInt32)
    (remainingPixels : Nat) :
    Lockstep (fun x y => x.1 = y.1 ∧ True)
      (decodePaletteRun palette remainingPixels)
      (scanPaletteRun palette.length remainingPixels) := by
  refine (Lockstep.refl _).bind ?_
  rintro encodedIndex _ rfl
  by_cases hin : (encodedIndex &&& 0x7F).toNat < palette.length
  · rw [List.getElem?_eq_getElem hin, if_neg (by omega)]
    refine (Lockstep.refl _).bind fun runLength runLength' h => ?_
    exact Lockstep.pure ⟨h, trivial⟩
  · rw [List.getElem?_eq_none (by omega), if_pos (by omega)]
    exact Lockstep.fail _

private theorem lockstep_paletteRle {paletteSize : Nat}
    (hsize : paletteSize ≤ 127) :
    Lockstep (fun _ _ => True)
      (decodePaletteRle (.new format blueFirst) tileWidth tileHeight
        paletteSize)
      (scanPaletteRle format.compactPixelBytes tileWidth tileHeight
        paletteSize) := by
  refine (lockstep_pixels hvalid (by omega) _).bind
    fun palette _ hpalette => ?_
  rw [← hpalette]
  exact (Lockstep.fill (R := fun _ _ => True)
    (lockstep_paletteRun palette) _ _).map _ _

end Subencodings

-- ========================= palette indexes

/-- The indexes a packed tile carries after its palette. -/
def packedIndices (tileWidth tileHeight paletteSize : Nat)
    (body : Bytes) : List Nat :=
  (List.range tileHeight).flatMap fun row =>
    (List.range tileWidth).map (packedIndex paletteSize
      (blockAt body (packedRowBytes tileWidth paletteSize) row))

/-- The indexes the runs of a palette RLE tile carry. -/
def runIndices (tileWidth tileHeight paletteSize : Nat) (body : Bytes) :
    List Nat :=
  match Parser.fill (scanPaletteRun paletteSize)
      (tileWidth * tileHeight) (tileWidth * tileHeight) body with
  | .error _ => []
  | .ok (indices, _) => indices

/-- Every palette index met in the tile is below the palette size. -/
def IndicesInPalette (compactBytes tileWidth tileHeight : Nat) :
    Bytes → Prop
  | [] => True
  | subencoding :: reader =>
    if 2 ≤ subencoding ∧ subencoding ≤ 16 then
      ∀ index ∈ packedIndices tileWidth tileHeight subencoding.toNat
        (reader.drop (subencoding.toNat * compactBytes)),
        index < subencoding.toNat
    else if 130 ≤ subencoding then
      ∀ index ∈ runIndices tileWidth tileHeight
        (subencoding.toNat - 128) (reader.drop
          ((subencoding.toNat - 128) * compactBytes)),
        index < subencoding.toNat - 128
    else True

private theorem decodePackedPixel_isOk {column : Nat} :
    (∃ b, decodePackedPixel palette packed column = .ok b)
      ↔ packedIndex palette.length packed column < palette.length := by
  unfold decodePackedPixel
  by_cases hin :
      packedIndex palette.length packed column < palette.length
  · rw [List.getElem?_eq_getElem hin]
    exact ⟨fun _ => hin, fun _ => ⟨_, rfl⟩⟩
  · rw [List.getElem?_eq_none (by omega)]
    exact ⟨fun ⟨_, h⟩ => (nomatch h), fun h => absurd h hin⟩

/-- A row is accepted when its indexes are below the palette size. -/
theorem decodePackedRow_isOk :
    (∃ row, decodePackedRow tileWidth palette packed = .ok row)
      ↔ ∀ column < tileWidth,
        packedIndex palette.length packed column < palette.length := by
  have hmap : (∃ row, decodePackedRow tileWidth palette packed = .ok row)
      ↔ ∃ bs, (List.range tileWidth).mapM
        (decodePackedPixel palette packed) = .ok bs := by
    unfold decodePackedRow
    cases (List.range tileWidth).mapM (decodePackedPixel palette packed)
      with
    | error e => exact ⟨fun ⟨_, h⟩ => (nomatch h), fun ⟨_, h⟩ => (nomatch h)⟩
    | ok bs => exact ⟨fun _ => ⟨bs, rfl⟩, fun _ => ⟨bs.flatten, rfl⟩⟩
  rw [hmap, Lib.mapM_isOk]
  refine forall_congr' fun column => ?_
  rw [List.mem_range, decodePackedPixel_isOk]

/-- A rejected row was rejected for an index out of range. -/
theorem decodePackedRow_error {e : String}
    (h : decodePackedRow tileWidth palette packed = .error e) :
    e = "VNC ZRLE packed palette index is out of range" := by
  unfold decodePackedRow at h
  cases hm : (List.range tileWidth).mapM (decodePackedPixel palette packed)
    with
  | ok bs => rw [hm] at h; cases h
  | error e' =>
    rw [hm] at h
    cases h
    obtain ⟨column, -, hc⟩ := Lib.mapM_error hm
    unfold decodePackedPixel at hc
    split at hc
    · cases hc; rfl
    · cases hc

theorem skip_leaves {s r : Bytes} :
    Leaves (skip count error) s r
      ↔ count ≤ s.length ∧ r = s.drop count := by
  unfold skip
  constructor
  · rintro ⟨_, h⟩
    obtain ⟨b, m, hb, h⟩ := Parser.bind_ok.mp h
    cases h
    obtain ⟨hn, -, hr⟩ := Parser.readBytes_ok.mp hb
    exact ⟨hn, hr⟩
  · rintro ⟨hn, rfl⟩
    exact ⟨(), Parser.bind_ok.mpr
      ⟨_, _, Parser.readBytes_ok.mpr ⟨hn, rfl, rfl⟩, rfl⟩⟩

/-- Reading a palette succeeds where there is room for it. -/
private theorem palette_ok (hvalid : format.validPixelFormat = true)
    {s m : Bytes} :
    (∃ palette, Parser.times ((CompactPixelDecoder.new format
        blueFirst).readPacked error) count s = .ok (palette, m))
      ↔ count * format.compactPixelBytes ≤ s.length
        ∧ m = s.drop (count * format.compactPixelBytes) := by
  rw [readPacked_new hvalid]
  constructor
  · rintro ⟨palette, h⟩
    obtain ⟨hlen, hm, -⟩ := Parser.times_block_ok.mp h
    exact ⟨hlen, hm⟩
  · rintro ⟨hlen, hm⟩
    exact ⟨_, Parser.times_block_ok.mpr
      ⟨hlen, hm, (List.map_map ..).symm⟩⟩

private theorem length_palette (hvalid : format.validPixelFormat = true)
    {s m : Bytes} (h : Parser.times ((CompactPixelDecoder.new format
      blueFirst).readPacked error) count s = .ok (palette, m)) :
    palette.length = count := by
  rw [readPacked_new hvalid] at h
  obtain ⟨-, -, hmap⟩ := Parser.times_block_ok.mp h
  have := congrArg List.length hmap
  rwa [List.length_map, List.length_map, List.length_range, eq_comm]
    at this

/-- Decoded rows: enough bytes, and every index in the palette. -/
private theorem rows_ok {m r : Bytes} :
    (∃ rows, Parser.times (Parser.block
        (packedRowBytes tileWidth palette.length) error
        (decodePackedRow tileWidth palette)) tileHeight m
        = .ok (rows, r))
      ↔ (tileHeight * packedRowBytes tileWidth palette.length ≤ m.length
        ∧ r = m.drop
          (tileHeight * packedRowBytes tileWidth palette.length))
      ∧ ∀ index ∈ packedIndices tileWidth tileHeight palette.length m,
        index < palette.length := by
  have hrows : (∀ index ∈ packedIndices tileWidth tileHeight
        palette.length m, index < palette.length)
      ↔ ∃ rows, (List.range tileHeight).mapM (fun row =>
        decodePackedRow tileWidth palette
          (blockAt m (packedRowBytes tileWidth palette.length) row))
        = .ok rows := by
    rw [Lib.mapM_isOk]
    simp only [decodePackedRow_isOk, packedIndices, List.mem_flatMap,
      List.mem_map, List.mem_range]
    constructor
    · intro h row hrow column hcolumn
      exact h _ ⟨row, hrow, column, hcolumn, rfl⟩
    · rintro h _ ⟨row, hrow, column, hcolumn, rfl⟩
      exact h row hrow column hcolumn
  rw [hrows]
  constructor
  · rintro ⟨rows, h⟩
    obtain ⟨hlen, hr, hmap⟩ := Parser.times_block_ok.mp h
    exact ⟨⟨hlen, hr⟩, rows, Lib.mapM_ok.mpr hmap⟩
  · rintro ⟨⟨hlen, hr⟩, rows, hmap⟩
    exact ⟨rows, Parser.times_block_ok.mpr
      ⟨hlen, hr, Lib.mapM_ok.mp hmap⟩⟩

theorem packedRowBytes_le (paletteSize : Nat) (hwidth : 1 ≤ tileWidth) :
    packedRowBytes tileWidth paletteSize ≤ tileWidth := by
  unfold packedRowBytes bitsPerIndex
  split
  · omega
  · split <;> omega

/-- What the scanner consumes of a packed tile. -/
private theorem scanPackedPalette_leaves
    (hvalid : format.validPixelFormat = true) {paletteSize : Nat}
    (hwidth : 1 ≤ tileWidth) (hcount : tileWidth * tileHeight ≤ 4096)
    (hsize : paletteSize ≤ 16) {reader r : Bytes} :
    Leaves (scanPackedPalette format.compactPixelBytes tileWidth
        tileHeight paletteSize) reader r
      ↔ paletteSize * format.compactPixelBytes ≤ reader.length
        ∧ tileHeight * packedRowBytes tileWidth paletteSize
          ≤ (reader.drop
            (paletteSize * format.compactPixelBytes)).length
        ∧ r = (reader.drop (paletteSize * format.compactPixelBytes)).drop
          (tileHeight * packedRowBytes tileWidth paletteSize) := by
  have hbytes := (PixelFormat.compactPixelBytes_bounds format hvalid).2
  have hpalette : paletteSize * format.compactPixelBytes < sizeLimit :=
    calc paletteSize * format.compactPixelBytes
        ≤ 16 * 4 := Nat.mul_le_mul hsize hbytes
      _ < sizeLimit := by decide
  have hrows : packedRowBytes tileWidth paletteSize * tileHeight
      < sizeLimit :=
    calc packedRowBytes tileWidth paletteSize * tileHeight
        ≤ tileWidth * tileHeight :=
          Nat.mul_le_mul_right _ (packedRowBytes_le _ hwidth)
      _ ≤ 4096 := hcount
      _ < sizeLimit := by decide
  unfold scanPackedPalette
  rw [skipItems_eq _ hpalette, skipItems_eq _ hrows,
    Nat.mul_comm tileHeight]
  constructor
  · rintro ⟨u, h⟩
    obtain ⟨_, m, hm, h⟩ := Parser.bind_ok.mp h
    obtain ⟨hlen, rfl⟩ := skip_leaves.mp ⟨_, hm⟩
    exact ⟨hlen, skip_leaves.mp ⟨u, h⟩⟩
  · rintro ⟨hlen, hrest⟩
    obtain ⟨u, h⟩ := skip_leaves.mpr hrest
    obtain ⟨u', hskip⟩ := skip_leaves.mpr ⟨hlen, rfl⟩
    exact ⟨u, Parser.bind_ok.mpr ⟨u', _, hskip, h⟩⟩

/-- A packed tile: the scanner's bytes, and every index in range. -/
private theorem packedPalette_leaves
    (hvalid : format.validPixelFormat = true)
    {tileWidth tileHeight paletteSize : Nat} (hwidth : 1 ≤ tileWidth)
    (hcount : tileWidth * tileHeight ≤ 4096) (hsize : paletteSize ≤ 16)
    {reader r : Bytes} :
    Leaves (decodePackedPalette (.new format blueFirst) tileWidth
        tileHeight paletteSize) reader r
      ↔ Leaves (scanPackedPalette format.compactPixelBytes tileWidth
          tileHeight paletteSize) reader r
        ∧ ∀ index ∈ packedIndices tileWidth tileHeight paletteSize
            (reader.drop (paletteSize * format.compactPixelBytes)),
            index < paletteSize := by
  rw [scanPackedPalette_leaves hvalid hwidth hcount hsize, and_assoc]
  unfold decodePackedPalette
  constructor
  · rintro ⟨tile, h⟩
    obtain ⟨palette, m, hpal, h⟩ := Parser.bind_ok.mp h
    obtain ⟨rows, m', hrow, h⟩ := Parser.bind_ok.mp h
    cases h
    obtain ⟨hlen, rfl⟩ := (palette_ok hvalid).mp ⟨palette, hpal⟩
    obtain rfl := length_palette hvalid hpal
    obtain ⟨hleft, hindex⟩ := rows_ok.mp ⟨rows, hrow⟩
    exact ⟨hlen, hleft, hindex⟩
  · rintro ⟨hlen, hleft, hindex⟩
    obtain ⟨palette, hpal⟩ := (palette_ok hvalid).mpr ⟨hlen, rfl⟩
    obtain rfl := length_palette hvalid hpal
    obtain ⟨rows, hrow⟩ := rows_ok.mpr ⟨hleft, hindex⟩
    exact ⟨rows.flatten, Parser.bind_ok.mpr ⟨palette, _, hpal,
      Parser.bind_ok.mpr ⟨rows, r, hrow, rfl⟩⟩⟩

-- ================================ one tile

/-- The sizes a tile of a rectangle has. -/
structure TileSize (tileWidth tileHeight : Nat) : Prop where
  width_pos : 1 ≤ tileWidth
  width_le : tileWidth ≤ 64
  height_pos : 1 ≤ tileHeight
  height_le : tileHeight ≤ 64

theorem TileSize.count_le (h : TileSize tileWidth tileHeight) :
    tileWidth * tileHeight ≤ 4096 :=
  Nat.mul_le_mul h.width_le h.height_le

/-- Run indexes were checked by the scan that found them. -/
private theorem runIndices_lt (tileWidth tileHeight paletteSize : Nat)
    (body : Bytes) :
    ∀ index ∈ runIndices tileWidth tileHeight paletteSize body,
      index < paletteSize := by
  unfold runIndices
  cases h : Parser.fill (scanPaletteRun paletteSize)
      (tileWidth * tileHeight) (tileWidth * tileHeight) body with
  | error e => exact fun index hi => nomatch hi
  | ok x =>
    refine Parser.fill_forall (P := (· < paletteSize)) ?_ h
    intro k s n index r hitem
    obtain ⟨encodedIndex, m, -, hitem⟩ := Parser.bind_ok.mp hitem
    by_cases hout : (encodedIndex &&& 0x7F).toNat ≥ paletteSize
    · rw [if_pos hout] at hitem
      cases hitem
    · rw [if_neg hout] at hitem
      obtain ⟨runLength, m', -, hitem⟩ := Parser.bind_ok.mp hitem
      cases hitem
      exact Nat.lt_of_not_le hout

/-- The subencodings of a packed palette. -/
abbrev IsPacked (subencoding : UInt8) : Prop :=
  2 ≤ subencoding ∧ subencoding ≤ 16

/-- Outside the packed palettes the two passes are in lockstep. -/
private theorem lockstep_subencoding (hvalid : format.validPixelFormat = true)
    (hsize : TileSize tileWidth tileHeight) (hpacked : ¬ IsPacked subencoding) :
    Lockstep (fun _ _ => True)
      (decodeSubencoding (.new format blueFirst) tileWidth tileHeight
        subencoding)
      (scanSubencoding format.compactPixelBytes tileWidth tileHeight
        subencoding) := by
  unfold decodeSubencoding scanSubencoding
  by_cases hinvalid : (17 ≤ subencoding ∧ subencoding ≤ 127)
      ∨ subencoding = 129
  · rw [if_pos hinvalid, if_pos hinvalid]
    exact Lockstep.fail _
  rw [if_neg hinvalid, if_neg hinvalid]
  by_cases hraw : subencoding = 0
  · rw [if_pos hraw, if_pos hraw]
    exact lockstep_raw hvalid hsize.count_le
  rw [if_neg hraw, if_neg hraw]
  by_cases hsolid : subencoding = 1
  · rw [if_pos hsolid, if_pos hsolid]
    exact lockstep_solid hvalid
  rw [if_neg hsolid, if_neg hsolid, if_neg hpacked, if_neg hpacked]
  by_cases hplain : subencoding = 128
  · rw [if_pos hplain, if_pos hplain]
    exact lockstep_plainRle hvalid
  rw [if_neg hplain, if_neg hplain]
  by_cases hrange : subencoding.toNat - 128 < 2
      ∨ 127 < subencoding.toNat - 128
  · rw [if_pos hrange, if_pos hrange]
    exact Lockstep.fail _
  · rw [if_neg hrange, if_neg hrange]
    exact lockstep_paletteRle hvalid (by omega)

/-- A packed subencoding reaches its own branch. -/
private theorem not_before_packed (hpacked : IsPacked subencoding) :
    ¬ ((17 ≤ subencoding ∧ subencoding ≤ 127) ∨ subencoding = 129)
      ∧ subencoding ≠ 0 ∧ subencoding ≠ 1 := by
  obtain ⟨hlow, hhigh⟩ := hpacked
  rw [UInt8.le_iff_toNat_le] at hlow hhigh
  have hlow : 2 ≤ subencoding.toNat := hlow
  have hhigh : subencoding.toNat ≤ 16 := hhigh
  refine ⟨?_, ?_, ?_⟩
  · rintro (⟨h, -⟩ | h)
    · have h : 17 ≤ subencoding.toNat := UInt8.le_iff_toNat_le.mp h
      omega
    · subst h
      exact absurd hhigh (by decide)
  · rintro rfl
    exact absurd hlow (by decide)
  · rintro rfl
    exact absurd hlow (by decide)

private theorem decodeSubencoding_packed (decoder : CompactPixelDecoder)
    (tileWidth tileHeight : Nat) (hpacked : IsPacked subencoding) :
    decodeSubencoding decoder tileWidth tileHeight subencoding
      = decodePackedPalette decoder tileWidth tileHeight
        subencoding.toNat := by
  obtain ⟨hinvalid, hraw, hsolid⟩ := not_before_packed hpacked
  unfold decodeSubencoding
  rw [if_neg hinvalid, if_neg hraw, if_neg hsolid, if_pos hpacked]

private theorem scanSubencoding_packed (compactBytes tileWidth tileHeight : Nat)
    (hpacked : IsPacked subencoding) :
    scanSubencoding compactBytes tileWidth tileHeight subencoding
      = scanPackedPalette compactBytes tileWidth tileHeight
        subencoding.toNat := by
  obtain ⟨hinvalid, hraw, hsolid⟩ := not_before_packed hpacked
  unfold scanSubencoding
  rw [if_neg hinvalid, if_neg hraw, if_neg hsolid, if_pos hpacked]

/-- The two passes over one tile. -/
theorem decodeZrleTile_leaves (hvalid : format.validPixelFormat = true)
    (hsize : TileSize tileWidth tileHeight) {bytes r : Bytes} :
    Leaves (decodeZrleTile (.new format blueFirst) tileWidth tileHeight)
        bytes r
      ↔ Leaves (scanZrleTile format.compactPixelBytes tileWidth
          tileHeight) bytes r
        ∧ IndicesInPalette format.compactPixelBytes tileWidth tileHeight
          bytes := by
  cases bytes with
  | nil => exact ⟨fun ⟨_, h⟩ => (nomatch h), fun ⟨⟨_, h⟩, _⟩ => (nomatch h)⟩
  | cons subencoding reader =>
    unfold Leaves
    rw [decodeZrleTile_cons, scanZrleTile_cons, IndicesInPalette]
    show Leaves _ reader r ↔ Leaves _ reader r ∧ _
    by_cases hpacked : IsPacked subencoding
    · rw [decodeSubencoding_packed _ _ _ hpacked,
        scanSubencoding_packed _ _ _ hpacked, if_pos hpacked]
      exact packedPalette_leaves hvalid hsize.width_pos hsize.count_le
        (UInt8.le_iff_toNat_le.mp hpacked.2)
    · rw [if_neg hpacked,
        (lockstep_subencoding hvalid hsize hpacked).leaves_iff]
      refine (and_iff_left ?_).symm
      split
      · exact runIndices_lt _ _ _ _
      · trivial

/-- Decoding consumes `n` bytes exactly when scanning does and every
palette index met is below the palette size. -/
theorem consumes_decode_iff (hvalid : format.validPixelFormat = true)
    (hsize : TileSize tileWidth tileHeight) (bytes : Bytes) (n : Nat) :
    Consumes (decodeZrleTile (.new format blueFirst) tileWidth
        tileHeight) bytes n
      ↔ Consumes (scanZrleTile format.compactPixelBytes tileWidth
          tileHeight) bytes n
        ∧ IndicesInPalette format.compactPixelBytes tileWidth tileHeight
          bytes := by
  unfold Consumes
  rw [decodeZrleTile_leaves hvalid hsize, and_assoc]

-- ================================ locality

theorem local_readRunLength (error : String)
    (remainingPixels : Nat) :
    Local (readRunLength error remainingPixels) := by
  suffices h : ∀ (s : Bytes) (runLength n : Nat) (r : Bytes),
      readRunLengthFrom error remainingPixels s runLength = .ok (n, r) →
      ∃ pre, s = pre ++ r ∧ ∀ r', readRunLengthFrom error
        remainingPixels (pre ++ r') runLength = .ok (n, r') from
    fun s n r => h s 1 n r
  intro s
  induction s with
  | nil => exact fun _ _ _ h => nomatch h
  | cons value s ih =>
    intro runLength n r h
    rw [readRunLengthFrom] at h
    by_cases hlong : value.toNat > remainingPixels - runLength
    · rw [if_pos hlong] at h
      cases h
    rw [if_neg hlong] at h
    by_cases hlast : value ≠ 255
    · rw [if_pos hlast] at h
      cases h
      refine ⟨[value], rfl, fun r' => ?_⟩
      rw [List.singleton_append, readRunLengthFrom, if_neg hlong,
        if_pos hlast]
    · rw [if_neg hlast] at h
      obtain ⟨pre, rfl, hpre⟩ := ih _ n r h
      refine ⟨value :: pre, rfl, fun r' => ?_⟩
      rw [List.cons_append, readRunLengthFrom, if_neg hlong,
        if_neg hlast, hpre r']

private theorem local_skip (count : Nat) (error : String) :
    Local (skip count error) :=
  (Local.readBytes count error).bind fun _ => Local.pure ()

private theorem local_skipItems (count size : Nat) (error : String) :
    Local (skipItems count size error) := by
  unfold skipItems
  cases checkedMultiply count size with
  | none => exact Local.fail error
  | some bytes => exact local_skip bytes error

private theorem local_scanPlainRun (compactBytes remaining : Nat) :
    Local (scanPlainRun compactBytes remaining) :=
  (local_skip _ _).bind fun _ =>
    (local_readRunLength _ _).bind fun _ => Local.pure _

theorem local_paletteRunLength (encodedIndex : UInt8)
    (remaining : Nat) :
    Local (paletteRunLength encodedIndex remaining) := by
  unfold paletteRunLength
  split
  · exact local_readRunLength _ _
  · exact Local.pure _

private theorem local_scanPaletteRun (paletteSize remaining : Nat) :
    Local (scanPaletteRun paletteSize remaining) := by
  refine (Local.readOne _).bind fun encodedIndex => ?_
  by_cases hout : (encodedIndex &&& 0x7F).toNat ≥ paletteSize
  · rw [if_pos hout]
    exact Local.fail _
  rw [if_neg hout]
  exact (local_paletteRunLength _ _).bind fun _ => Local.pure _

/-- The scanner reads a tile without looking past it. -/
theorem local_scanZrleTile (compactBytes tileWidth tileHeight : Nat) :
    Local (scanZrleTile compactBytes tileWidth tileHeight) := by
  refine (Local.readOne _).bind fun subencoding => ?_
  unfold scanSubencoding
  split
  · exact Local.fail _
  split
  · exact local_skipItems _ _ _
  split
  · exact local_skip _ _
  split
  · exact (local_skipItems _ _ _).bind fun _ => local_skipItems _ _ _
  split
  · exact (Local.fill (local_scanPlainRun _) _ _).bind fun _ =>
      Local.pure ()
  split
  · exact Local.fail _
  · exact (local_skipItems _ _ _).bind fun _ =>
      (Local.fill (local_scanPaletteRun _) _ _).bind fun _ =>
        Local.pure ()

-- ============================== rectangles

theorem mem_tileStarts {length start : Nat} :
    start ∈ tileStarts length
      ↔ start < length ∧ start % 64 = 0 := by
  unfold tileStarts
  rw [List.mem_map]
  constructor
  · rintro ⟨i, hi, rfl⟩
    rw [List.mem_range] at hi
    omega
  · rintro ⟨hlt, hmod⟩
    exact ⟨start / 64, List.mem_range.mpr (by omega), by omega⟩

theorem mem_tileRects {width height : Nat} :
    rect ∈ tileRects width height
      ↔ rect.x ∈ tileStarts width ∧ rect.y ∈ tileStarts height
        ∧ rect.width = min 64 (width - rect.x)
        ∧ rect.height = min 64 (height - rect.y) := by
  unfold tileRects
  simp only [List.mem_flatMap, List.mem_map]
  constructor
  · rintro ⟨y, hy, x, hx, rfl⟩
    exact ⟨hx, hy, rfl, rfl⟩
  · obtain ⟨x, y, w, h⟩ := rect
    rintro ⟨hx, hy, hw, hh⟩
    exact ⟨y, hy, x, hx, by simp only at hw hh; rw [hw, hh]⟩

/-- The tiles of a rectangle are 1 to 64 pixels wide and high. -/
theorem tileSize_of_mem {width height : Nat}
    (h : rect ∈ tileRects width height) : TileSize rect.width rect.height := by
  obtain ⟨hx, hy, hw, hh⟩ := mem_tileRects.mp h
  have hx := (mem_tileStarts.mp hx).1
  have hy := (mem_tileStarts.mp hy).1
  constructor <;> omega

/-- The bytes a job covers. -/
def ZrleTileJob.range (job : ZrleTileJob) (data : Bytes) : Bytes :=
  (data.drop job.offset).take job.size

/-- A job of an accepted rectangle: its range is inside the data and is
exactly what the scanner consumes there. -/
structure ZrleTileJob.Scanned (job : ZrleTileJob) (compactBytes : Nat)
    (data : Bytes) : Prop where
  inside : job.offset + job.size ≤ data.length
  scan : scanZrleTile compactBytes job.rect.width job.rect.height
    (job.range data) = .ok ((), [])

/-- One step of the tile walk: the scanner moves from `k` to `k'`. -/
theorem scanTiles_cons {rects : List TileRect} {k : Nat}
    {jobs : List ZrleTileJob} {r : Bytes} (hk : k ≤ data.length)
    (h : scanTiles compactBytes data.length (rect :: rects) (data.drop k)
      = .ok (jobs, r)) :
    ∃ k' rest, k ≤ k' ∧ k' ≤ data.length
      ∧ scanZrleTile compactBytes rect.width rect.height (data.drop k)
        = .ok ((), data.drop k')
      ∧ scanTiles compactBytes data.length rects (data.drop k')
        = .ok (rest, r)
      ∧ jobs = ⟨rect, k, k' - k⟩ :: rest := by
  have hbefore : (get : Zrle Bytes) (data.drop k)
      = .ok (data.drop k, data.drop k) := rfl
  rw [scanTiles, Parser.bind_of_ok hbefore] at h
  obtain ⟨u, m, hscan, h⟩ := Parser.bind_ok.mp h
  have hafter : (get : Zrle Bytes) m = .ok (m, m) := rfl
  rw [Parser.bind_of_ok hafter] at h
  obtain ⟨rest, m', hrest, h⟩ := Parser.bind_ok.mp h
  cases h
  obtain ⟨pre, hpre, -⟩ :=
    local_scanZrleTile compactBytes rect.width rect.height _ _ _ hscan
  have hlen := congrArg List.length hpre
  rw [List.length_drop, List.length_append] at hlen
  have hm : m = data.drop (k + pre.length) := by
    rw [← List.drop_drop, hpre, List.drop_left]
  have hstart : data.length - (data.drop k).length = k := by
    rw [List.length_drop]; omega
  have hstop : data.length - m.length = k + pre.length := by omega
  refine ⟨k + pre.length, rest, by omega, by omega, hm ▸ hscan,
    hm ▸ hrest, ?_⟩
  dsimp only
  rw [hstart, hstop]

/-- The bytes between two positions, as a range. -/
theorem take_drop_length {k k' : Nat} (hle : k ≤ k') (hk' : k' ≤ data.length) :
    (data.drop k).take ((data.drop k).length - (data.drop k').length)
      = (data.drop k).take (k' - k) := by
  rw [List.length_drop, List.length_drop]
  congr 1
  omega

/-- The jobs follow the tiles, and each is a scanned range. -/
theorem scanTiles_scanned :
    ∀ {rects : List TileRect} {k : Nat} {jobs : List ZrleTileJob}
      {r : Bytes}, k ≤ data.length →
      scanTiles compactBytes data.length rects (data.drop k)
        = .ok (jobs, r) →
      jobs.map (·.rect) = rects
        ∧ ∀ job ∈ jobs, job.Scanned compactBytes data := by
  intro rects
  induction rects with
  | nil =>
    intro k jobs r _ h
    cases h
    exact ⟨rfl, fun job hj => nomatch hj⟩
  | cons rect rects ih =>
    intro k jobs r hk h
    obtain ⟨k', rest, hle, hk', hscan, hrest, rfl⟩ :=
      scanTiles_cons hk h
    obtain ⟨hrects, hall⟩ := ih hk' hrest
    refine ⟨by rw [List.map_cons, hrects], fun job hjob => ?_⟩
    rcases List.mem_cons.mp hjob with rfl | hjob
    · constructor
      · show k + (k' - k) ≤ data.length
        omega
      · have htake := (local_scanZrleTile compactBytes rect.width
          rect.height).run_take hscan
        rwa [take_drop_length hle hk'] at htake
    · exact hall job hjob

/-- What `buildZrleTileJobs` accepts. -/
theorem buildZrleTileJobs_scanned {reserved : Bool} {width height : Nat}
    {jobs : List ZrleTileJob}
    (h : buildZrleTileJobs reserved width height compactBytes data
      = .ok jobs) :
    scanTiles compactBytes data.length (tileRects width height) data
        = .ok (jobs, [])
      ∧ jobs.map (·.rect) = tileRects width height
      ∧ ∀ job ∈ jobs, job.Scanned compactBytes data := by
  unfold buildZrleTileJobs at h
  split at h
  · cases h
  split at h
  · cases h
  split at h
  · cases h
  · rename_i jobs' reader hscan
    split at h
    · cases h
    · rename_i hempty
      cases h
      have hnil : reader = [] := by
        by_contra hne
        exact hempty (fun h0 => hne (List.length_eq_zero_iff.mp h0))
      subst hnil
      exact ⟨hscan, scanTiles_scanned (Nat.zero_le _) hscan⟩

/-- A packed tile the scanner consumed whole fails only on an index. -/
private theorem decode_packed (hvalid : format.validPixelFormat = true)
    (hsize : TileSize tileWidth tileHeight) {reader : Bytes}
    (hpacked : IsPacked subencoding)
    (hscan : Leaves (scanZrleTile format.compactPixelBytes tileWidth
      tileHeight) (subencoding :: reader) []) :
    Leaves (decodeZrleTile (.new format blueFirst) tileWidth tileHeight)
        (subencoding :: reader) []
      ∨ decodeZrleTile (.new format blueFirst) tileWidth tileHeight
        (subencoding :: reader)
        = .error "VNC ZRLE packed palette index is out of range" := by
  have hscan : Leaves (scanPackedPalette format.compactPixelBytes
      tileWidth tileHeight subencoding.toNat) reader [] := by
    rw [← scanSubencoding_packed _ _ _ hpacked]
    unfold Leaves
    rw [← scanZrleTile_cons]
    exact hscan
  obtain ⟨hlen, hrows, hend⟩ := (scanPackedPalette_leaves hvalid
    hsize.width_pos hsize.count_le
    (UInt8.le_iff_toNat_le.mp hpacked.2)).mp hscan
  obtain ⟨palette, hpal⟩ := (palette_ok hvalid).mpr ⟨hlen, rfl⟩
  unfold Leaves
  rw [decodeZrleTile_cons, decodeSubencoding_packed _ _ _ hpacked]
  unfold decodePackedPalette
  rw [Parser.bind_of_ok hpal, ← length_palette hvalid hpal]
  rw [← length_palette hvalid hpal] at hrows hend
  cases hrow : Parser.times (Parser.block
      (packedRowBytes tileWidth palette.length)
      "VNC ZRLE packed palette indexes are truncated"
      (decodePackedRow tileWidth palette)) tileHeight
      (reader.drop (palette.length * format.compactPixelBytes)) with
  | ok x =>
    obtain ⟨rows, m⟩ := x
    obtain ⟨-, hm, -⟩ := Parser.times_block_ok.mp hrow
    rw [← hend] at hm
    subst hm
    exact .inl ⟨rows.flatten, Parser.bind_of_ok hrow⟩
  | error e =>
    obtain ⟨b, hb⟩ := Parser.times_block_error hrows hrow
    rw [Parser.bind_of_error hrow, decodePackedRow_error hb]
    exact .inr rfl

/-- A tile decoder given a scanned range reads it to the end, unless a
packed index is outside the palette. -/
theorem ZrleTileJob.Scanned.decode (hvalid : format.validPixelFormat = true)
    {job : ZrleTileJob} (hjob : job.Scanned format.compactPixelBytes data)
    (hsize : TileSize job.rect.width job.rect.height) :
    (∃ tile, decodeZrleTile (.new format blueFirst) job.rect.width
        job.rect.height (job.range data) = .ok (tile, []))
      ∨ decodeZrleTile (.new format blueFirst) job.rect.width
        job.rect.height (job.range data)
        = .error "VNC ZRLE packed palette index is out of range" := by
  have hscan : Leaves (scanZrleTile format.compactPixelBytes
    job.rect.width job.rect.height) (job.range data) [] :=
    ⟨(), hjob.scan⟩
  generalize job.range data = bytes at hscan ⊢
  cases bytes with
  | nil =>
    obtain ⟨_, h⟩ := hscan
    cases h
  | cons subencoding reader =>
    by_cases hpacked : IsPacked subencoding
    · exact decode_packed hvalid hsize hpacked hscan
    · exact .inl (((lockstep_subencoding hvalid hsize
        hpacked).leaves_iff reader []).mpr hscan)

-- =============================== agreement

/-- The two passes agree. On a tile of any size a rectangle has,
decoding consumes exactly `n` bytes if and only if scanning does and
every palette index met is below the palette size. And for every job of
an accepted rectangle, a tile decoder given the scanned range never
leaves bytes over and never runs short: all it can report is a packed
index outside the palette. -/
theorem zrle_passes_agree (format : PixelFormat) (blueFirst : Bool)
    (hvalid : format.validPixelFormat = true) :
    (∀ tileWidth tileHeight, TileSize tileWidth tileHeight →
      ∀ bytes n,
        Consumes (decodeZrleTile (.new format blueFirst) tileWidth
            tileHeight) bytes n
          ↔ Consumes (scanZrleTile format.compactPixelBytes tileWidth
              tileHeight) bytes n
            ∧ IndicesInPalette format.compactPixelBytes tileWidth
              tileHeight bytes)
    ∧ ∀ reserved width height data jobs,
        buildZrleTileJobs reserved width height format.compactPixelBytes
          data = .ok jobs →
        ∀ job ∈ jobs,
          job.offset + job.size ≤ data.length
          ∧ (∀ tile r, decodeZrleTile (.new format blueFirst)
              job.rect.width job.rect.height (job.range data)
              = .ok (tile, r) → r = [])
          ∧ (∀ e, decodeZrleTile (.new format blueFirst)
              job.rect.width job.rect.height (job.range data)
              = .error e →
            e = "VNC ZRLE packed palette index is out of range")
          ∧ (IndicesInPalette format.compactPixelBytes job.rect.width
              job.rect.height (job.range data) →
            ∃ tile, decodeZrleTile (.new format blueFirst)
              job.rect.width job.rect.height (job.range data)
              = .ok (tile, [])) := by
  refine ⟨fun tileWidth tileHeight hsize bytes n =>
    consumes_decode_iff hvalid hsize bytes n, ?_⟩
  intro reserved width height data jobs hjobs job hjob
  obtain ⟨-, hrects, hall⟩ := buildZrleTileJobs_scanned hjobs
  have hscanned := hall job hjob
  have hmem : job.rect ∈ tileRects width height := by
    rw [← hrects]
    exact List.mem_map_of_mem hjob
  have hsize := tileSize_of_mem hmem
  refine ⟨hscanned.inside, ?_, ?_, fun hindex =>
    (decodeZrleTile_leaves hvalid hsize).mpr
      ⟨⟨(), hscanned.scan⟩, hindex⟩⟩
  · intro tile r h
    rcases hscanned.decode hvalid hsize with ⟨tile', h'⟩ | h'
    · rw [h] at h'
      cases h'
      rfl
    · rw [h] at h'
      cases h'
  · intro e h
    rcases hscanned.decode hvalid hsize with ⟨tile', h'⟩ | h'
    · rw [h] at h'
      cases h'
    · rw [h] at h'
      cases h'
      rfl

/-- A two-pixel tile of a packed palette of two colours. -/
theorem zrle_passes_agree_packed :
    Consumes (decodeZrleTile (.new {} false) 2 1)
      [2, 0, 0, 255, 255, 0, 0, 0x40] 8 :=
  ((zrle_passes_agree {} false (by decide)).1 2 1
    ⟨by decide, by decide, by decide, by decide⟩ _ 8).mpr
    ⟨⟨by decide, (), rfl⟩,
      show ∀ index ∈ packedIndices 2 1 2 [0x40], index < 2 by decide⟩

end RemoteDesk.Vnc
